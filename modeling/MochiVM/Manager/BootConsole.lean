import MochiVM.Hv.Boot
import MochiVM.Manager.SelfTest
import MochiVM.Manager.SerialText

/-!
# A boot in the console

What a boot prints is ASCII, line by line, whatever numbers are in it. So it
goes through the UART, over the line and through the manager's reader to the
text that the log shows, from any boot to the end: `boot_console`.
-/

namespace MochiVM.Vm

open MochiVM.Buffer MochiVM.Hv MochiVM.Panic MochiVM.Text MochiVM.Serial MochiVM.Uart
open MochiVM.Runs MochiVM.SelfTest

/-! ## The lines are ASCII -/

theorem ascii_toString (n : Nat) : AsciiLine (toString n) := by
  intro c hc
  have hdigit := toString_isDigit n c hc
  rw [Char.isDigit, Bool.and_eq_true, decide_eq_true_eq, decide_eq_true_eq] at hdigit
  refine ⟨UInt32.lt_of_le_of_lt hdigit.2 (by decide), ?_⟩
  rintro rfl
  exact absurd hdigit.1 (by decide)

theorem ascii_hex (n : Nat) : AsciiLine (String.ofList (Nat.toDigits 16 n)) := by
  have hall : ∀ c ∈ hexDigits, c.val < 0x80 ∧ c ≠ '\n' := by simp [hexDigits]
  intro c hc
  rw [String.toList_ofList] at hc
  exact hall c (toDigits_mem (by decide) (by decide) n c hc)

/-- A line of the hypervisor: ASCII text behind its tag. -/
def Tagged (l : String) : Prop := AsciiLine l ∧ "[mochivm]".toList <+: l.toList

theorem Tagged.append {l l' : String} (h : Tagged l) (h' : AsciiLine l') : Tagged (l ++ l') := by
  refine ⟨h.1.append h', ?_⟩
  rw [String.toList_append]
  exact h.2.trans (List.prefix_append _ _)

theorem Tagged.contains {l : String} (h : Tagged l) : Contains l "[mochivm]" := h.2.isInfix

theorem tagged_banner : ∀ line ∈ bannerLines ++ ["[mochivm] probing for vmx...",
    "[mochivm] vmcs ready", "[mochivm] launching guest..."], Tagged line := by
  simp [bannerLines, Tagged, AsciiLine]

theorem ascii_error {stop : SetupStop} {systemTable : BitVec 64} {e : String}
    (h : stop.error systemTable = some e) : AsciiLine e := by
  cases stop <;> simp only [SetupStop.error] at h
  case noVmxonPage =>
    obtain rfl := Option.some.inj h
    split <;> simp [AsciiLine]
  case vmwriteRejected | done => cases h
  all_goals
    obtain rfl := Option.some.inj h
    simp [AsciiLine]

theorem tagged_initError {env : Env} {s : Machine} {line : String}
    (h : initError env s = some line) : Tagged line := by
  rw [initError] at h
  split at h
  · obtain rfl := Option.some.inj h
    simp [Tagged, AsciiLine]
  · split at h
    · obtain rfl := Option.some.inj h
      simp [Tagged, AsciiLine]
    · obtain ⟨e, he, rfl⟩ := Option.map_eq_some_iff.mp h
      have hbefore : Tagged "[mochivm] error: vmcs setup: " := by simp [Tagged, AsciiLine]
      exact hbefore.append (ascii_error he)

theorem tagged_panic {w msg : String} (hw : w ∈ vmwriteMessages) (hmsg : msg = s!"{w}: ()") :
    Tagged s!"[mochivm] PANIC: {msg}" := by
  subst hmsg
  have hall : ∀ w ∈ vmwriteMessages, AsciiLine w := by simp [vmwriteMessages, AsciiLine]
  have hbefore : Tagged "[mochivm] PANIC: " := by simp [Tagged, AsciiLine]
  have hafter : AsciiLine ": ()" := by simp [AsciiLine]
  exact hbefore.append ((hall w hw).append hafter)

theorem tagged_unexpected (reason qual : BitVec 64) : Tagged (unexpectedLine reason qual) := by
  have hbefore : Tagged "[mochivm] unexpected exit reason " := by simp [Tagged, AsciiLine]
  have hbetween : AsciiLine " qual 0x" := by simp [AsciiLine]
  have hafter : AsciiLine ", stopping" := by simp [AsciiLine]
  exact (((hbefore.append (ascii_toString _)).append hbetween).append (ascii_hex _)).append hafter

theorem tagged_hlt (n : Nat) (stops : Bool) : ∀ line ∈ hltLines n stops, Tagged line := by
  have hhlt : Tagged "[mochivm] guest hlt #" := by simp [Tagged, AsciiLine]
  have hhalted : Tagged "[mochivm] guest halted " := by simp [Tagged, AsciiLine]
  have htimes : AsciiLine " times, vmxoff" := by simp [AsciiLine]
  intro line hline
  rw [hltLines] at hline
  rcases List.mem_cons.mp hline with rfl | hline
  · exact hhlt.append (ascii_toString n)
  · split at hline
    · obtain rfl := List.mem_singleton.mp hline
      exact (hhalted.append (ascii_toString n)).append htimes
    · cases hline

theorem tagged_exits (es : List Exit) (hlts : Nat) :
    ∀ line ∈ perExit (fun hlts e => e.lines hlts) hlts es, Tagged line := by
  induction es generalizing hlts with
  | nil => exact fun line hline => absurd hline List.not_mem_nil
  | cons e es ih =>
    intro line hline
    rcases List.mem_append.mp hline with hline | hline
    · change line ∈ e.lines hlts at hline
      rw [Exit.lines] at hline
      split at hline
      · exact tagged_hlt _ _ line hline
      · obtain rfl := List.mem_singleton.mp hline
        exact tagged_unexpected _ _
    · exact ih _ line hline

/-- **Everything a boot prints** is ASCII, and has the hypervisor's tag. -/
theorem tagged_bootLines {env : Env} {s : Machine} {vmcs : Addr} {stage : Stage}
    (h : stage.Follows env s vmcs) : ∀ line ∈ bootLines env s stage, Tagged line := by
  have hbanner := tagged_banner
  simp only [List.mem_append, List.mem_cons, List.not_mem_nil, or_false] at hbanner
  intro line hline
  simp only [bootLines, List.mem_append, List.mem_cons, Option.mem_toList] at hline
  rcases hline with hline | (rfl | hline) | hline
  · exact hbanner line (.inl hline)
  · exact hbanner _ (.inr (.inl rfl))
  · exact tagged_initError hline
  · cases stage with
    | firmware => cases hline
    | panicked msg =>
      obtain ⟨-, -, w, hw, hmsg⟩ := h
      obtain rfl := List.mem_singleton.mp hline
      exact tagged_panic hw hmsg
    | refused =>
      simp only [Stage.lines, List.mem_cons, List.not_mem_nil, or_false] at hline
      exact hbanner line (.inr (.inr hline))
    | guest es mode =>
      simp only [Stage.lines, List.mem_append, List.mem_cons, List.not_mem_nil, or_false] at hline
      rcases hline with hline | hline
      · exact hbanner line (.inr (.inr hline))
      · exact tagged_exits es 0 line hline

/-- The lines of a boot, of which the banner is the first. -/
theorem boot_serial {env : Env} {systemTable : BitVec 64} {s t : Machine} {stage : Stage}
    (hs : Fresh s) (hserial : s.serial = []) (hboot : Boot env systemTable s stage t) :
    (∀ l ∈ t.serial, Tagged l) ∧ t.serial.head? = some "[mochivm] mochivm booted" := by
  have hdid := hboot.did hs
  obtain ⟨vmcs, -, hfollows, -⟩ := hdid.trace
  have hlines := hdid.serial
  rw [hserial, List.nil_append] at hlines
  rw [hlines]
  exact ⟨tagged_bootLines hfollows, rfl⟩

/-! ## From the boot to the log -/

/-- What was drained of an engine with nothing on stderr is its serial output. -/
theorem joined_silent {s : Sys} {g : Nat} (hsilent : s.delivered g .stderr = []) :
    joined (drainedOf s.returned g) = String.join (s.delivered g .stdout) := by
  have hstdout : ∀ c ∈ drainedOf s.returned g, decide (c.stream = .stdout) = true := by
    intro c hc
    cases hst : c.stream with
    | stdout => rfl
    | stderr =>
      have hmem : c.text ∈ s.delivered g .stderr :=
        List.mem_map_of_mem (List.mem_filter.mpr ⟨hc, decide_eq_true hst⟩)
      rw [hsilent] at hmem
      cases hmem
  rw [Sys.delivered, List.filter_eq_self.mpr hstdout, joined_eq]

theorem terminated_newline {ls : List String} (hne : ls ≠ []) (before : String) :
    (before ++ terminated ls).toList.getLast? = some '\n' := by
  obtain ⟨ls, l, rfl⟩ := (List.eq_nil_or_concat ls).resolve_left hne
  have hsplit : before ++ terminated (ls ++ [l]) =
      (before ++ terminated ls ++ l ++ "\r") ++ "\n" := by
    simp only [terminated, List.map_append, List.map_singleton, String.join_append,
      String.join_cons, String.join_nil, String.append_empty, String.append_assoc]
    rfl
  rw [List.concat_eq_append, hsplit, String.toList_append]
  exact List.getLast?_concat ..

theorem terminated_marker {ls : List String} (h : "[mochivm] mochivm booted" ∈ ls) :
    HasMarker (terminated ls) := by
  obtain ⟨before, after, rfl⟩ := List.append_of_mem h
  have hsplit : terminated (before ++ "[mochivm] mochivm booted" :: after) =
      (terminated before ++ "[mochivm] ") ++ marker ++ ("\r\n" ++ terminated after) := by
    have hline : "[mochivm] mochivm booted" = "[mochivm] " ++ marker := by decide +kernel
    rw [terminated, List.map_append, String.join_append, List.map_cons, String.join_cons, hline]
    simp only [terminated, String.append_assoc]
  rw [hsplit]
  exact Contains.append (s := marker) List.infix_rfl _ _

/-- The banner as it goes over the line. -/
def bannerBytes : Bytes := Serial.encode ["[mochivm] mochivm booted"]

theorem fromUtf8Lossy_banner :
    fromUtf8Lossy bannerBytes = terminated ["[mochivm] mochivm booted"] := by
  have hline : ∀ l ∈ ["[mochivm] mochivm booted"], '\n' ∉ l.toList := by simp
  rw [bannerBytes, encode_eq hline, fromUtf8Lossy_utf8]

/-- **From the boot to the log**: whatever the firmware left in the UART, under
every fair schedule of the driver and the device, and wherever the reads cut,
what the manager decodes ends up being what it decodes of the firmware's bytes
and then the boot's lines. In particular the banner is in it. -/
theorem boot_console {env : Env} {systemTable : BitVec 64} {s t : Machine} {stage : Stage}
    (hs : Fresh s) (hserial : s.serial = []) (hboot : Boot env systemTable s stage t)
    {u₀ : Device} {pieces : List (List String)} (hpieces : pieces.map String.join = t.serial)
    {sched : Nat → Serial.Label} (hfair : ∀ k, FairTo Serial.Label.proc sched k) :
    ∃ n, ∀ m, n ≤ m → ∀ reads : List Bytes,
      reads.flatten = (after Serial.step sched (booting u₀ pieces) m).uart.sent →
      HasMarker (decodedReads reads) ∧
      ∃ (stale : Bytes) (ps : List Bytes), stale.Sublist u₀.pending ∧
        ps.flatten = u₀.sent ++ stale ∧
        decodedReads reads = decodedReads ps ++ terminated t.serial ∧
        (u₀.sent ++ stale = [] ∨ (u₀.sent ++ stale).getLast? = some 0x0A →
          Vm.lines (decodedReads reads) = Vm.lines (decodedReads ps) ++ t.serial) := by
  obtain ⟨htagged, hfirst⟩ := boot_serial hs hserial hboot
  have hascii : ∀ l ∈ t.serial, AsciiLine l := fun l hl => (htagged l hl).1
  obtain ⟨n, hidle⟩ := @booting_drains u₀ pieces sched hfair
  refine ⟨n, fun m hm reads hreads => ?_⟩
  obtain ⟨ls, hrun⟩ := after_run Serial.step sched (booting u₀ pieces) n
  rw [hidle.after m hm] at hreads
  obtain ⟨-, hpending, stale, hcarries⟩ := hidle.delivered hrun
  -- nothing is under way, so that all of it is on the line
  have hsent := hcarries.out
  rw [Device.out, hpending, List.append_nil, ← hreads, hpieces] at hsent
  obtain ⟨ps, hps, htext⟩ := decodedReads_encode hascii hsent
  refine ⟨?_, stale, ps, hcarries.leftover, hps, htext, fun hend => ?_⟩
  · have hbanner : "[mochivm] mochivm booted" ∈ t.serial := List.mem_of_mem_head? hfirst
    have hmarker := Contains.append (terminated_marker hbanner) (decodedReads ps) ""
    rw [String.append_empty, ← htext] at hmarker
    exact hmarker
  · rw [htext]
    rw [← hps] at hend
    exact lines_append_terminated hascii hend

/-- Five HLTs, from the UART that the firmware left busy. -/
theorem boot_console_fiveHlts : ∃ (t : Machine) (n : Nat), ∀ m, n ≤ m → ∀ reads : List Bytes,
    reads.flatten = (after Serial.step roundRobin
      (booting busyUart (t.serial.map fun l => [l])) m).uart.sent →
    HasMarker (decodedReads reads) ∧
    ∃ (stale : Bytes) (ps : List Bytes), stale.Sublist busyUart.pending ∧
      ps.flatten = busyUart.sent ++ stale ∧
      decodedReads reads = decodedReads ps ++ terminated t.serial ∧
      (busyUart.sent ++ stale = [] ∨ (busyUart.sent ++ stale).getLast? = some 0x0A →
        Vm.lines (decodedReads reads) = Vm.lines (decodedReads ps) ++ t.serial) := by
  obtain ⟨mode, t, hboot⟩ := boot_fiveHlts
  have hpieces : (t.serial.map fun l => [l]).map String.join = t.serial := by
    rw [List.map_map]
    exact List.map_id'' (fun l => String.empty_append) _
  exact ⟨t, boot_console bootMachine_fresh rfl hboot hpieces roundRobin_fair⟩

end MochiVM.Vm
