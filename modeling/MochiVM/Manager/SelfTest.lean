import MochiVM.Manager.LossySplit

/-!
# The self-test's verdict (manager/src/main.rs)

`run_self_test` looks for the hypervisor's banner in the log it has drained. The
log is both streams of the engine, in the order in which their readers sent, so
what an occurrence of the banner in it says about the serial port depends on
where stderr's chunks fall: `verdict_iff` is the exact condition under which the
verdict is about the serial stream.
-/

namespace MochiVM.SelfTest

open MochiVM.Vm MochiVM.Fat MochiVM.Runs

/-! ## The wait loop -/

/-- What the self-test waits for. -/
def marker : String := "mochivm booted"

/-- `s.contains("mochivm booted")`. -/
def HasMarker (s : String) : Prop := marker.toList <:+: s.toList

instance (s : String) : Decidable (HasMarker s) := inferInstanceAs (Decidable (_ <:+: _))

/-- The wait loop (main.rs:94), given what its calls of `drain_log` return before
the deadline: whether it passed, and the log. -/
def waitLoop : String → List String → Bool × String
  | log, [] => (false, log)
  | log, s :: rest =>
    if HasMarker (log ++ s) then (true, log ++ s) else waitLoop (log ++ s) rest

theorem HasMarker.append {s : String} (h : HasMarker s) (t : String) : HasMarker (s ++ t) := by
  obtain ⟨pre, post, heq⟩ := h
  exact ⟨pre, post ++ t.toList, by rw [String.toList_append, ← heq, ← List.append_assoc]⟩

/-- Stopping early does not change what is found. -/
theorem waitLoop_hasMarker (log : String) (drained : List String) :
    HasMarker (waitLoop log drained).2 ↔ HasMarker (log ++ String.join drained) := by
  induction drained generalizing log with
  | nil => rw [waitLoop, String.join_nil, String.append_empty]
  | cons s rest ih =>
    rw [waitLoop, String.join_cons, ← String.append_assoc]
    by_cases hs : HasMarker (log ++ s)
    · rw [if_pos hs]
      exact ⟨fun _ => hs.append _, fun _ => hs⟩
    · rw [if_neg hs, ih]

/-- The loop passes when the log it has accumulated has the marker. -/
theorem waitLoop_passed {log : String} (hlog : ¬ HasMarker log) (drained : List String) :
    (waitLoop log drained).1 = true ↔ HasMarker (waitLoop log drained).2 := by
  induction drained generalizing log with
  | nil => exact ⟨fun h => absurd h Bool.false_ne_true, fun h => absurd h hlog⟩
  | cons s rest ih =>
    rw [waitLoop]
    by_cases hs : HasMarker (log ++ s)
    · rw [if_pos hs]
      exact ⟨fun _ => hs, fun _ => rfl⟩
    · rw [if_neg hs]
      exact ih hs

/-! ## Two streams in one log -/

/-- The log of a self-test whose calls of `drain_log` got these chunks. -/
def selfTestLog (drains : List (List Chunk)) : String := (waitLoop "" (drains.map joined)).2

/-- What the engine wrote to stdout, the serial port. -/
def serialText (drains : List (List Chunk)) : String :=
  joined (drains.flatten.filter fun c => decide (c.stream = .stdout))

/-- The verdict is about the serial stream. -/
def VerdictRight (drains : List (List Chunk)) : Prop :=
  HasMarker (selfTestLog drains) ↔ HasMarker (serialText drains)

/-- The characters of a chunk, each with its stream. -/
def tagged (c : Chunk) : List (Stream × Char) := c.text.toList.map fun ch => (c.stream, ch)

/-- A stretch of the drained text. -/
def Stretch (drains : List (List Chunk)) (l : List (Stream × Char)) : Prop :=
  l <:+: drains.flatten.flatMap tagged

/-- The stdout characters of a stretch. -/
def serialPart (l : List (Stream × Char)) : List (Stream × Char) :=
  l.filter fun x => decide (x.1 = .stdout)

def Spells (l : List (Stream × Char)) : Prop := l.map Prod.snd = marker.toList

/-- A stretch of stdout text alone spells the marker. -/
def Unbroken (drains : List (List Chunk)) : Prop :=
  ∃ l, Stretch drains l ∧ Spells l ∧ ∀ x ∈ l, x.1 = .stdout

/-- The stdout characters of a stretch spell it, but stderr text was sent among
them. -/
def Broken (drains : List (List Chunk)) : Prop :=
  ∃ l, Stretch drains l ∧ Spells (serialPart l) ∧ ∃ x ∈ l, x.1 = .stderr

/-- A stretch spells it with the help of stderr text. -/
def Mixed (drains : List (List Chunk)) : Prop :=
  ∃ l, Stretch drains l ∧ Spells l ∧ ∃ x ∈ l, x.1 = .stderr

theorem joined_eq (l : List Chunk) : joined l = String.join (l.map Chunk.text) := by
  rw [String.join_eq_foldl, List.foldl_map]
  rfl

theorem joined_toList (l : List Chunk) : (joined l).toList = (l.flatMap tagged).map Prod.snd := by
  have htagged : ∀ c : Chunk, (tagged c).map Prod.snd = c.text.toList := by
    intro c
    rw [tagged, List.map_map]
    exact List.map_id _
  rw [joined_eq, String.toList_join, List.flatMap_map, List.map_flatMap]
  simp only [htagged]

/-- All that was drained. -/
theorem join_drains (drains : List (List Chunk)) :
    (String.join (drains.map joined)).toList = (drains.flatten.flatMap tagged).map Prod.snd := by
  induction drains with
  | nil => rfl
  | cons l drains ih =>
    rw [List.map_cons, String.join_cons, String.toList_append, ih, joined_toList, List.flatten_cons,
      List.flatMap_append, List.map_append]

theorem serialPart_eq_self {l : List (Stream × Char)} (h : ∀ x ∈ l, x.1 = .stdout) :
    serialPart l = l :=
  List.filter_eq_self.mpr fun x hx => decide_eq_true (h x hx)

theorem serialText_toList (drains : List (List Chunk)) :
    (serialText drains).toList = (serialPart (drains.flatten.flatMap tagged)).map Prod.snd := by
  have hchunk : ∀ c : Chunk, serialPart (tagged c) =
      if c.stream = .stdout then tagged c else [] := by
    intro c
    by_cases h : c.stream = .stdout
    · rw [if_pos h]
      apply serialPart_eq_self
      intro x hx
      obtain ⟨ch, _, rfl⟩ := List.mem_map.mp hx
      exact h
    · rw [if_neg h, serialPart, List.filter_eq_nil_iff]
      intro x hx
      obtain ⟨ch, _, rfl⟩ := List.mem_map.mp hx
      simpa using h
  rw [serialText, joined_toList]
  congr 1
  induction drains.flatten with
  | nil => rfl
  | cons c l ih =>
    rw [List.flatMap_cons, serialPart, List.filter_append, ← serialPart, ← serialPart, hchunk,
      List.filter_cons, ← ih]
    by_cases h : c.stream = .stdout <;> simp [h]

/-- A stretch is stdout text alone, or has stderr text in it. -/
theorem stdout_or_stderr (l : List (Stream × Char)) :
    (∀ x ∈ l, x.1 = .stdout) ∨ ∃ x ∈ l, x.1 = .stderr := by
  by_cases hall : ∀ x ∈ l, x.1 = .stdout
  · exact .inl hall
  · push Not at hall
    obtain ⟨x, hx, hne⟩ := hall
    refine .inr ⟨x, hx, ?_⟩
    cases h : x.1 with
    | stdout => exact absurd h hne
    | stderr => rfl

/-- The log has the marker where stdout alone spells it, or with stderr's help. -/
theorem hasMarker_log_iff (drains : List (List Chunk)) :
    HasMarker (selfTestLog drains) ↔ Unbroken drains ∨ Mixed drains := by
  rw [selfTestLog, waitLoop_hasMarker, String.empty_append, HasMarker, join_drains,
    List.infix_map_iff]
  constructor
  · rintro ⟨l, hin, hspell⟩
    rcases stdout_or_stderr l with hpure | hmixed
    · exact .inl ⟨l, hin, hspell.symm, hpure⟩
    · exact .inr ⟨l, hin, hspell.symm, hmixed⟩
  · rintro (⟨l, hin, hspell, _⟩ | ⟨l, hin, hspell, _⟩)
    · exact ⟨l, hin, hspell.symm⟩
    · exact ⟨l, hin, hspell.symm⟩

/-- The serial text has it where stdout alone spells it, or with stderr text sent
among its characters. -/
theorem hasMarker_serial_iff (drains : List (List Chunk)) :
    HasMarker (serialText drains) ↔ Unbroken drains ∨ Broken drains := by
  rw [HasMarker, serialText_toList, List.infix_map_iff]
  constructor
  · rintro ⟨kept, hkept, hspell⟩
    obtain ⟨l, hin, rfl⟩ := List.infix_filter_iff.mp hkept
    rcases stdout_or_stderr l with hpure | hbroken
    · rw [← serialPart, serialPart_eq_self hpure] at hspell
      exact .inl ⟨l, hin, hspell.symm, hpure⟩
    · exact .inr ⟨l, hin, hspell.symm, hbroken⟩
  · rintro (⟨l, hin, hspell, hpure⟩ | ⟨l, hin, hspell, _⟩)
    · refine ⟨l, ?_, hspell.symm⟩
      rw [← serialPart_eq_self hpure]
      exact hin.filter _
    · exact ⟨serialPart l, hin.filter _, hspell.symm⟩

/-- stderr that stays silent never comes into it. -/
theorem verdictRight_of_silent {drains : List (List Chunk)}
    (h : ∀ c ∈ drains.flatten, c.stream = .stderr → c.text = "") : VerdictRight drains := by
  have hpure : ∀ x ∈ drains.flatten.flatMap tagged, x.1 = .stdout := by
    intro x hx
    obtain ⟨c, hc, hx⟩ := List.mem_flatMap.mp hx
    obtain ⟨ch, hch, rfl⟩ := List.mem_map.mp hx
    cases hst : c.stream with
    | stdout => rfl
    | stderr =>
      rw [h c hc hst] at hch
      cases hch
  rw [VerdictRight, selfTestLog, waitLoop_hasMarker, String.empty_append, HasMarker, HasMarker,
    join_drains, serialText_toList, serialPart_eq_self hpure]

/-- **The verdict** is about the serial stream alone exactly when stdout alone
spells the marker somewhere, or stderr text breaks the marker up if and only if
it helps to spell another. -/
theorem verdict_iff (drains : List (List Chunk)) :
    VerdictRight drains ↔ Unbroken drains ∨ (Broken drains ↔ Mixed drains) := by
  rw [VerdictRight, hasMarker_log_iff, hasMarker_serial_iff]
  by_cases h : Unbroken drains
  · simp only [h, true_or]
  · simp only [h, false_or]
    exact iff_comm

/-- A warning on stderr between the two halves of the banner. -/
theorem not_verdictRight_warning : ¬ VerdictRight
    [[⟨0, .stdout, "mochivm boo"⟩, ⟨0, .stderr, "warning"⟩, ⟨0, .stdout, "ted"⟩]] := by
  rw [VerdictRight, selfTestLog, waitLoop_hasMarker, String.empty_append, HasMarker, HasMarker,
    join_drains, serialText_toList]
  simp only [tagged, marker, List.flatten_cons, List.flatten_nil, List.append_nil,
    List.flatMap_cons, List.flatMap_nil, String.reduceToList]
  decide

/-! ## The drains of a run -/

/-- What the calls of `drain_log` got, each call's chunks. -/
def drainsOf (s : Sys) : List (List Chunk) := s.returned.map fun r => r.drain.got

theorem drainedOf_only {l : List Drained} {g : Nat}
    (h : ∀ r ∈ l, ∀ c ∈ r.drain.got, r.engine = some g) :
    drainedOf l g = (l.map fun r => r.drain.got).flatten := by
  induction l with
  | nil => rfl
  | cons r l ih =>
    rw [List.map_cons, List.flatten_cons, ← ih fun r' hr' => h r' (List.mem_cons_of_mem r hr')]
    by_cases hr : r.engine = some g
    · simp [drainedOf, hr]
    · have hgot : r.drain.got = [] := List.eq_nil_iff_forall_not_mem.mpr fun c hc =>
        hr (h r List.mem_cons_self c hc)
      simp [drainedOf, hr, hgot]

/-- **The self-test in a run** that started one engine: the log is made of the
strings that `drain_log` returned, and the serial text is what it got of the
engine's stdout. -/
theorem selfTest_run {hst : Host} {runDir : String} {files : Files} {ls : List Label} {s : Sys}
    (hrun : run (step hst) (Sys.new runDir files) ls = some s) (hone : s.engines.length = 1) :
    selfTestLog (drainsOf s) = (waitLoop "" (s.returned.map fun r => r.drain.out)).2 ∧
      serialText (drainsOf s) = String.join (s.delivered 0 .stdout) := by
  obtain ⟨hlogged, _⟩ := logged_takenBy_run hrun
  constructor
  · have htext : (drainsOf s).map joined = s.returned.map fun r => r.drain.out := by
      rw [drainsOf, List.map_map]
      exact List.map_congr_left fun r hr => (hlogged.returned r hr).1.symm
    rw [selfTestLog, htext]
  · have honly : ∀ r ∈ s.returned, ∀ c ∈ r.drain.got, r.engine = some 0 := by
      intro r hr c hc
      obtain ⟨_, htag, hlt⟩ := hlogged.returned r hr
      have hengine := htag c hc
      have hzero : c.engine = 0 := by
        have := hlt _ hengine
        omega
      rw [hengine, hzero]
    rw [serialText, joined_eq, Sys.delivered, drainedOf_only honly, drainsOf]

end MochiVM.SelfTest
