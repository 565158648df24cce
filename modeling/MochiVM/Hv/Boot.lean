import MochiVM.Hv.Effects
import MochiVM.Lib.Text

/-!
# A whole boot (main.rs, hv.rs)

A boot is `efi_main`, then the panic handler if it panicked, or the exits of the
guest if it launched one. `Boot.did` says of every boot what it prints and which
VMX instructions it executes, in their order, whatever the firmware and the
processor answer and whatever the guest does.

`smoke_iff` is what the smoke test looks for.
-/

namespace MochiVM.Hv

open MochiVM.Panic MochiVM.Runs MochiVM.Text

/-! ## Boots -/

/-- Where a boot has come to. -/
inductive Stage where
  /-- `efi_main` returned to the firmware. -/
  | firmware
  /-- It panicked, and the panic handler halts. -/
  | panicked (msg : String)
  /-- VMLAUNCH failed, and `enter_guest` halts. -/
  | refused
  /-- The guest was launched and has taken these exits. -/
  | guest (es : List Exit) (mode : Mode)

/-- A boot of the machine `s`, up to a stage. -/
inductive Boot (env : Env) (systemTable : BitVec 64) (s : Machine) : Stage → Machine → Prop where
  | returned {v : BitVec 64} {t : Machine} :
      Returns (efiMain env systemTable) s v t → Boot env systemTable s .firmware t
  | panicked {msg : String} {t u : Machine} :
      Aborts (efiMain env systemTable) s (.panic msg) t →
      Aborts (panicHandler env msg) t .halted u → Boot env systemTable s (.panicked msg) u
  | refused {t : Machine} :
      Aborts (efiMain env systemTable) s .halted t → Boot env systemTable s .refused t
  | guest {t : Machine} {es : List Exit} {u : LoopState} :
      Aborts (efiMain env systemTable) s .launched t →
      run (exitStep env) (.start t) es = some u →
      Boot env systemTable s (.guest es u.mode) u.machine

/-- The machine `init` is entered with. -/
def Machine.booted (s : Machine) (systemTable : BitVec 64) : Machine :=
  ((s.setSt { s.st with systemTable := systemTable }).printed "[mochivm] mochivm booted").printed
    "[mochivm] from-scratch type-2 hypervisor skeleton (vmx/vmcs + hello-world guest)"

theorem ends_efiMain {env : Env} {systemTable : BitVec 64} {s : Machine}
    {Q : BitVec 64 → Machine → Prop} {E : Abort → Machine → Prop} :
    Ends (efiMain env systemTable) s Q E ↔
      Ends (init env) (s.booted systemTable) (fun _ t => Q 0 t) E := by
  rw [efiMain, ends_bind, ends_setStatics, ends_bind, ends_serialPrintln, ends_bind,
    ends_serialPrintln, ends_bind]
  exact Iff.rfl

theorem Fresh.booted {s : Machine} (hs : Fresh s) (systemTable : BitVec 64) :
    Fresh (s.booted systemTable) :=
  ⟨hs.outside, hs.noneActive, hs.vmxe, hs.inactive, hs.region, hs.exitCount, hs.allocs, hs.trace⟩

/-! ## What it prints -/

/-- The first two lines. -/
def bannerLines : List String :=
  ["[mochivm] mochivm booted",
   "[mochivm] from-scratch type-2 hypervisor skeleton (vmx/vmcs + hello-world guest)"]

/-- The error line of `init`, if it gets no further than an error. -/
def initError (env : Env) (s : Machine) : Option String :=
  if !supported env then some "[mochivm] error: vmx not supported by this cpu"
  else if !featureOk (s.regs.msr ia32FeatureControl) then
    some "[mochivm] error: feature control: vmx locked and disabled by firmware"
  else ((setupStop env s).error s.st.systemTable).map fun e => s!"[mochivm] error: vmcs setup: {e}"

/-- What is collected from exit to exit, given the HLT exits so far. -/
def perExit {α : Type} (f : Nat → Exit → List α) : Nat → List Exit → List α
  | _, [] => []
  | hlts, e :: es => f hlts e ++ perExit f (hlts + if e.isHlt then 1 else 0) es

theorem perExit_concat {α : Type} (f : Nat → Exit → List α) (hlts : Nat) (es : List Exit)
    (e : Exit) : perExit f hlts (es ++ [e]) = perExit f hlts es ++ f (hlts + hltCount es) e := by
  induction es generalizing hlts with
  | nil => exact List.append_nil _
  | cons e' es ih =>
    have hcount : hltCount (e' :: es) = (if e'.isHlt then 1 else 0) + hltCount es := by
      rw [hltCount, List.countP_cons, Nat.add_comm]
      rfl
    rw [List.cons_append, perExit, ih, perExit, List.append_assoc, hcount, Nat.add_assoc]

/-- The lines of the exits. -/
def exitLines (es : List Exit) : List String := perExit (fun hlts e => e.lines hlts) 0 es

/-- The lines from `setup` on. -/
def Stage.lines : Stage → List String
  | .firmware => []
  | .panicked msg => [s!"[mochivm] PANIC: {msg}"]
  | .refused => ["[mochivm] vmcs ready", "[mochivm] launching guest..."]
  | .guest es _ => ["[mochivm] vmcs ready", "[mochivm] launching guest..."] ++ exitLines es

/-- **The lines of a boot.** -/
def bootLines (env : Env) (s : Machine) (stage : Stage) : List String :=
  bannerLines ++ ("[mochivm] probing for vmx..." :: (initError env s).toList ++ stage.lines)

/-! ## What it executes -/

/-- The VMX instructions of an exit. -/
def Exit.insns (region : Addr) (hlts : Nat) (e : Exit) : List VmxInsn :=
  e.lookInsns ++ if e.stops hlts then [.vmclear region, .vmxoff] else [.vmresume]

/-- The VMX instructions from `setup` on, the VMCS being `region`. A panic is
raised with `VMX_ACTIVE` clear, so that the handler's shutdown executes none. -/
def Stage.insns (region : Addr) : Stage → List VmxInsn
  | .firmware | .panicked _ => []
  | .refused => [.vmlaunch]
  | .guest es _ => .vmlaunch :: perExit (Exit.insns region) 0 es

/-- The VMX instructions of bring-up. -/
def BringUpInsns (env : Env) (s : Machine) (insns : List VmxInsn) : Prop :=
  if reachesSetup env s then (setupStop env s).Insns env s insns else insns = []

/-- A stage that `init`, entered in `s`, can lead to, the VMCS being `vmcs`. -/
def Stage.Follows (env : Env) (s : Machine) (vmcs : Addr) : Stage → Prop
  | .firmware => (initError env s).isSome
  | .panicked msg => initError env s = none ∧
    (∃ region vmcs, setupStop env s = .vmwriteRejected region vmcs) ∧
    ∃ w ∈ vmwriteMessages, msg = s!"{w}: ()"
  | .refused => initError env s = none ∧
    (∃ region, setupStop env s = .done region vmcs) ∧ env.vmlaunchOk = false
  | .guest _ _ => initError env s = none ∧
    (∃ region, setupStop env s = .done region vmcs) ∧ env.vmlaunchOk = true

/-! ## `init` -/

section Init

variable {env : Env} {s : Machine}

theorem initError_early (h : reachesSetup env s = false) : ∃ line, initError env s = some line ∧
    ∀ (Q : PUnit → Machine → Prop) (E : Abort → Machine → Prop), Ends (init env) s Q E ↔
      Q ⟨⟩ ((s.printed "[mochivm] probing for vmx...").printed line) := by
  cases hs : supported env with
  | false =>
    refine ⟨_, by rw [initError, hs]; rfl, fun Q E => ?_⟩
    rw [init, ends_bind, ends_serialPrintln, ends_bind, ends_vmxSupported, hs]
    exact Iff.rfl
  | true =>
    have hf : featureOk (s.regs.msr ia32FeatureControl) = false := by
      simpa [reachesSetup, hs] using h
    refine ⟨_, by rw [initError, hs, hf]; rfl, fun Q E => ?_⟩
    rw [init, ends_bind, ends_serialPrintln, ends_bind, ends_vmxSupported, hs, Bool.not_true,
      if_neg Bool.false_ne_true, ends_bind, ends_featureControl]
    simp only [Machine.printed_regs]
    rw [hf, if_neg Bool.false_ne_true]
    exact Iff.rfl

theorem initError_setup (h : reachesSetup env s = true) : initError env s =
    ((setupStop env s).error s.st.systemTable).map
      fun e => s!"[mochivm] error: vmcs setup: {e}" := by
  obtain ⟨hs, hf⟩ := Bool.and_eq_true_iff.mp h
  rw [initError, hs, hf]
  rfl

/-- What `init`, entered in `s`, did up to `t`; `more` are the lines and the
instructions behind `setup`. -/
def InitDid (env : Env) (s : Machine) (lines : List String) (more : List VmxInsn) (t : Machine) :
    Prop :=
  ∃ insns, BringUpInsns env s insns ∧
    Did ("[mochivm] probing for vmx..." :: (initError env s).toList ++ lines) (insns ++ more)
      (SetupWrites env s) s t

/-- How `init` aborts, and what it did until then. -/
def InitAborted (env : Env) (s : Machine) : Abort → Machine → Prop
  | .panic msg, t => Stage.Follows env s 0 (.panicked msg) ∧ t.st.vmxActive = false ∧
    InitDid env s [] [] t
  | .launched, t => ∃ vmcs, Launched t vmcs ∧ Stage.Follows env s vmcs (.guest [] .guest) ∧
    InitDid env s (Stage.lines .refused) [.vmlaunch] t
  | .halted, t => ∃ vmcs, Stage.Follows env s vmcs .refused ∧
    InitDid env s (Stage.lines .refused) [.vmlaunch] t
  | .fault _, _ => False

/-- **What `init` does**, however it ends. -/
theorem init_did (hs : Fresh s) :
    Ends (init env) s (fun _ t => Stage.Follows env s 0 .firmware ∧ InitDid env s [] [] t)
      (InitAborted env s) := by
  cases hreach : reachesSetup env s with
  | false =>
    obtain ⟨line, herror, hline⟩ := initError_early hreach
    rw [hline]
    refine ⟨by rw [Stage.Follows, herror]; rfl, [], by rw [BringUpInsns, hreach]; rfl, ?_⟩
    rw [herror]
    exact ((Did.refl _ s).printed _).printed line
  | true =>
  have hinsns : ∀ insns, (setupStop env s).Insns env s insns → BringUpInsns env s insns :=
    fun insns h => (if_pos hreach).mpr h
  have herror := initError_setup hreach
  have hprepared : ∀ W, Did ["[mochivm] probing for vmx..."] [] W s s.prepared := fun W =>
    ((Did.refl W s).printed _).congr rfl rfl rfl
  rw [ends_init_setup hreach]
  have hspec := setup_spec env s.prepared hs.noneActive
  obtain ⟨r, t, hr, hresult, insns, hstop, hdid⟩ | ⟨e, t, he, hpanicked⟩ :=
    (setup_did env s.prepared).cases
  · rw [ends_of_returns hr] at hspec ⊢
    have hall := (hprepared _).trans hdid
    change (setupStop env s).Insns env s insns at hstop
    change r = (setupStop env s).result s.st.systemTable at hresult
    rw [SetupStop.result] at hresult
    change SetupPost s.prepared (setupStop env s) r t at hspec
    change Did _ _ (SetupWrites env s) s t at hall
    cases hE : (setupStop env s).error s.st.systemTable with
    | some message =>
      rw [hE] at hresult herror
      subst hresult
      refine ⟨by rw [Stage.Follows, herror]; rfl, insns, hinsns insns hstop, ?_⟩
      rw [herror, List.append_nil, List.append_nil]
      exact hall.printed _
    | none =>
      rw [hE] at hresult herror
      subst hresult
      cases hwhere : setupStop env s <;> rw [hwhere] at hspec hE
      case vmwriteRejected => exact hspec.elim
      case done region vmcs =>
        obtain ⟨-, hon, hcurrent, hregion, hflag, hcount⟩ := hspec
        have hlaunched : Launched t vmcs :=
          ⟨⟨hon, hcurrent, hregion, hflag⟩, hcount.trans hs.exitCount⟩
        have hdone : ∃ region, setupStop env s = .done region vmcs := ⟨region, hwhere⟩
        have hlaunch : InitDid env s (Stage.lines .refused) [.vmlaunch]
            ((t.printed "[mochivm] launching guest...").record .vmlaunch) := by
          refine ⟨insns, hinsns insns hstop, ?_⟩
          rw [herror]
          exact (hall.printed _).record _
        simp only
        rw [ends_enterGuest (s := t.printed _) hon]
        cases hok : env.vmlaunchOk with
        | true => exact ⟨vmcs, hlaunched.launching _ _, ⟨herror, hdone, hok⟩, hlaunch⟩
        | false => exact ⟨vmcs, ⟨herror, hdone, hok⟩, hlaunch⟩
      all_goals cases hE
  · rw [ends_of_aborts he] at hspec ⊢
    obtain ⟨⟨region, vmcs, hwhere⟩, ⟨w, hw, rfl⟩, insns, hstop, hdid⟩ := hpanicked
    change setupStop env s = _ at hwhere
    change (setupStop env s).Insns env s insns at hstop
    change SetupPanic s.prepared (setupStop env s) _ t at hspec
    have hall := (hprepared _).trans hdid
    change Did _ _ (SetupWrites env s) s t at hall
    rw [hwhere] at hspec herror
    refine ⟨⟨herror, ⟨region, vmcs, hwhere⟩, w, hw, rfl⟩, hspec.2.2.trans hs.inactive,
      insns, hinsns insns hstop, ?_⟩
    rw [herror, List.append_nil, List.append_nil]
    exact hall

end Init

/-! ## The exits -/

/-- What a run of the exit loop did. -/
structure LoopDid (region : Addr) (s : Machine) (es : List Exit) (t : LoopState) : Prop where
  serial : t.machine.serial = s.serial ++ exitLines es
  trace : t.machine.trace.map Event.insn =
    s.trace.map Event.insn ++ perExit (Exit.insns region) 0 es

/-- **What the exits print and execute.** -/
theorem loop_did {env : Env} {region : Addr} {s : Machine} (hs : Launched s region)
    {es : List Exit} {t : LoopState} (h : run (exitStep env) (.start s) es = some t) :
    LoopDid region s es t := by
  suffices hall : LoopInv env region s es t ∧ LoopDid region s es t from hall.2
  refine run_inv_history (I := fun es t => LoopInv env region s es t ∧ LoopDid region s es t)
    ?_ ⟨loopInv_start hs, (List.append_nil _).symm, (List.append_nil _).symm⟩ h
  rintro es t e u ⟨hinv, hdid⟩ hstep
  refine ⟨exitStep_inv hinv hstep, ?_⟩
  cases hmode : t.mode with
  | host | aborted => simp [exitStep, hmode] at hstep
  | guest =>
  obtain ⟨hlive, hcount, hlt⟩ := hinv.guest hmode
  have hspec := @exit_turn env _ _ hlive e _ hcount hlt
  have hserial := @turn_serial env _ _ hlive e _ hcount hlt
  rw [exitStep_guest env hmode] at hstep
  generalize e.turn env t.machine = c at hspec hserial hstep
  obtain rfl := Option.some.inj hstep
  constructor
  · rw [exitLines, perExit_concat, Nat.zero_add, ← exitLines, ← List.append_assoc, ← hdid.serial]
    exact hserial
  · rw [perExit_concat, Nat.zero_add, ← List.append_assoc, ← hdid.trace]
    exact hspec.insns

/-! ## Every boot -/

/-- With `VMX_ACTIVE` clear the panic handler prints, and halts. -/
theorem panicHandler_inactive {env : Env} {s : Machine} (hflag : s.st.vmxActive = false)
    (msg : String) :
    Aborts (panicHandler env msg) s .halted (s.printed s!"[mochivm] PANIC: {msg}") := by
  have hends : Ends (panicHandler env msg) s (fun _ _ => False)
      (fun e u => e = .halted ∧ u = s.printed s!"[mochivm] PANIC: {msg}") := by
    rw [panicHandler, ends_bind, ends_serialPrintln, ends_bind, shutdown,
      ends_teardown_inactive (by exact hflag), ends_throw]
    exact ⟨rfl, rfl⟩
  obtain ⟨_, _, _, h⟩ | ⟨e, u, hu, rfl, rfl⟩ := hends.cases
  · exact h.elim
  · exact hu

theorem efiMain_did {env : Env} {systemTable : BitVec 64} {s : Machine} (hs : Fresh s) :
    Ends (efiMain env systemTable) s (fun _ t =>
      Stage.Follows env (s.booted systemTable) 0 .firmware ∧
        InitDid env (s.booted systemTable) [] [] t) (InitAborted env (s.booted systemTable)) :=
  ends_efiMain.mpr (init_did (hs.booted systemTable))

/-- Where everything is granted, the guest is launched. -/
theorem boot_granting {msr : BitVec 32 → BitVec 64}
    (hfeature : featureOk (msr ia32FeatureControl) = true) : ∃ t region, Launched t region ∧
      Aborts (efiMain grantingEnv 0x7F000000) (bootWith msr) .launched t := by
  have hfresh : Fresh (bootWith msr) :=
    ⟨rfl, rfl, bootMachine_fresh.vmxe, rfl, rfl, rfl, rfl, rfl⟩
  have hnone : initError grantingEnv ((bootWith msr).booted 0x7F000000) = none := by
    have hreach : reachesSetup grantingEnv ((bootWith msr).booted 0x7F000000) = true := hfeature
    rw [initError_setup hreach]
    rfl
  obtain ⟨v, t, -, hfirmware, -⟩ | ⟨e, t, he, haborted⟩ :=
    (@efiMain_did grantingEnv 0x7F000000 _ hfresh).cases
  · rw [Stage.Follows, hnone] at hfirmware
    cases hfirmware
  · cases e with
    | panic msg =>
      obtain ⟨⟨-, ⟨region, vmcs, hstop⟩, -⟩, -⟩ := haborted
      cases hstop
    | fault e => exact haborted.elim
    | launched =>
      obtain ⟨vmcs, hlaunched, -⟩ := haborted
      exact ⟨t, vmcs, hlaunched, he⟩
    | halted =>
      obtain ⟨vmcs, ⟨-, -, hrefused⟩, -⟩ := haborted
      cases hrefused

/-- Five HLTs. -/
def fiveHlts : List Exit := List.replicate 5 (exitFor 12)

/-- A boot whose guest takes them. -/
theorem boot_fiveHlts :
    ∃ mode t, Boot grantingEnv 0x7F000000 bootMachine (.guest fiveHlts mode) t := by
  obtain ⟨s, region, hs, hlaunched⟩ := @boot_granting bootMachine.regs.msr (by decide)
  have hgo : ∀ i e, fiveHlts[i]? = some e → i + 1 < 5 →
      e.stops (hltCount (fiveHlts.take i)) = false := by
    intro i e he hi
    have hmem : e ∈ fiveHlts := List.mem_of_getElem? he
    obtain rfl := List.eq_of_mem_replicate hmem
    obtain rfl | rfl | rfl | rfl : i = 0 ∨ i = 1 ∨ i = 2 ∨ i = 3 := by omega
    all_goals decide
  obtain ⟨t, ht⟩ := @loop_total grantingEnv (fun _ => rfl) _ _ hs fiveHlts hgo
  exact ⟨_, _, .guest hlaunched ht⟩

/-- What a boot did, up to its stage. -/
structure BootDid (env : Env) (systemTable : BitVec 64) (s : Machine) (stage : Stage)
    (t : Machine) : Prop where
  serial : t.serial = s.serial ++ bootLines env (s.booted systemTable) stage
  trace : ∃ vmcs insns, stage.Follows env (s.booted systemTable) vmcs ∧
    BringUpInsns env (s.booted systemTable) insns ∧
    t.trace.map Event.insn = insns ++ stage.insns vmcs

/-- What `init` did, told from the start of `efi_main`. -/
theorem InitDid.boot {env : Env} {systemTable : BitVec 64} {s t : Machine} (hs : Fresh s)
    {lines : List String} {more : List VmxInsn}
    (h : InitDid env (s.booted systemTable) lines more t) :
    t.serial = s.serial ++ (bannerLines ++ ("[mochivm] probing for vmx..." ::
        (initError env (s.booted systemTable)).toList ++ lines)) ∧
      ∃ insns, BringUpInsns env (s.booted systemTable) insns ∧
        t.trace.map Event.insn = insns ++ more := by
  obtain ⟨insns, hinsns, hdid⟩ := h
  have htrace : (s.booted systemTable).trace = [] := hs.trace
  have hserial : (s.booted systemTable).serial = s.serial ++ bannerLines :=
    List.append_assoc ..
  refine ⟨by rw [hdid.serial, hserial, List.append_assoc], insns, hinsns, ?_⟩
  rw [hdid.trace, htrace]
  rfl

/-- **What a boot does**: the lines it prints and the VMX instructions it
executes, whatever the firmware, the processor and the guest do. -/
theorem Boot.did {env : Env} {systemTable : BitVec 64} {s t : Machine} {stage : Stage}
    (h : Boot env systemTable s stage t) (hs : Fresh s) : BootDid env systemTable s stage t := by
  have hinit := @efiMain_did env systemTable _ hs
  cases h with
  | returned hr =>
    obtain ⟨hfollows, hdid⟩ := (ends_of_returns hr).mp hinit
    obtain ⟨hserial, insns, hinsns, htrace⟩ := hdid.boot hs
    exact ⟨hserial, 0, insns, hfollows, hinsns, htrace⟩
  | panicked he hhandler =>
    obtain ⟨hfollows, hflag, hdid⟩ := (ends_of_aborts he).mp hinit
    obtain ⟨hserial, insns, hinsns, htrace⟩ := hdid.boot hs
    obtain ⟨-, rfl⟩ := hhandler.unique (panicHandler_inactive hflag _)
    refine ⟨?_, 0, insns, hfollows, hinsns, htrace⟩
    rw [Machine.printed_serial, hserial]
    simp [bootLines, Stage.lines]
  | refused he =>
    obtain ⟨vmcs, hfollows, hdid⟩ := (ends_of_aborts he).mp hinit
    obtain ⟨hserial, insns, hinsns, htrace⟩ := hdid.boot hs
    exact ⟨hserial, vmcs, insns, hfollows, hinsns, htrace⟩
  | guest he hrun =>
    obtain ⟨vmcs, hlaunched, hfollows, hdid⟩ := (ends_of_aborts he).mp hinit
    obtain ⟨hserial, insns, hinsns, htrace⟩ := hdid.boot hs
    have hloop := loop_did hlaunched hrun
    refine ⟨?_, vmcs, insns, hfollows, hinsns, ?_⟩
    · rw [hloop.serial, hserial]
      simp [bootLines, Stage.lines]
    · rw [hloop.trace, htrace, List.append_assoc]
      rfl

/-! ## The smoke test -/

/-- What scripts/smoke.sh looks for in the serial log of a full run. -/
def smokeMarker : String := "guest halted"

theorem banner_no_marker : ∀ line ∈ bannerLines ++ ["[mochivm] probing for vmx...",
    "[mochivm] vmcs ready", "[mochivm] launching guest..."], ¬ Contains line smokeMarker := by
  decide +kernel

theorem initError_no_marker {env : Env} {s : Machine} {line : String}
    (h : initError env s = some line) : ¬ Contains line smokeMarker := by
  rw [initError] at h
  split at h
  · obtain rfl := Option.some.inj h
    decide +kernel
  · split at h
    · obtain rfl := Option.some.inj h
      decide +kernel
    · obtain ⟨e, he, rfl⟩ := Option.map_eq_some_iff.mp h
      cases hstop : setupStop env s <;> rw [hstop] at he <;> simp only [SetupStop.error] at he
      case noVmxonPage =>
        obtain rfl := Option.some.inj he
        split <;> decide +kernel
      case vmwriteRejected | done => cases he
      all_goals
        obtain rfl := Option.some.inj he
        decide +kernel

theorem panic_no_marker {w msg : String} (hw : w ∈ vmwriteMessages) (hmsg : msg = s!"{w}: ()") :
    ¬ Contains s!"[mochivm] PANIC: {msg}" smokeMarker := by
  subst hmsg
  revert w
  decide +kernel

theorem unexpected_no_marker (reason qual : BitVec 64) :
    ¬ Contains (unexpectedLine reason qual) smokeMarker := by
  have hneedle : smokeMarker.toList = 'g' :: 'u' :: "est halted".toList := by decide +kernel
  refine not_contains_of_last hneedle fun hmem => ?_
  have hline : unexpectedLine reason qual = "[mochivm] unexpected exit reason " ++
      toString reason.toNat ++ " qual 0x" ++ String.ofList (Nat.toDigits 16 qual.toNat) ++
      ", stopping" := rfl
  have hlast : ", stopping".toList = ", stoppin".toList ++ ['g'] := by decide +kernel
  have hhex : (String.ofList (Nat.toDigits 16 qual.toNat)).toList = Nat.toDigits 16 qual.toNat :=
    String.toList_ofList
  have hsplit : (unexpectedLine reason qual).toList.dropLast =
      "[mochivm] unexpected exit reason ".toList ++ (toString reason.toNat).toList ++
        " qual 0x".toList ++ Nat.toDigits 16 qual.toNat ++ ", stoppin".toList := by
    rw [hline, String.toList_append, String.toList_append, String.toList_append,
      String.toList_append, hlast, hhex, ← List.append_assoc, List.dropLast_concat]
  rw [hsplit] at hmem
  simp only [List.mem_append] at hmem
  rcases hmem with (((hmem | hmem) | hmem) | hmem) | hmem
  · exact absurd hmem (by decide +kernel)
  · exact absurd (toString_isDigit _ _ hmem) (by decide)
  · exact absurd hmem (by decide +kernel)
  · exact absurd (toDigits_mem (by decide) (by decide) _ _ hmem) (by decide +kernel)
  · exact absurd hmem (by decide +kernel)

theorem hlt_no_marker (n : Nat) : ¬ Contains s!"[mochivm] guest hlt #{n}" smokeMarker := by
  refine not_contains_of_missing (c := 'd') (by decide +kernel) fun hmem => ?_
  have hsplit : (s!"[mochivm] guest hlt #{n}").toList =
      "[mochivm] guest hlt #".toList ++ (toString n).toList := String.toList_append ..
  rw [hsplit, List.mem_append] at hmem
  rcases hmem with hmem | hmem
  · exact absurd hmem (by decide +kernel)
  · exact absurd (toString_isDigit _ _ hmem) (by decide)

theorem halted_marker (n : Nat) :
    Contains s!"[mochivm] guest halted {n} times, vmxoff" smokeMarker := by
  have hsplit : "[mochivm] guest halted " = "[mochivm] " ++ smokeMarker ++ " " := by
    decide +kernel
  have hself : Contains smokeMarker smokeMarker := List.infix_rfl
  have h := hself.append "[mochivm] " (" " ++ toString n ++ " times, vmxoff")
  rw [← String.append_assoc, ← String.append_assoc, ← hsplit] at h
  exact h

/-- The lines of an exit have the marker when it is the fifth HLT. -/
theorem exit_marker_iff (e : Exit) (hlts : Nat) :
    (∃ line ∈ e.lines hlts, Contains line smokeMarker) ↔ e.isHlt = true ∧ hlts + 1 = 5 := by
  rw [Exit.lines]
  cases hhlt : e.isHlt with
  | false => simp [unexpected_no_marker]
  | true =>
    have hstops : e.stops hlts = decide (hlts + 1 = 5) := by rw [Exit.stops, hhlt]; rfl
    rw [if_pos rfl, hltLines, hstops]
    by_cases hfive : hlts + 1 = 5
    · simp only [hfive, decide_true, if_true, and_self, iff_true]
      exact ⟨_, List.mem_cons_of_mem _ List.mem_cons_self, halted_marker 5⟩
    · rw [decide_eq_false hfive, if_neg Bool.false_ne_true]
      refine ⟨?_, fun h => absurd h.2 hfive⟩
      rintro ⟨line, hline, hmarker⟩
      obtain rfl := List.mem_singleton.mp hline
      exact absurd hmarker (hlt_no_marker (hlts + 1))

/-- Where the exits print it. -/
theorem exits_marker_iff (es : List Exit) (hlts : Nat) :
    (∃ line ∈ perExit (fun hlts e => e.lines hlts) hlts es, Contains line smokeMarker) ↔
      ∃ i e, es[i]? = some e ∧ e.isHlt = true ∧ hlts + hltCount (es.take i) + 1 = 5 := by
  induction es generalizing hlts with
  | nil => simp [perExit]
  | cons e es ih =>
    have hcount : ∀ i, hlts + hltCount ((e :: es).take (i + 1)) =
        hlts + (if e.isHlt then 1 else 0) + hltCount (es.take i) := by
      intro i
      rw [List.take_succ_cons, hltCount, List.countP_cons, hltCount]
      omega
    simp only [perExit, List.mem_append, or_and_right, exists_or]
    rw [exit_marker_iff, ih]
    constructor
    · rintro (⟨hhlt, hfive⟩ | ⟨i, e', he', hhlt, hfive⟩)
      · exact ⟨0, e, rfl, hhlt, hfive⟩
      · exact ⟨i + 1, e', he', hhlt, by rw [hcount]; exact hfive⟩
    · rintro ⟨i, e', he', hhlt, hfive⟩
      cases i with
      | zero =>
        obtain rfl := Option.some.inj he'
        exact .inl ⟨hhlt, hfive⟩
      | succ i =>
        rw [hcount] at hfive
        exact .inr ⟨i, e', he', hhlt, hfive⟩

theorem hltCount_of_all {es : List Exit} (h : ∀ e ∈ es, e.isHlt = true) :
    hltCount es = es.length := List.countP_eq_length.mpr h

theorem hltCount_four {es : List Exit} (hlen : es.length = 5) (h : ∀ e ∈ es, e.isHlt = true) :
    hltCount (es.take 4) = 4 := by
  rw [hltCount_of_all fun e he => h e (List.mem_of_mem_take he), List.length_take, hlen]
  rfl

/-- In a run of the loop the exit that stops it is the last one, and leaves VMX
operation. -/
theorem LoopInv.stopped {env : Env} {region : Addr} {s : Machine} {es : List Exit} {t : LoopState}
    (h : LoopInv env region s es t) {i : Nat} {e : Exit} (he : es[i]? = some e)
    (hstops : e.stops (hltCount (es.take i)) = true) : i + 1 = es.length ∧ t.machine.Down := by
  rw [← h.exits, List.getElem?_map] at he
  obtain ⟨x, hx, rfl⟩ := Option.map_eq_some_iff.mp he
  obtain ⟨hlast, hmachine, -⟩ := h.last i x hx hstops
  exact ⟨hlast, hmachine ▸ ((h.turn i x hx).down hstops).1⟩

/-- The run of the exit loop behind a guest. -/
theorem Boot.loop {env : Env} {systemTable : BitVec 64} {s t : Machine} {es : List Exit}
    {mode : Mode} (hs : Fresh s) (h : Boot env systemTable s (.guest es mode) t) :
    ∃ region s₀ u, Launched s₀ region ∧ run (exitStep env) (.start s₀) es = some u ∧
      t = u.machine ∧ mode = u.mode ∧
      (Stage.guest es mode).Follows env (s.booted systemTable) region := by
  cases h with
  | guest he hrun =>
    obtain ⟨vmcs, hlaunched, hfollows, -⟩ := (ends_of_aborts he).mp (efiMain_did hs)
    exact ⟨vmcs, _, _, hlaunched, hrun, rfl, rfl, hfollows⟩

/-! ## The marker -/

/-- Only the exits can print it. -/
theorem bootLines_marker {env : Env} {s : Machine} {vmcs : Addr} {stage : Stage}
    (h : stage.Follows env s vmcs)
    (hmarker : ∃ line ∈ bootLines env s stage, Contains line smokeMarker) :
    ∃ es mode, stage = .guest es mode ∧ ∃ line ∈ exitLines es, Contains line smokeMarker := by
  have hbanner := banner_no_marker
  obtain ⟨line, hline, hmarker⟩ := hmarker
  simp only [bootLines, List.mem_append, List.mem_cons, Option.mem_toList, List.not_mem_nil,
    or_false] at hline hbanner
  rcases hline with hline | (rfl | hline) | hline
  · exact absurd hmarker (hbanner line (.inl hline))
  · exact absurd hmarker (hbanner _ (.inr (.inl rfl)))
  · exact absurd hmarker (initError_no_marker hline)
  · cases stage with
    | firmware => cases hline
    | panicked msg =>
      obtain ⟨-, -, w, hw, hmsg⟩ := h
      obtain rfl := List.mem_singleton.mp hline
      exact absurd hmarker (panic_no_marker hw hmsg)
    | refused =>
      simp only [Stage.lines, List.mem_cons, List.not_mem_nil, or_false] at hline
      exact absurd hmarker (hbanner line (.inr (.inr hline)))
    | guest es mode =>
      simp only [Stage.lines, List.mem_append, List.mem_cons, List.not_mem_nil, or_false] at hline
      rcases hline with hline | hline
      · exact absurd hmarker (hbanner line (.inr (.inr hline)))
      · exact ⟨es, mode, rfl, line, hline, hmarker⟩

/-- A run of the loop prints it exactly when it is over after five HLTs. -/
theorem loop_marker_iff {env : Env} {region : Addr} {s : Machine} {es : List Exit} {t : LoopState}
    (h : LoopInv env region s es t) :
    (∃ line ∈ exitLines es, Contains line smokeMarker) ↔
      es.length = 5 ∧ ∀ e ∈ es, e.isHlt = true := by
  rw [exitLines, exits_marker_iff]
  constructor
  · rintro ⟨i, e, he, hhlt, hfive⟩
    rw [Nat.zero_add] at hfive
    have hstops : e.stops (hltCount (es.take i)) = true := by
      rw [Exit.stops, decide_eq_true hfive, Bool.or_true]
    obtain ⟨hlast, -⟩ := h.stopped he hstops
    -- the exits before it did not stop the loop, so that they were HLTs
    have hbefore : ∀ e' ∈ es.take i, e'.isHlt = true := by
      intro e' he'
      obtain ⟨j, hj⟩ := List.mem_iff_getElem?.mp he'
      rw [List.getElem?_take] at hj
      split at hj
      next hlt =>
        cases hhlt' : e'.isHlt with
        | true => rfl
        | false =>
          have := (h.stopped hj (by rw [Exit.stops, hhlt']; rfl)).1
          omega
      next => cases hj
    have hlen : (es.take i).length = i := List.length_take_of_le (by omega)
    rw [hltCount_of_all hbefore, hlen] at hfive
    refine ⟨by omega, fun e' he' => ?_⟩
    rw [← List.take_append_drop i es, List.mem_append] at he'
    rcases he' with he' | he'
    · exact hbefore e' he'
    · have hdrop : es.drop i = [e] := by
        rw [List.drop_eq_getElem?_toList_append, he, List.drop_eq_nil_of_le (by omega)]
        rfl
      rw [hdrop, List.mem_singleton] at he'
      exact he' ▸ hhlt
  · rintro ⟨hlen, hall⟩
    have he : es[4]? = some es[4] := List.getElem?_eq_getElem (by omega)
    refine ⟨4, es[4], he, hall _ (List.mem_of_getElem? he), ?_⟩
    rw [hltCount_four hlen hall]

/-- **The smoke test's line** is printed exactly by the boots whose guest took
five exits, all of them HLTs; and these have left VMX operation. -/
theorem smoke_iff {env : Env} {systemTable : BitVec 64} {s t : Machine} {stage : Stage}
    (hs : Fresh s) (hserial : s.serial = []) (h : Boot env systemTable s stage t) :
    ((∃ line ∈ t.serial, Contains line smokeMarker) ↔
      ∃ es mode, stage = .guest es mode ∧ es.length = 5 ∧ ∀ e ∈ es, e.isHlt = true) ∧
    ((∃ line ∈ t.serial, Contains line smokeMarker) → t.vmx.on = false) := by
  have hdid := h.did hs
  obtain ⟨vmcs, -, hfollows, -⟩ := hdid.trace
  have hlines := hdid.serial
  rw [hserial, List.nil_append] at hlines
  rw [hlines]
  constructor
  · constructor
    · intro hmarker
      obtain ⟨es, mode, rfl, hexits⟩ := bootLines_marker hfollows hmarker
      obtain ⟨region, s₀, u, hs₀, hrun, -, -⟩ := h.loop hs
      obtain ⟨hlen, hall⟩ := (loop_marker_iff (loop_inv hs₀ hrun)).mp hexits
      exact ⟨es, mode, rfl, hlen, hall⟩
    · rintro ⟨es, mode, rfl, hfive⟩
      obtain ⟨region, s₀, u, hs₀, hrun, -, -⟩ := h.loop hs
      obtain ⟨line, hline, hmarker⟩ := (loop_marker_iff (loop_inv hs₀ hrun)).mpr hfive
      refine ⟨line, ?_, hmarker⟩
      simp [bootLines, Stage.lines, hline]
  · intro hmarker
    obtain ⟨es, mode, rfl, hexits⟩ := bootLines_marker hfollows hmarker
    obtain ⟨region, s₀, u, hs₀, hrun, rfl, -⟩ := h.loop hs
    have hinv := loop_inv hs₀ hrun
    obtain ⟨hlen, hall⟩ := (loop_marker_iff hinv).mp hexits
    have he : es[4]? = some es[4] := List.getElem?_eq_getElem (by omega)
    have hstops : es[4].stops (hltCount (es.take 4)) = true := by
      rw [Exit.stops, hltCount_four hlen hall]
      exact Bool.or_true _
    exact (hinv.stopped he hstops).2.off

/-- It is printed after five HLTs. -/
theorem smoke_iff_fiveHlts : ∃ (mode : Mode) (t : Machine),
    ((∃ line ∈ t.serial, Contains line smokeMarker) ↔ ∃ es mode', Stage.guest fiveHlts mode =
      .guest es mode' ∧ es.length = 5 ∧ ∀ e ∈ es, e.isHlt = true) ∧
    ((∃ line ∈ t.serial, Contains line smokeMarker) → t.vmx.on = false) := by
  obtain ⟨mode, t, h⟩ := boot_fiveHlts
  exact ⟨mode, t, smoke_iff bootMachine_fresh rfl h⟩

end MochiVM.Hv
