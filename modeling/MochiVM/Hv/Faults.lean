import MochiVM.Hv.Boot
import MochiVM.Hv.ControlRegs
import MochiVM.Hv.Sdm

/-!
# The exceptions of a boot (hv.rs, main.rs)

`Vmx` reads every MSR and executes VMXON wherever it is told to. Here the boot
is run on a processor that raises the exceptions of the SDM: at VMXON without
CR4.VMXE, with control registers that VMX operation does not support or with
IA32_FEATURE_CONTROL not enabling it; at a read of MSR 0x48B where there is none;
at a write of IA32_FEATURE_CONTROL that sets bit 1 where there is no SMX; and as in
`Vmx` at a write of that MSR when it is locked and at the other VMX instructions
outside VMX operation.

`boot_noFault_iff` says on which machines no boot raises one. There the boot is
that of `Boot`, and it always comes to a stage.
-/

namespace MochiVM.Hv

open MochiVM.Panic MochiVM.Runs

/-! ## The boot on a processor that raises exceptions -/

/-- VMXON, with its exceptions. -/
def vmxonFaulting (env : Env) (region : Addr) : HvM (Except String PUnit) := fun s =>
  match Sdm.fault s (.vmxon region) with
  | some e => .error (.fault e) s
  | none => vmxonInsn env region s

/-- `vmxon` (vmx.rs:53). -/
def vmxonChecked (env : Env) (region : Addr) : HvM (Except String PUnit) := do
  let revision ← rdmsr ia32VmxBasic
  writeVolatile32 region (revision.setWidth 32)
  vmxonFaulting env region

/-- The wrappers on such a processor. -/
def faulting (env : Env) : Wrappers Machine := { checked env with vmxon := vmxonChecked env }

/-- Whether the processor has SMX. -/
def smx (env : Env) : Bool := (env.cpuid 1 0).2.1.getLsbD 6

/-- `wrmsr`, where bit 1 of IA32_FEATURE_CONTROL is reserved without SMX. -/
def wrmsrChecked (env : Env) (msr : BitVec 32) (v : BitVec 64) : HvM PUnit := fun s =>
  if msr = ia32FeatureControl ∧ v.getLsbD 1 = true ∧ smx env = false then
    .error (.fault .generalProtection) s
  else wrmsr msr v s

/-- `feature_control` (vmx.rs:23). -/
def featureControlChecked (env : Env) : HvM (Except String PUnit) := do
  let msr ← rdmsr ia32FeatureControl
  if msr &&& 1 != 0 then
    if msr &&& 2 == 0 then
      pure (.error "vmx locked and disabled by firmware")
    else
      pure (.ok ⟨⟩)
  else
    wrmsrChecked env ia32FeatureControl (msr ||| 3)
    pure (.ok ⟨⟩)

/-- `hv::init` (hv.rs:10). -/
def initChecked (env : Env) : HvM PUnit := do
  serialPrintln "[mochivm] probing for vmx..."
  if !(← vmxSupported env) then
    serialPrintln "[mochivm] error: vmx not supported by this cpu"
  else
  match ← featureControlChecked env with
  | .error e => serialPrintln s!"[mochivm] error: feature control: {e}"
  | .ok _ =>
  applyFixedBits
  match ← (faulting env).setup env with
  | .ok _ => do
    serialPrintln "[mochivm] launching guest..."
    enterGuest env
  | .error e => serialPrintln s!"[mochivm] error: vmcs setup: {e}"

/-- `efi_main` (main.rs:14), the UART set-up apart. -/
def efiMainChecked (env : Env) (systemTable : BitVec 64) : HvM (BitVec 64) := do
  setStatics fun st => { st with systemTable := systemTable }
  serialPrintln "[mochivm] mochivm booted"
  serialPrintln "[mochivm] from-scratch type-2 hypervisor skeleton (vmx/vmcs + hello-world guest)"
  initChecked env
  pure 0

namespace Wrappers

variable {σ : Type} (w : Wrappers σ) (vmxon : Addr → EStateM Abort σ (Except String PUnit))

theorem issueAll_vmxon (xs : List StateStep) :
    ({ w with vmxon := vmxon } : Wrappers σ).issueAll xs = w.issueAll xs := by
  induction xs with
  | nil => rfl
  | cons x xs ih =>
    rw [issueAll, issueAll, ih]
    rfl

theorem writeState_vmxon (env : Env) :
    ({ w with vmxon := vmxon } : Wrappers σ).writeState env = w.writeState env := by
  funext hostStack guestCode guestStack s
  rw [writeState, writeState, issueAll_vmxon]

/-- Only `setup` itself executes VMXON. -/
theorem setupVmcs_vmxon (env : Env) :
    ({ w with vmxon := vmxon } : Wrappers σ).setupVmcs env = w.setupVmcs env := by
  have hguest : ({ w with vmxon := vmxon } : Wrappers σ).setupGuest env = w.setupGuest env := by
    rw [setupGuest, setupGuest, writeState_vmxon]
    rfl
  rw [setupVmcs, setupVmcs, hguest]
  rfl

end Wrappers

/-- What the processor has to have, where `feature_control` lets a boot go on. -/
structure Spares (env : Env) (r : Regs) : Prop where
  /-- IA32_FEATURE_CONTROL is not written, or may have bit 1 set; -/
  smx : locked (r.msr ia32FeatureControl) = true ∨ smx env = true
  /-- VMX is enabled outside SMX, -/
  outside : vmxOutsideSmx (r.msr ia32FeatureControl) = true
  /-- `apply_fixed_bits` sets CR4.VMXE, -/
  vmxe : r.fixedBits.cr4.getLsbD vmxeBit = true
  /-- and MSR 0x48B exists. -/
  secondary : hasSecondary r.msr = true

/-- The machines on which no boot raises an exception. -/
def Spared (env : Env) (r : Regs) : Prop :=
  supported env = true → featureOk (r.msr ia32FeatureControl) = true → Spares env r

/-- Of the processor, it is about CPUID. -/
theorem Spared.of_cpuid {env env' : Env} {r : Regs} (h : Spared env r)
    (heq : env'.cpuid = env.cpuid) : Spared env' r := by
  intro hsupported hok
  rw [supported, heq] at hsupported
  obtain ⟨hsmx, houtside, hvmxe, hsecondary⟩ := h hsupported hok
  refine ⟨hsmx.imp_right fun hsmx => ?_, houtside, hvmxe, hsecondary⟩
  rw [smx, heq]
  exact hsmx

/-! ## Up to VMXON -/

theorem fixedBits_twice (r : Regs) : r.fixedBits.fixedBits = r.fixedBits := by
  simp only [Regs.fixedBits, Asm.forced_twice]

theorem unlocked_msr_other {r : Regs} {msr : BitVec 32} (h : msr ≠ ia32FeatureControl) :
    r.unlocked.msr msr = r.msr msr := by
  rw [Regs.unlocked]
  split
  · rfl
  · exact Regs.setMsr_other r _ h

theorem unlocked_cr4 (r : Regs) : r.unlocked.cr4 = r.cr4 := by
  rw [Regs.unlocked]
  split <;> rfl

theorem unlocked_fixedBits_cr4 (r : Regs) : r.unlocked.fixedBits.cr4 = r.fixedBits.cr4 := by
  simp only [Regs.fixedBits, unlocked_cr4]
  rw [unlocked_msr_other (by decide), unlocked_msr_other (by decide)]

theorem unlocked_secondary (r : Regs) :
    hasSecondary r.unlocked.fixedBits.msr = hasSecondary r.msr :=
  congrArg (fun v : BitVec 64 => v.getLsbD 63) (unlocked_msr_other (r := r) (by decide))

/-- `feature_control` leaves the MSR locked, and bit 2 as it was. -/
theorem unlocked_enabled (s : Machine) :
    locked (s.regs.unlocked.msr ia32FeatureControl) = true ∧
      vmxOutsideSmx (s.regs.unlocked.msr ia32FeatureControl) =
        vmxOutsideSmx (s.regs.msr ia32FeatureControl) := by
  cases hlock : locked (s.regs.msr ia32FeatureControl) with
  | true =>
    rw [unlocked_msr_locked hlock]
    exact ⟨hlock, rfl⟩
  | false =>
    rw [unlocked_msr hlock]
    exact or_three _

/-- **VMXON after `feature_control` and `apply_fixed_bits`** raises no exception
exactly if VMX is enabled outside SMX and CR4.VMXE is set. -/
theorem vmxon_fault_iff {s t : Machine} (hoff : t.vmx.on = false)
    (hregs : t.regs = s.regs.unlocked.fixedBits) (region : Addr) :
    Sdm.fault t (.vmxon region) = none ↔
      s.regs.fixedBits.cr4.getLsbD vmxeBit = true ∧
        vmxOutsideSmx (s.regs.msr ia32FeatureControl) = true := by
  obtain ⟨hlocked, houtside⟩ := unlocked_enabled s
  have hallowed : Sdm.vmxonAllowed t.regs = vmxOutsideSmx (s.regs.msr ia32FeatureControl) := by
    rw [Sdm.vmxonAllowed, hregs, fixedBits_twice, decide_eq_true rfl, decide_eq_true rfl,
      ← houtside]
    exact (congrArg (fun b => b && _) hlocked).trans (Bool.true_and _)
  rw [Sdm.fault, hoff, Bool.false_or, hallowed, hregs, unlocked_fixedBits_cr4]
  cases s.regs.fixedBits.cr4.getLsbD vmxeBit <;>
    cases vmxOutsideSmx (s.regs.msr ia32FeatureControl) <;> simp

/-! ## Where none is raised -/

section Same

variable {env : Env} {s : Machine}

theorem stable_secondary : Stable fun t => hasSecondary t.regs.msr = true where
  mem _ _ h := h
  st _ _ h := h
  vmx _ _ h := h
  allocated _ h := h
  printed _ _ h := h
  regs _ r hr h := by
    show hasSecondary r.msr = true
    rw [hr]
    exact h
  record _ _ h := h

theorem checked_up {α : Type} (m : HvM α) : (checked env).up m = m := (checked_onMachine env).up m

theorem checked_vmxoffAndClear : (checked env).vmxoffAndClear = vmxoffAndClear := by
  rw [Wrappers.vmxoffAndClear, checked_up, checked_up]
  simp only [checked_up]
  rfl

/-- With MSR 0x48B there, the rest of `setup` is as it is in `Vmcs`. -/
theorem checked_setupGuest (h : hasSecondary s.regs.msr = true) :
    (checked env).setupGuest env s = setupGuest env s := by
  rw [Wrappers.setupGuest, setupGuest, checked_vmxoffAndClear]
  simp only [checked_up]
  refine (stable_secondary.allocatePages 4).bind_congr h fun r t ht => ?_
  rcases r with e | hostStack
  · rfl
  refine (stable_secondary.allocatePages 1).bind_congr ht fun r t ht => ?_
  rcases r with e | guestCode
  · rfl
  refine (stable_secondary.allocatePages 1).bind_congr ht fun r t ht => ?_
  rcases r with e | guestStack
  · rfl
  refine Keeps.bind_congr (fun s hs => stable_secondary.mem s _ hs) ht fun _ t ht => ?_
  exact bind_congr_left (checked_writeState ht) _

theorem checked_setupVmcs (h : hasSecondary s.regs.msr = true) :
    (checked env).setupVmcs env s = setupVmcs env s := by
  have hread : (checked env).rdmsr 0x480#32 = rdmsr 0x480#32 :=
    show rdmsrChecked 0x480#32 = rdmsr 0x480#32 from rdmsrChecked_other (by decide)
  have hclear : (checked env).vmclear = vmclear env := rfl
  have hload : (checked env).vmptrld = vmptrld env := rfl
  rw [Wrappers.setupVmcs, setupVmcs, checked_vmxoffAndClear, hread, hclear, hload]
  simp only [checked_up]
  refine (stable_secondary.allocatePages 1).bind_congr h fun r t ht => ?_
  rcases r with e | vmcs
  · rfl
  refine Keeps.bind_congr (I := fun t : Machine => hasSecondary t.regs.msr = true)
    (fun s hs => hs) ht fun revision t ht => ?_
  refine Keeps.bind_congr (fun s hs => stable_secondary.mem s _ hs) ht fun _ t ht => ?_
  have hinsn := @Stable.vmxInsn _ stable_secondary
  refine Keeps.bind_congr (show Keeps _ (vmclear env vmcs) from hinsn _ _ _) ht fun r t ht => ?_
  rcases r with _ | _
  · rfl
  refine Keeps.bind_congr (show Keeps _ (vmptrld env vmcs) from hinsn _ _ _) ht fun r t ht => ?_
  rcases r with _ | _
  · rfl
  exact Keeps.bind_congr (fun s hs => stable_secondary.st s _ hs) ht fun _ t ht =>
    checked_setupGuest ht

theorem faulting_up {α : Type} (m : HvM α) : (faulting env).up m = m :=
  Wrappers.up_eq (fun _ => rfl) (fun _ _ => rfl) m

/-- Where VMXON raises no exception. -/
theorem vmxonChecked_eq {region : Addr}
    (h : Sdm.fault s (.vmxon region) = none) : vmxonChecked env region s = vmxon env region s := by
  show vmxonFaulting env region (s.setMem _) = vmxonInsn env region (s.setMem _)
  have hfault : Sdm.fault (s.setMem (storeLE s.mem region 4
      (((s.regs.msr ia32VmxBasic).setWidth 32).setWidth 64))) (.vmxon region) = none := h
  rw [vmxonFaulting, hfault]

theorem faulting_setup (hsec : hasSecondary s.regs.msr = true)
    (hfault : ∀ region, Sdm.fault s (.vmxon region) = none) :
    (faulting env).setup env s = setup env s := by
  have hrest : (faulting env).setupVmcs env = (checked env).setupVmcs env :=
    (checked env).setupVmcs_vmxon (vmxonChecked env) env
  rw [Wrappers.setup, setup, hrest]
  simp only [faulting_up]
  refine Keeps.bind_congr (I := fun t : Machine => t.regs = s.regs ∧ t.vmx = s.vmx)
    (fun t ht => ht) ⟨rfl, rfl⟩ fun r t ht => ?_
  rcases r with e | region
  · rfl
  have hvmxon : vmxonChecked env region t = vmxon env region t := by
    refine vmxonChecked_eq ?_
    rw [← hfault region, Sdm.fault, Sdm.fault, ht.1, ht.2]
  refine (bind_congr_left hvmxon _).trans ?_
  have hsec : hasSecondary t.regs.msr = true := by rw [ht.1]; exact hsec
  refine (stable_secondary.vmxon region).bind_congr hsec fun r t ht => ?_
  rcases r with e | _
  · rfl
  refine Keeps.bind_congr (fun s hs => stable_secondary.st s _ hs) ht fun _ t ht => ?_
  exact checked_setupVmcs ht

theorem wrmsrChecked_smx (hsmx : smx env = true) (msr : BitVec 32) (v : BitVec 64) :
    wrmsrChecked env msr v = wrmsr msr v :=
  funext fun _ => if_neg fun hreserved =>
    Bool.false_ne_true (hreserved.2.2.symm.trans hsmx)

/-- Where the MSR is locked, or may be written so. -/
theorem featureControlChecked_eq
    (h : locked (s.regs.msr ia32FeatureControl) = true ∨ smx env = true) :
    featureControlChecked env s = featureControl s := by
  have hlock : (s.regs.msr ia32FeatureControl &&& 1 != 0) =
      locked (s.regs.msr ia32FeatureControl) := and_twoPow_ne_zero _ 0 (by decide)
  have hread : Returns (rdmsr ia32FeatureControl) s (s.regs.msr ia32FeatureControl) s := rfl
  rw [featureControlChecked, featureControl]
  refine hread.bind_congr ?_
  rw [hlock]
  cases hl : locked (s.regs.msr ia32FeatureControl) with
  | true => rw [if_pos rfl, if_pos rfl]
  | false =>
    have hsmx : smx env = true := h.resolve_left (by rw [hl]; exact Bool.false_ne_true)
    rw [wrmsrChecked_smx hsmx]

/-- `setup`, after `feature_control` and `apply_fixed_bits`. -/
theorem faulting_setup_spares (hoff : s.vmx.on = false) (hspares : Spares env s.regs) :
    (faulting env).setup env ((s.setRegs s.regs.unlocked).setRegs s.regs.unlocked.fixedBits) =
      setup env ((s.setRegs s.regs.unlocked).setRegs s.regs.unlocked.fixedBits) := by
  refine faulting_setup ((unlocked_secondary s.regs).trans hspares.secondary) fun region => ?_
  refine (vmxon_fault_iff (s := s)
    (t := (s.setRegs s.regs.unlocked).setRegs s.regs.unlocked.fixedBits) hoff rfl region).mpr ?_
  exact ⟨hspares.vmxe, hspares.outside⟩

theorem initChecked_eq (hoff : s.vmx.on = false) (hspared : Spared env s.regs) :
    initChecked env s = init env s := by
  rw [initChecked, init]
  -- up to `feature_control` the registers are those of `s`
  refine Keeps.bind_congr (I := fun t : Machine => t.regs = s.regs ∧ t.vmx = s.vmx)
    (fun t ht => ht) ⟨rfl, rfl⟩ fun _ t ht => ?_
  rw [← ht.1] at hspared
  have hprobed : Returns (vmxSupported env) t (supported env) t := rfl
  refine hprobed.bind_congr ?_
  cases hsupported : supported env with
  | false => simp only [Bool.not_false, if_true]
  | true =>
    simp only [Bool.not_true, Bool.false_eq_true, if_false]
    cases hok : featureOk (t.regs.msr ia32FeatureControl) with
    | false =>
      have hlocked : locked (t.regs.msr ia32FeatureControl) = true := by
        have hunlocked := (Bool.or_eq_false_iff.mp hok).1
        rwa [Bool.not_eq_false'] at hunlocked
      refine (bind_congr_left (featureControlChecked_eq (.inl hlocked)) _).trans ?_
      refine (featureControl_error hok).bind_congr ?_
      dsimp only
    | true =>
      have hspares := hspared hsupported hok
      have hoff : t.vmx.on = false := by rw [ht.2]; exact hoff
      have happlied : Returns applyFixedBits (t.setRegs t.regs.unlocked) ⟨⟩
          ((t.setRegs t.regs.unlocked).setRegs t.regs.unlocked.fixedBits) := rfl
      refine (bind_congr_left (featureControlChecked_eq hspares.smx) _).trans ?_
      refine (featureControl_ok hok).bind_congr (happlied.bind_congr ?_)
      exact bind_congr_left (faulting_setup_spares hoff hspares) _

/-- **The boot is that of `Boot`** on a machine that is spared. -/
theorem efiMainChecked_eq (hoff : s.vmx.on = false) (hspared : Spared env s.regs)
    (systemTable : BitVec 64) : efiMainChecked env systemTable s = efiMain env systemTable s := by
  show (initChecked env >>= fun _ => pure 0) (s.booted systemTable) =
    (init env >>= fun _ => pure 0) (s.booted systemTable)
  exact bind_congr_left (initChecked_eq (s := s.booted systemTable) hoff hspared) _

end Same

/-! ## Where one is raised -/

section Raised

variable {env : Env} {s t v : Machine} {e : Abort}

theorem vmxonChecked_faults {region : Addr} {x : Exception}
    (h : Sdm.fault s (.vmxon region) = some x) :
    ∃ t, Aborts (vmxonChecked env region) s (.fault x) t := by
  refine ⟨s.setMem (storeLE s.mem region 4 (((s.regs.msr ia32VmxBasic).setWidth 32).setWidth 64)),
    ?_⟩
  show vmxonFaulting env region (s.setMem _) = _
  have hfault : Sdm.fault (s.setMem (storeLE s.mem region 4
      (((s.regs.msr ia32VmxBasic).setWidth 32).setWidth 64))) (.vmxon region) = some x := h
  rw [vmxonFaulting, hfault]

theorem featureControlChecked_faults (hunlocked : locked (s.regs.msr ia32FeatureControl) = false)
    (hsmx : smx env = false) :
    Aborts (featureControlChecked env) s (.fault .generalProtection) s := by
  have hlock : (s.regs.msr ia32FeatureControl &&& 1 != 0) = false :=
    (and_twoPow_ne_zero _ 0 (by decide)).trans hunlocked
  have hbit : (s.regs.msr ia32FeatureControl ||| 3).getLsbD 1 = true := by
    rw [BitVec.getLsbD_or]
    exact Bool.or_true _
  have hread : Returns (rdmsr ia32FeatureControl) s (s.regs.msr ia32FeatureControl) s := rfl
  have hwrite : Aborts (wrmsrChecked env ia32FeatureControl (s.regs.msr ia32FeatureControl ||| 3))
      s (.fault .generalProtection) s := if_pos ⟨rfl, hbit, hsmx⟩
  refine hread.bind_aborts ?_
  rw [hlock, if_neg Bool.false_ne_true]
  exact hwrite.bind _

theorem efiMain_faults {systemTable : BitVec 64}
    (h : Aborts (initChecked env) (s.booted systemTable) e t) :
    Aborts (efiMainChecked env systemTable) s e t := by
  show (initChecked env >>= fun _ => pure 0) (s.booted systemTable) = .error e t
  exact bind_of_aborts h _

theorem serialPrintln_returns (line : String) (s : Machine) :
    Returns (serialPrintln line) s ⟨⟩ (s.printed line) := rfl

theorem vmxSupported_returns (h : supported env = true) (s : Machine) :
    Returns (vmxSupported env) s true s := congrArg (EStateM.Result.ok · s) h

/-- An exception in `feature_control` is one of the boot, -/
theorem init_faults_feature (hsupported : supported env = true)
    (h : Aborts (featureControlChecked env) (s.printed "[mochivm] probing for vmx...") e t) :
    Aborts (initChecked env) s e t :=
  (serialPrintln_returns _ s).bind_aborts
    ((vmxSupported_returns hsupported _).bind_aborts (h.bind _))

/-- and so is one in `setup`. -/
theorem init_faults_setup (hsupported : supported env = true)
    (hok : featureOk (s.regs.msr ia32FeatureControl) = true)
    (hsmx : locked (s.regs.msr ia32FeatureControl) = true ∨ smx env = true)
    (h : Aborts ((faulting env).setup env) s.prepared e t) : Aborts (initChecked env) s e t := by
  have hunlocked : Returns (featureControlChecked env) (s.printed "[mochivm] probing for vmx...")
      (.ok ⟨⟩) ((s.printed "[mochivm] probing for vmx...").setRegs s.regs.unlocked) :=
    (featureControlChecked_eq (s := s.printed "[mochivm] probing for vmx...") hsmx).trans
      (featureControl_ok hok)
  have happlied : Returns applyFixedBits
      ((s.printed "[mochivm] probing for vmx...").setRegs s.regs.unlocked) ⟨⟩ s.prepared := rfl
  exact (serialPrintln_returns _ s).bind_aborts ((vmxSupported_returns hsupported _).bind_aborts
    (hunlocked.bind_aborts (happlied.bind_aborts (h.bind _))))

/-- A run of `setup` that gets to `write_state`, and no further. -/
theorem setup_faults (run : SetupRun (named env) env s t)
    (hfault : Sdm.fault s (.vmxon run.vmxonRegion) = none)
    (hwrite : Aborts ((checked env).writeState env run.guest.hostStack run.guest.guestCode
      run.guest.guestStack) run.entry e v) :
    Aborts ((faulting env).setup env) s e v := by
  have hvmxon : Returns ((faulting env).vmxon run.vmxonRegion) s.allocated (.ok ⟨⟩) run.entered :=
    (vmxonChecked_eq (s := s.allocated) hfault).trans run.vmxon
  have hread : (faulting env).rdmsr 0x480#32 = (named env).rdmsr 0x480#32 :=
    show rdmsrChecked 0x480#32 = rdmsr 0x480#32 from rdmsrChecked_other (by decide)
  have hbasic := run.basic
  rw [← hread] at hbasic
  have hwrite : Aborts ((faulting env).writeState env run.guest.hostStack run.guest.guestCode
      run.guest.guestStack) run.entry e v := by
    have hsame := (checked env).writeState_vmxon (vmxonChecked env) env
    exact (congrFun (congrFun (congrFun (congrFun hsame _) _) _) _).trans hwrite
  have hpage := @allocatePages_returns Machine (faulting env) env
  refine (hpage run.vmxonPage).bind_aborts ?_
  refine hvmxon.bind_aborts ((setStatics_returns (faulting env) _ _).bind_aborts ?_)
  refine (hpage (r := .ok run.vmcsRegion) ?_).bind_aborts ?_
  · rw [Wrappers.machine_on]
    exact run.vmcsPage
  rw [Wrappers.on_on]
  refine hbasic.bind_aborts ?_
  refine (stamp_returns (faulting env) run.vmcsRegion run.revision _).bind_aborts ?_
  refine Returns.bind_aborts run.vmclear (Returns.bind_aborts run.vmptrld ?_)
  refine (setStatics_returns (faulting env) _ _).bind_aborts ?_
  refine (hpage run.guest.stackPages).bind_aborts ?_
  refine (hpage (r := .ok run.guest.guestCode) ?_).bind_aborts ?_
  · rw [Wrappers.machine_on]
    exact run.guest.codePage
  refine (hpage (r := .ok run.guest.guestStack) ?_).bind_aborts ?_
  · rw [Wrappers.machine_on, Wrappers.machine_on]
    exact run.guest.stackPage
  refine (copy_returns (faulting env) run.guest.guestCode _).bind_aborts ?_
  exact hwrite.bind _

/-! ### Each of the four is needed -/

theorem smx_of_noFault {systemTable : BitVec 64} (hsupported : supported env = true)
    (h : ∀ e t, ¬ Aborts (efiMainChecked env systemTable) s (.fault e) t) :
    locked (s.regs.msr ia32FeatureControl) = true ∨ smx env = true := by
  by_contra hno
  obtain ⟨hunlocked, hsmx⟩ := not_or.mp hno
  rw [Bool.not_eq_true] at hunlocked hsmx
  exact h _ _ (efiMain_faults (init_faults_feature hsupported
    (featureControlChecked_faults hunlocked hsmx)))

theorem setup_noFault {systemTable : BitVec 64} (hsupported : supported env = true)
    (hok : featureOk (s.regs.msr ia32FeatureControl) = true)
    (h : ∀ e t, ¬ Aborts (efiMainChecked env systemTable) s (.fault e) t) (e : Exception)
    (t : Machine) :
    ¬ Aborts ((faulting env).setup env) (s.booted systemTable).prepared (.fault e) t := by
  intro ht
  have hsmx := smx_of_noFault hsupported h
  exact h e t (efiMain_faults
    (init_faults_setup (s := s.booted systemTable) hsupported hok hsmx ht))

/-- VMXON is executed, -/
theorem vmxon_of_noFault (run : SetupRun (named env) env s t)
    (h : ∀ e t, ¬ Aborts ((faulting env).setup env) s (.fault e) t) :
    Sdm.fault s (.vmxon run.vmxonRegion) = none := by
  cases hfault : Sdm.fault s (.vmxon run.vmxonRegion) with
  | none => rfl
  | some x =>
    have hvmxon : ∃ v, Aborts (vmxonChecked env run.vmxonRegion) s.allocated (.fault x) v :=
      vmxonChecked_faults hfault
    obtain ⟨v, hv⟩ := hvmxon
    have hpage := allocatePages_returns (w := faulting env) run.vmxonPage
    exact absurd (hpage.bind_aborts (hv.bind _)) (h x v)

/-- and `write_state` is reached, and reads MSR 0x48B. -/
theorem secondary_of_noFault (run : SetupRun (named env) env s t)
    (hwilling : ∀ n f, env.vmwriteOk n f = true)
    (h : ∀ e t, ¬ Aborts ((faulting env).setup env) s (.fault e) t) :
    hasSecondary s.regs.msr = true := by
  cases hsec : hasSecondary s.regs.msr with
  | true => rfl
  | false =>
    have hfilling := run.filling (named_onMachine env)
    have hno : hasSecondary run.entry.regs.msr = false := by
      rw [hfilling.regs]
      exact hsec
    have hwrite : ∃ v, Aborts ((checked env).writeState env run.guest.hostStack
        run.guest.guestCode run.guest.guestStack) run.entry (.fault .generalProtection) v :=
      checked_writeState_faults hno hfilling.on hwilling
    obtain ⟨v, hv⟩ := hwrite
    exact absurd (setup_faults run (vmxon_of_noFault run h) hv) (h _ v)

/-- On a processor that grants everything else. -/
theorem spared_of_noFault (hs : Fresh s) (h : ∀ env', env'.cpuid = env.cpuid →
    ∀ systemTable e t, ¬ Aborts (efiMainChecked env' systemTable) s (.fault e) t) :
    Spared env s.regs := by
  intro hsupported hok
  have hnone : ∀ e t, ¬ Aborts (efiMainChecked (grantingOn env.cpuid) 0x7F000000) s (.fault e) t :=
    h (grantingOn env.cpuid) rfl 0x7F000000
  have hsetup := @setup_noFault (grantingOn env.cpuid) s _ hsupported hok hnone
  -- there `setup` returns `Ok`, so it gets to every instruction that can fault
  obtain ⟨t, ht⟩ := setup_granting env.cpuid (s := (s.booted 0x7F000000).prepared) hs.noneActive
    (show (0x7F000000 : BitVec 64) ≠ 0 by decide)
  rw [← named_setup] at ht
  obtain ⟨run⟩ := setup_returns_iff.mp ht
  have hoff : s.vmx.on = false := by rw [Vmx.on, hs.outside]; rfl
  obtain ⟨hvmxe, houtside⟩ := (vmxon_fault_iff (s := s)
    (t := (s.booted 0x7F000000).prepared) hoff rfl run.vmxonRegion).mp
    (vmxon_of_noFault run hsetup)
  have hsec := secondary_of_noFault run (fun _ _ => rfl) hsetup
  have hsmx : locked (s.regs.msr ia32FeatureControl) = true ∨ smx env = true :=
    @smx_of_noFault (grantingOn env.cpuid) s _ hsupported hnone
  exact ⟨hsmx, houtside, hvmxe, (unlocked_secondary s.regs).symm.trans hsec⟩

end Raised

/-! ## After the launch -/

/-- VMRESUME in VMX operation does not fault. -/
theorem vmresume_mode {env : Env} {c : Cpu} (hon : c.machine.vmx.on = true)
    (hmode : c.mode = .host) : ∀ a, (c.vmresume env).mode ≠ .aborted a := by
  intro a
  rw [Cpu.vmresume, if_pos hon]
  split
  · exact fun h => by cases h
  · exact fun h => by cases hmode.symm.trans h

theorem turn_mode {env : Env} {s : Machine} {region : Addr} (hs : s.Live region) (e : Exit) :
    ∀ a, (e.turn env s).mode ≠ .aborted a := by
  obtain ⟨al, t, hret, ht⟩ := @handler_called env _ _ hs e
  obtain ⟨d, hturn, ⟨mem, hmachine⟩, hmode, -, hpc⟩ := turn_dispatched hret
  rw [hturn]
  intro a
  by_cases hal : al = 0
  · rw [if_pos hal] at hpc
    rw [step_of_fetch (i := .vmresume) hmode (by rw [hpc]; rfl)]
    refine vmresume_mode ?_ hmode a
    -- an answer of 0 leaves VMX on
    have hstop : ((e.entry s).atCall env e.scratch).stopsAt = false := by
      cases hstop : ((e.entry s).atCall env e.scratch).stopsAt with
      | false => rfl
      | true =>
        have hanswer := ht.answer
        rw [hstop, hal] at hanswer
        exact absurd hanswer (by decide)
    rw [hmachine]
    exact (ht.live hstop).on
  · rw [if_neg hal] at hpc
    have hhost := (@step_halting env e.scratch d ⟨hmode, .inr (by omega)⟩).1.1
    exact fun h => by cases hhost.symm.trans h

theorem loop_mode {env : Env} {region : Addr} {s : Machine} (hs : Launched s region)
    {es : List Exit} {t : LoopState} (h : run (exitStep env) (.start s) es = some t) :
    ∀ a, t.mode ≠ .aborted a := by
  suffices hall : LoopInv env region s es t ∧ ∀ a, t.mode ≠ .aborted a from hall.2
  refine run_inv_history
    (I := fun es t => LoopInv env region s es t ∧ ∀ a, LoopState.mode t ≠ .aborted a)
    ?_ ⟨loopInv_start hs, fun a h => by cases h⟩ h
  rintro es t e u ⟨hinv, -⟩ hstep
  refine ⟨exitStep_inv hinv hstep, ?_⟩
  cases hmode : t.mode with
  | host | aborted => simp [exitStep, hmode] at hstep
  | guest =>
    rw [exitStep_guest env hmode] at hstep
    have hturn := @turn_mode env _ _ (hinv.guest hmode).1 e
    generalize e.turn env t.machine = c at hturn hstep
    obtain rfl := Option.some.inj hstep
    exact hturn

/-! ## Every boot -/

/-- A boot that raises no exception comes to a stage. -/
theorem boot_stage {env : Env} {systemTable : BitVec 64} {s : Machine} (hs : Fresh s) :
    ∃ stage t, Boot env systemTable s stage t := by
  obtain ⟨v, t, hr, -⟩ | ⟨e, t, he, haborted⟩ := (@efiMain_did env systemTable _ hs).cases
  · exact ⟨_, t, .returned hr⟩
  · cases e with
    | panic msg => exact ⟨_, _, .panicked he (panicHandler_inactive haborted.2.1 msg)⟩
    | fault e => exact haborted.elim
    | launched => exact ⟨.guest [] .guest, t, @Boot.guest _ _ _ _ [] _ he rfl⟩
    | halted => exact ⟨_, t, .refused he⟩

/-- **The exceptions of a boot**: none is raised, whatever the firmware and the
processor answer, exactly on the machines that are spared. There a boot is one
of `Boot`, comes to a stage, and has its exit loop in the guest or stopped. -/
theorem boot_noFault_iff {s : Machine} (hs : Fresh s) (env : Env) :
    ((∀ env', env'.cpuid = env.cpuid → ∀ systemTable e t,
        ¬ Aborts (efiMainChecked env' systemTable) s (.fault e) t) ↔ Spared env s.regs) ∧
    (Spared env s.regs → ∀ systemTable,
      efiMainChecked env systemTable s = efiMain env systemTable s ∧
      (∃ stage t, Boot env systemTable s stage t) ∧
      ∀ es mode t, Boot env systemTable s (.guest es mode) t → mode = .guest ∨ mode = .host) := by
  have hoff : s.vmx.on = false := by rw [Vmx.on, hs.outside]; rfl
  constructor
  · constructor
    · exact spared_of_noFault hs
    · intro hspared env' heq systemTable e t ht
      have hplain : Aborts (efiMain env' systemTable) s (.fault e) t :=
        (efiMainChecked_eq hoff (hspared.of_cpuid heq) systemTable).symm.trans ht
      exact (ends_of_aborts hplain).mp (efiMain_did hs)
  · intro hspared systemTable
    refine ⟨efiMainChecked_eq hoff hspared systemTable, boot_stage hs, ?_⟩
    intro es mode t hboot
    obtain ⟨region, s₀, u, hs₀, hrun, -, rfl, -⟩ := hboot.loop hs
    have hmode := loop_mode hs₀ hrun
    cases h : u.mode with
    | guest => exact .inl rfl
    | host => exact .inr rfl
    | aborted a => exact absurd h (hmode a)

/-- The MSRs of `bootMachine`, with bit 63 of MSR 0x482 set. -/
def sparedMsrs : BitVec 32 → BitVec 64 := fun m =>
  if m = ia32VmxProcbasedCtls then 0x8000000000000000 else bootMachine.regs.msr m

theorem boot_noFault_iff_spared :
    (∀ systemTable e t,
      ¬ Aborts (efiMainChecked grantingEnv systemTable) (bootWith sparedMsrs) (.fault e) t) ∧
    ∃ stage t, Boot grantingEnv 0x7F000000 (bootWith sparedMsrs) stage t := by
  have hfresh : Fresh (bootWith sparedMsrs) :=
    ⟨rfl, rfl, bootMachine_fresh.vmxe, rfl, rfl, rfl, rfl, rfl⟩
  have hspared : Spared grantingEnv (bootWith sparedMsrs).regs := fun _ _ =>
    ⟨.inl (by decide), by decide, by decide, by decide⟩
  obtain ⟨hiff, hthere⟩ := boot_noFault_iff hfresh grantingEnv
  exact ⟨hiff.mpr hspared grantingEnv rfl, (hthere hspared 0x7F000000).2.1⟩

end MochiVM.Hv
