import MochiVM.Hv.Setup

/-!
# Bring-up (hv.rs, main.rs)

`init` probes for VMX, unlocks it, sets the fixed control-register bits, and
hands over to `setup` and `enter_guest`. It comes back to the firmware only when
one of the first steps fails.

`ends_init_early` and `ends_init_setup` say once what comes before `setup`:
either nothing but a line on the serial port, or the registers prepared for
VMXON.
-/

namespace MochiVM.Hv

open MochiVM.Panic

/-- `hv::init` (hv.rs:10). -/
def init (env : Env) : HvM PUnit := do
  serialPrintln "[mochivm] probing for vmx..."
  if !(← vmxSupported env) then
    serialPrintln "[mochivm] error: vmx not supported by this cpu"
  else
  match ← featureControl with
  | .error e => serialPrintln s!"[mochivm] error: feature control: {e}"
  | .ok _ =>
  applyFixedBits
  match ← setup env with
  | .ok _ => do
    serialPrintln "[mochivm] launching guest..."
    enterGuest env
  | .error e => serialPrintln s!"[mochivm] error: vmcs setup: {e}"

/-- `hv::shutdown` (hv.rs:35). -/
def shutdown (env : Env) : HvM PUnit := teardown env

/-- `efi_main` (main.rs:14), the UART set-up apart. -/
def efiMain (env : Env) (systemTable : BitVec 64) : HvM (BitVec 64) := do
  setStatics fun st => { st with systemTable := systemTable }
  serialPrintln "[mochivm] mochivm booted"
  serialPrintln "[mochivm] from-scratch type-2 hypervisor skeleton (vmx/vmcs + hello-world guest)"
  init env
  pure 0

/-- The panic handler (main.rs:33). -/
def panicHandler (env : Env) (msg : String) : HvM PUnit := do
  serialPrintln s!"[mochivm] PANIC: {msg}"
  shutdown env
  throw .halted

/-! ## Up to `setup` -/

/-- `init` gets as far as `setup`. -/
def reachesSetup (env : Env) (s : Machine) : Bool :=
  supported env && featureOk (s.regs.msr ia32FeatureControl)

/-- The machine `init` enters `setup` with. -/
def Machine.prepared (s : Machine) : Machine :=
  ((s.printed "[mochivm] probing for vmx...").setRegs s.regs.unlocked).setRegs
    s.regs.unlocked.fixedBits

section Ends

variable {env : Env} {s : Machine}

theorem ends_init_early (h : reachesSetup env s = false) :
    ∃ line, ∀ (Q : PUnit → Machine → Prop) (E : Abort → Machine → Prop),
      Ends (init env) s Q E ↔
        Q ⟨⟩ ((s.printed "[mochivm] probing for vmx...").printed line) := by
  cases hs : supported env with
  | false =>
    refine ⟨"[mochivm] error: vmx not supported by this cpu", fun Q E => ?_⟩
    rw [init, ends_bind, ends_serialPrintln, ends_bind, ends_vmxSupported, hs]
    exact Iff.rfl
  | true =>
    have hf : featureOk (s.regs.msr ia32FeatureControl) = false := by
      simpa [reachesSetup, hs] using h
    refine ⟨"[mochivm] error: feature control: " ++ "vmx locked and disabled by firmware",
      fun Q E => ?_⟩
    rw [init, ends_bind, ends_serialPrintln, ends_bind, ends_vmxSupported, hs, Bool.not_true,
      if_neg Bool.false_ne_true, ends_bind, ends_featureControl]
    simp only [Machine.printed_regs]
    rw [hf, if_neg Bool.false_ne_true]
    exact Iff.rfl

theorem ends_init_setup (h : reachesSetup env s = true) {Q : PUnit → Machine → Prop}
    {E : Abort → Machine → Prop} :
    Ends (init env) s Q E ↔
      Ends (setup env) s.prepared
        (fun r t => match r with
          | .ok _ => Ends (enterGuest env) (t.printed "[mochivm] launching guest...") Q E
          | .error e => Q ⟨⟩ (t.printed s!"[mochivm] error: vmcs setup: {e}")) E := by
  obtain ⟨hs, hf⟩ := Bool.and_eq_true_iff.mp h
  rw [init, ends_bind, ends_serialPrintln, ends_bind, ends_vmxSupported, hs, Bool.not_true,
    if_neg Bool.false_ne_true, ends_bind, ends_featureControl]
  simp only [Machine.printed_regs]
  rw [hf, if_pos rfl, ends_bind, ends_applyFixedBits, ends_bind]
  refine iff_of_eq (congrArg (fun post => Ends (setup env) s.prepared post E) ?_)
  funext r t
  cases r with
  | ok _ => exact propext (ends_bind _ _ _ _ _)
  | error e => rfl

end Ends

end MochiVM.Hv
