import MochiVM.Hv.Setup

/-!
# `setup` over other wrappers

`Setup` runs `setup` with wrappers whose answers are left to `Env`. Here the
wrappers are a parameter, so that the same code can be run on a finer model of
the processor: one where a MSR can be missing, or where VMX instructions report
their outcome in RFLAGS.

- `named_setup`: with the wrappers of `Vmx` it is `setup` again;
- `setup_returns_iff`: `setup` returns `Ok` exactly when every step in it does;
  `SetupRun` lists the steps and the states between them.
-/

namespace MochiVM.Hv

open MochiVM.Panic

/-- The wrappers of vmx.rs and `rdmsr`, on states `σ` that have a machine in
them. -/
structure Wrappers (σ : Type) where
  machine : σ → Machine
  put : σ → Machine → σ
  machine_put : ∀ s t, machine (put s t) = t
  put_put : ∀ s t t', put (put s t) t' = put s t'
  rdmsr : BitVec 32 → EStateM Abort σ (BitVec 64)
  vmxon : Addr → EStateM Abort σ (Except String PUnit)
  vmxoff : EStateM Abort σ (Except PUnit PUnit)
  vmclear : Addr → EStateM Abort σ (Except PUnit PUnit)
  vmptrld : Addr → EStateM Abort σ (Except PUnit PUnit)
  vmwrite : BitVec 32 → BitVec 64 → EStateM Abort σ (Except PUnit PUnit)

/-! ## The fields of `write_state` -/

/-- A VMWRITE of `write_state`, and the capability MSR its value is computed
from. -/
structure StateStep where
  caps : Option (BitVec 32)
  write : BitVec 64 → StateWrite

namespace StateStep

/-- A value that no capability MSR is read for. -/
def plain (w : StateWrite) : StateStep := ⟨none, fun _ => w⟩

/-- `write_ctrl(field, calc_ctrl(msr, desired))`. -/
def computed (field msr desired : BitVec 32) : StateStep :=
  ⟨some msr, fun caps => .ctrl field (ctrlWord caps desired)⟩

/-- `write_ctrl(field, calc_secondary(desired))`. -/
def secondary (field desired : BitVec 32) : StateStep :=
  ⟨some ia32VmxSecondaryProcbasedCtls, fun caps => .ctrl field (secondaryWord caps desired)⟩

/-- The VMWRITE of a step, with the MSRs of `r`. -/
def resolved (r : Regs) (x : StateStep) : StateWrite := x.write ((x.caps.map r.msr).getD 0)

end StateStep

/-- The controls (vmcs.rs:336). -/
def controlSteps : List StateStep :=
  [.computed pinBasedCtls ia32VmxPinbasedCtls 0,
   .computed procBasedCtls ia32VmxProcbasedCtls hltExiting,
   .secondary secondaryProcBasedCtls 0,
   .plain (.ctrl excBitmap 0),
   .plain (.ctrl pfErrorMask 0),
   .plain (.ctrl pfErrorMatch 0),
   .plain (.ctrl cr3TargetCount 0),
   .computed vmExitCtls ia32VmxExitCtls (hostLongMode ||| loadIa32EferExit),
   .computed vmEntryCtls ia32VmxEntryCtls (guestLongMode ||| loadIa32EferEntry),
   .plain (.ctrl vmExitMsrStoreCount 0),
   .plain (.ctrl vmExitMsrLoadCount 0),
   .plain (.ctrl vmEntryMsrLoadCount 0),
   .plain (.ctrl vmEntryIntrInfo 0),
   .plain (.ctrl vmEntryExcErr 0),
   .plain (.ctrl vmEntryInstrLen 0)]

/-- The VMWRITEs of `write_state`, in order, with the MSRs read between them. -/
def stateSteps (r : Regs) (trBase hostEntry hostStack guestCode guestStack : BitVec 64) :
    List StateStep :=
  controlSteps ++ (guestGeneralWrites r guestCode guestStack ++ guestSegmentWrites r trBase ++
    hostWrites r trBase hostEntry hostStack).map .plain

theorem stateSteps_resolved (r : Regs)
    (trBase hostEntry hostStack guestCode guestStack : BitVec 64) :
    (stateSteps r trBase hostEntry hostStack guestCode guestStack).map (·.resolved r) =
      stateWrites r trBase hostEntry hostStack guestCode guestStack := by
  have hplain : ∀ ws : List StateWrite,
      (ws.map StateStep.plain).map (·.resolved r) = ws := fun ws => by
    rw [List.map_map]
    exact List.map_id ws
  have hcontrols : controlSteps.map (·.resolved r) = controlWrites r := rfl
  rw [stateSteps, List.map_append, hplain, hcontrols, stateWrites]
  simp only [List.append_assoc]

/-! ## The code -/

namespace Wrappers

variable {σ : Type} (w : Wrappers σ)

/-- Code that executes no VMX instruction. -/
def up {α : Type} (m : HvM α) : EStateM Abort σ α := fun s =>
  match m (w.machine s) with
  | .ok a t => .ok a (w.put s t)
  | .error e t => .error e (w.put s t)

/-- A VMWRITE of `write_state`, and the `expect` around it. -/
def issue (x : StateStep) : EStateM Abort σ PUnit := do
  let caps ← match x.caps with
    | some msr => w.rdmsr msr
    | none => pure 0
  let y := x.write caps
  match ← w.vmwrite y.field y.value with
  | .ok _ => pure ⟨⟩
  | .error _ => throw (.panic s!"{y.msg}: ()")

def issueAll : List StateStep → EStateM Abort σ PUnit
  | [] => pure ⟨⟩
  | x :: xs => do
    w.issue x
    issueAll xs

/-- `write_state` (vmcs.rs:321), as its list of VMWRITEs. -/
def writeState (env : Env) (hostStack guestCode guestStack : BitVec 64) :
    EStateM Abort σ (Except String PUnit) := fun s =>
  let m := w.machine s
  (w.issueAll (stateSteps m.regs (trBaseOf m) env.hostEntry hostStack guestCode guestStack) >>=
    fun _ => pure (.ok ⟨⟩)) s

/-- `vmxoff_and_clear` (vmcs.rs:312). -/
def vmxoffAndClear : EStateM Abort σ PUnit := do
  if (← w.up getStatics).vmxonRegion != 0 then
    let _ ← w.vmxoff
    let cr4 ← w.up readCr4
    w.up (writeCr4 (cr4 &&& ~~~cr4Vmxe))
    w.up (setStatics fun st => { st with vmxonRegion := 0 })

/-- The last part of `setup` (vmcs.rs:158). -/
def setupGuest (env : Env) : EStateM Abort σ (Except String PUnit) := do
  match ← w.up (allocatePages env 4) with
  | .error e => do
    w.vmxoffAndClear
    pure (.error e)
  | .ok hostStack =>
  match ← w.up (allocatePage env) with
  | .error e => do
    w.vmxoffAndClear
    pure (.error e)
  | .ok guestCode =>
  match ← w.up (allocatePage env) with
  | .error e => do
    w.vmxoffAndClear
    pure (.error e)
  | .ok guestStack =>
  w.up (copyNonoverlapping guestBin guestCode)
  match ← w.writeState env hostStack guestCode guestStack with
  | .error e => pure (.error e)
  | .ok _ =>
  w.up (setStatics fun st => { st with vmxActive := true })
  w.up (serialPrintln "[mochivm] vmcs ready")
  pure (.ok ⟨⟩)

/-- The middle part of `setup` (vmcs.rs:140). -/
def setupVmcs (env : Env) : EStateM Abort σ (Except String PUnit) := do
  match ← w.up (allocatePage env) with
  | .error e => do
    w.vmxoffAndClear
    pure (.error e)
  | .ok vmcsRegion =>
  w.up (writeVolatile32 vmcsRegion ((← w.rdmsr 0x480#32).setWidth 32))
  match ← w.vmclear vmcsRegion with
  | .error _ => do
    w.vmxoffAndClear
    pure (.error "vmclear failed")
  | .ok _ =>
  match ← w.vmptrld vmcsRegion with
  | .error _ => do
    w.vmxoffAndClear
    pure (.error "vmptrld failed")
  | .ok _ =>
  w.up (setStatics fun st => { st with vmcsRegion := vmcsRegion })
  w.setupGuest env

/-- `setup` (vmcs.rs:130). -/
def setup (env : Env) : EStateM Abort σ (Except String PUnit) := do
  match ← w.up (allocatePage env) with
  | .error e => pure (.error e)
  | .ok vmxonRegion =>
  match ← w.vmxon vmxonRegion with
  | .error e => pure (.error e)
  | .ok _ =>
  w.up (setStatics fun st => { st with vmxonRegion := vmxonRegion })
  w.setupVmcs env

end Wrappers

/-! ## The wrappers of `Vmx` -/

/-- The wrappers of `Vmx`. -/
def named (env : Env) : Wrappers Machine where
  machine s := s
  put _ t := t
  machine_put _ _ := rfl
  put_put _ _ _ := rfl
  rdmsr := rdmsr
  vmxon := vmxon env
  vmxoff := vmxoff
  vmclear := vmclear env
  vmptrld := vmptrld env
  vmwrite := vmwrite env

/-- Wrappers on the machine itself run other code as it is. -/
theorem Wrappers.up_eq {w : Wrappers Machine} (hmachine : ∀ s, w.machine s = s)
    (hput : ∀ s t, w.put s t = t) {α : Type} (m : HvM α) : w.up m = m := by
  funext s
  rw [Wrappers.up, hmachine]
  cases m s with
  | ok a t => exact congrArg (EStateM.Result.ok a) (hput s t)
  | error e t => exact congrArg (EStateM.Result.error e) (hput s t)

/-- Wrappers on the machine itself, with the VMX instructions of `Vmx` and a
`rdmsr` that changes nothing. -/
structure OnMachine (w : Wrappers Machine) (env : Env) : Prop where
  machine : ∀ s, w.machine s = s
  put : ∀ s t, w.put s t = t
  rdmsr : ∀ {msr s a t}, Returns (w.rdmsr msr) s a t → t = s
  vmxon : w.vmxon = vmxon env
  vmclear : w.vmclear = vmclear env
  vmptrld : w.vmptrld = vmptrld env
  vmwrite : w.vmwrite = vmwrite env

theorem named_onMachine (env : Env) : OnMachine (named env) env :=
  ⟨fun _ => rfl, fun _ _ => rfl, fun h => by cases h; rfl, rfl, rfl, rfl, rfl⟩

namespace OnMachine

variable {w : Wrappers Machine} {env : Env} (h : OnMachine w env)

include h

theorem up {α : Type} (m : HvM α) : w.up m = m := Wrappers.up_eq h.machine h.put m

/-- When `rdmsr` reads the MSRs of a step, the step is a VMWRITE. -/
theorem issue {x : StateStep} {s : Machine}
    (hrd : ∀ msr ∈ x.caps, Returns (w.rdmsr msr) s (s.regs.msr msr) s) :
    w.issue x s = expect (x.resolved s.regs).msg
      (MochiVM.Hv.vmwrite env (x.resolved s.regs).field (x.resolved s.regs).value) s := by
  obtain ⟨caps, write⟩ := x
  rw [Wrappers.issue, h.vmwrite]
  cases caps with
  | none => rfl
  | some msr => exact bind_of_returns (hrd msr rfl) _

/-- `write_state` issues its list. -/
theorem issueAll : ∀ {xs : List StateStep} {s : Machine},
    (∀ x ∈ xs, ∀ msr ∈ x.caps, ∀ u : Machine, u.regs = s.regs →
      Returns (w.rdmsr msr) u (u.regs.msr msr) u) →
    w.issueAll xs s = writeAll env (xs.map (·.resolved s.regs)) s
  | [], _, _ => rfl
  | x :: xs, s, hrd => by
    have hhead := h.issue (s := s) fun msr hmsr => hrd x List.mem_cons_self msr hmsr s rfl
    have hregs := @expect_vmwrite_regs env s.regs (x.resolved s.regs).msg
      (x.resolved s.regs).field (x.resolved s.regs).value s rfl
    rw [Wrappers.issueAll, List.map_cons, writeAll]
    cases hres : expect (x.resolved s.regs).msg
        (MochiVM.Hv.vmwrite env (x.resolved s.regs).field (x.resolved s.regs).value) s with
    | error e t => rw [bind_of_aborts (hhead.trans hres), bind_of_aborts hres]
    | ok a t =>
      rw [bind_of_returns (hhead.trans hres), bind_of_returns hres]
      rw [hres] at hregs
      have ih : w.issueAll xs t = writeAll env (xs.map (·.resolved t.regs)) t :=
        issueAll fun y hy msr hmsr u hu =>
          hrd y (List.mem_cons_of_mem _ hy) msr hmsr u (hu.trans hregs)
      rw [ih, show t.regs = s.regs from hregs]

theorem writeState {s : Machine} {hostStack guestCode guestStack : BitVec 64}
    (hrd : ∀ x ∈ controlSteps, ∀ msr ∈ x.caps, ∀ u : Machine, u.regs = s.regs →
      Returns (w.rdmsr msr) u (u.regs.msr msr) u) :
    w.writeState env hostStack guestCode guestStack s =
      MochiVM.Hv.writeState env hostStack guestCode guestStack s := by
  have hall : ∀ x ∈ stateSteps s.regs (trBaseOf s) env.hostEntry hostStack guestCode guestStack,
      ∀ msr ∈ x.caps, ∀ u : Machine, u.regs = s.regs →
      Returns (w.rdmsr msr) u (u.regs.msr msr) u := by
    intro x hx msr hmsr
    obtain hx | hx := List.mem_append.mp hx
    · exact hrd x hx msr hmsr
    · obtain ⟨y, _, rfl⟩ := List.mem_map.mp hx
      cases hmsr
  rw [writeState_eq, Wrappers.writeState, h.machine, writesOf,
    ← stateSteps_resolved s.regs (trBaseOf s) env.hostEntry hostStack guestCode guestStack]
  show EStateM.bind _ _ s = EStateM.bind _ _ s
  rw [EStateM.bind, EStateM.bind, h.issueAll hall]

end OnMachine

/-- **`setup` is `setup`**: with the wrappers of `Vmx` the code here is that of
`Vmcs`. -/
theorem named_setup (env : Env) : (named env).setup env = setup env := by
  have hup : ∀ {α : Type} (m : HvM α), (named env).up m = m := (named_onMachine env).up
  have hwrite : (named env).writeState env = writeState env := by
    funext hostStack guestCode guestStack s
    exact (named_onMachine env).writeState fun _ _ _ _ _ _ => rfl
  have hoff : (named env).vmxoffAndClear = vmxoffAndClear := by
    rw [Wrappers.vmxoffAndClear, hup, hup]
    simp only [hup]
    rfl
  have hguest : (named env).setupGuest env = setupGuest env := by
    rw [Wrappers.setupGuest, hwrite, hoff]
    simp only [hup]
    rfl
  have hvmcs : (named env).setupVmcs env = setupVmcs env := by
    rw [Wrappers.setupVmcs, hguest, hoff]
    simp only [hup]
    rfl
  rw [Wrappers.setup, hvmcs]
  simp only [hup]
  rfl

/-! ## A run of `setup` that returns -/

namespace Wrappers

variable {σ : Type} (w : Wrappers σ)

/-- The state with a change made to its machine. -/
def on (f : Machine → Machine) (s : σ) : σ := w.put s (f (w.machine s))

@[simp] theorem machine_on (f : Machine → Machine) (s : σ) :
    w.machine (w.on f s) = f (w.machine s) := w.machine_put _ _

theorem on_on (f g : Machine → Machine) (s : σ) :
    w.on f (w.on g s) = w.on (fun m => f (g m)) s := by
  rw [on, machine_on, on, w.put_put, on]

theorem up_returns {α : Type} {m : HvM α} {f : Machine → Machine} {a : α} {s : σ}
    (h : Returns m (w.machine s) a (f (w.machine s))) : Returns (w.up m) s a (w.on f s) := by
  show w.up m s = _
  rw [up, show m (w.machine s) = _ from h]
  rfl

end Wrappers

/-- The answer to an allocation in machine `m`. -/
def Machine.page (env : Env) (m : Machine) (pages : BitVec 64) : Except String Addr :=
  allocAnswer env m.st.systemTable m.allocs pages

/-- The machine with the guest's code copied to `dst`. -/
def Machine.copied (dst : Addr) (m : Machine) : Machine :=
  m.setMem (storeBytes m.mem dst guestBin)

/-- The machine with the revision identifier written to `dst`. -/
def Machine.stamped (dst : Addr) (revision : BitVec 64) (m : Machine) : Machine :=
  m.setMem (storeLE m.mem dst 4 ((revision.setWidth 32).setWidth 64))

section Run

variable {σ : Type} {w : Wrappers σ} {env : Env} {s t u v : σ}

/-! What the code between the VMX instructions does. -/

theorem allocatePages_returns {pages : BitVec 64} {r : Except String Addr}
    (h : (w.machine u).page env pages = r) :
    Returns (w.up (allocatePages env pages)) u r (w.on Machine.allocated u) := by
  rw [← h]
  exact w.up_returns (show Returns _ _ _ _ from rfl)

theorem of_allocatePages {pages : BitVec 64} {r : Except String Addr}
    (h : Returns (w.up (allocatePages env pages)) u r v) :
    (w.machine u).page env pages = r ∧ v = w.on Machine.allocated u := by
  obtain ⟨hr, hv⟩ := (allocatePages_returns rfl).unique h
  exact ⟨hr, hv.symm⟩

theorem setStatics_returns (w : Wrappers σ) (f : Statics → Statics) (u : σ) :
    Returns (w.up (setStatics f)) u ⟨⟩ (w.on (fun m => m.setSt (f m.st)) u) :=
  w.up_returns (show Returns _ _ _ _ from rfl)

theorem stamp_returns (w : Wrappers σ) (dst : Addr) (revision : BitVec 64) (u : σ) :
    Returns (w.up (writeVolatile32 dst (revision.setWidth 32))) u ⟨⟩
      (w.on (Machine.stamped dst revision) u) :=
  w.up_returns (show Returns _ _ _ _ from rfl)

theorem copy_returns (w : Wrappers σ) (dst : Addr) (u : σ) :
    Returns (w.up (copyNonoverlapping guestBin dst)) u ⟨⟩ (w.on (Machine.copied dst) u) :=
  w.up_returns (show Returns _ _ _ _ from rfl)

theorem print_returns (w : Wrappers σ) (line : String) (u : σ) :
    Returns (w.up (serialPrintln line)) u ⟨⟩ (w.on (Machine.printed · line) u) :=
  w.up_returns (show Returns _ _ _ _ from rfl)

/-- What the last part of `setup` does when it returns `Ok`. -/
structure GuestRun (w : Wrappers σ) (env : Env) (u t : σ) where
  hostStack : Addr
  guestCode : Addr
  guestStack : Addr
  filled : σ
  stackPages : (w.machine u).page env 4 = .ok hostStack
  codePage : (w.machine u).allocated.page env 1 = .ok guestCode
  stackPage : (w.machine u).allocated.allocated.page env 1 = .ok guestStack
  writeState : Returns (w.writeState env hostStack guestCode guestStack)
    (w.on (fun m => m.allocated.allocated.allocated.copied guestCode) u) (.ok ⟨⟩) filled
  done : t = w.on (fun m =>
    (m.setSt { m.st with vmxActive := true }).printed "[mochivm] vmcs ready") filled

theorem GuestRun.of_returns (h : Returns (w.setupGuest env) u (.ok ⟨⟩) t) :
    Nonempty (GuestRun w env u t) := by
  obtain ⟨hostStack, u₁, h₁, h⟩ := h.of_bind_ok fun _ _ => not_returns_error
  obtain ⟨hp₁, rfl⟩ := of_allocatePages h₁
  obtain ⟨guestCode, u₂, h₂, h⟩ := h.of_bind_ok fun _ _ => not_returns_error
  obtain ⟨hp₂, rfl⟩ := of_allocatePages h₂
  obtain ⟨guestStack, u₃, h₃, h⟩ := h.of_bind_ok fun _ _ => not_returns_error
  obtain ⟨hp₃, rfl⟩ := of_allocatePages h₃
  obtain ⟨_, u₄, h₄, h⟩ := h.of_bind
  obtain ⟨-, rfl⟩ := (copy_returns w guestCode _).unique h₄
  obtain ⟨_, filled, hfill, h⟩ := h.of_bind_ok fun e v hv =>
    absurd ((returns_pure _ _).unique hv).1 (by simp)
  obtain ⟨_, u₅, h₅, h⟩ := h.of_bind
  obtain ⟨-, rfl⟩ := (setStatics_returns w _ _).unique h₅
  obtain ⟨_, u₆, h₆, h⟩ := h.of_bind
  obtain ⟨-, rfl⟩ := (print_returns w _ _).unique h₆
  obtain ⟨-, rfl⟩ := (returns_pure _ _).unique h
  simp only [w.machine_on] at hp₂ hp₃
  simp only [w.on_on] at hfill
  exact ⟨⟨hostStack, guestCode, guestStack, filled, hp₁, hp₂, hp₃, hfill, w.on_on _ _ _⟩⟩

theorem GuestRun.returns (run : GuestRun w env u t) :
    Returns (w.setupGuest env) u (.ok ⟨⟩) t := by
  refine (allocatePages_returns run.stackPages).bind ?_
  refine (allocatePages_returns (r := .ok run.guestCode) ?_).bind ?_
  · rw [w.machine_on]
    exact run.codePage
  refine (allocatePages_returns (r := .ok run.guestStack) ?_).bind ?_
  · rw [w.machine_on, w.machine_on]
    exact run.stackPage
  refine (copy_returns w run.guestCode _).bind ?_
  rw [w.on_on, w.on_on, w.on_on]
  refine run.writeState.bind ?_
  refine (setStatics_returns w _ _).bind ((print_returns w _ _).bind ?_)
  rw [w.on_on]
  exact run.done ▸ returns_pure _ _

/-- A run of `setup` from `s` to `t` that returns `Ok`: the regions it gets, the
states right after its VMX instructions, and what happens between them. -/
structure SetupRun (w : Wrappers σ) (env : Env) (s t : σ) where
  vmxonRegion : Addr
  vmcsRegion : Addr
  revision : BitVec 64
  /-- After VMXON. -/
  entered : σ
  /-- After the revision identifier was read. -/
  read : σ
  /-- After VMCLEAR. -/
  cleared : σ
  /-- After VMPTRLD. -/
  loaded : σ
  vmxonPage : (w.machine s).page env 1 = .ok vmxonRegion
  vmxon : Returns (w.vmxon vmxonRegion) (w.on Machine.allocated s) (.ok ⟨⟩) entered
  vmcsPage : (w.machine entered).page env 1 = .ok vmcsRegion
  basic : Returns (w.rdmsr 0x480#32) (w.on (fun m =>
    (m.setSt { m.st with vmxonRegion := vmxonRegion }).allocated) entered) revision read
  vmclear : Returns (w.vmclear vmcsRegion) (w.on (Machine.stamped vmcsRegion revision) read)
    (.ok ⟨⟩) cleared
  vmptrld : Returns (w.vmptrld vmcsRegion) cleared (.ok ⟨⟩) loaded
  guest : GuestRun w env (w.on (fun m => m.setSt { m.st with vmcsRegion := vmcsRegion }) loaded) t

theorem SetupRun.of_returns (h : Returns (w.setup env) s (.ok ⟨⟩) t) :
    Nonempty (SetupRun w env s t) := by
  obtain ⟨vmxonRegion, u₁, h₁, h⟩ := h.of_bind_ok fun e v hv =>
    absurd ((returns_pure _ _).unique hv).1 (by simp)
  obtain ⟨hp₁, rfl⟩ := of_allocatePages h₁
  obtain ⟨_, entered, hvmxon, h⟩ := h.of_bind_ok fun e v hv =>
    absurd ((returns_pure _ _).unique hv).1 (by simp)
  obtain ⟨_, u₂, h₂, h⟩ := h.of_bind
  obtain ⟨-, rfl⟩ := (setStatics_returns w _ _).unique h₂
  obtain ⟨vmcsRegion, u₃, h₃, h⟩ := h.of_bind_ok fun _ _ => not_returns_error
  obtain ⟨hp₂, rfl⟩ := of_allocatePages h₃
  obtain ⟨revision, read, hread, h⟩ := h.of_bind
  obtain ⟨_, u₄, h₄, h⟩ := h.of_bind
  obtain ⟨-, rfl⟩ := (stamp_returns w vmcsRegion revision _).unique h₄
  obtain ⟨_, cleared, hclear, h⟩ := h.of_bind_ok fun _ _ => not_returns_error
  obtain ⟨_, loaded, hload, h⟩ := h.of_bind_ok fun _ _ => not_returns_error
  obtain ⟨_, u₅, h₅, h⟩ := h.of_bind
  obtain ⟨-, rfl⟩ := (setStatics_returns w _ _).unique h₅
  obtain ⟨guest⟩ := GuestRun.of_returns h
  rw [w.machine_on] at hp₂
  rw [w.on_on] at hread
  exact ⟨⟨vmxonRegion, vmcsRegion, revision, entered, read, cleared, loaded, hp₁, hvmxon, hp₂,
    hread, hclear, hload, guest⟩⟩

theorem SetupRun.returns (run : SetupRun w env s t) : Returns (w.setup env) s (.ok ⟨⟩) t := by
  refine (allocatePages_returns run.vmxonPage).bind ?_
  refine run.vmxon.bind ?_
  refine (setStatics_returns w _ _).bind ?_
  refine (allocatePages_returns (r := .ok run.vmcsRegion) ?_).bind ?_
  · rw [w.machine_on]
    exact run.vmcsPage
  rw [w.on_on]
  refine run.basic.bind ?_
  refine (stamp_returns w run.vmcsRegion run.revision _).bind ?_
  refine run.vmclear.bind (run.vmptrld.bind ?_)
  exact (setStatics_returns w _ _).bind run.guest.returns

/-- **`setup` returns `Ok` exactly when its steps do.** -/
theorem setup_returns_iff :
    Returns (w.setup env) s (.ok ⟨⟩) t ↔ Nonempty (SetupRun w env s t) :=
  ⟨SetupRun.of_returns, fun ⟨run⟩ => run.returns⟩

end Run

/-! ## Runs on the machine -/

theorem vmxInsn_ok {insn : VmxInsn} {ok : Nat → Bool} {effect : Vmx → Vmx} {s t : Machine}
    (h : Returns (vmxInsn insn ok effect) s (.ok ⟨⟩) t) :
    s.vmx.on = true ∧ t = (s.record insn).setVmx (effect s.vmx) := by
  by_cases hon : s.vmx.on = true
  · refine ⟨hon, ?_⟩
    have hrun : (if ok s.trace.length then .ok (.ok ⟨⟩) ((s.record insn).setVmx (effect s.vmx))
        else .ok (.error ⟨⟩) (s.record insn) : EStateM.Result Abort Machine (Except PUnit PUnit)) =
        .ok (.ok ⟨⟩) t := (if_pos hon).symm.trans h
    split at hrun
    · cases hrun
      rfl
    · cases hrun
  · exact (h.not_aborts (vmxInsn_faults (by simpa using hon))).elim

theorem vmxon_ok {env : Env} {region : Addr} {s t : Machine}
    (h : Returns (vmxon env region) s (.ok ⟨⟩) t) :
    t.regs = s.regs ∧ t.vmx = s.vmx.enter region ∧ t.st = s.st ∧ t.allocs = s.allocs := by
  obtain ⟨_, u, hread, h⟩ := h.of_bind
  cases hread
  obtain ⟨_, u, hwrite, h⟩ := h.of_bind
  cases hwrite
  simp only [Returns, vmxonInsn] at h
  split at h
  · cases h
    exact ⟨rfl, rfl, rfl, rfl⟩
  · cases h

/-- The machine from VMPTRLD to `write_state`, in a run from `s`. -/
structure Filling (s u : Machine) (region vmcs : Addr) : Prop where
  regs : u.regs = s.regs
  on : u.vmx.on = true
  current : u.vmx.current = some vmcs
  vmxonPtr : u.vmx.vmxonPtr = some region

/-- The machine `write_state` is entered with. -/
def SetupRun.entry {w : Wrappers Machine} {env : Env} {s t : Machine} (run : SetupRun w env s t) :
    Machine :=
  w.on (fun m => m.allocated.allocated.allocated.copied run.guest.guestCode)
    (w.on (fun m => m.setSt { m.st with vmcsRegion := run.vmcsRegion }) run.loaded)

section OnMachine

variable {w : Wrappers Machine} {env : Env} {s t : Machine}

theorem OnMachine.on (h : OnMachine w env) (f : Machine → Machine) (m : Machine) :
    w.on f m = f m := by
  rw [Wrappers.on, h.machine, h.put]

/-- What follows `write_state` does not touch the VMX state. -/
theorem GuestRun.vmx_eq (h : OnMachine w env) (run : GuestRun w env s t) :
    t.vmx = run.filled.vmx := by
  refine (congrArg Machine.vmx run.done).trans ?_
  rw [h.on, Machine.printed_vmx, Machine.setSt_vmx]

/-- What the run has done up to VMPTRLD. -/
theorem SetupRun.filling_loaded (h : OnMachine w env) (run : SetupRun w env s t) :
    Filling s run.loaded run.vmxonRegion run.vmcsRegion ∧
      run.loaded.st.systemTable = s.st.systemTable ∧ run.loaded.allocs = s.allocs + 2 := by
  have hvmxon := run.vmxon
  have hbasic := h.rdmsr run.basic
  have hclear := run.vmclear
  have hload := run.vmptrld
  rw [h.vmxon, h.on] at hvmxon
  rw [h.on] at hbasic
  rw [h.vmclear, h.on] at hclear
  rw [h.vmptrld] at hload
  -- what each wrapper left, in the order of the calls
  obtain ⟨hregs, hvmx, hst, hallocs⟩ := vmxon_ok hvmxon
  obtain ⟨-, hcleared⟩ := vmxInsn_ok hclear
  obtain ⟨hon, hloaded⟩ := vmxInsn_ok hload
  have hptr : run.cleared.vmx.vmxonPtr = some run.vmxonRegion := by
    rw [hcleared, hbasic]
    show run.entered.vmx.vmxonPtr = _
    rw [hvmx]
    rfl
  refine ⟨⟨?_, ?_, ?_, ?_⟩, ?_, ?_⟩
  · rw [hloaded, hcleared, hbasic]
    exact hregs
  · rw [hloaded]
    exact hon
  · rw [hloaded]
    rfl
  · rw [hloaded]
    exact hptr
  · rw [hloaded, hcleared, hbasic]
    show run.entered.st.systemTable = _
    rw [hst]
    rfl
  · rw [hloaded, hcleared, hbasic]
    exact congrArg (· + 1) hallocs

/-- What it has done up to `write_state`. -/
theorem SetupRun.filling (h : OnMachine w env) (run : SetupRun w env s t) :
    Filling s run.entry run.vmxonRegion run.vmcsRegion := by
  obtain ⟨hloaded, -, -⟩ := run.filling_loaded h
  have hentry : run.entry.regs = run.loaded.regs ∧ run.entry.vmx = run.loaded.vmx := by
    rw [SetupRun.entry, h.on]
    show (w.on _ _).regs = _ ∧ (w.on _ _).vmx = _
    rw [h.on]
    exact ⟨rfl, rfl⟩
  refine ⟨hentry.1.trans hloaded.regs, ?_, ?_, ?_⟩
  · rw [hentry.2]
    exact hloaded.on
  · rw [hentry.2]
    exact hloaded.current
  · rw [hentry.2]
    exact hloaded.vmxonPtr

/-- The host stack is what the third allocation gave. -/
theorem SetupRun.hostStack_eq (h : OnMachine w env) (run : SetupRun w env s t) :
    allocAnswer env s.st.systemTable (s.allocs + 2) 4 = .ok run.guest.hostStack := by
  obtain ⟨-, htable, hallocs⟩ := run.filling_loaded h
  have hpages := run.guest.stackPages
  generalize run.guest.hostStack = base at *
  rw [h.machine, h.on, Machine.page] at hpages
  rw [← htable, ← hallocs]
  exact hpages

end OnMachine

end MochiVM.Hv
