import MochiVM.Hv.Controls
import MochiVM.Hv.FeatureControl
import MochiVM.Hv.Memory

/-!
# The VMX instructions of the SDM (hv/vmx.rs)

`Vmx` takes the operand of a wrapper for the region it works on, and leaves open
whether the processor accepts an instruction. Here both follow from the SDM's
instruction reference:

- the m64 operand of VMXON, VMCLEAR and VMPTRLD is the location of a physical
  address, and `[region]` in the templates makes it `region` itself;
- an instruction reports its outcome in RFLAGS: nothing set for VMsucceed, CF for
  VMfailInvalid, ZF for VMfailValid, which takes the place of VMfailInvalid
  whenever there is a current VMCS.

The wrappers run on top of that, flag test included: `tested_noticed_iff` and
`vmxon_noticed_iff` say when they notice a failure, `vmxon_actsOn_iff`,
`vmclear_actsOn_iff` and `vmptrld_actsOn_iff` when they act on their region.
-/

namespace MochiVM.Hv.Sdm

open MochiVM.Panic

/-! ## The processor -/

/-- What differs between processors. They run in 64-bit mode at CPL 0. -/
structure Processor where
  /-- The width of physical addresses. -/
  physWidth : Nat
  /-- The VMCS fields there are. -/
  hasField : BitVec 32 → Bool
  /-- Whether VMWRITE can write the VM-exit information fields. -/
  writesExitInfo : Bool
  /-- Whether "VMCS shadowing" can be 1. -/
  shadowing : Bool
  /-- Whether the dual-monitor treatment of SMIs and SMM is active. -/
  dualMonitor : Bool
  /-- RFLAGS as the `n`-th VMX instruction finds it. -/
  rflags : Nat → BitVec 64

/-- The VMX instructions that the wrappers issue, an m64 operand by its
location. -/
inductive Insn where
  | vmxon (loc : Addr)
  | vmxoff
  | vmclear (loc : Addr)
  | vmptrld (loc : Addr)
  | vmwrite (field : BitVec 32) (value : BitVec 64)
deriving DecidableEq, Repr

/-- What an instruction reports. -/
inductive Outcome where
  | succeed
  | failInvalid
  /-- With the VM-instruction error number. -/
  | failValid (error : Nat)
deriving DecidableEq, Repr

/-- CF, PF, AF, ZF, SF and OF. -/
def statusFlags : BitVec 64 := 0x8D5

/-- RFLAGS after an instruction. -/
def Outcome.rflags (before : BitVec 64) : Outcome → BitVec 64
  | .succeed => before &&& ~~~statusFlags
  | .failInvalid => (before &&& ~~~statusFlags) ||| 1
  | .failValid _ => (before &&& ~~~statusFlags) ||| 0x40

/-- A physical address that VMX instructions take. -/
def Processor.takes (p : Processor) (a : Addr) : Bool :=
  a.toNat % 4096 == 0 && decide (a.toNat < 2 ^ p.physWidth)

/-- A field that VMWRITE can write: the VM-exit information fields are those with
1 in bits 11:10 of the encoding. -/
def Processor.writable (p : Processor) (field : BitVec 32) : Bool :=
  p.hasField field && (p.writesExitInfo || (field >>> 10).setWidth 2 != 1#2)

/-- The revision identifier at `a` is the processor's; bit 31 marks a shadow
VMCS. -/
def revisionOk (shadowing : Bool) (m : Machine) (a : Addr) : Bool :=
  let word : BitVec 32 := (loadLE m.mem a 4).setWidth 32
  word.setWidth 31 == (m.regs.msr ia32VmxBasic).setWidth 31 && (shadowing || !word.getLsbD 31)

/-- The physical address that an m64 operand holds. -/
def pointer (m : Machine) (loc : Addr) : Addr := loadLE m.mem loc 8

/-- CR0 and CR4 are supported in VMX operation, and IA32_FEATURE_CONTROL allows
it. -/
def vmxonAllowed (r : Regs) : Bool :=
  decide (r.fixedBits.cr0 = r.cr0) && decide (r.fixedBits.cr4 = r.cr4) &&
    locked (r.msr ia32FeatureControl) && vmxOutsideSmx (r.msr ia32FeatureControl)

/-- The exception an instruction raises. -/
def fault (m : Machine) : Insn → Option Exception
  | .vmxon _ =>
    if m.regs.cr4.getLsbD vmxeBit = false then some .invalidOpcode
    else if m.vmx.on || vmxonAllowed m.regs then none
    else some .generalProtection
  | .vmxoff | .vmclear _ | .vmptrld _ | .vmwrite _ _ =>
    if m.vmx.on then none else some .invalidOpcode

/-- The error of an instruction in VMX operation, if it fails. -/
def refusal (p : Processor) (m : Machine) : Insn → Option Nat
  | .vmxon _ => some 15
  | .vmxoff => if p.dualMonitor then some 23 else none
  | .vmclear loc =>
    if !p.takes (pointer m loc) then some 2
    else if m.vmx.vmxonPtr = some (pointer m loc) then some 3
    else none
  | .vmptrld loc =>
    if !p.takes (pointer m loc) then some 9
    else if m.vmx.vmxonPtr = some (pointer m loc) then some 10
    else if !revisionOk p.shadowing m (pointer m loc) then some 11
    else none
  | .vmwrite field _ =>
    if m.vmx.current.isNone || !p.hasField field then some 12
    else if !p.writable field then some 13
    else none

/-- What an instruction that raises no exception reports. -/
def outcome (p : Processor) (m : Machine) (i : Insn) : Outcome :=
  if m.vmx.on then
    match refusal p m i with
    | none => .succeed
    | some n => if m.vmx.current.isSome then .failValid n else .failInvalid
  else
    match i with
    | .vmxon loc =>
      if p.takes (pointer m loc) && revisionOk false m (pointer m loc) then .succeed
      else .failInvalid
    | .vmxoff | .vmclear _ | .vmptrld _ | .vmwrite _ _ => .failInvalid -- raises an exception

/-- The VM-instruction error field. -/
def vmInstructionError : BitVec 32 := encode .w32 .readOnly 0

/-- What an instruction does when it succeeds. -/
def effect (m : Machine) : Insn → Vmx
  | .vmxon loc => { m.vmx.enter (pointer m loc) with current := none }
  | .vmxoff => m.vmx.leave
  | .vmclear loc => m.vmx.clear (pointer m loc)
  | .vmptrld loc => m.vmx.load (pointer m loc)
  | .vmwrite field value => m.vmx.write field value

/-- The VMX state after an instruction. -/
def after (p : Processor) (m : Machine) (i : Insn) : Vmx :=
  match outcome p m i with
  | .succeed => effect m i
  | .failInvalid => m.vmx
  | .failValid n => m.vmx.write vmInstructionError (BitVec.ofNat 64 n)

/-! ## The wrappers -/

/-- An instruction executed, and the machine it found. -/
structure Step where
  insn : Insn
  found : Machine
  outcome : Outcome

/-- The machine, and the VMX instructions executed on it. -/
structure State where
  machine : Machine
  log : List Step

abbrev SdmM := EStateM Abort State

namespace State

/-- The state with another machine. -/
def put (s : State) (m : Machine) : State := { s with machine := m }

/-- The state after an instruction that raises no exception. -/
def executed (p : Processor) (s : State) (i : Insn) : State where
  machine := s.machine.setVmx (after p s.machine i)
  log := s.log ++ [⟨i, s.machine, outcome p s.machine i⟩]

/-- The state with the revision identifier written to `region`. -/
def stamped (s : State) (region : Addr) : State :=
  s.put (s.machine.stamped region (s.machine.regs.msr ia32VmxBasic))

end State

/-- Code that executes no VMX instruction. -/
def code {α : Type} (m : HvM α) : SdmM α := fun s =>
  match m s.machine with
  | .ok a t => .ok a (s.put t)
  | .error e t => .error e (s.put t)

/-- An instruction, `pushfq` and `pop rax`. -/
def issue (p : Processor) (i : Insn) : SdmM (BitVec 64) := fun s =>
  match fault s.machine i with
  | some e => .error (.fault e) s
  | none =>
    .ok ((outcome p s.machine i).rflags (p.rflags s.log.length)) (s.executed p i)

/-- An instruction and the test of CF. -/
def tested (p : Processor) (i : Insn) : SdmM (Except PUnit PUnit) := do
  let flags ← issue p i
  if flags &&& 1 != 0 then pure (.error ⟨⟩)
  else pure (.ok ⟨⟩)

/-- `vmxon` (vmx.rs:53). -/
def vmxon (p : Processor) (region : Addr) : SdmM (Except String PUnit) := do
  let revision ← code (rdmsr ia32VmxBasic)
  code (writeVolatile32 region (revision.setWidth 32))
  let flags ← issue p (.vmxon region)
  if flags &&& 1 != 0 then pure (.error "vmxon failed (cf set)")
  else pure (.ok ⟨⟩)

/-- `vmxoff` (vmx.rs:71). -/
def vmxoff (p : Processor) : SdmM (Except PUnit PUnit) := tested p .vmxoff

/-- `vmclear` (vmx.rs:85). -/
def vmclear (p : Processor) (region : Addr) : SdmM (Except PUnit PUnit) :=
  tested p (.vmclear region)

/-- `vmptrld` (vmx.rs:100). -/
def vmptrld (p : Processor) (region : Addr) : SdmM (Except PUnit PUnit) :=
  tested p (.vmptrld region)

/-- `vmwrite` (vmx.rs:115). -/
def vmwrite (p : Processor) (field : BitVec 32) (value : BitVec 64) : SdmM (Except PUnit PUnit) :=
  tested p (.vmwrite field value)

/-! ## How a wrapper ends -/

section Executes

variable {p : Processor} {s u t : State} {i : Insn} {ε : Type} {e : ε}

/-- **What the flag test sees**: CF, which VMfailInvalid sets and nothing else. -/
theorem rflags_carry (before : BitVec 64) (o : Outcome) :
    (o.rflags before &&& 1 != 0) = decide (o = .failInvalid) := by
  have hcarry : (o.rflags before &&& 1 != 0) = (o.rflags before).getLsbD 0 :=
    and_twoPow_ne_zero _ 0 (by decide)
  rw [hcarry]
  cases o <;> simp [Outcome.rflags, statusFlags]

/-- `m` called in `s` executes `i` in `u`, and tests CF. -/
def Executes (p : Processor) (i : Insn) (s u : State) (e : ε)
    (m : SdmM (Except ε PUnit)) : Prop :=
  ∀ r t, Returns m s r t ↔ fault u.machine i = none ∧ t = u.executed p i ∧
    r = if outcome p u.machine i = .failInvalid then .error e else .ok ⟨⟩

/-- The instruction and the test, whatever error is returned. -/
theorem issue_executes (p : Processor) (i : Insn) (s : State) (e : ε) :
    Executes p i s s e (do
      let flags ← issue p i
      if flags &&& 1 != 0 then pure (.error e)
      else pure (.ok ⟨⟩)) := by
  intro r t
  cases hfault : fault s.machine i with
  | some x =>
    have habort : Aborts (issue p i) s (.fault x) s := by rw [Aborts, issue, hfault]
    refine ⟨fun h => (h.not_aborts (habort.bind _)).elim, fun h => ?_⟩
    exact absurd h.1 (by simp)
  | none =>
    have hissue : Returns (issue p i) s
        ((outcome p s.machine i).rflags (p.rflags s.log.length)) (s.executed p i) := by
      rw [Returns, issue, hfault]
    rw [Returns, bind_of_returns hissue, rflags_carry]
    by_cases hinvalid : outcome p s.machine i = .failInvalid
    · rw [decide_eq_true hinvalid, if_pos rfl, if_pos hinvalid]
      constructor
      · intro h
        cases h
        exact ⟨rfl, rfl, rfl⟩
      · rintro ⟨-, rfl, rfl⟩
        rfl
    · rw [decide_eq_false hinvalid, if_neg Bool.false_ne_true, if_neg hinvalid]
      constructor
      · intro h
        cases h
        exact ⟨rfl, rfl, rfl⟩
      · rintro ⟨-, rfl, rfl⟩
        rfl

theorem tested_executes (p : Processor) (i : Insn) (s : State) :
    Executes p i s s PUnit.unit (tested p i) := issue_executes p i s PUnit.unit

/-- `vmxon` executes its instruction on the region it has stamped. -/
theorem vmxon_executes (p : Processor) (region : Addr) (s : State) :
    Executes p (.vmxon region) s (s.stamped region) "vmxon failed (cf set)" (vmxon p region) :=
  fun r t => issue_executes p (.vmxon region) (s.stamped region) "vmxon failed (cf set)" r t

/-! ## Failures that are not noticed -/

/-- `m`, called in `s`, returns `Ok` exactly when its instruction `i` reports
VMsucceed. -/
def Noticed (m : SdmM (Except ε PUnit)) (i : Insn) (s : State) : Prop :=
  ∀ r t, Returns m s r t → ∃ step, t.log = s.log ++ [step] ∧ step.insn = i ∧
    (r.isOk = true ↔ step.outcome = .succeed)

/-- The processor refuses `i` while there is a current VMCS. -/
def Silent (p : Processor) (m : Machine) (i : Insn) : Prop :=
  fault m i = none ∧ m.vmx.on = true ∧ m.vmx.current.isSome = true ∧
    (refusal p m i).isSome = true

/-- What an instruction reports in VMX operation. -/
theorem outcome_on {m : Machine} (hon : m.vmx.on = true) :
    outcome p m i = match refusal p m i with
      | none => .succeed
      | some n => if m.vmx.current.isSome then .failValid n else .failInvalid := by
  unfold outcome
  rw [if_pos hon]

/-- Outside VMX operation there is VMXON only. -/
theorem outcome_off {m : Machine} (hoff : m.vmx.on = false) :
    outcome p m i = match i with
      | .vmxon loc =>
        if p.takes (pointer m loc) && revisionOk false m (pointer m loc) then .succeed
        else .failInvalid
      | .vmxoff | .vmclear _ | .vmptrld _ | .vmwrite _ _ => .failInvalid := by
  unfold outcome
  rw [if_neg (by rw [hoff]; exact Bool.false_ne_true)]

/-- VMfailValid is what refusals with a current VMCS report. -/
theorem failValid_iff {m : Machine} :
    (∃ n, outcome p m i = .failValid n) ↔
      m.vmx.on = true ∧ m.vmx.current.isSome = true ∧ (refusal p m i).isSome = true := by
  cases hon : m.vmx.on with
  | false =>
    refine ⟨?_, fun h => absurd h.1 Bool.false_ne_true⟩
    rintro ⟨n, hn⟩
    rw [outcome_off hon] at hn
    cases i with
    | vmxon loc =>
      simp only at hn
      split at hn
      · cases hn
      · cases hn
    | vmxoff | vmclear | vmptrld | vmwrite => cases hn
  | true =>
    rw [outcome_on hon]
    cases refusal p m i with
    | none => simp
    | some n =>
      cases hcur : m.vmx.current with
      | none => simp
      | some c => simp

theorem silent_iff {m : Machine} :
    Silent p m i ↔ fault m i = none ∧ ∃ n, outcome p m i = .failValid n :=
  and_congr_right fun _ => failValid_iff.symm

/-- Without a current VMCS a failure is VMfailInvalid. -/
theorem outcome_noCurrent {m : Machine} (hcur : m.vmx.current = none)
    (hvalid : outcome p m i ≠ .failInvalid) : outcome p m i = .succeed := by
  cases hout : outcome p m i with
  | succeed => rfl
  | failInvalid => exact absurd hout hvalid
  | failValid n =>
    have hsome := (failValid_iff.mp ⟨n, hout⟩).2.1
    rw [hcur] at hsome
    cases hsome

/-- **When a failure goes unnoticed.** -/
theorem Executes.notices_iff {m : SdmM (Except ε PUnit)} (h : Executes p i s u e m)
    (hlog : u.log = s.log) : Noticed m i s ↔ ¬ Silent p u.machine i := by
  constructor
  · intro hnoticed hsilent
    obtain ⟨hfault, n, hn⟩ := silent_iff.mp hsilent
    have hret : Returns m s (.ok ⟨⟩) (u.executed p i) :=
      (h _ _).mpr ⟨hfault, rfl, by rw [hn]; rfl⟩
    obtain ⟨step, hstep, -, hok⟩ := hnoticed _ _ hret
    obtain rfl : ⟨i, u.machine, outcome p u.machine i⟩ = step := by
      rw [State.executed, hlog] at hstep
      exact List.singleton_inj.mp (List.append_cancel_left hstep)
    exact absurd ((hok.mp rfl).symm.trans hn) (by simp)
  · intro hsilent r t hret
    obtain ⟨hfault, rfl, rfl⟩ := (h r t).mp hret
    refine ⟨⟨i, u.machine, outcome p u.machine i⟩, ?_, rfl, ?_⟩
    · rw [State.executed, hlog]
    · cases hout : outcome p u.machine i with
      | succeed => exact ⟨fun _ => rfl, fun _ => rfl⟩
      | failInvalid =>
        refine ⟨fun hok => ?_, fun hsucceed => by cases hsucceed⟩
        rw [if_pos rfl] at hok
        cases hok
      | failValid n => exact absurd (silent_iff.mpr ⟨hfault, n, hout⟩) hsilent

theorem tested_noticed_iff (p : Processor) (i : Insn) (s : State) :
    Noticed (tested p i) i s ↔ ¬ Silent p s.machine i :=
  (tested_executes p i s).notices_iff rfl

/-- Whether VMXON is refused has nothing to do with memory. -/
theorem vmxon_noticed_iff (p : Processor) (region : Addr) (s : State) :
    Noticed (vmxon p region) (.vmxon region) s ↔ ¬ Silent p s.machine (.vmxon region) :=
  (vmxon_executes p region s).notices_iff rfl

/-! ## The region an instruction works on -/

/-- The region of VMXON, VMCLEAR and VMPTRLD. -/
def target (m : Machine) : Insn → Option Addr
  | .vmxon loc | .vmclear loc | .vmptrld loc => some (pointer m loc)
  | .vmxoff | .vmwrite _ _ => none

/-- `m`, called in `s`, returns `Ok` after an instruction that succeeded, worked
on `region` and left the VMX state `v`. -/
def ActsOn (m : SdmM (Except ε PUnit)) (region : Addr) (v : Vmx) (s : State) : Prop :=
  ∃ t step, Returns m s (.ok ⟨⟩) t ∧ t.log = s.log ++ [step] ∧ step.outcome = .succeed ∧
    target step.found step.insn = some region ∧ t.machine.vmx = v

theorem Executes.actsOn_iff {m : SdmM (Except ε PUnit)} (h : Executes p i s u e m)
    (hlog : u.log = s.log) {region : Addr} {v : Vmx} :
    ActsOn m region v s ↔ fault u.machine i = none ∧ outcome p u.machine i = .succeed ∧
      target u.machine i = some region ∧ effect u.machine i = v := by
  have hafter : outcome p u.machine i = .succeed →
      (u.executed p i).machine.vmx = effect u.machine i := fun hout => by
    show after p u.machine i = _
    rw [after, hout]
  constructor
  · rintro ⟨t, step, hret, hstep, hout, htarget, hv⟩
    obtain ⟨hfault, rfl, -⟩ := (h _ _).mp hret
    obtain rfl : ⟨i, u.machine, outcome p u.machine i⟩ = step := by
      rw [State.executed, hlog] at hstep
      exact List.singleton_inj.mp (List.append_cancel_left hstep)
    exact ⟨hfault, hout, htarget, (hafter hout).symm.trans hv⟩
  · rintro ⟨hfault, hout, htarget, hv⟩
    refine ⟨u.executed p i, ⟨i, u.machine, outcome p u.machine i⟩, ?_, ?_, hout, htarget,
      (hafter hout).trans hv⟩
    · exact (h _ _).mpr ⟨hfault, rfl, by rw [hout]; rfl⟩
    · rw [State.executed, hlog]

end Executes

/-- The processor can enter VMX operation. Bit 31 of IA32_VMX_BASIC is always
0. -/
structure Enabled (m : Machine) : Prop where
  off : m.vmx.on = false
  vmxe : m.regs.cr4.getLsbD vmxeBit = true
  allowed : vmxonAllowed m.regs = true
  basic : (m.regs.msr ia32VmxBasic).getLsbD 31 = false

/-- The processor is in VMX operation. -/
structure Operating (m : Machine) : Prop where
  on : m.vmx.on = true
  basic : (m.regs.msr ia32VmxBasic).getLsbD 31 = false

/-- The word at `region` is the address of `region`. -/
def State.Points (s : State) (region : Addr) : Prop := pointer s.machine region = region

section Region

variable {p : Processor} {s : State} {region : Addr}

/-- The revision identifier that was written to a region is there. -/
theorem stamped_revisionOk (shadowing : Bool) (s : State) (region : Addr)
    (hbasic : (s.machine.regs.msr ia32VmxBasic).getLsbD 31 = false) :
    revisionOk shadowing (s.stamped region).machine region = true := by
  have hword : (loadLE (s.stamped region).machine.mem region 4).setWidth 32 =
      (s.machine.regs.msr ia32VmxBasic).setWidth 32 := loadLE_storeLE_u32 _
  have hbit : ((s.machine.regs.msr ia32VmxBasic).setWidth 32).getLsbD 31 = false := by
    rw [BitVec.getLsbD_setWidth, hbasic, Bool.and_false]
  have hlow : (((s.machine.regs.msr ia32VmxBasic).setWidth 32).setWidth 31 : BitVec 31) =
      (s.machine.regs.msr ia32VmxBasic).setWidth 31 := BitVec.setWidth_setWidth_of_le _ (by decide)
  rw [revisionOk, hword, hbit, hlow]
  show (_ == (s.machine.regs.msr ia32VmxBasic).setWidth 31 && _) = true
  simp

/-- A stamped region starts with the revision identifier. -/
theorem stamped_pointer (s : State) (region : Addr) :
    (pointer (s.stamped region).machine region).setWidth 32 =
      (s.machine.regs.msr ia32VmxBasic).setWidth 32 := by
  have hword : (loadLE (s.stamped region).machine.mem region 4).setWidth 32 =
      (s.machine.regs.msr ia32VmxBasic).setWidth 32 := loadLE_storeLE_u32 _
  refine Eq.trans ?_ hword
  apply BitVec.eq_of_getLsbD_eq
  intro i hi
  rw [BitVec.getLsbD_setWidth, BitVec.getLsbD_setWidth, pointer,
    loadLE_bit (Nat.le_refl 8) (by omega), loadLE_bit (by decide) (by omega)]

theorem Enabled.stamped (hs : Enabled s.machine) (region : Addr) :
    Enabled (s.stamped region).machine := ⟨hs.off, hs.vmxe, hs.allowed, hs.basic⟩

theorem Enabled.fault {m : Machine} (hs : Enabled m) (loc : Addr) :
    Sdm.fault m (.vmxon loc) = none := by
  rw [Sdm.fault, hs.vmxe, if_neg (by simp), hs.allowed, Bool.or_true, if_pos rfl]

/-- **VMXON fails on every region** where the revision identifier is not the
address of a page. -/
theorem vmxon_fails (hs : Enabled s.machine)
    (hrevision : ((s.machine.regs.msr ia32VmxBasic).setWidth 32).toNat % 4096 ≠ 0) :
    Returns (vmxon p region) s (.error "vmxon failed (cf set)")
      ((s.stamped region).executed p (.vmxon region)) := by
  have hlow := congrArg BitVec.toNat (stamped_pointer s region)
  rw [BitVec.toNat_setWidth] at hlow
  have htakes : p.takes (pointer (s.stamped region).machine region) = false := by
    rw [Processor.takes, Bool.and_eq_false_iff]
    refine .inl (beq_eq_false_iff_ne.mpr ?_)
    omega
  have hinvalid : outcome p (s.stamped region).machine (.vmxon region) = .failInvalid := by
    rw [outcome_off (hs.stamped region).off]
    simp [htakes]
  exact (vmxon_executes p region s _ _).mpr
    ⟨(hs.stamped region).fault region, rfl, by rw [hinvalid]; rfl⟩

/-- **VMXON works on its region** exactly when the stamped region holds its own
address. -/
theorem vmxon_actsOn_iff (hs : Enabled s.machine) (htakes : p.takes region = true) :
    ActsOn (vmxon p region) region { s.machine.vmx.enter region with current := none } s ↔
      (s.stamped region).Points region := by
  rw [(vmxon_executes p region s).actsOn_iff rfl]
  constructor
  · rintro ⟨-, -, htarget, -⟩
    exact Option.some.inj htarget
  · intro hpoints
    have hp : pointer (s.stamped region).machine region = region := hpoints
    refine ⟨(hs.stamped region).fault region, ?_, congrArg some hp, ?_⟩
    · rw [outcome_off (hs.stamped region).off]
      simp only [hp, htakes, stamped_revisionOk false s region hs.basic, Bool.and_self, if_true]
    · show { s.machine.vmx.enter (pointer (s.stamped region).machine region) with
        current := none } = _
      rw [hp]

theorem on_of_fault {m : Machine} {i : Insn} (hi : ∀ loc, i ≠ .vmxon loc)
    (hfault : fault m i = none) : m.vmx.on = true := by
  cases i with
  | vmxon loc => exact absurd rfl (hi loc)
  | vmxoff | vmclear | vmptrld | vmwrite =>
    by_contra hoff
    rw [fault, if_neg hoff] at hfault
    cases hfault

theorem fault_on {m : Machine} {i : Insn} (hon : m.vmx.on = true)
    (hi : ∀ loc, i ≠ .vmxon loc) : fault m i = none := by
  cases i with
  | vmxon loc => exact absurd rfl (hi loc)
  | vmxoff | vmclear | vmptrld | vmwrite => exact if_pos hon

/-- In VMX operation, what is not refused succeeds. -/
theorem succeed_iff_on {m : Machine} {i : Insn} (hon : m.vmx.on = true) :
    outcome p m i = .succeed ↔ refusal p m i = none := by
  rw [outcome_on hon]
  cases refusal p m i with
  | none => simp
  | some n => cases m.vmx.current <;> simp

/-- **VMCLEAR works on its region** exactly when the region holds its own address
and is not the VMXON region. -/
theorem vmclear_actsOn_iff (hs : Operating s.machine) (htakes : p.takes region = true) :
    ActsOn (vmclear p region) region (s.machine.vmx.clear region) s ↔
      s.Points region ∧ s.machine.vmx.vmxonPtr ≠ some region := by
  rw [vmclear, (tested_executes p _ s).actsOn_iff rfl, succeed_iff_on hs.on]
  constructor
  · rintro ⟨-, haccepted, htarget, -⟩
    have hp : pointer s.machine region = region := Option.some.inj htarget
    refine ⟨hp, fun hptr => ?_⟩
    rw [refusal, hp, htakes] at haccepted
    simp [hptr] at haccepted
  · rintro ⟨hpoints, hapart⟩
    have hp : pointer s.machine region = region := hpoints
    refine ⟨fault_on hs.on (by simp), ?_, congrArg some hp, ?_⟩
    · rw [refusal, hp, htakes]
      simp [hapart]
    · rw [effect, hp]

/-- **VMPTRLD, called after the revision identifier was written, works on its
region** exactly when the stamped region holds its own address and is not the
VMXON region. -/
theorem vmptrld_actsOn_iff (hs : Operating s.machine) (htakes : p.takes region = true) :
    ActsOn (vmptrld p region) region (s.machine.vmx.load region) (s.stamped region) ↔
      (s.stamped region).Points region ∧ s.machine.vmx.vmxonPtr ≠ some region := by
  have hon : (s.stamped region).machine.vmx.on = true := hs.on
  have hsame : (s.stamped region).machine.vmx.vmxonPtr = s.machine.vmx.vmxonPtr := rfl
  rw [vmptrld, (tested_executes p _ _).actsOn_iff rfl, succeed_iff_on hon, ← hsame]
  constructor
  · rintro ⟨-, haccepted, htarget, -⟩
    have hp : pointer (s.stamped region).machine region = region := Option.some.inj htarget
    refine ⟨hp, fun hptr => ?_⟩
    rw [refusal, hp, htakes] at haccepted
    simp [hptr] at haccepted
  · rintro ⟨hpoints, hapart⟩
    have hp : pointer (s.stamped region).machine region = region := hpoints
    refine ⟨fault_on hon (by simp), ?_, congrArg some hp, ?_⟩
    · rw [refusal, hp, htakes, stamped_revisionOk p.shadowing s region hs.basic]
      simp [hapart]
    · rw [effect, hp]
      rfl

/-- **What `Vmx` says of a wrapper holds here** where the instruction works on its
operand and does not fail silently: with the processor's verdict for an answer,
the wrapper there returns the same and leaves the same VMX state. -/
theorem tested_refines {t : State} {i : Insn} {r : Except PUnit PUnit} {insn : VmxInsn}
    {ok : Nat → Bool} {change : Vmx → Vmx} (hi : ∀ loc, i ≠ .vmxon loc)
    (hsilent : ¬ Silent p s.machine i) (heffect : effect s.machine i = change s.machine.vmx)
    (hok : ok s.machine.trace.length = decide (outcome p s.machine i = .succeed))
    (h : Returns (tested p i) s r t) :
    Returns (vmxInsn insn ok change) s.machine r
      ((s.machine.record insn).setVmx t.machine.vmx) := by
  obtain ⟨hfault, rfl, rfl⟩ := (tested_executes p i s r t).mp h
  have hon := on_of_fault hi hfault
  have hafter : (s.executed p i).machine.vmx = after p s.machine i := rfl
  rw [Returns, vmxInsn, if_pos hon, hok, hafter, after]
  cases hout : outcome p s.machine i with
  | succeed =>
    rw [decide_eq_true rfl, if_pos rfl, if_neg (by simp)]
    simp only [heffect]
  | failInvalid =>
    rw [decide_eq_false (by simp), if_neg Bool.false_ne_true, if_pos rfl]
    rfl
  | failValid n => exact absurd (silent_iff.mpr ⟨hfault, n, hout⟩) hsilent

end Region

end MochiVM.Hv.Sdm
