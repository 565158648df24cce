import MochiVM.Hv.Machine

/-!
# The VMX wrappers (hv/vmx.rs)

Each wrapper records its instruction in the trace and, when the processor
accepts it, has the effect its name says. Outside VMX operation every VMX
instruction but VMXON raises an invalid-opcode exception. VMXON itself is not
made to fault here: what it needs of the machine is read off the state recorded
in the trace.
-/

namespace MochiVM.Hv

open MochiVM.Panic

/-! ## Constants -/

/-- `CR4_VMXE`, as a bit number. -/
def vmxeBit : Nat := 13

/-- `CR4_VMXE`. -/
def cr4Vmxe : BitVec 64 := 1#64 <<< vmxeBit

def ia32VmxBasic : BitVec 32 := 0x480#32
def ia32VmxPinbasedCtls : BitVec 32 := 0x481#32
def ia32VmxProcbasedCtls : BitVec 32 := 0x482#32
def ia32VmxExitCtls : BitVec 32 := 0x483#32
def ia32VmxEntryCtls : BitVec 32 := 0x484#32
def ia32VmxCr0Fixed0 : BitVec 32 := 0x486#32
def ia32VmxCr0Fixed1 : BitVec 32 := 0x487#32
def ia32VmxCr4Fixed0 : BitVec 32 := 0x488#32
def ia32VmxCr4Fixed1 : BitVec 32 := 0x489#32
def ia32VmxSecondaryProcbasedCtls : BitVec 32 := 0x48B#32

/-! ## Probing and control registers -/

/-- `vmx_supported` (vmx.rs:17). -/
def vmxSupported (env : Env) : HvM Bool := do
  let (_, ecx, _) ← cpuid env 1 0
  pure (ecx &&& (1 <<< 5) != 0)

/-- `feature_control` (vmx.rs:23). -/
def featureControl : HvM (Except String PUnit) := do
  let msr ← rdmsr ia32FeatureControl
  if msr &&& 1 != 0 then
    if msr &&& 2 == 0 then
      pure (.error "vmx locked and disabled by firmware")
    else
      pure (.ok ⟨⟩)
  else
    wrmsr ia32FeatureControl (msr ||| 3)
    pure (.ok ⟨⟩)

/-- `apply_fixed_bits` (vmx.rs:37). -/
def applyFixedBits : HvM PUnit := do
  let cr0Fixed0 ← rdmsr ia32VmxCr0Fixed0
  let cr0Fixed1 ← rdmsr ia32VmxCr0Fixed1
  let cr0 := ((← readCr0) ||| cr0Fixed0) &&& cr0Fixed1
  writeCr0 cr0
  let cr4Fixed0 ← rdmsr ia32VmxCr4Fixed0
  let cr4Fixed1 ← rdmsr ia32VmxCr4Fixed1
  let cr4 := ((← readCr4) ||| cr4Fixed0) &&& cr4Fixed1
  writeCr4 cr4

/-- `calc_ctrl` (vmx.rs:144). -/
def calcCtrl (msr desired : BitVec 32) : HvM (BitVec 32) := do
  let caps ← rdmsr msr
  pure ((desired ||| caps.setWidth 32) &&& (caps >>> 32).setWidth 32)

/-- `calc_secondary` (vmx.rs:150). -/
def calcSecondary (desired : BitVec 32) : HvM (BitVec 32) := do
  let caps ← rdmsr ia32VmxSecondaryProcbasedCtls
  pure (desired &&& (caps >>> 32).setWidth 32)

/-! ## Effects on the VMX state -/

/-- Bits of a VMCS field: bits 14:13 of its encoding. -/
def fieldBits (field : BitVec 32) : Nat :=
  match (field >>> 13).setWidth 2 with
  | 0#2 => 16
  | 2#2 => 32
  | _ => 64

/-- What a field holds after a write of `value`: the bits beyond it are lost. -/
def fitField (field : BitVec 32) (value : BitVec 64) : BitVec 64 :=
  (value.setWidth (fieldBits field)).setWidth 64

def Vmx.enter (v : Vmx) (region : Addr) : Vmx := { v with vmxonPtr := some region }

def Vmx.leave (v : Vmx) : Vmx := { v with vmxonPtr := none, current := none }

def Vmx.clear (v : Vmx) (region : Addr) : Vmx :=
  { v with
    current := if v.current = some region then none else v.current
    active := v.active.filter (· ≠ region) }

def Vmx.load (v : Vmx) (region : Addr) : Vmx :=
  { v with current := some region, active := region :: v.active }

/-- The content of the current VMCS; without one, reads are all zero. -/
def Vmx.fields (v : Vmx) (field : BitVec 32) : BitVec 64 :=
  match v.current with
  | some region => v.data region field
  | none => 0

/-- The VMX state with the content of the current VMCS replaced. -/
def Vmx.setFields (v : Vmx) (content : BitVec 32 → BitVec 64) : Vmx :=
  { v with data := fun r f => if v.current = some r then content f else v.data r f }

/-- The VMX state with one field of the current VMCS written. -/
def Vmx.write (v : Vmx) (field : BitVec 32) (value : BitVec 64) : Vmx :=
  v.setFields fun f => if f = field then fitField field value else v.fields f

/-! ## The wrappers -/

/-- The VMXON instruction, its failure turned into an error. -/
def vmxonInsn (env : Env) (region : Addr) : HvM (Except String PUnit) := fun s =>
  if env.vmxonOk s.trace.length region then
    .ok (.ok ⟨⟩) ((s.record (.vmxon region)).setVmx (s.vmx.enter region))
  else .ok (.error "vmxon failed (cf set)") (s.record (.vmxon region))

/-- `vmxon` (vmx.rs:53). -/
def vmxon (env : Env) (region : Addr) : HvM (Except String PUnit) := do
  let revision ← rdmsr ia32VmxBasic
  writeVolatile32 region (revision.setWidth 32)
  vmxonInsn env region

/-- An instruction that needs VMX operation. `ok` is whether the processor
accepts it and `effect` what it then does. -/
def vmxInsn (insn : VmxInsn) (ok : Nat → Bool) (effect : Vmx → Vmx) :
    HvM (Except PUnit PUnit) := fun s =>
  if s.vmx.on then
    if ok s.trace.length then .ok (.ok ⟨⟩) ((s.record insn).setVmx (effect s.vmx))
    else .ok (.error ⟨⟩) (s.record insn)
  else .error (.fault .invalidOpcode) s

/-- `vmxoff` (vmx.rs:71). -/
def vmxoff : HvM (Except PUnit PUnit) := vmxInsn .vmxoff (fun _ => true) Vmx.leave

/-- `vmclear` (vmx.rs:85). -/
def vmclear (env : Env) (region : Addr) : HvM (Except PUnit PUnit) :=
  vmxInsn (.vmclear region) (env.vmclearOk · region) (Vmx.clear · region)

/-- `vmptrld` (vmx.rs:100). -/
def vmptrld (env : Env) (region : Addr) : HvM (Except PUnit PUnit) :=
  vmxInsn (.vmptrld region) (env.vmptrldOk · region) (Vmx.load · region)

/-- `vmwrite` (vmx.rs:115). -/
def vmwrite (env : Env) (field : BitVec 32) (value : BitVec 64) : HvM (Except PUnit PUnit) :=
  vmxInsn (.vmwrite field value) (env.vmwriteOk · field) (Vmx.write · field value)

/-- `vmread` (vmx.rs:131). -/
def vmread (field : BitVec 32) : HvM (BitVec 64) := fun s =>
  if s.vmx.on then .ok (s.vmx.fields field) (s.record (.vmread field))
  else .error (.fault .invalidOpcode) s

/-- `e.expect(msg)`. -/
def expect (msg : String) (m : HvM (Except PUnit PUnit)) : HvM PUnit := do
  match ← m with
  | .ok _ => pure ⟨⟩
  | .error _ => throw (.panic s!"{msg}: ()")

/-! ## How the wrappers end -/

section Ends

variable {s : Machine} {E : Abort → Machine → Prop}

theorem ends_vmxInsn {insn : VmxInsn} {ok : Nat → Bool} {effect : Vmx → Vmx}
    {Q : Except PUnit PUnit → Machine → Prop} (h : s.vmx.on = true) :
    Ends (vmxInsn insn ok effect) s Q E ↔
      if ok s.trace.length then Q (.ok ⟨⟩) ((s.record insn).setVmx (effect s.vmx))
      else Q (.error ⟨⟩) (s.record insn) := by
  rw [Ends, vmxInsn, if_pos h]
  by_cases hok : ok s.trace.length
  · rw [if_pos hok, if_pos hok]
  · rw [if_neg hok, if_neg hok]

/-- An instruction whose result is not looked at. -/
theorem ends_vmxInsn_ignored {insn : VmxInsn} {ok : Nat → Bool} {effect : Vmx → Vmx}
    {Q : Machine → Prop} (h : s.vmx.on = true) :
    Ends (vmxInsn insn ok effect) s (fun _ t => Q t) E ↔
      Q ((s.record insn).setVmx (if ok s.trace.length then effect s.vmx else s.vmx)) := by
  rw [ends_vmxInsn h]
  by_cases hok : ok s.trace.length
  · rw [if_pos hok, if_pos hok]
  · rw [if_neg hok, if_neg hok]
    exact Iff.rfl

theorem ends_vmxoff {Q : Except PUnit PUnit → Machine → Prop} (h : s.vmx.on = true) :
    Ends vmxoff s Q E ↔ Q (.ok ⟨⟩) ((s.record .vmxoff).setVmx s.vmx.leave) := by
  rw [vmxoff, ends_vmxInsn h, if_pos rfl]

theorem ends_vmxonInsn {env : Env} {region : Addr} {Q : Except String PUnit → Machine → Prop} :
    Ends (vmxonInsn env region) s Q E ↔
      if env.vmxonOk s.trace.length region then
        Q (.ok ⟨⟩) ((s.record (.vmxon region)).setVmx (s.vmx.enter region))
      else Q (.error "vmxon failed (cf set)") (s.record (.vmxon region)) := by
  rw [Ends, vmxonInsn]
  by_cases hok : env.vmxonOk s.trace.length region
  · rw [if_pos hok, if_pos hok]
  · rw [if_neg hok, if_neg hok]

theorem ends_vmread {field : BitVec 32} {Q : BitVec 64 → Machine → Prop} (h : s.vmx.on = true) :
    Ends (vmread field) s Q E ↔ Q (s.vmx.fields field) (s.record (.vmread field)) := by
  rw [Ends, vmread, if_pos h]

theorem vmxInsn_faults {insn : VmxInsn} {ok : Nat → Bool} {effect : Vmx → Vmx}
    (h : s.vmx.on = false) :
    Aborts (vmxInsn insn ok effect) s (.fault .invalidOpcode) s :=
  if_neg (by rw [h]; exact Bool.false_ne_true)

/-- An invariant that survives the record of the instruction and its effect. -/
theorem vmxInsn_keeps {insn : VmxInsn} {ok : Nat → Bool} {effect : Vmx → Vmx}
    {I : Machine → Prop} (hrecord : ∀ s, I s → I (s.record insn))
    (heffect : ∀ s, I s → s.vmx.on = true → I (s.setVmx (effect s.vmx))) :
    Keeps I (vmxInsn insn ok effect) := by
  intro s hs
  by_cases hon : s.vmx.on
  · rw [vmxInsn, if_pos hon]
    by_cases hok : ok s.trace.length
    · rw [if_pos hok]
      exact heffect (s.record insn) (hrecord s hs) hon
    · rw [if_neg hok]
      exact hrecord s hs
  · rw [show vmxInsn insn ok effect s = _ from vmxInsn_faults (by simpa using hon)]
    exact hs

theorem expect_keeps {I : Machine → Prop} {m : HvM (Except PUnit PUnit)} (hm : Keeps I m)
    (msg : String) : Keeps I (expect msg m) := by
  refine hm.bind fun r => ?_
  cases r with
  | ok _ => exact Keeps.pure I _
  | error _ => exact fun _ hs => hs

end Ends

/-! ## What probing leaves -/

/-- Testing one bit with a mask. -/
theorem and_twoPow_ne_zero (v : BitVec 64) (i : Nat) (hi : i < 64) :
    (v &&& BitVec.twoPow 64 i != 0) = v.getLsbD i := by
  rw [BitVec.and_twoPow]
  cases h : v.getLsbD i with
  | true =>
    have hpow : BitVec.twoPow 64 i ≠ 0 := by
      intro h₀
      have := congrArg (fun x => x.getLsbD i) h₀
      simp [hi] at this
    simpa using hpow
  | false => simp

/-- `vmx_supported`, as a function of the CPU's answer. -/
def supported (env : Env) : Bool := (env.cpuid 1 0).2.1 &&& (1 <<< 5) != 0

/-- Whether `feature_control` succeeds on this value of IA32_FEATURE_CONTROL. -/
def featureOk (v : BitVec 64) : Bool := !v.getLsbD 0 || v.getLsbD 1

/-- The registers `feature_control` leaves when it succeeds. -/
def Regs.unlocked (r : Regs) : Regs :=
  if (r.msr ia32FeatureControl).getLsbD 0 then r
  else r.setMsr ia32FeatureControl (r.msr ia32FeatureControl ||| 3)

/-- The registers `apply_fixed_bits` leaves. -/
def Regs.fixedBits (r : Regs) : Regs :=
  { r with
    cr0 := (r.cr0 ||| r.msr ia32VmxCr0Fixed0) &&& r.msr ia32VmxCr0Fixed1
    cr4 := (r.cr4 ||| r.msr ia32VmxCr4Fixed0) &&& r.msr ia32VmxCr4Fixed1 }

section Probing

variable {s : Machine} {E : Abort → Machine → Prop}

theorem ends_vmxSupported {env : Env} {Q : Bool → Machine → Prop} :
    Ends (vmxSupported env) s Q E ↔ Q (supported env) s := Iff.rfl

theorem ends_featureControl {Q : Except String PUnit → Machine → Prop} :
    Ends featureControl s Q E ↔
      if featureOk (s.regs.msr ia32FeatureControl) then
        Q (.ok ⟨⟩) (s.setRegs s.regs.unlocked)
      else Q (.error "vmx locked and disabled by firmware") s := by
  have hlock : (s.regs.msr ia32FeatureControl &&& 1 != 0) =
      (s.regs.msr ia32FeatureControl).getLsbD 0 := and_twoPow_ne_zero _ 0 (by decide)
  have hsmx : (s.regs.msr ia32FeatureControl &&& 2 != 0) =
      (s.regs.msr ia32FeatureControl).getLsbD 1 := and_twoPow_ne_zero _ 1 (by decide)
  have hsmx' : (s.regs.msr ia32FeatureControl &&& 2 == 0) =
      !(s.regs.msr ia32FeatureControl).getLsbD 1 := by rw [← hsmx, bne, Bool.not_not]
  rw [featureControl, ends_bind, ends_rdmsr, hlock, hsmx', featureOk, Regs.unlocked]
  cases h₀ : (s.regs.msr ia32FeatureControl).getLsbD 0 with
  | true =>
    cases h₁ : (s.regs.msr ia32FeatureControl).getLsbD 1 with
    | true =>
      simp only [Bool.not_true, Bool.false_eq_true, if_true, if_false, Bool.false_or]
      exact Iff.rfl
    | false => simp
  | false =>
    have hunlocked : ¬ (ia32FeatureControl = ia32FeatureControl ∧
        (s.regs.msr ia32FeatureControl).getLsbD 0 = true) :=
      fun h => Bool.false_ne_true (h₀.symm.trans h.2)
    rw [if_neg Bool.false_ne_true, ends_bind, ends_wrmsr, if_neg hunlocked]
    simp

theorem ends_applyFixedBits {Q : PUnit → Machine → Prop} :
    Ends applyFixedBits s Q E ↔ Q ⟨⟩ (s.setRegs s.regs.fixedBits) := Iff.rfl

end Probing

end MochiVM.Hv
