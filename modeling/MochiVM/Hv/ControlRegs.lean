import MochiVM.Hv.Vmx

/-!
# The control-register accessors as assembled (x86.rs:47)

`Machine` lets the accessors of x86.rs do what their names say. Here their
`asm!` templates are executed as written, in the Intel syntax that `asm!`
defaults to: the first operand of a `mov` is the destination, and a register
bound with `out(reg)` holds anything before the template runs.

`fixedBitsRight_iff` says when `apply_fixed_bits` still does its work. The
templates name their operands the wrong way round (`read_seg!`, x86.rs:78, has
them right), so a read stores the arbitrary register into the control register
and a write stores nothing. `named_fixedBitsRight`: with the operands swapped
the accessors are those of `Machine`.
-/

namespace MochiVM.Hv.Asm

/-! ## Templates -/

/-- An operand of a template; `arg` is the general register `{0}`. -/
inductive Operand where
  | cr0 | cr3 | cr4 | arg
deriving DecidableEq, Repr

/-- `mov dst, src`. -/
structure Mov where
  dst : Operand
  src : Operand
deriving DecidableEq, Repr

/-- What a template runs on: the control registers and `{0}`. -/
structure State where
  regs : Regs
  arg : BitVec 64

def State.get (s : State) : Operand → BitVec 64
  | .cr0 => s.regs.cr0
  | .cr3 => s.regs.cr3
  | .cr4 => s.regs.cr4
  | .arg => s.arg

def State.set (s : State) (v : BitVec 64) : Operand → State
  | .cr0 => { s with regs := { s.regs with cr0 := v } }
  | .cr3 => { s with regs := { s.regs with cr3 := v } }
  | .cr4 => { s with regs := { s.regs with cr4 := v } }
  | .arg => { s with arg := v }

def Mov.exec (i : Mov) (s : State) : State := s.set (s.get i.src) i.dst

/-- A template with an `out(reg)` operand that holds `junk` before it. -/
def Mov.outReg (i : Mov) (junk : BitVec 64) (r : Regs) : BitVec 64 × Regs :=
  let s := i.exec ⟨r, junk⟩
  (s.arg, s.regs)

/-- A template with an `in(reg)` operand. -/
def Mov.inReg (i : Mov) (v : BitVec 64) (r : Regs) : Regs := (i.exec ⟨r, v⟩).regs

/-- The templates of the accessors. -/
structure Accessors where
  readCr0 : Mov
  readCr3 : Mov
  readCr4 : Mov
  writeCr0 : Mov
  writeCr4 : Mov

/-- `read_cr0`, `read_cr3`, `read_cr4`, `write_cr0` and `write_cr4` (x86.rs:48). -/
def written : Accessors where
  readCr0 := ⟨.cr0, .arg⟩ -- mov cr0, {0}
  readCr3 := ⟨.cr3, .arg⟩ -- mov cr3, {0}
  readCr4 := ⟨.cr4, .arg⟩ -- mov cr4, {0}
  writeCr0 := ⟨.arg, .cr0⟩ -- mov {0}, cr0
  writeCr4 := ⟨.arg, .cr4⟩ -- mov {0}, cr4

/-- The templates that do what the accessors are named for. -/
def named : Accessors where
  readCr0 := ⟨.arg, .cr0⟩
  readCr3 := ⟨.arg, .cr3⟩
  readCr4 := ⟨.arg, .cr4⟩
  writeCr0 := ⟨.cr0, .arg⟩
  writeCr4 := ⟨.cr4, .arg⟩

/-- `rdmsr` (x86.rs:23): the processor leaves the halves in EDX and EAX. -/
def rdmsr (r : Regs) (msr : BitVec 32) : BitVec 64 :=
  let lo : BitVec 32 := (r.msr msr).setWidth 32
  let hi : BitVec 32 := ((r.msr msr) >>> 32).setWidth 32
  (hi.setWidth 64 <<< 32) ||| lo.setWidth 64

/-- What the `out` registers hold when `apply_fixed_bits` reads CR0 and CR4. -/
structure Junk where
  cr0 : BitVec 64
  cr4 : BitVec 64
deriving DecidableEq

/-- `apply_fixed_bits` (vmx.rs:37). -/
def applyFixedBits (a : Accessors) (junk : Junk) (r : Regs) : Regs :=
  let cr0Fixed0 := rdmsr r ia32VmxCr0Fixed0
  let cr0Fixed1 := rdmsr r ia32VmxCr0Fixed1
  let (v, r) := a.readCr0.outReg junk.cr0 r
  let cr0 := (v ||| cr0Fixed0) &&& cr0Fixed1
  let r := a.writeCr0.inReg cr0 r
  let cr4Fixed0 := rdmsr r ia32VmxCr4Fixed0
  let cr4Fixed1 := rdmsr r ia32VmxCr4Fixed1
  let (v, r) := a.readCr4.outReg junk.cr4 r
  let cr4 := (v ||| cr4Fixed0) &&& cr4Fixed1
  a.writeCr4.inReg cr4 r

/-! ## What is asked of them -/

/-- A bit the MSRs leave free: neither must it be 1 nor must it be 0. -/
def Free (fixed0 fixed1 : BitVec 64) (i : Nat) : Prop :=
  fixed0.getLsbD i = false ∧ fixed1.getLsbD i = true

/-- The contents of the `out` registers in each of the runs looked at. -/
structure Contents where
  /-- In a call of `read_cr0`. -/
  read0 : BitVec 64
  /-- In a call of `read_cr4`. -/
  read4 : BitVec 64
  /-- In a call of `apply_fixed_bits`. -/
  first : Junk
  /-- In a second call of `apply_fixed_bits`. -/
  again : Junk
deriving DecidableEq

/-- What is asked of the accessors and of `apply_fixed_bits` on registers `r`. -/
structure FixedBitsRight (a : Accessors) (c : Contents) (r : Regs) : Prop where
  read_cr0 : a.readCr0.outReg c.read0 r = (r.cr0, r)
  read_cr4 : a.readCr4.outReg c.read4 r = (r.cr4, r)
  /-- CR0 and CR4 are forced into range, everything else is as it was. -/
  applied : applyFixedBits a c.first r = r.fixedBits
  free_cr0 : ∀ i, Free (r.msr ia32VmxCr0Fixed0) (r.msr ia32VmxCr0Fixed1) i →
    (applyFixedBits a c.first r).cr0.getLsbD i = r.cr0.getLsbD i
  free_cr4 : ∀ i, Free (r.msr ia32VmxCr4Fixed0) (r.msr ia32VmxCr4Fixed1) i →
    (applyFixedBits a c.first r).cr4.getLsbD i = r.cr4.getLsbD i
  again : applyFixedBits a c.again (applyFixedBits a c.first r) = applyFixedBits a c.first r

/-! ## The bits -/

/-- The two halves make the MSR. -/
@[simp] theorem rdmsr_eq (r : Regs) (msr : BitVec 32) : rdmsr r msr = r.msr msr := by
  apply BitVec.eq_of_getLsbD_eq
  intro i hi
  rw [rdmsr]
  simp only [BitVec.getLsbD_or, BitVec.getLsbD_shiftLeft, BitVec.getLsbD_setWidth,
    BitVec.getLsbD_ushiftRight]
  by_cases hlow : i < 32
  · simp [hlow, hi]
  · have hback : 32 + (i - 32) = i := by omega
    simp [hlow, hi, hback, show i - 32 < 32 by omega, show i - 32 < 64 by omega]

/-- A free bit is not touched. -/
theorem forced_free {v fixed0 fixed1 : BitVec 64} {i : Nat} (h : Free fixed0 fixed1 i) :
    ((v ||| fixed0) &&& fixed1).getLsbD i = v.getLsbD i := by
  rw [BitVec.getLsbD_and, BitVec.getLsbD_or, h.1, h.2, Bool.or_false, Bool.and_true]

/-- Forcing a value twice is forcing it once. -/
theorem forced_twice (v fixed0 fixed1 : BitVec 64) :
    ((((v ||| fixed0) &&& fixed1) ||| fixed0) &&& fixed1) = (v ||| fixed0) &&& fixed1 := by
  apply BitVec.eq_of_getLsbD_eq
  intro i _
  simp only [BitVec.getLsbD_and, BitVec.getLsbD_or]
  cases v.getLsbD i <;> cases fixed0.getLsbD i <;> cases fixed1.getLsbD i <;> rfl

/-! ## As written -/

section Written

variable (junk v : BitVec 64) (r : Regs)

/-- `read_cr0` stores what its register holds in CR0, and returns that. -/
theorem written_readCr0 : written.readCr0.outReg junk r = (junk, { r with cr0 := junk }) := rfl

theorem written_readCr4 : written.readCr4.outReg junk r = (junk, { r with cr4 := junk }) := rfl

/-- `write_cr0` stores nothing. -/
theorem written_writeCr0 : written.writeCr0.inReg v r = r := rfl

theorem written_writeCr4 : written.writeCr4.inReg v r = r := rfl

/-- `apply_fixed_bits` leaves the contents of the two `out` registers in CR0 and
CR4, whatever the MSRs ask for. -/
theorem written_applyFixedBits (junk : Junk) :
    applyFixedBits written junk r = { r with cr0 := junk.cr0, cr4 := junk.cr4 } := by
  simp only [applyFixedBits, written_readCr0, written_writeCr0, written_readCr4, written_writeCr4]

end Written

/-- The registers are told apart by CR0 and CR4 when nothing else differs. -/
theorem setCrs_eq_iff {r : Regs} {x₀ x₄ y₀ y₄ : BitVec 64} :
    ({ r with cr0 := x₀, cr4 := x₄ } : Regs) = { r with cr0 := y₀, cr4 := y₄ } ↔
      x₀ = y₀ ∧ x₄ = y₄ :=
  ⟨fun h => ⟨congrArg Regs.cr0 h, congrArg Regs.cr4 h⟩, by rintro ⟨rfl, rfl⟩; rfl⟩

/-- What the `out` registers would have to hold. -/
def wanted (r : Regs) : Contents where
  read0 := r.cr0
  read4 := r.cr4
  first := ⟨r.fixedBits.cr0, r.fixedBits.cr4⟩
  again := ⟨r.fixedBits.cr0, r.fixedBits.cr4⟩

/-- **The accessors as written do their work only by luck**: when each `out`
register already holds the value that is to be in the control register. -/
theorem fixedBitsRight_iff (c : Contents) (r : Regs) :
    FixedBitsRight written c r ↔ c = wanted r := by
  constructor
  · intro h
    have hcr0 := h.read_cr0
    have hcr4 := h.read_cr4
    rw [written_readCr0] at hcr0
    rw [written_readCr4] at hcr4
    have hread0 : c.read0 = r.cr0 := congrArg Prod.fst hcr0
    have hread4 : c.read4 = r.cr4 := congrArg Prod.fst hcr4
    have hfirst := h.applied
    have hagain := h.again
    rw [hfirst] at hagain
    rw [written_applyFixedBits] at hfirst hagain
    obtain ⟨hf₀, hf₄⟩ := setCrs_eq_iff.mp hfirst
    have ha₀ : c.again.cr0 = r.fixedBits.cr0 := congrArg Regs.cr0 hagain
    have ha₄ : c.again.cr4 = r.fixedBits.cr4 := congrArg Regs.cr4 hagain
    obtain ⟨read0, read4, ⟨first0, first4⟩, ⟨again0, again4⟩⟩ := c
    simp only at hread0 hread4 hf₀ hf₄ ha₀ ha₄
    rw [hread0, hread4, hf₀, hf₄, ha₀, ha₄]
    rfl
  · rintro rfl
    have happlied : applyFixedBits written (wanted r).first r = r.fixedBits := rfl
    refine ⟨rfl, rfl, happlied, fun i hi => ?_, fun i hi => ?_, rfl⟩
    · rw [happlied]
      exact forced_free hi
    · rw [happlied]
      exact forced_free hi

/-- CR0 and CR4 with protection, paging and PAE on, as firmware leaves them, and
MSRs that ask for CR0.NE and CR4.VMXE. -/
def firmwareRegs : Regs :=
  { (default : Regs) with
    cr0 := 0x80000011
    cr4 := 0x668
    msr := fun m =>
      if m = ia32VmxCr0Fixed0 then 0x80000021
      else if m = ia32VmxCr0Fixed1 then 0xFFFFFFFF
      else if m = ia32VmxCr4Fixed0 then 0x2000
      else if m = ia32VmxCr4Fixed1 then 0x3767FF
      else 0 }

/-- Where the `out` register holds 0x80000013, reading CR0 sets CR0.MP. -/
theorem not_fixedBitsRight_firmware :
    ¬ ∀ (c : Contents) (r : Regs),
      r.msr ia32VmxCr0Fixed0 &&& r.msr ia32VmxCr0Fixed1 = r.msr ia32VmxCr0Fixed0 →
      r.msr ia32VmxCr4Fixed0 &&& r.msr ia32VmxCr4Fixed1 = r.msr ia32VmxCr4Fixed0 →
      FixedBitsRight written c r := by
  intro h
  have hread := (h ⟨0x80000013, 0x668, ⟨0x80000013, 0x668⟩, ⟨0x80000013, 0x668⟩⟩
    firmwareRegs (by decide) (by decide)).read_cr0
  exact absurd (congrArg Prod.fst hread) (by decide)

/-! ## With the operands swapped -/

theorem named_applyFixedBits (junk : Junk) (r : Regs) :
    applyFixedBits named junk r = r.fixedBits := by
  rw [applyFixedBits]
  simp only [rdmsr_eq]
  rfl

/-- **With the operands the other way round** the accessors and
`apply_fixed_bits` are right for every content of the `out` registers, and what
they leave is what `Hv.applyFixedBits` leaves (`ends_applyFixedBits`). -/
theorem named_fixedBitsRight (c : Contents) (r : Regs) : FixedBitsRight named c r where
  read_cr0 := rfl
  read_cr4 := rfl
  applied := named_applyFixedBits c.first r
  free_cr0 i hi := by
    rw [named_applyFixedBits]
    exact forced_free hi
  free_cr4 i hi := by
    rw [named_applyFixedBits]
    exact forced_free hi
  again := by
    rw [named_applyFixedBits, named_applyFixedBits]
    exact setCrs_eq_iff.mpr ⟨forced_twice _ _ _, forced_twice _ _ _⟩

end MochiVM.Hv.Asm
