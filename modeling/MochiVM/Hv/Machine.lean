import MochiVM.Lib.Panic

/-!
# The machine under the hypervisor (x86.rs, hv/efi.rs, serial.rs)

The state the hypervisor works on: the control, model-specific and segment
registers, the processor's VMX state, physical memory (identity mapped), and
the statics of the program. The register accessors of x86.rs read and write it
as their names say.

What the hypervisor does not decide is in `Env`: the firmware's answers to page
allocations and the processor's answers to VMX instructions, each indexed by how
many calls came before, so that any assignment of success and failure is an
`Env`. `trace` is a ghost: every VMX instruction executed, with the registers
and the VMX state it found.

Arithmetic is that of the release profile: `u64` sums wrap.
-/

namespace MochiVM.Hv

open MochiVM.Panic

/-- Physical addresses, identity mapped (`*mut u8`, `u64`). -/
abbrev Addr := BitVec 64

/-- The registers the hypervisor reads or writes, the general ones apart. -/
structure Regs where
  cr0 : BitVec 64
  cr3 : BitVec 64
  cr4 : BitVec 64
  msr : BitVec 32 → BitVec 64
  /-- Limit and base. -/
  gdtr : BitVec 16 × BitVec 64
  /-- Limit and base. -/
  idtr : BitVec 16 × BitVec 64
  tr : BitVec 16
  cs : BitVec 16
  ss : BitVec 16
  ds : BitVec 16
  es : BitVec 16
  fs : BitVec 16
  gs : BitVec 16
deriving Inhabited

/-- The VMX state of the logical processor. -/
structure Vmx where
  /-- The VMXON region, while in VMX operation. -/
  vmxonPtr : Option Addr
  /-- The current VMCS. -/
  current : Option Addr
  /-- The VMCSs that VMPTRLD made active and no VMCLEAR followed. -/
  active : List Addr
  /-- The content of every VMCS, by region and field encoding. -/
  data : Addr → BitVec 32 → BitVec 64

/-- In VMX operation: between a VMXON that succeeded and VMXOFF. -/
def Vmx.on (v : Vmx) : Bool := v.vmxonPtr.isSome

/-- The VMX instructions, with their operands. -/
inductive VmxInsn where
  | vmxon (region : Addr)
  | vmxoff
  | vmclear (region : Addr)
  | vmptrld (region : Addr)
  | vmwrite (field : BitVec 32) (value : BitVec 64)
  | vmread (field : BitVec 32)
  | vmlaunch
  | vmresume
deriving DecidableEq, Repr

/-- An executed VMX instruction and the processor state it found. -/
structure Event where
  insn : VmxInsn
  regs : Regs
  vmx : Vmx

/-- The statics of main.rs and vmcs.rs. -/
structure Statics where
  /-- `SYSTEM_TABLE`. -/
  systemTable : BitVec 64
  /-- `VMXON_REGION`. -/
  vmxonRegion : BitVec 64
  /-- `VMCS_REGION`. -/
  vmcsRegion : BitVec 64
  /-- `VMX_ACTIVE`. -/
  vmxActive : Bool
  /-- `EXIT_COUNT`. -/
  exitCount : BitVec 64

/-- The machine. The statics are not part of `mem`: a guest that overwrites the
hypervisor's own image is outside the model. -/
structure Machine where
  regs : Regs
  vmx : Vmx
  mem : Addr → BitVec 8
  st : Statics
  /-- Calls of `allocate_pages` so far. -/
  allocs : Nat
  /-- The VMX instructions executed so far. -/
  trace : List Event
  /-- The lines printed to the serial port so far. -/
  serial : List String

namespace Machine

/-! The state changes, one for each part; a lemma per part says what the others
are after it. -/

@[simps] def setRegs (s : Machine) (regs : Regs) : Machine := { s with regs := regs }

@[simps] def setVmx (s : Machine) (vmx : Vmx) : Machine := { s with vmx := vmx }

@[simps] def setMem (s : Machine) (mem : Addr → BitVec 8) : Machine := { s with mem := mem }

@[simps] def setSt (s : Machine) (st : Statics) : Machine := { s with st := st }

/-- One more call of `allocate_pages`. -/
@[simps] def allocated (s : Machine) : Machine := { s with allocs := s.allocs + 1 }

/-- One more VMX instruction executed, its effect apart. -/
@[simps] def record (s : Machine) (insn : VmxInsn) : Machine :=
  { s with trace := s.trace ++ [⟨insn, s.regs, s.vmx⟩] }

/-- One more line on the serial port. -/
@[simps] def printed (s : Machine) (line : String) : Machine :=
  { s with serial := s.serial ++ [line] }

end Machine

/-- The VMX instructions executed between `s` and `t` all satisfy `P`. -/
def NewEvents (P : Event → Prop) (s t : Machine) : Prop :=
  ∃ new, t.trace = s.trace ++ new ∧ ∀ ev ∈ new, P ev

theorem NewEvents.refl (P : Event → Prop) (s : Machine) : NewEvents P s s :=
  ⟨[], (List.append_nil _).symm, fun _ h => absurd h List.not_mem_nil⟩

theorem NewEvents.record {P : Event → Prop} {s t : Machine} (h : NewEvents P s t)
    {insn : VmxInsn} (hp : P ⟨insn, t.regs, t.vmx⟩) : NewEvents P s (t.record insn) := by
  obtain ⟨new, hnew, hall⟩ := h
  refine ⟨new ++ [⟨insn, t.regs, t.vmx⟩], ?_, fun ev hev => ?_⟩
  · rw [Machine.record_trace, hnew, List.append_assoc]
  · obtain hev | hev := List.mem_append.mp hev
    · exact hall ev hev
    · obtain rfl := List.mem_singleton.mp hev
      exact hp

/-- What the hypervisor does not decide. -/
structure Env where
  /-- `cpuid(leaf, subleaf)`: `(eax, ecx, edx)`. -/
  cpuid : BitVec 32 → BitVec 32 → BitVec 32 × BitVec 32 × BitVec 32
  /-- The firmware's answer to the `n`-th allocation: EFI status and address. -/
  allocate : Nat → BitVec 64 → BitVec 64 × Addr
  /-- Whether VMXON, as the `n`-th VMX instruction, succeeds. -/
  vmxonOk : Nat → Addr → Bool
  vmclearOk : Nat → Addr → Bool
  vmptrldOk : Nat → Addr → Bool
  /-- Whether VMWRITE to a field, as the `n`-th VMX instruction, succeeds. -/
  vmwriteOk : Nat → BitVec 32 → Bool
  vmlaunchOk : Bool
  /-- Whether VMRESUME, as the `n`-th VMX instruction, succeeds. -/
  vmresumeOk : Nat → Bool
  /-- The address of `host_entry`. -/
  hostEntry : Addr

/-- Processor exceptions, which the hypervisor has no handler for. -/
inductive Exception where
  | invalidOpcode
  | generalProtection
deriving DecidableEq, Repr

/-- The ways in which control leaves the hypervisor's code other than by return. -/
inductive Abort where
  /-- A Rust panic: control passes to the panic handler. -/
  | panic (msg : String)
  /-- A processor exception. -/
  | fault (e : Exception)
  /-- VMLAUNCH succeeded: the guest runs until the next VM exit. -/
  | launched
  /-- A `cli; hlt` loop. -/
  | halted
deriving DecidableEq, Repr

/-- Hypervisor code. -/
abbrev HvM := EStateM Abort Machine

/-! ## Register accessors (x86.rs) -/

def cpuid (env : Env) (leaf subleaf : BitVec 32) :
    HvM (BitVec 32 × BitVec 32 × BitVec 32) := pure (env.cpuid leaf subleaf)

/-- `IA32_FEATURE_CONTROL`. -/
def ia32FeatureControl : BitVec 32 := 0x3A#32

def rdmsr (msr : BitVec 32) : HvM (BitVec 64) := fun s => .ok (s.regs.msr msr) s

/-- The registers with one MSR replaced. -/
def Regs.setMsr (r : Regs) (msr : BitVec 32) (v : BitVec 64) : Regs :=
  { r with msr := fun m => if m = msr then v else r.msr m }

@[simp] theorem Regs.setMsr_self (r : Regs) (msr : BitVec 32) (v : BitVec 64) :
    (r.setMsr msr v).msr msr = v := if_pos rfl

theorem Regs.setMsr_other (r : Regs) {msr m : BitVec 32} (v : BitVec 64) (h : m ≠ msr) :
    (r.setMsr msr v).msr m = r.msr m := if_neg h

/-- A write to `IA32_FEATURE_CONTROL` faults once its lock bit is set. -/
def wrmsr (msr : BitVec 32) (v : BitVec 64) : HvM PUnit := fun s =>
  if msr = ia32FeatureControl ∧ (s.regs.msr msr).getLsbD 0 then
    .error (.fault .generalProtection) s
  else .ok ⟨⟩ (s.setRegs (s.regs.setMsr msr v))

def readCr0 : HvM (BitVec 64) := fun s => .ok s.regs.cr0 s
def readCr3 : HvM (BitVec 64) := fun s => .ok s.regs.cr3 s
def readCr4 : HvM (BitVec 64) := fun s => .ok s.regs.cr4 s

def writeCr0 (v : BitVec 64) : HvM PUnit := fun s =>
  .ok ⟨⟩ (s.setRegs { s.regs with cr0 := v })

def writeCr4 (v : BitVec 64) : HvM PUnit := fun s =>
  .ok ⟨⟩ (s.setRegs { s.regs with cr4 := v })

/-- `read_seg!` and `read_tr`. -/
def readSeg (seg : Regs → BitVec 16) : HvM (BitVec 16) := fun s => .ok (seg s.regs) s

def readSs : HvM (BitVec 16) := readSeg Regs.ss
def readDs : HvM (BitVec 16) := readSeg Regs.ds
def readEs : HvM (BitVec 16) := readSeg Regs.es
def readFs : HvM (BitVec 16) := readSeg Regs.fs
def readGs : HvM (BitVec 16) := readSeg Regs.gs
def readTr : HvM (BitVec 16) := readSeg Regs.tr

/-- `sgdt`: limit and base. -/
def sgdt : HvM (BitVec 16 × BitVec 64) := fun s => .ok s.regs.gdtr s

/-- `sidt`: limit and base. -/
def sidt : HvM (BitVec 16 × BitVec 64) := fun s => .ok s.regs.idtr s

/-- The base that `read_gdt_entry_base` (x86.rs:129) puts together from the
sixteen bytes at `gdt_base + offset`. -/
def gdtEntryBase (mem : Addr → BitVec 8) (gdtBase offset : BitVec 64) : BitVec 64 :=
  let desc (i : Nat) : BitVec 64 := (mem (gdtBase + offset + BitVec.ofNat 64 i)).setWidth 64
  desc 2 ||| (desc 3 <<< 8) ||| (desc 4 <<< 16) ||| (desc 7 <<< 24) |||
    (desc 8 <<< 32) ||| (desc 9 <<< 40) ||| (desc 10 <<< 48) ||| (desc 11 <<< 56)

def readGdtEntryBase (gdtBase offset : BitVec 64) : HvM (BitVec 64) := fun s =>
  .ok (gdtEntryBase s.mem gdtBase offset) s

/-! ## Memory -/

/-- The `n` bytes at `a`, least significant first. -/
def loadLE (mem : Addr → BitVec 8) (a : Addr) : Nat → BitVec 64
  | 0 => 0
  | n + 1 => (mem a).setWidth 64 ||| (loadLE mem (a + 1) n <<< 8)

/-- Memory with `n` bytes of `v` stored at `a`, least significant first. -/
def storeLE (mem : Addr → BitVec 8) (a : Addr) (n : Nat) (v : BitVec 64) : Addr → BitVec 8 :=
  fun x => if (x - a).toNat < n then (v >>> (8 * (x - a).toNat)).setWidth 8 else mem x

/-- Memory with `bytes` stored at `a`. -/
def storeBytes (mem : Addr → BitVec 8) (a : Addr) (bytes : List (BitVec 8)) : Addr → BitVec 8 :=
  fun x => (bytes[(x - a).toNat]?).getD (mem x)

/-- `core::ptr::write_volatile(p as *mut u32, v)`. -/
def writeVolatile32 (p : Addr) (v : BitVec 32) : HvM PUnit := fun s =>
  .ok ⟨⟩ (s.setMem (storeLE s.mem p 4 (v.setWidth 64)))

/-- `core::ptr::copy_nonoverlapping(src, dst, len)`. -/
def copyNonoverlapping (src : List (BitVec 8)) (dst : Addr) : HvM PUnit := fun s =>
  .ok ⟨⟩ (s.setMem (storeBytes s.mem dst src))

/-! ## Serial port and firmware -/

/-- `serial_println!`. -/
def serialPrintln (line : String) : HvM PUnit := fun s =>
  .ok ⟨⟩ (s.printed line)

/-- What the `n`-th call of `allocate_pages` (efi.rs:44) answers, with the given
system table. -/
def allocAnswer (env : Env) (systemTable : BitVec 64) (n : Nat) (pages : BitVec 64) :
    Except String Addr :=
  if systemTable = 0 then .error "no system table"
  else if (env.allocate n pages).1 ≠ 0 then .error "allocate_pages failed"
  else .ok (env.allocate n pages).2

theorem allocAnswer_ok {env : Env} {systemTable pages : BitVec 64} {n : Nat} {a : Addr}
    (h : allocAnswer env systemTable n pages = .ok a) : env.allocate n pages = (0, a) := by
  rw [allocAnswer] at h
  split at h
  · cases h
  · split at h
    · cases h
    next hst => exact Prod.ext (by simpa using hst) (by simpa using h)

/-- `allocate_pages` (efi.rs:44). -/
def allocatePages (env : Env) (pages : BitVec 64) : HvM (Except String Addr) := fun s =>
  .ok (allocAnswer env s.st.systemTable s.allocs pages) s.allocated

/-- `allocate_page` (efi.rs:60). -/
def allocatePage (env : Env) : HvM (Except String Addr) := allocatePages env 1

/-! ## How the accessors end -/

section Ends

variable {s : Machine} {E : Abort → Machine → Prop}

@[simp] theorem ends_cpuid {env : Env} {leaf subleaf : BitVec 32}
    {Q : BitVec 32 × BitVec 32 × BitVec 32 → Machine → Prop} :
    Ends (cpuid env leaf subleaf) s Q E ↔ Q (env.cpuid leaf subleaf) s := Iff.rfl

@[simp] theorem ends_rdmsr {msr : BitVec 32} {Q : BitVec 64 → Machine → Prop} :
    Ends (rdmsr msr) s Q E ↔ Q (s.regs.msr msr) s := Iff.rfl

@[simp] theorem ends_readCr0 {Q : BitVec 64 → Machine → Prop} :
    Ends readCr0 s Q E ↔ Q s.regs.cr0 s := Iff.rfl

@[simp] theorem ends_readCr3 {Q : BitVec 64 → Machine → Prop} :
    Ends readCr3 s Q E ↔ Q s.regs.cr3 s := Iff.rfl

@[simp] theorem ends_readCr4 {Q : BitVec 64 → Machine → Prop} :
    Ends readCr4 s Q E ↔ Q s.regs.cr4 s := Iff.rfl

@[simp] theorem ends_writeCr0 {v : BitVec 64} {Q : PUnit → Machine → Prop} :
    Ends (writeCr0 v) s Q E ↔ Q ⟨⟩ (s.setRegs { s.regs with cr0 := v }) := Iff.rfl

@[simp] theorem ends_writeCr4 {v : BitVec 64} {Q : PUnit → Machine → Prop} :
    Ends (writeCr4 v) s Q E ↔ Q ⟨⟩ (s.setRegs { s.regs with cr4 := v }) := Iff.rfl

@[simp] theorem ends_writeVolatile32 {p : Addr} {v : BitVec 32} {Q : PUnit → Machine → Prop} :
    Ends (writeVolatile32 p v) s Q E ↔
      Q ⟨⟩ (s.setMem (storeLE s.mem p 4 (v.setWidth 64))) := Iff.rfl

@[simp] theorem ends_copyNonoverlapping {src : List (BitVec 8)} {dst : Addr}
    {Q : PUnit → Machine → Prop} :
    Ends (copyNonoverlapping src dst) s Q E ↔ Q ⟨⟩ (s.setMem (storeBytes s.mem dst src)) :=
  Iff.rfl

@[simp] theorem ends_serialPrintln {line : String} {Q : PUnit → Machine → Prop} :
    Ends (serialPrintln line) s Q E ↔ Q ⟨⟩ (s.printed line) := Iff.rfl

@[simp] theorem ends_allocatePages {env : Env} {pages : BitVec 64}
    {Q : Except String Addr → Machine → Prop} :
    Ends (allocatePages env pages) s Q E ↔
      Q (allocAnswer env s.st.systemTable s.allocs pages) s.allocated :=
  Iff.rfl

@[simp] theorem ends_allocatePage {env : Env} {Q : Except String Addr → Machine → Prop} :
    Ends (allocatePage env) s Q E ↔
      Q (allocAnswer env s.st.systemTable s.allocs 1) s.allocated :=
  Iff.rfl

theorem ends_wrmsr {msr : BitVec 32} {v : BitVec 64} {Q : PUnit → Machine → Prop} :
    Ends (wrmsr msr v) s Q E ↔
      if msr = ia32FeatureControl ∧ (s.regs.msr msr).getLsbD 0 then
        E (.fault .generalProtection) s
      else Q ⟨⟩ (s.setRegs (s.regs.setMsr msr v)) := by
  rw [Ends, wrmsr]
  by_cases h : msr = ia32FeatureControl ∧ (s.regs.msr msr).getLsbD 0
  · rw [if_pos h, if_pos h]
  · rw [if_neg h, if_neg h]

end Ends

end MochiVM.Hv
