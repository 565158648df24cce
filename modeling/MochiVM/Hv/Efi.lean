import MochiVM.Hv.Machine

/-!
# The firmware's page allocator (hv/efi.rs)

`allocate_pages` finds AllocatePages through two hand-written `repr(C)` tables.
The tables are laid out here by the rules of `repr(C)`, next to the tables of
the UEFI specification, and the call is made through whatever pointer the code's
offsets find in memory. The firmware is a parameter: what a call of any of its
functions answers.

`allocatePages_asSpecified_iff` says when the call is the one the specification
defines. Two things are wrong with it. `EfiSystemTable` has none of the three
console handles of the specification but a `con_in_ex` that is not there: it is
two pointers short, and its `boot_services` is StdErr (`bootServices_isStdErr`).
And the memory type 7 is EfiConventionalMemory, not EfiLoaderData.
-/

namespace MochiVM.Hv.Efi

/-! ## Layout of a `repr(C)` struct -/

/-- Size and alignment of a C type, in bytes. -/
structure CType where
  size : Nat
  align : Nat
deriving DecidableEq, Repr

def u32 : CType := ⟨4, 4⟩

/-- `u64`, and a pointer. -/
def u64 : CType := ⟨8, 8⟩

/-- The first multiple of `align` from `n` on. -/
def roundUp (n align : Nat) : Nat := (n + align - 1) / align * align

section Layout

variable {ν : Type} [DecidableEq ν]

/-- The end of the last field, when the first starts at `off` or later. -/
def fieldsEnd (off : Nat) : List (ν × CType) → Nat
  | [] => off
  | (_, t) :: fields => fieldsEnd (roundUp off t.align + t.size) fields

/-- The struct as the type of a field. -/
def structType (fields : List (ν × CType)) : CType :=
  let align := (fields.map (·.2.align)).foldl max 1
  ⟨roundUp (fieldsEnd 0 fields) align, align⟩

/-- The offset of a field, when the first field starts at `off` or later. -/
def offsetFrom (off : Nat) (f : ν) : List (ν × CType) → Nat
  | [] => off
  | (g, t) :: fields =>
    if f = g then roundUp off t.align else offsetFrom (roundUp off t.align + t.size) f fields

def offsetOf (fields : List (ν × CType)) (f : ν) : Nat := offsetFrom 0 f fields

/-- The 64-bit field `f` of the struct at `p`. -/
def readField (mem : Addr → BitVec 8) (p : Addr) (fields : List (ν × CType)) (f : ν) :
    BitVec 64 := loadLE mem (p + BitVec.ofNat 64 (offsetOf fields f)) 8

end Layout

/-! ## The tables of efi.rs -/

inductive HeaderField where
  | signature | revision | headerSize | crc32 | reserved
deriving DecidableEq, Repr

/-- `EfiTableHeader` (efi.rs:6). -/
def efiTableHeader : List (HeaderField × CType) :=
  [(.signature, u64), (.revision, u32), (.headerSize, u32), (.crc32, u32), (.reserved, u32)]

inductive SystemTableField where
  | hdr | firmwareVendor | firmwareRevision | pad | conIn | conInEx | conOut | stderr
  | runtimeServices | bootServices | numberOfTableEntries | configurationTable
deriving DecidableEq, Repr

/-- `EfiSystemTable` (efi.rs:15). -/
def efiSystemTable : List (SystemTableField × CType) :=
  [(.hdr, structType efiTableHeader), (.firmwareVendor, u64), (.firmwareRevision, u32),
   (.pad, u32), (.conIn, u64), (.conInEx, u64), (.conOut, u64), (.stderr, u64),
   (.runtimeServices, u64), (.bootServices, u64), (.numberOfTableEntries, u64),
   (.configurationTable, u64)]

inductive BootServicesField where
  | hdr | raiseTpl | restoreTpl | allocatePages | freePages | getMemoryMap
deriving DecidableEq, Repr

/-- `EfiBootServices` (efi.rs:31). -/
def efiBootServices : List (BootServicesField × CType) :=
  [(.hdr, structType efiTableHeader), (.raiseTpl, u64), (.restoreTpl, u64),
   (.allocatePages, u64), (.freePages, u64), (.getMemoryMap, u64)]

/-! ## Calling the firmware -/

/-- A call through an `AllocatePagesFn` pointer (efi.rs:40). -/
structure Call where
  /-- The address called. -/
  fn : Addr
  allocateType : BitVec 32
  memoryType : BitVec 32
  pages : BitVec 64
  /-- What the result cell holds when the call is made. -/
  memory : BitVec 64
deriving DecidableEq, Repr

/-- What a call answers: the status, and what the result cell holds on return. -/
abbrev Firmware := Call → BitVec 64 × BitVec 64

/-- What a call of `allocate_pages` returns, and the firmware calls it makes. -/
structure Outcome where
  result : Except String Addr
  calls : List Call

/-- `allocate_pages` (efi.rs:44). -/
def allocatePages (fw : Firmware) (mem : Addr → BitVec 8) (systemTable pages : BitVec 64) :
    Outcome :=
  let st := systemTable
  if st = 0 then ⟨.error "no system table", []⟩
  else
    let bs := readField mem st efiSystemTable .bootServices
    let allocate := readField mem bs efiBootServices .allocatePages
    let addr := 0
    -- "EfiAllocateAnyPages = 0, EfiLoaderData = 7"
    let call : Call := ⟨allocate, 0, 7, pages, addr⟩
    let (status, addr) := fw call
    if status ≠ 0 then ⟨.error "allocate_pages failed", [call]⟩
    else ⟨.ok addr, [call]⟩

/-- `allocate_page` (efi.rs:60). -/
def allocatePage (fw : Firmware) (mem : Addr → BitVec 8) (systemTable : BitVec 64) : Outcome :=
  allocatePages fw mem systemTable 1

/-! ## The UEFI specification -/

namespace Spec

inductive SystemTableField where
  | hdr | firmwareVendor | firmwareRevision | consoleInHandle | conIn | consoleOutHandle | conOut
  | standardErrorHandle | stdErr | runtimeServices | bootServices | numberOfTableEntries
  | configurationTable
deriving DecidableEq, Repr

/-- EFI_SYSTEM_TABLE, for 64-bit. -/
def systemTable : List (SystemTableField × CType) :=
  [(.hdr, structType efiTableHeader), (.firmwareVendor, u64), (.firmwareRevision, u32),
   (.consoleInHandle, u64), (.conIn, u64), (.consoleOutHandle, u64), (.conOut, u64),
   (.standardErrorHandle, u64), (.stdErr, u64), (.runtimeServices, u64), (.bootServices, u64),
   (.numberOfTableEntries, u64), (.configurationTable, u64)]

inductive BootServicesField where
  | hdr | raiseTPL | restoreTPL | allocatePages | freePages | getMemoryMap
deriving DecidableEq, Repr

/-- The start of EFI_BOOT_SERVICES, for 64-bit. -/
def bootServices : List (BootServicesField × CType) :=
  [(.hdr, structType efiTableHeader), (.raiseTPL, u64), (.restoreTPL, u64),
   (.allocatePages, u64), (.freePages, u64), (.getMemoryMap, u64)]

/-- EFI_ALLOCATE_TYPE. -/
inductive AllocateType where
  | anyPages | maxAddress | address
deriving DecidableEq, Repr

def AllocateType.code : AllocateType → BitVec 32
  | .anyPages => 0
  | .maxAddress => 1
  | .address => 2

/-- The start of EFI_MEMORY_TYPE. -/
inductive MemoryType where
  | reserved | loaderCode | loaderData | bootServicesCode | bootServicesData
  | runtimeServicesCode | runtimeServicesData | conventional
deriving DecidableEq, Repr

def MemoryType.code : MemoryType → BitVec 32
  | .reserved => 0
  | .loaderCode => 1
  | .loaderData => 2
  | .bootServicesCode => 3
  | .bootServicesData => 4
  | .runtimeServicesCode => 5
  | .runtimeServicesData => 6
  | .conventional => 7

def efiSuccess : BitVec 64 := 0

/-- `BootServices->AllocatePages` of the system table at `st`. -/
def allocatePagesFn (mem : Addr → BitVec 8) (st : Addr) : Addr :=
  readField mem (readField mem st systemTable .bootServices) bootServices .allocatePages

end Spec

/-- What is asked of `allocate_pages`. -/
structure AsSpecified (fw : Firmware) (mem : Addr → BitVec 8) (st pages : BitVec 64)
    (o : Outcome) : Prop where
  /-- Without a system table it fails and calls nothing. -/
  null : st = 0 → o.result.isOk = false ∧ o.calls = []
  /-- Otherwise it calls AllocatePages once, for loader data anywhere, -/
  call : st ≠ 0 → ∃ cell, o.calls =
    [⟨Spec.allocatePagesFn mem st, Spec.AllocateType.anyPages.code,
      Spec.MemoryType.loaderData.code, pages, cell⟩]
  /-- succeeds when that does, with the address the firmware wrote, -/
  ok : ∀ c ∈ o.calls, (fw c).1 = Spec.efiSuccess → o.result = .ok (fw c).2
  /-- and fails when that fails. -/
  failed : ∀ c ∈ o.calls, (fw c).1 ≠ Spec.efiSuccess → o.result.isOk = false

/-! ## What the code calls -/

section Calls

variable {fw : Firmware} {mem : Addr → BitVec 8} {st pages : BitVec 64}

/-- **What `boot_services` is**: the specification's StdErr, for any content of
the table. -/
theorem bootServices_isStdErr (mem : Addr → BitVec 8) (st : Addr) :
    readField mem st efiSystemTable .bootServices =
      readField mem st Spec.systemTable .stdErr := rfl

/-- `EfiBootServices` is laid out as specified. -/
theorem allocatePages_offset (mem : Addr → BitVec 8) (bs : Addr) :
    readField mem bs efiBootServices .allocatePages =
      readField mem bs Spec.bootServices .allocatePages := rfl

/-- The pointer the code calls through. -/
def calledFn (mem : Addr → BitVec 8) (st : Addr) : Addr :=
  readField mem (readField mem st Spec.systemTable .stdErr) Spec.bootServices .allocatePages

theorem readField_calledFn (mem : Addr → BitVec 8) (st : Addr) :
    readField mem (readField mem st efiSystemTable .bootServices) efiBootServices .allocatePages =
      calledFn mem st := by
  rw [bootServices_isStdErr, allocatePages_offset, calledFn]

/-- The call the code makes. -/
def madeCall (mem : Addr → BitVec 8) (st pages : BitVec 64) : Call :=
  ⟨calledFn mem st, Spec.AllocateType.anyPages.code, Spec.MemoryType.conventional.code, pages, 0⟩

theorem allocatePages_null (h : st = 0) :
    allocatePages fw mem st pages = ⟨.error "no system table", []⟩ := by
  rw [allocatePages, if_pos h]

/-- **What the code does with a system table**: one call, for conventional
memory, through StdErr. The answer is passed on as it should be. -/
theorem allocatePages_calls (h : st ≠ 0) :
    allocatePages fw mem st pages =
      ⟨if (fw (madeCall mem st pages)).1 = Spec.efiSuccess then
          .ok (fw (madeCall mem st pages)).2
        else .error "allocate_pages failed", [madeCall mem st pages]⟩ := by
  rw [allocatePages, if_neg h]
  dsimp only
  rw [readField_calledFn]
  by_cases hstatus : (fw (madeCall mem st pages)).1 = Spec.efiSuccess
  · rw [if_pos hstatus]
    exact if_neg (not_not_intro hstatus)
  · rw [if_neg hstatus]
    exact if_pos hstatus

/-- **The call is the specified one only when none is made.** -/
theorem allocatePages_asSpecified_iff (fw : Firmware) (mem : Addr → BitVec 8)
    (st pages : BitVec 64) :
    AsSpecified fw mem st pages (allocatePages fw mem st pages) ↔ st = 0 := by
  constructor
  · intro h
    by_cases hst : st = 0
    · exact hst
    · obtain ⟨cell, hcalls⟩ := h.call hst
      rw [allocatePages_calls hst] at hcalls
      have htype : Spec.MemoryType.conventional.code = Spec.MemoryType.loaderData.code :=
        congrArg Call.memoryType (List.head_eq_of_cons_eq hcalls)
      exact absurd htype (by decide)
  · intro hst
    rw [allocatePages_null hst]
    exact ⟨fun _ => ⟨rfl, rfl⟩, fun h => absurd hst h, fun _ h => absurd h List.not_mem_nil,
      fun _ h => absurd h List.not_mem_nil⟩

/-- The system table at 0x1000: 0x2000 in BootServices, 0x3000 in StdErr, with
0x4000 as AllocatePages and 0x5000 where the code looks. -/
def tablesMem : Addr → BitVec 8 :=
  storeLE (storeLE (storeLE (storeLE (fun _ => 0)
    0x1060 8 0x2000) 0x1050 8 0x3000) 0x2028 8 0x4000) 0x3028 8 0x5000

theorem tablesMem_calledFn :
    Spec.allocatePagesFn tablesMem 0x1000 = 0x4000 ∧ calledFn tablesMem 0x1000 = 0x5000 := by
  decide

/-- A firmware that hands out the page at 0x10000. -/
theorem not_asSpecified_tables :
    ¬ ∀ (fw : Firmware) (mem : Addr → BitVec 8) (st pages : BitVec 64),
      AsSpecified fw mem st pages (allocatePages fw mem st pages) := by
  intro h
  obtain ⟨cell, hcalls⟩ := (h (fun _ => (0, 0x10000)) tablesMem 0x1000 1).call (by decide)
  rw [allocatePages_calls (by decide)] at hcalls
  have hfn : calledFn tablesMem 0x1000 = Spec.allocatePagesFn tablesMem 0x1000 :=
    congrArg Call.fn (List.head_eq_of_cons_eq hcalls)
  rw [tablesMem_calledFn.1, tablesMem_calledFn.2] at hfn
  exact absurd hfn (by decide)

end Calls

/-! ## The allocator of `Machine` -/

/-- The answers of the firmware, as `Env` has them. -/
def answers (fw : Firmware) (mem : Addr → BitVec 8) (systemTable : BitVec 64) :
    Nat → BitVec 64 → BitVec 64 × Addr :=
  fun _ pages => fw (madeCall mem systemTable pages)

/-- **`Machine` has the same allocator**: what it leaves open is what the
function called answers. -/
theorem allocAnswer_eq (env : Env) (fw : Firmware) (mem : Addr → BitVec 8)
    (systemTable : BitVec 64) (n : Nat) (pages : BitVec 64)
    (henv : env.allocate n pages = answers fw mem systemTable n pages) :
    allocAnswer env systemTable n pages = (allocatePages fw mem systemTable pages).result := by
  rw [allocAnswer, henv]
  by_cases hst : systemTable = 0
  · rw [if_pos hst, allocatePages_null hst]
  · rw [if_neg hst, allocatePages_calls hst, answers]
    by_cases hstatus : (fw (madeCall mem systemTable pages)).1 = Spec.efiSuccess
    · show _ = if _ then _ else _
      rw [if_pos hstatus]
      exact if_neg (not_not_intro hstatus)
    · show _ = if _ then _ else _
      rw [if_neg hstatus]
      exact if_pos hstatus

end MochiVM.Hv.Efi
