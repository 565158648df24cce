import MochiVM.Hv.Vmx

/-!
# The VMCS and the exit handler (hv/vmcs.rs)

`setup` enters VMX operation, allocates the VMCS and the stacks and fills the
VMCS; `write_state` does the filling, one VMWRITE a field, each of which panics
when the processor rejects it. `exit_handler` answers a VM exit: 0 to resume the
guest, 1 to stop. `teardown` leaves VMX operation.
-/

namespace MochiVM.Hv

open MochiVM.Panic

/-! ## VMCS field encodings (vmcs.rs:6) -/

-- control fields (32-bit)
def pinBasedCtls : BitVec 32 := 0x4000#32
def procBasedCtls : BitVec 32 := 0x4002#32
def excBitmap : BitVec 32 := 0x4004#32
def pfErrorMask : BitVec 32 := 0x4006#32
def pfErrorMatch : BitVec 32 := 0x4008#32
def cr3TargetCount : BitVec 32 := 0x400A#32
def vmExitCtls : BitVec 32 := 0x400C#32
def vmExitMsrStoreCount : BitVec 32 := 0x400E#32
def vmExitMsrLoadCount : BitVec 32 := 0x4010#32
def vmEntryCtls : BitVec 32 := 0x4012#32
def vmEntryMsrLoadCount : BitVec 32 := 0x4014#32
def vmEntryIntrInfo : BitVec 32 := 0x4016#32
def vmEntryExcErr : BitVec 32 := 0x4018#32
def vmEntryInstrLen : BitVec 32 := 0x401A#32
def secondaryProcBasedCtls : BitVec 32 := 0x401E#32

-- read-only data fields
def exitReason : BitVec 32 := 0x4402#32
def exitQualification : BitVec 32 := 0x6400#32

-- host-state fields
def hostCr0 : BitVec 32 := 0x6C00#32
def hostCr3 : BitVec 32 := 0x6C02#32
def hostCr4 : BitVec 32 := 0x6C04#32
def hostFsBase : BitVec 32 := 0x6C06#32
def hostGsBase : BitVec 32 := 0x6C08#32
def hostTrBase : BitVec 32 := 0x6C0A#32
def hostGdtrBase : BitVec 32 := 0x6C0C#32
def hostIdtrBase : BitVec 32 := 0x6C0E#32
def hostSysenterEsp : BitVec 32 := 0x6C10#32
def hostSysenterEip : BitVec 32 := 0x6C12#32
def hostRsp : BitVec 32 := 0x6C14#32
def hostRip : BitVec 32 := 0x6C16#32
def hostTrSel : BitVec 32 := 0x0C00#32
def hostFsSel : BitVec 32 := 0x0C02#32
def hostGsSel : BitVec 32 := 0x0C04#32
def hostSsSel : BitVec 32 := 0x0C06#32
def hostDsSel : BitVec 32 := 0x0C08#32
def hostEsSel : BitVec 32 := 0x0C0A#32
def hostSysenterCs : BitVec 32 := 0x4C00#32
def hostIa32Efer : BitVec 32 := 0x2C02#32

-- guest-state fields
def guestCr0 : BitVec 32 := 0x6800#32
def guestCr3 : BitVec 32 := 0x6802#32
def guestCr4 : BitVec 32 := 0x6804#32
def guestEsBase : BitVec 32 := 0x6806#32
def guestCsBase : BitVec 32 := 0x6808#32
def guestSsBase : BitVec 32 := 0x680A#32
def guestDsBase : BitVec 32 := 0x680C#32
def guestFsBase : BitVec 32 := 0x680E#32
def guestGsBase : BitVec 32 := 0x6810#32
def guestLdtrBase : BitVec 32 := 0x6812#32
def guestTrBase : BitVec 32 := 0x6814#32
def guestGdtrBase : BitVec 32 := 0x6816#32
def guestIdtrBase : BitVec 32 := 0x6818#32
def guestDr7 : BitVec 32 := 0x681A#32
def guestRsp : BitVec 32 := 0x681C#32
def guestRip : BitVec 32 := 0x681E#32
def guestRflags : BitVec 32 := 0x6820#32
def guestPendingDbgExc : BitVec 32 := 0x6822#32
def guestSysenterEsp : BitVec 32 := 0x6824#32
def guestSysenterEip : BitVec 32 := 0x6826#32
def guestEsSel : BitVec 32 := 0x0800#32
def guestCsSel : BitVec 32 := 0x0802#32
def guestSsSel : BitVec 32 := 0x0804#32
def guestDsSel : BitVec 32 := 0x0806#32
def guestFsSel : BitVec 32 := 0x0808#32
def guestGsSel : BitVec 32 := 0x080A#32
def guestLdtrSel : BitVec 32 := 0x080C#32
def guestTrSel : BitVec 32 := 0x080E#32
def guestSysenterCs : BitVec 32 := 0x0820#32
def guestEsLimit : BitVec 32 := 0x4800#32
def guestCsLimit : BitVec 32 := 0x4802#32
def guestSsLimit : BitVec 32 := 0x4804#32
def guestDsLimit : BitVec 32 := 0x4806#32
def guestFsLimit : BitVec 32 := 0x4808#32
def guestGsLimit : BitVec 32 := 0x480A#32
def guestLdtrLimit : BitVec 32 := 0x480C#32
def guestTrLimit : BitVec 32 := 0x480E#32
def guestGdtrLimit : BitVec 32 := 0x4810#32
def guestIdtrLimit : BitVec 32 := 0x4812#32
def guestEsAr : BitVec 32 := 0x4814#32
def guestCsAr : BitVec 32 := 0x4816#32
def guestSsAr : BitVec 32 := 0x4818#32
def guestDsAr : BitVec 32 := 0x481A#32
def guestFsAr : BitVec 32 := 0x481C#32
def guestGsAr : BitVec 32 := 0x481E#32
def guestLdtrAr : BitVec 32 := 0x4820#32
def guestTrAr : BitVec 32 := 0x4822#32
def guestIa32Efer : BitVec 32 := 0x2806#32
def guestVmcsLinkPtr : BitVec 32 := 0x2800#32

/-! ## Control bits and access rights (vmcs.rs:106) -/

def hltExiting : BitVec 32 := 1#32 <<< 7
def hostLongMode : BitVec 32 := 1#32 <<< 9
def guestLongMode : BitVec 32 := 1#32 <<< 9
def loadIa32EferEntry : BitVec 32 := 1#32 <<< 2
def loadIa32EferExit : BitVec 32 := 1#32 <<< 3
def exitReasonHlt : BitVec 64 := 12

def maxHltExits : BitVec 64 := 5

def arLongCode : BitVec 32 := 0xA09B#32
def arData : BitVec 32 := 0xC093#32
def arUnusable : BitVec 32 := 0x10000#32
def arTss64Busy : BitVec 32 := 0x8B#32

def ia32Efer : BitVec 32 := 0xC0000080#32

/-- `GUEST_BIN`, the bytes of `guest/hello.bin`. -/
def guestBin : List (BitVec 8) :=
  [0xbf, 0xef, 0xbe, 0xad, 0xde, -- mov edi, 0xDEADBEEF
   0xbb, 0x78, 0x56, 0x34, 0x12, -- mov ebx, 0x12345678
   0xf4, -- hlt
   0xeb, 0xfd] -- jmp -3

/-! ## Filling the VMCS -/

/-- `write_ctrl` (vmcs.rs:454). -/
def writeCtrl (env : Env) (field value : BitVec 32) : HvM PUnit :=
  expect "vmwrite ctrl failed" (vmwrite env field (value.setWidth 64))

/-- `write32` (vmcs.rs:458). -/
def write32 (env : Env) (field value : BitVec 32) : HvM PUnit :=
  expect "vmwrite32 failed" (vmwrite env field (value.setWidth 64))

/-- `write64` (vmcs.rs:462). -/
def write64 (env : Env) (field : BitVec 32) (value : BitVec 64) : HvM PUnit :=
  expect "vmwrite64 failed" (vmwrite env field value)

/-- The controls (vmcs.rs:336). -/
def writeControls (env : Env) : HvM PUnit := do
  writeCtrl env pinBasedCtls (← calcCtrl ia32VmxPinbasedCtls 0)
  writeCtrl env procBasedCtls (← calcCtrl ia32VmxProcbasedCtls hltExiting)
  writeCtrl env secondaryProcBasedCtls (← calcSecondary 0)
  writeCtrl env excBitmap 0
  writeCtrl env pfErrorMask 0
  writeCtrl env pfErrorMatch 0
  writeCtrl env cr3TargetCount 0
  writeCtrl env vmExitCtls (← calcCtrl ia32VmxExitCtls (hostLongMode ||| loadIa32EferExit))
  writeCtrl env vmEntryCtls (← calcCtrl ia32VmxEntryCtls (guestLongMode ||| loadIa32EferEntry))
  writeCtrl env vmExitMsrStoreCount 0
  writeCtrl env vmExitMsrLoadCount 0
  writeCtrl env vmEntryMsrLoadCount 0
  writeCtrl env vmEntryIntrInfo 0
  writeCtrl env vmEntryExcErr 0
  writeCtrl env vmEntryInstrLen 0

/-- The general guest state (vmcs.rs:371). -/
def writeGuestGeneral (env : Env) (cr0 cr3 cr4 efer guestCode guestStack : BitVec 64) :
    HvM PUnit := do
  write64 env guestVmcsLinkPtr 0xFFFFFFFFFFFFFFFF
  write64 env guestCr0 cr0
  write64 env guestCr3 cr3
  write64 env guestCr4 cr4
  write64 env guestIa32Efer efer
  write64 env guestRsp (guestStack + 0x1000)
  write64 env guestRip guestCode
  write64 env guestRflags 0x2
  write64 env guestDr7 0x400
  write64 env guestPendingDbgExc 0
  write64 env guestSysenterEsp 0
  write64 env guestSysenterEip 0
  write32 env guestSysenterCs 0

/-- The guest segments (vmcs.rs:386). -/
def writeGuestSegments (env : Env) (trSel : BitVec 16) (trBase : BitVec 64)
    (gdtLimit : BitVec 16) (gdtBase : BitVec 64) (idtLimit : BitVec 16) (idtBase : BitVec 64) :
    HvM PUnit := do
  write32 env guestCsSel 0x08
  write32 env guestSsSel 0x10
  write32 env guestDsSel 0x10
  write32 env guestEsSel 0x10
  write32 env guestFsSel 0x10
  write32 env guestGsSel 0x10
  write32 env guestLdtrSel 0
  write32 env guestTrSel (trSel.setWidth 32)
  write64 env guestCsBase 0
  write64 env guestSsBase 0
  write64 env guestDsBase 0
  write64 env guestEsBase 0
  write64 env guestFsBase 0
  write64 env guestGsBase 0
  write64 env guestLdtrBase 0
  write64 env guestTrBase trBase
  write64 env guestGdtrBase gdtBase
  write64 env guestIdtrBase idtBase
  write32 env guestGdtrLimit (gdtLimit.setWidth 32)
  write32 env guestIdtrLimit (idtLimit.setWidth 32)
  write32 env guestCsLimit 0xFFFFFFFF
  write32 env guestSsLimit 0xFFFFFFFF
  write32 env guestDsLimit 0xFFFFFFFF
  write32 env guestEsLimit 0xFFFFFFFF
  write32 env guestFsLimit 0xFFFFFFFF
  write32 env guestGsLimit 0xFFFFFFFF
  write32 env guestLdtrLimit 0
  write32 env guestTrLimit 0x67
  write32 env guestCsAr arLongCode
  write32 env guestSsAr arData
  write32 env guestDsAr arData
  write32 env guestEsAr arData
  write32 env guestFsAr arData
  write32 env guestGsAr arData
  write32 env guestLdtrAr arUnusable
  write32 env guestTrAr arTss64Busy

/-- The host state (vmcs.rs:428). -/
def writeHost (env : Env) (cr0 cr3 cr4 efer : BitVec 64) (trSel : BitVec 16)
    (trBase gdtBase idtBase hostStack : BitVec 64) : HvM PUnit := do
  write64 env hostCr0 cr0
  write64 env hostCr3 cr3
  write64 env hostCr4 cr4
  write64 env hostRsp (hostStack + 0x4000)
  write64 env hostRip env.hostEntry
  write64 env hostFsBase 0
  write64 env hostGsBase 0
  write64 env hostTrBase trBase
  write64 env hostGdtrBase gdtBase
  write64 env hostIdtrBase idtBase
  write64 env hostSysenterEsp 0
  write64 env hostSysenterEip 0
  write64 env hostIa32Efer efer
  write32 env hostTrSel (trSel.setWidth 32)
  write32 env hostSsSel ((← readSs).setWidth 32)
  write32 env hostDsSel ((← readDs).setWidth 32)
  write32 env hostEsSel ((← readEs).setWidth 32)
  write32 env hostFsSel ((← readFs).setWidth 32)
  write32 env hostGsSel ((← readGs).setWidth 32)
  write32 env hostSysenterCs 0

/-- `write_state` (vmcs.rs:321). -/
def writeState (env : Env) (hostStack guestCode guestStack : BitVec 64) :
    HvM (Except String PUnit) := do
  let cr0 ← readCr0
  let cr3 ← readCr3
  let cr4 ← readCr4
  let efer ← rdmsr ia32Efer
  let (gdtLimit, gdtBase) ← sgdt
  let (idtLimit, idtBase) ← sidt
  let trSel ← readTr
  let trBase ← readGdtEntryBase gdtBase (trSel.setWidth 64)
  writeControls env
  writeGuestGeneral env cr0 cr3 cr4 efer guestCode guestStack
  writeGuestSegments env trSel trBase gdtLimit gdtBase idtLimit idtBase
  writeHost env cr0 cr3 cr4 efer trSel trBase gdtBase idtBase hostStack
  pure (.ok ⟨⟩)

/-! ## Setup and teardown -/

/-- The current value of the statics. -/
def getStatics : HvM Statics := fun s => .ok s.st s

/-- An assignment to a static. -/
def setStatics (f : Statics → Statics) : HvM PUnit := fun s => .ok ⟨⟩ (s.setSt (f s.st))

/-- `vmxoff_and_clear` (vmcs.rs:312). -/
def vmxoffAndClear : HvM PUnit := do
  if (← getStatics).vmxonRegion != 0 then
    let _ ← vmxoff
    let cr4 ← readCr4
    writeCr4 (cr4 &&& ~~~cr4Vmxe)
    setStatics fun st => { st with vmxonRegion := 0 }

/-- `teardown` (vmcs.rs:295). -/
def teardown (env : Env) : HvM PUnit := do
  let st ← getStatics
  if st.vmxActive then
    let _ ← vmclear env st.vmcsRegion
    let _ ← vmxoff
    let cr4 ← readCr4
    writeCr4 (cr4 &&& ~~~cr4Vmxe)
    setStatics fun st => { st with vmxActive := false }

/-- The last part of `setup` (vmcs.rs:158): the stacks, the guest's code and the
content of the VMCS. -/
def setupGuest (env : Env) : HvM (Except String PUnit) := do
  match ← allocatePages env 4 with
  | .error e => do
    vmxoffAndClear
    pure (.error e)
  | .ok hostStack =>
  match ← allocatePage env with
  | .error e => do
    vmxoffAndClear
    pure (.error e)
  | .ok guestCode =>
  match ← allocatePage env with
  | .error e => do
    vmxoffAndClear
    pure (.error e)
  | .ok guestStack =>
  copyNonoverlapping guestBin guestCode
  match ← writeState env hostStack guestCode guestStack with
  | .error e => pure (.error e)
  | .ok _ =>
  setStatics fun st => { st with vmxActive := true }
  serialPrintln "[mochivm] vmcs ready"
  pure (.ok ⟨⟩)

/-- The middle part of `setup` (vmcs.rs:140): the VMCS region, made current. -/
def setupVmcs (env : Env) : HvM (Except String PUnit) := do
  match ← allocatePage env with
  | .error e => do
    vmxoffAndClear
    pure (.error e)
  | .ok vmcsRegion =>
  writeVolatile32 vmcsRegion ((← rdmsr 0x480#32).setWidth 32)
  match ← vmclear env vmcsRegion with
  | .error _ => do
    vmxoffAndClear
    pure (.error "vmclear failed")
  | .ok _ =>
  match ← vmptrld env vmcsRegion with
  | .error _ => do
    vmxoffAndClear
    pure (.error "vmptrld failed")
  | .ok _ =>
  setStatics fun st => { st with vmcsRegion := vmcsRegion }
  setupGuest env

/-- `setup` (vmcs.rs:130). -/
def setup (env : Env) : HvM (Except String PUnit) := do
  match ← allocatePage env with
  | .error e => pure (.error e)
  | .ok vmxonRegion =>
  match ← vmxon env vmxonRegion with
  | .error e => pure (.error e)
  | .ok _ =>
  setStatics fun st => { st with vmxonRegion := vmxonRegion }
  setupVmcs env

/-- `enter_guest` (vmcs.rs:194): VMLAUNCH, and a halt loop when it fails. -/
def enterGuest (env : Env) : HvM PUnit := fun s =>
  if s.vmx.on then
    .error (if env.vmlaunchOk then .launched else .halted) (s.record .vmlaunch)
  else .error (.fault .invalidOpcode) s

/-! ## The exit handler -/

/-- `EXIT_COUNT.fetch_add(1, SeqCst)`. -/
def fetchAddExitCount : HvM (BitVec 64) := fun s =>
  .ok s.st.exitCount (s.setSt { s.st with exitCount := s.st.exitCount + 1 })

/-- `exit_handler` (vmcs.rs:270). -/
def exitHandler (env : Env) : HvM (BitVec 8) := do
  let reason ← vmread exitReason
  if reason == exitReasonHlt then
    let count := (← fetchAddExitCount) + 1
    serialPrintln s!"[mochivm] guest hlt #{count.toNat}"
    let rip ← vmread guestRip
    let _ ← vmwrite env guestRip (rip + 1)
    if count ≥ maxHltExits then
      serialPrintln s!"[mochivm] guest halted {count.toNat} times, vmxoff"
      teardown env
      pure 1
    else
      pure 0
  else
    let qual ← vmread exitQualification
    serialPrintln (s!"[mochivm] unexpected exit reason {reason.toNat} qual 0x" ++
      String.ofList (Nat.toDigits 16 qual.toNat) ++ ", stopping")
    teardown env
    pure 1

/-! ## How setup's parts end -/

section Ends

variable {s : Machine} {E : Abort → Machine → Prop}

@[simp] theorem ends_getStatics {Q : Statics → Machine → Prop} :
    Ends getStatics s Q E ↔ Q s.st s := Iff.rfl

@[simp] theorem ends_setStatics {f : Statics → Statics} {Q : PUnit → Machine → Prop} :
    Ends (setStatics f) s Q E ↔ Q ⟨⟩ (s.setSt (f s.st)) := Iff.rfl

/-- The machine after VMXOFF, with CR4.VMXE cleared. -/
def Machine.leftVmx (s : Machine) : Machine :=
  ((s.record .vmxoff).setVmx s.vmx.leave).setRegs
    { s.regs with cr4 := s.regs.cr4 &&& ~~~cr4Vmxe }

/-- What `vmxoff_and_clear` leaves: nothing is done when `VMXON_REGION` is 0. -/
def Machine.offAndCleared (s : Machine) : Machine :=
  if s.st.vmxonRegion = 0 then s
  else s.leftVmx.setSt { s.st with vmxonRegion := 0 }

theorem ends_vmxoffAndClear {Q : PUnit → Machine → Prop} (h : s.vmx.on = true) :
    Ends vmxoffAndClear s Q E ↔ Q ⟨⟩ s.offAndCleared := by
  rw [vmxoffAndClear, ends_bind, ends_getStatics, Machine.offAndCleared]
  by_cases hr : s.st.vmxonRegion = 0
  · rw [if_pos hr, if_neg (by simpa using hr)]
    exact Iff.rfl
  · rw [if_neg hr, if_pos (by simpa using hr), ends_bind, ends_vmxoff h]
    exact Iff.rfl

theorem ends_enterGuest {env : Env} {Q : PUnit → Machine → Prop} (h : s.vmx.on = true) :
    Ends (enterGuest env) s Q E ↔
      E (if env.vmlaunchOk then .launched else .halted) (s.record .vmlaunch) := by
  rw [Ends, enterGuest, if_pos h]

theorem getLsbD_and_not_cr4Vmxe (v : BitVec 64) : (v &&& ~~~cr4Vmxe).getLsbD vmxeBit = false := by
  simp [cr4Vmxe, vmxeBit]

end Ends

end MochiVM.Hv
