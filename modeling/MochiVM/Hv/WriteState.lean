import MochiVM.Hv.Vmcs

/-!
# What `write_state` writes

`write_state` is a list of VMWRITEs (`stateWrites`), each a function of the
registers it is entered with: `writeState_eq`. That it reads some registers in
between makes no difference, since no VMWRITE changes a register. A run of the
list either gets every field written, or panics at the first one the processor
rejects.
-/

namespace MochiVM.Hv

open MochiVM.Panic

/-- A VMWRITE that panics when it is rejected, and the message it panics with. -/
structure StateWrite where
  msg : String
  field : BitVec 32
  value : BitVec 64

namespace StateWrite

/-- The write of `write_ctrl`. -/
def ctrl (field value : BitVec 32) : StateWrite :=
  ⟨"vmwrite ctrl failed", field, value.setWidth 64⟩

/-- The write of `write32`. -/
def field32 (field value : BitVec 32) : StateWrite :=
  ⟨"vmwrite32 failed", field, value.setWidth 64⟩

/-- The write of `write64`. -/
def field64 (field : BitVec 32) (value : BitVec 64) : StateWrite :=
  ⟨"vmwrite64 failed", field, value⟩

end StateWrite

/-- Issue `ws` in order. -/
def writeAll (env : Env) : List StateWrite → HvM PUnit
  | [] => pure ⟨⟩
  | w :: ws => do
    expect w.msg (vmwrite env w.field w.value)
    writeAll env ws

/-! ## The list -/

/-- The word `calc_ctrl` computes. -/
def ctrlWord (caps : BitVec 64) (desired : BitVec 32) : BitVec 32 :=
  (desired ||| caps.setWidth 32) &&& (caps >>> 32).setWidth 32

/-- The word `calc_secondary` computes. -/
def secondaryWord (caps : BitVec 64) (desired : BitVec 32) : BitVec 32 :=
  desired &&& (caps >>> 32).setWidth 32

def controlWrites (r : Regs) : List StateWrite :=
  [.ctrl pinBasedCtls (ctrlWord (r.msr ia32VmxPinbasedCtls) 0),
   .ctrl procBasedCtls (ctrlWord (r.msr ia32VmxProcbasedCtls) hltExiting),
   .ctrl secondaryProcBasedCtls (secondaryWord (r.msr ia32VmxSecondaryProcbasedCtls) 0),
   .ctrl excBitmap 0,
   .ctrl pfErrorMask 0,
   .ctrl pfErrorMatch 0,
   .ctrl cr3TargetCount 0,
   .ctrl vmExitCtls (ctrlWord (r.msr ia32VmxExitCtls) (hostLongMode ||| loadIa32EferExit)),
   .ctrl vmEntryCtls (ctrlWord (r.msr ia32VmxEntryCtls) (guestLongMode ||| loadIa32EferEntry)),
   .ctrl vmExitMsrStoreCount 0,
   .ctrl vmExitMsrLoadCount 0,
   .ctrl vmEntryMsrLoadCount 0,
   .ctrl vmEntryIntrInfo 0,
   .ctrl vmEntryExcErr 0,
   .ctrl vmEntryInstrLen 0]

def guestGeneralWrites (r : Regs) (guestCode guestStack : BitVec 64) : List StateWrite :=
  [.field64 guestVmcsLinkPtr 0xFFFFFFFFFFFFFFFF,
   .field64 guestCr0 r.cr0,
   .field64 guestCr3 r.cr3,
   .field64 guestCr4 r.cr4,
   .field64 guestIa32Efer (r.msr ia32Efer),
   .field64 guestRsp (guestStack + 0x1000),
   .field64 guestRip guestCode,
   .field64 guestRflags 0x2,
   .field64 guestDr7 0x400,
   .field64 guestPendingDbgExc 0,
   .field64 guestSysenterEsp 0,
   .field64 guestSysenterEip 0,
   .field32 guestSysenterCs 0]

def guestSegmentWrites (r : Regs) (trBase : BitVec 64) : List StateWrite :=
  [.field32 guestCsSel 0x08,
   .field32 guestSsSel 0x10,
   .field32 guestDsSel 0x10,
   .field32 guestEsSel 0x10,
   .field32 guestFsSel 0x10,
   .field32 guestGsSel 0x10,
   .field32 guestLdtrSel 0,
   .field32 guestTrSel (r.tr.setWidth 32),
   .field64 guestCsBase 0,
   .field64 guestSsBase 0,
   .field64 guestDsBase 0,
   .field64 guestEsBase 0,
   .field64 guestFsBase 0,
   .field64 guestGsBase 0,
   .field64 guestLdtrBase 0,
   .field64 guestTrBase trBase,
   .field64 guestGdtrBase r.gdtr.2,
   .field64 guestIdtrBase r.idtr.2,
   .field32 guestGdtrLimit (r.gdtr.1.setWidth 32),
   .field32 guestIdtrLimit (r.idtr.1.setWidth 32),
   .field32 guestCsLimit 0xFFFFFFFF,
   .field32 guestSsLimit 0xFFFFFFFF,
   .field32 guestDsLimit 0xFFFFFFFF,
   .field32 guestEsLimit 0xFFFFFFFF,
   .field32 guestFsLimit 0xFFFFFFFF,
   .field32 guestGsLimit 0xFFFFFFFF,
   .field32 guestLdtrLimit 0,
   .field32 guestTrLimit 0x67,
   .field32 guestCsAr arLongCode,
   .field32 guestSsAr arData,
   .field32 guestDsAr arData,
   .field32 guestEsAr arData,
   .field32 guestFsAr arData,
   .field32 guestGsAr arData,
   .field32 guestLdtrAr arUnusable,
   .field32 guestTrAr arTss64Busy]

def hostWrites (r : Regs) (trBase hostEntry hostStack : BitVec 64) : List StateWrite :=
  [.field64 hostCr0 r.cr0,
   .field64 hostCr3 r.cr3,
   .field64 hostCr4 r.cr4,
   .field64 hostRsp (hostStack + 0x4000),
   .field64 hostRip hostEntry,
   .field64 hostFsBase 0,
   .field64 hostGsBase 0,
   .field64 hostTrBase trBase,
   .field64 hostGdtrBase r.gdtr.2,
   .field64 hostIdtrBase r.idtr.2,
   .field64 hostSysenterEsp 0,
   .field64 hostSysenterEip 0,
   .field64 hostIa32Efer (r.msr ia32Efer),
   .field32 hostTrSel (r.tr.setWidth 32),
   .field32 hostSsSel (r.ss.setWidth 32),
   .field32 hostDsSel (r.ds.setWidth 32),
   .field32 hostEsSel (r.es.setWidth 32),
   .field32 hostFsSel (r.fs.setWidth 32),
   .field32 hostGsSel (r.gs.setWidth 32),
   .field32 hostSysenterCs 0]

/-- The VMWRITEs of `write_state`, in order: `r` are the registers it is entered
with and `trBase` the base it reads from the GDT. -/
def stateWrites (r : Regs) (trBase hostEntry hostStack guestCode guestStack : BitVec 64) :
    List StateWrite :=
  controlWrites r ++ guestGeneralWrites r guestCode guestStack ++ guestSegmentWrites r trBase ++
    hostWrites r trBase hostEntry hostStack

/-! ## `write_state` issues the list -/

section Issues

variable {env : Env} {r : Regs} {α β : Type}

theorem expect_vmwrite_regs (msg : String) (field : BitVec 32) (value : BitVec 64) :
    Keeps (fun t => t.regs = r) (expect msg (vmwrite env field value)) :=
  expect_keeps (vmxInsn_keeps (fun _ hs => hs) fun _ hs _ => hs) msg

theorem writeAll_regs : ∀ ws : List StateWrite, Keeps (fun t => t.regs = r) (writeAll env ws)
  | [] => Keeps.pure _ _
  | w :: ws => (expect_vmwrite_regs w.msg w.field w.value).bind fun _ => writeAll_regs ws

theorem writeAll_append : ∀ ws ws' : List StateWrite,
    writeAll env (ws ++ ws') = (do writeAll env ws; writeAll env ws')
  | [], _ => rfl
  | w :: ws, ws' => by
    rw [List.cons_append, writeAll, writeAll_append ws ws', writeAll, bind_assoc]

/-- Run from registers `r`, the program `m` issues `ws` and returns `a`. -/
def Issues (env : Env) (r : Regs) (m : HvM α) (ws : List StateWrite) (a : α) : Prop :=
  ∀ s, s.regs = r → m s = (writeAll env ws >>= fun _ => pure a) s

theorem issues_pure (a : α) : Issues env r (pure a) [] a := fun _ _ => rfl

/-- A VMWRITE at the head of the program is the head of the list. -/
theorem issues_cons {w : StateWrite} {ws : List StateWrite} {f : PUnit → HvM β} {b : β}
    (hf : Issues env r (f ⟨⟩) ws b) :
    Issues env r (expect w.msg (vmwrite env w.field w.value) >>= f) (w :: ws) b := by
  intro s hs
  have hregs := @expect_vmwrite_regs env r w.msg w.field w.value s hs
  rw [writeAll, bind_assoc]
  cases h : expect w.msg (vmwrite env w.field w.value) s with
  | ok a t =>
    rw [bind_of_returns h, bind_of_returns h]
    rw [h] at hregs
    exact hf t hregs
  | error e t => rw [bind_of_aborts h, bind_of_aborts h]

/-- A register that is read at the head of the program. -/
theorem issues_read {m : HvM α} {f : α → HvM β} {ws : List StateWrite} {a : α} {b : β}
    (hm : ∀ s, s.regs = r → Returns m s a s) (hf : Issues env r (f a) ws b) :
    Issues env r (m >>= f) ws b := by
  intro s hs
  rw [bind_of_returns (hm s hs)]
  exact hf s hs

theorem issues_bind {m : HvM α} {f : α → HvM β} {ws ws' : List StateWrite} {a : α} {b : β}
    (hm : Issues env r m ws a) (hf : Issues env r (f a) ws' b) :
    Issues env r (m >>= f) (ws ++ ws') b := by
  intro s hs
  have hregs := @writeAll_regs env r ws s hs
  rw [writeAll_append, bind_assoc]
  cases h : writeAll env ws s with
  | ok u t =>
    have hms : Returns m s a t := (hm s hs).trans (bind_of_returns h _)
    rw [bind_of_returns hms, bind_of_returns h]
    rw [h] at hregs
    exact hf t hregs
  | error e t =>
    have hms : Aborts m s e t := (hm s hs).trans (bind_of_aborts h _)
    rw [bind_of_aborts hms, bind_of_aborts h]

theorem issues_ctrl {field value : BitVec 32} {f : PUnit → HvM β} {ws : List StateWrite} {b : β}
    (hf : Issues env r (f ⟨⟩) ws b) :
    Issues env r (writeCtrl env field value >>= f) (.ctrl field value :: ws) b :=
  issues_cons (w := .ctrl field value) hf

theorem issues_write32 {field value : BitVec 32} {f : PUnit → HvM β} {ws : List StateWrite}
    {b : β} (hf : Issues env r (f ⟨⟩) ws b) :
    Issues env r (write32 env field value >>= f) (.field32 field value :: ws) b :=
  issues_cons (w := .field32 field value) hf

theorem issues_write64 {field : BitVec 32} {value : BitVec 64} {f : PUnit → HvM β}
    {ws : List StateWrite} {b : β} (hf : Issues env r (f ⟨⟩) ws b) :
    Issues env r (write64 env field value >>= f) (.field64 field value :: ws) b :=
  issues_cons (w := .field64 field value) hf

/-- A VMWRITE that ends the program. -/
theorem issues_last (w : StateWrite) :
    Issues env r (expect w.msg (vmwrite env w.field w.value)) [w] ⟨⟩ := by
  have := issues_cons (w := w) (f := pure) (@issues_pure env r PUnit ⟨⟩)
  rwa [bind_pure] at this

theorem issues_calcCtrl {msr desired : BitVec 32} {f : BitVec 32 → HvM β} {ws : List StateWrite}
    {b : β} (hf : Issues env r (f (ctrlWord (r.msr msr) desired)) ws b) :
    Issues env r (calcCtrl msr desired >>= f) ws b := by
  refine issues_read (fun s hs => ?_) hf
  rw [← hs]
  rfl

theorem issues_calcSecondary {desired : BitVec 32} {f : BitVec 32 → HvM β}
    {ws : List StateWrite} {b : β}
    (hf : Issues env r (f (secondaryWord (r.msr ia32VmxSecondaryProcbasedCtls) desired)) ws b) :
    Issues env r (calcSecondary desired >>= f) ws b := by
  refine issues_read (fun s hs => ?_) hf
  rw [← hs]
  rfl

theorem issues_readSeg {seg : Regs → BitVec 16} {f : BitVec 16 → HvM β} {ws : List StateWrite}
    {b : β} (hf : Issues env r (f (seg r)) ws b) : Issues env r (readSeg seg >>= f) ws b := by
  refine issues_read (fun s hs => ?_) hf
  rw [← hs]
  rfl

theorem writeControls_issues : Issues env r (writeControls env) (controlWrites r) ⟨⟩ := by
  refine issues_calcCtrl (issues_ctrl (issues_calcCtrl (issues_ctrl ?_)))
  refine issues_calcSecondary (issues_ctrl ?_)
  iterate 4 refine issues_ctrl ?_
  refine issues_calcCtrl (issues_ctrl (issues_calcCtrl (issues_ctrl ?_)))
  iterate 5 refine issues_ctrl ?_
  exact issues_last (.ctrl vmEntryInstrLen 0)

theorem writeGuestGeneral_issues (guestCode guestStack : BitVec 64) :
    Issues env r
      (writeGuestGeneral env r.cr0 r.cr3 r.cr4 (r.msr ia32Efer) guestCode guestStack)
      (guestGeneralWrites r guestCode guestStack) ⟨⟩ := by
  iterate 12 refine issues_write64 ?_
  exact issues_last (.field32 guestSysenterCs 0)

theorem writeGuestSegments_issues (trBase : BitVec 64) :
    Issues env r
      (writeGuestSegments env r.tr trBase r.gdtr.1 r.gdtr.2 r.idtr.1 r.idtr.2)
      (guestSegmentWrites r trBase) ⟨⟩ := by
  iterate 8 refine issues_write32 ?_
  iterate 10 refine issues_write64 ?_
  iterate 17 refine issues_write32 ?_
  exact issues_last (.field32 guestTrAr arTss64Busy)

theorem writeHost_issues (trBase hostStack : BitVec 64) :
    Issues env r
      (writeHost env r.cr0 r.cr3 r.cr4 (r.msr ia32Efer) r.tr trBase r.gdtr.2 r.idtr.2 hostStack)
      (hostWrites r trBase env.hostEntry hostStack) ⟨⟩ := by
  iterate 13 refine issues_write64 ?_
  refine issues_write32 ?_
  iterate 5 refine issues_readSeg (issues_write32 ?_)
  exact issues_last (.field32 hostSysenterCs 0)

end Issues

/-- The TSS base `write_state` reads from the GDT. -/
def trBaseOf (s : Machine) : BitVec 64 :=
  gdtEntryBase s.mem s.regs.gdtr.2 (s.regs.tr.setWidth 64)

/-- The list of VMWRITEs of `write_state`, entered in machine `s`. -/
def writesOf (env : Env) (s : Machine) (hostStack guestCode guestStack : BitVec 64) :
    List StateWrite :=
  stateWrites s.regs (trBaseOf s) env.hostEntry hostStack guestCode guestStack

/-- **`write_state` is its list of VMWRITEs.** -/
theorem writeState_eq (env : Env) (s : Machine) (hostStack guestCode guestStack : BitVec 64) :
    writeState env hostStack guestCode guestStack s =
      (writeAll env (writesOf env s hostStack guestCode guestStack) >>= fun _ =>
        pure (.ok ⟨⟩)) s := by
  have hlist : Issues env s.regs (α := Except String PUnit) (do
      writeControls env
      writeGuestGeneral env s.regs.cr0 s.regs.cr3 s.regs.cr4 (s.regs.msr ia32Efer) guestCode
        guestStack
      writeGuestSegments env s.regs.tr (trBaseOf s) s.regs.gdtr.1 s.regs.gdtr.2 s.regs.idtr.1
        s.regs.idtr.2
      writeHost env s.regs.cr0 s.regs.cr3 s.regs.cr4 (s.regs.msr ia32Efer) s.regs.tr (trBaseOf s)
        s.regs.gdtr.2 s.regs.idtr.2 hostStack
      pure (.ok ⟨⟩))
      (controlWrites s.regs ++ (guestGeneralWrites s.regs guestCode guestStack ++
        (guestSegmentWrites s.regs (trBaseOf s) ++
          (hostWrites s.regs (trBaseOf s) env.hostEntry hostStack ++ [])))) (.ok ⟨⟩) := by
    refine issues_bind writeControls_issues ?_
    refine issues_bind (writeGuestGeneral_issues guestCode guestStack) ?_
    refine issues_bind (writeGuestSegments_issues (trBaseOf s)) ?_
    refine issues_bind (writeHost_issues (trBaseOf s) hostStack) ?_
    exact issues_pure _
  rw [List.append_nil, ← List.append_assoc, ← List.append_assoc] at hlist
  exact hlist s rfl

/-- The fields `write_state` writes, in order, whatever the registers are. -/
def stateFields : List (BitVec 32) := (stateWrites default 0 0 0 0 0).map (·.field)

theorem writesOf_fields (env : Env) (s : Machine) (hostStack guestCode guestStack : BitVec 64) :
    (writesOf env s hostStack guestCode guestStack).map (·.field) = stateFields := by
  simp only [writesOf, stateFields, stateWrites, controlWrites, guestGeneralWrites,
    guestSegmentWrites, hostWrites, StateWrite.ctrl, StateWrite.field32, StateWrite.field64,
    List.map_append, List.map_cons, List.map_nil]

/-! ## Running the list -/

/-- The machine after an accepted VMWRITE. -/
def Machine.wrote (s : Machine) (w : StateWrite) : Machine :=
  (s.record (.vmwrite w.field w.value)).setVmx (s.vmx.write w.field w.value)

/-- The machine after the VMWRITEs of `ws`, all accepted. -/
def Machine.wroteAll (s : Machine) (ws : List StateWrite) : Machine := ws.foldl Machine.wrote s

/-- The processor accepts VMWRITEs to these fields, as the `n`-th VMX
instruction and following. -/
def accepted (env : Env) : Nat → List (BitVec 32) → Bool
  | _, [] => true
  | n, field :: fields => env.vmwriteOk n field && accepted env (n + 1) fields

section Frame

variable (s : Machine) (ws : List StateWrite)

/-- A part of the machine that one VMWRITE keeps is kept by all of them. -/
theorem Machine.wroteAll_frame {α : Type} (part : Machine → α)
    (h : ∀ s w, part (Machine.wrote s w) = part s) : part (s.wroteAll ws) = part s := by
  induction ws generalizing s with
  | nil => rfl
  | cons w ws ih => exact (ih (s.wrote w)).trans (h s w)

@[simp] theorem Machine.wroteAll_regs : (s.wroteAll ws).regs = s.regs :=
  s.wroteAll_frame ws Machine.regs fun _ _ => rfl

@[simp] theorem Machine.wroteAll_st : (s.wroteAll ws).st = s.st :=
  s.wroteAll_frame ws Machine.st fun _ _ => rfl

@[simp] theorem Machine.wroteAll_on : (s.wroteAll ws).vmx.on = s.vmx.on :=
  s.wroteAll_frame ws (·.vmx.on) fun _ _ => rfl

@[simp] theorem Machine.wroteAll_current : (s.wroteAll ws).vmx.current = s.vmx.current :=
  s.wroteAll_frame ws (·.vmx.current) fun _ _ => rfl

end Frame

theorem expect_vmwrite (env : Env) {s : Machine} (h : s.vmx.on = true) (w : StateWrite) :
    expect w.msg (vmwrite env w.field w.value) s =
      if env.vmwriteOk s.trace.length w.field then .ok ⟨⟩ (s.wrote w)
      else .error (.panic s!"{w.msg}: ()") (s.record (.vmwrite w.field w.value)) := by
  by_cases hok : env.vmwriteOk s.trace.length w.field
  · have hw : Returns (vmwrite env w.field w.value) s (.ok ⟨⟩) (s.wrote w) := by
      show vmwrite env w.field w.value s = _
      rw [vmwrite, vmxInsn, if_pos h, if_pos hok]
      rfl
    rw [if_pos hok, expect, bind_of_returns hw]
    rfl
  · have hw : Returns (vmwrite env w.field w.value) s (.error ⟨⟩)
        (s.record (.vmwrite w.field w.value)) := by
      show vmwrite env w.field w.value s = _
      rw [vmwrite, vmxInsn, if_pos h, if_neg hok]
    rw [if_neg hok, expect, bind_of_returns hw]
    rfl

/-- **All accepted**: every field gets its value. -/
theorem writeAll_returns {env : Env} : ∀ {ws : List StateWrite} {s : Machine},
    s.vmx.on = true → accepted env s.trace.length (ws.map (·.field)) = true →
    Returns (writeAll env ws) s ⟨⟩ (s.wroteAll ws)
  | [], _, _, _ => returns_pure _ _
  | w :: ws, s, hon, hok => by
    obtain ⟨hw, hws⟩ := Bool.and_eq_true_iff.mp hok
    have hhead : Returns (expect w.msg (vmwrite env w.field w.value)) s ⟨⟩ (s.wrote w) :=
      (expect_vmwrite env hon w).trans (if_pos hw)
    refine hhead.bind (writeAll_returns hon ?_)
    rwa [show (s.wrote w).trace.length = s.trace.length + 1 from List.length_append]

/-- **One rejected**: the run panics, in VMX operation and with the statics it
was entered with. -/
theorem writeAll_aborts {env : Env} : ∀ {ws : List StateWrite} {s : Machine},
    s.vmx.on = true → accepted env s.trace.length (ws.map (·.field)) = false →
    ∃ msg t, Aborts (writeAll env ws) s (.panic msg) t ∧ t.vmx.on = true ∧ t.st = s.st
  | w :: ws, s, hon, hno => by
    by_cases hw : env.vmwriteOk s.trace.length w.field
    · have hhead : Returns (expect w.msg (vmwrite env w.field w.value)) s ⟨⟩ (s.wrote w) :=
        (expect_vmwrite env hon w).trans (if_pos hw)
      have hws : accepted env (s.trace.length + 1) (ws.map (·.field)) = false := by
        simpa [accepted, hw] using hno
      rw [← show (s.wrote w).trace.length = s.trace.length + 1 from List.length_append] at hws
      obtain ⟨msg, t, ht, hton, htst⟩ := writeAll_aborts (s := s.wrote w) hon hws
      exact ⟨msg, t, hhead.bind_aborts ht, hton, htst⟩
    · have hhead : Aborts (expect w.msg (vmwrite env w.field w.value)) s _ _ :=
        (expect_vmwrite env hon w).trans (if_neg hw)
      exact ⟨_, _, hhead.bind _, hon, rfl⟩

/-- `write_state`, with every VMWRITE accepted. -/
theorem writeState_returns {env : Env} {s : Machine} (hon : s.vmx.on = true)
    (hok : accepted env s.trace.length stateFields = true)
    (hostStack guestCode guestStack : BitVec 64) :
    Returns (writeState env hostStack guestCode guestStack) s (.ok ⟨⟩)
      (s.wroteAll (writesOf env s hostStack guestCode guestStack)) := by
  have hall := @writeAll_returns env (writesOf env s hostStack guestCode guestStack) s hon
    (by rw [writesOf_fields]; exact hok)
  exact (writeState_eq env s hostStack guestCode guestStack).trans (bind_of_returns hall _)

/-- `write_state`, with a VMWRITE rejected. -/
theorem writeState_aborts {env : Env} {s : Machine} (hon : s.vmx.on = true)
    (hno : accepted env s.trace.length stateFields = false)
    (hostStack guestCode guestStack : BitVec 64) :
    ∃ msg t, Aborts (writeState env hostStack guestCode guestStack) s (.panic msg) t ∧
      t.vmx.on = true ∧ t.st = s.st := by
  obtain ⟨msg, t, ht, hton, htst⟩ :=
    @writeAll_aborts env (writesOf env s hostStack guestCode guestStack) s hon
      (by rw [writesOf_fields]; exact hno)
  exact ⟨msg, t, (writeState_eq env s hostStack guestCode guestStack).trans (bind_of_aborts ht _),
    hton, htst⟩

end MochiVM.Hv
