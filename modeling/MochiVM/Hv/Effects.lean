import MochiVM.Hv.PanicPath
import MochiVM.Hv.SetupVia
import MochiVM.Hv.VmcsFields
import MochiVM.Hv.Transparency

/-!
# What bring-up does besides its state

`setup_spec` and `exitHandler_spec` say what the processor and the statics look
like. Here is the rest of what they do: the lines on the serial port, the VMX
instructions in their order, and where memory is written. `setup_did` has it for
each step that `setup` can stop at, `handler_lines` for the exit handler.
-/

namespace MochiVM.Hv

open MochiVM.Panic

/-! ## A stretch of execution -/

/-- The `n` bytes at `base`. -/
def Within (base : Addr) (n : Nat) (a : Addr) : Prop := (a - base).toNat < n

/-- What happened between `s` and `t`: the lines printed, the VMX instructions
executed; memory differs only where `written` allows it. -/
structure Did (lines : List String) (insns : List VmxInsn) (written : Addr → Prop)
    (s t : Machine) : Prop where
  serial : t.serial = s.serial ++ lines
  trace : t.trace.map Event.insn = s.trace.map Event.insn ++ insns
  mem : ∀ a, ¬ written a → t.mem a = s.mem a

namespace Did

variable {lines lines' : List String} {insns insns' : List VmxInsn} {written : Addr → Prop}
  {s t u : Machine}

theorem refl (written : Addr → Prop) (s : Machine) : Did [] [] written s s :=
  ⟨(List.append_nil _).symm, (List.append_nil _).symm, fun _ _ => rfl⟩

theorem trans (h : Did lines insns written s t) (h' : Did lines' insns' written t u) :
    Did (lines ++ lines') (insns ++ insns') written s u where
  serial := by rw [h'.serial, h.serial, List.append_assoc]
  trace := by rw [h'.trace, h.trace, List.append_assoc]
  mem := fun a ha => (h'.mem a ha).trans (h.mem a ha)

/-- Only these three parts matter. -/
theorem congr {v : Machine} (h : Did lines insns written s t) (hserial : v.serial = t.serial)
    (htrace : v.trace = t.trace) (hmem : v.mem = t.mem) : Did lines insns written s v :=
  ⟨hserial.trans h.serial, by rw [htrace]; exact h.trace, fun a ha => by rw [hmem, h.mem a ha]⟩

theorem record (h : Did lines insns written s t) (insn : VmxInsn) :
    Did lines (insns ++ [insn]) written s (t.record insn) :=
  ⟨h.serial, by simp [h.trace], h.mem⟩

theorem printed (h : Did lines insns written s t) (line : String) :
    Did (lines ++ [line]) insns written s (t.printed line) :=
  ⟨by simp [h.serial], h.trace, h.mem⟩

theorem setMem (h : Did lines insns written s t) (mem : Addr → BitVec 8)
    (hmem : ∀ a, ¬ written a → mem a = t.mem a) : Did lines insns written s (t.setMem mem) :=
  ⟨h.serial, h.trace, fun a ha => (hmem a ha).trans (h.mem a ha)⟩

end Did

theorem storeLE_within {mem : Addr → BitVec 8} {base a : Addr} {n : Nat} {v : BitVec 64}
    (h : ¬ Within base n a) : storeLE mem base n v a = mem a :=
  storeLE_outside (Nat.le_of_not_lt h)

theorem storeBytes_within {mem : Addr → BitVec 8} {base a : Addr} {bytes : List (BitVec 8)}
    (h : ¬ Within base bytes.length a) : storeBytes mem base bytes a = mem a := by
  rw [storeBytes, List.getElem?_eq_none (Nat.le_of_not_lt h)]
  rfl

/-! ## `write_state` -/

/-- A VMWRITE of `write_state`, as an instruction. -/
def StateWrite.insn (w : StateWrite) : VmxInsn := .vmwrite w.field w.value

theorem wroteAll_did (ws : List StateWrite) (written : Addr → Prop) (s : Machine) :
    Did [] (ws.map StateWrite.insn) written s (s.wroteAll ws) := by
  refine ⟨?_, ?_, fun a _ => ?_⟩
  · rw [List.append_nil]
    exact s.wroteAll_frame ws Machine.serial fun _ _ => rfl
  · obtain ⟨new, hnew, hmap⟩ := wroteAll_trace ws s
    rw [hnew, List.map_append, hmap]
    rfl
  · exact congrFun (s.wroteAll_frame ws Machine.mem fun _ _ => rfl) a

/-- **A rejected VMWRITE** is the last one. -/
theorem writeAll_rejected {env : Env} : ∀ {ws : List StateWrite} {s : Machine},
    s.vmx.on = true → accepted env s.trace.length (ws.map (·.field)) = false →
    ∃ before w after, ws = before ++ w :: after ∧
      Aborts (writeAll env ws) s (.panic s!"{w.msg}: ()") ((s.wroteAll before).record w.insn)
  | w :: ws, s, hon, hno => by
    by_cases hw : env.vmwriteOk s.trace.length w.field
    · have hhead : Returns (expect w.msg (vmwrite env w.field w.value)) s ⟨⟩ (s.wrote w) :=
        (expect_vmwrite env hon w).trans (if_pos hw)
      have hws : accepted env (s.trace.length + 1) (ws.map (·.field)) = false := by
        simpa [accepted, hw] using hno
      rw [← show (s.wrote w).trace.length = s.trace.length + 1 from List.length_append] at hws
      obtain ⟨before, w', after, rfl, h⟩ := writeAll_rejected (s := s.wrote w) hon hws
      exact ⟨w :: before, w', after, rfl, hhead.bind_aborts h⟩
    · have hhead : Aborts (expect w.msg (vmwrite env w.field w.value)) s _ _ :=
        (expect_vmwrite env hon w).trans (if_neg hw)
      exact ⟨[], w, ws, rfl, hhead.bind _⟩

/-- The messages of its `expect`s. -/
def vmwriteMessages : List String := ["vmwrite ctrl failed", "vmwrite32 failed", "vmwrite64 failed"]

theorem writesOf_message (env : Env) (s : Machine) (hostStack guestCode guestStack : BitVec 64) :
    ∀ w ∈ writesOf env s hostStack guestCode guestStack, w.msg ∈ vmwriteMessages := by
  simp [writesOf, stateWrites, controlWrites, guestGeneralWrites, guestSegmentWrites, hostWrites,
    StateWrite.ctrl, StateWrite.field32, StateWrite.field64, vmwriteMessages]

/-! ## `setup` -/

/-- The error that `setup` returns when it stops at the given step. -/
def SetupStop.error (systemTable : BitVec 64) : SetupStop → Option String
  | .noVmxonPage => some (if systemTable = 0 then "no system table" else "allocate_pages failed")
  | .vmxonFails => some "vmxon failed (cf set)"
  | .noVmcsPage _ | .noStack _ _ => some "allocate_pages failed"
  | .vmclearFails _ => some "vmclear failed"
  | .vmptrldFails _ => some "vmptrld failed"
  | .vmwriteRejected _ _ | .done _ _ => none

/-- The instructions of the clean-up, which the guard on `VMXON_REGION` may skip. -/
def offInsns (region : Addr) : List VmxInsn := if region = 0 then [] else [.vmxoff]

/-- The instructions up to VMPTRLD. -/
def loadInsns (region vmcs : Addr) : List VmxInsn := [.vmxon region, .vmclear vmcs, .vmptrld vmcs]

/-- The VMX instructions of `setup`, entered in `s`, when it stops at the given
step. -/
def SetupStop.Insns (env : Env) (s : Machine) : SetupStop → List VmxInsn → Prop
  | .noVmxonPage, insns => insns = []
  | .vmxonFails, insns => insns = [.vmxon (env.allocate s.allocs 1).2]
  | .noVmcsPage region, insns => insns = .vmxon region :: offInsns region
  | .vmclearFails region, insns =>
    insns = [.vmxon region, .vmclear (env.allocate (s.allocs + 1) 1).2] ++ offInsns region
  | .vmptrldFails region, insns =>
    insns = loadInsns region (env.allocate (s.allocs + 1) 1).2 ++ offInsns region
  | .noStack region vmcs, insns => insns = loadInsns region vmcs ++ offInsns region
  | .vmwriteRejected region vmcs, insns => ∃ ws : List StateWrite,
    ws.map (·.field) <+: stateFields ∧ insns = loadInsns region vmcs ++ ws.map StateWrite.insn
  | .done region vmcs, insns => ∃ ws : List StateWrite,
    ws.map (·.field) = stateFields ∧ insns = loadInsns region vmcs ++ ws.map StateWrite.insn

/-- Where `setup`, entered in `s`, writes memory: the revision identifiers at the
start of its first two pages, and the code of the guest in its fourth. -/
def SetupWrites (env : Env) (s : Machine) (a : Addr) : Prop :=
  Within (env.allocate s.allocs 1).2 4 a ∨ Within (env.allocate (s.allocs + 1) 1).2 4 a ∨
    Within (env.allocate (s.allocs + 3) 1).2 guestBin.length a

/-- What `setup` returns there, if it does. -/
def SetupStop.result (stop : SetupStop) (systemTable : BitVec 64) : Except String PUnit :=
  match stop.error systemTable with
  | some e => .error e
  | none => .ok ⟨⟩

/-- What `setup`, entered in `s`, did when it returns. -/
structure SetupDid (env : Env) (s : Machine) (r : Except String PUnit) (t : Machine) : Prop where
  /-- It returns its error, if it stopped at one, -/
  result : r = (setupStop env s).result s.st.systemTable
  /-- and prints a line only if it did not. -/
  did : ∃ insns, (setupStop env s).Insns env s insns ∧
    Did (if r.isOk then ["[mochivm] vmcs ready"] else []) insns (SetupWrites env s) s t

/-- What it did when it panics. -/
structure SetupPanicked (env : Env) (s : Machine) (e : Abort) (t : Machine) : Prop where
  rejected : ∃ region vmcs, setupStop env s = .vmwriteRejected region vmcs
  message : ∃ msg ∈ vmwriteMessages, e = .panic s!"{msg}: ()"
  did : ∃ insns, (setupStop env s).Insns env s insns ∧ Did [] insns (SetupWrites env s) s t

theorem allocAnswer_error {env : Env} {systemTable pages : BitVec 64} {n : Nat} {e : String}
    (h : allocAnswer env systemTable n pages = .error e) :
    e = if systemTable = 0 then "no system table" else "allocate_pages failed" := by
  rw [allocAnswer] at h
  split at h
  next hz => rw [if_pos hz]; exact (Except.error.inj h).symm
  next hz =>
    split at h
    · rw [if_neg hz]; exact (Except.error.inj h).symm
    · cases h

/-- With a first page there is a system table. -/
theorem allocAnswer_table {env : Env} {systemTable pages : BitVec 64} {n : Nat} {a : Addr}
    (h : allocAnswer env systemTable n pages = .ok a) : systemTable ≠ 0 := by
  rintro rfl
  cases h

/-- The clean-up executes VMXOFF, or nothing. -/
theorem Did.cleanup {lines : List String} {insns : List VmxInsn} {written : Addr → Prop}
    {s u : Machine} (h : Did lines insns written s u) :
    Did lines (insns ++ offInsns u.st.vmxonRegion) written s u.offAndCleared := by
  rw [Machine.offAndCleared, offInsns]
  split
  · rw [List.append_nil]
    exact h
  · exact (h.record .vmxoff).congr rfl rfl rfl

theorem ends_cleanup {u : Machine} (hon : u.vmx.on = true) {e : String}
    {Q : Except String PUnit → Machine → Prop} {E : Abort → Machine → Prop} :
    Ends (do vmxoffAndClear; pure (.error e)) u Q E ↔ Q (.error e) u.offAndCleared := by
  rw [ends_bind, ends_vmxoffAndClear hon, ends_pure]

section Guest

variable {env : Env} {s u : Machine} {insns : List VmxInsn} {written : Addr → Prop}

/-- A failing allocation of the last part. -/
theorem setupGuest_did_noStack (hon : u.vmx.on = true) (htable : u.st.systemTable ≠ 0)
    (h : Did [] insns written s u) (hno : stacksOk env u.st.systemTable u.allocs = false)
    (E : Abort → Machine → Prop) :
    Ends (setupGuest env) u (fun r t => r = .error "allocate_pages failed" ∧
      Did [] (insns ++ offInsns u.st.vmxonRegion) written s t) E := by
  have hmessage : ∀ {n pages e}, allocAnswer env u.st.systemTable n pages = .error e →
      e = "allocate_pages failed" := by
    intro n pages e he
    rw [allocAnswer_error he, if_neg htable]
  rw [setupGuest, ends_bind, ends_allocatePages]
  cases h₀ : allocAnswer env u.st.systemTable u.allocs 4 with
  | error e =>
    simp only
    rw [ends_cleanup (by exact hon), hmessage h₀]
    exact ⟨rfl, (h.congr rfl rfl rfl : Did _ _ _ s u.allocated).cleanup⟩
  | ok hostStack =>
  simp only
  rw [ends_bind, ends_allocatePage]
  simp only [Machine.allocated_st, Machine.allocated_allocs]
  cases h₁ : allocAnswer env u.st.systemTable (u.allocs + 1) 1 with
  | error e =>
    simp only
    rw [ends_cleanup (by exact hon), hmessage h₁]
    exact ⟨rfl, (h.congr rfl rfl rfl : Did _ _ _ s u.allocated.allocated).cleanup⟩
  | ok guestCode =>
  simp only
  rw [ends_bind, ends_allocatePage]
  simp only [Machine.allocated_st, Machine.allocated_allocs]
  cases h₂ : allocAnswer env u.st.systemTable (u.allocs + 1 + 1) 1 with
  | error e =>
    simp only
    rw [ends_cleanup (by exact hon), hmessage h₂]
    exact ⟨rfl, (h.congr rfl rfl rfl : Did _ _ _ s u.allocated.allocated.allocated).cleanup⟩
  | ok guestStack =>
    -- no allocation fails, against `hno`
    rw [stacksOk, allocOk, allocOk, allocOk, h₀, h₁, h₂] at hno
    cases hno

/-- The last part with its allocations made: all the VMWRITEs, or those up to the
one that is rejected. -/
theorem setupGuest_did_stacks (hon : u.vmx.on = true)
    (h : Did [] insns written s u)
    (hcode : ∀ a, Within (env.allocate (u.allocs + 1) 1).2 guestBin.length a → written a)
    (hstacks : stacksOk env u.st.systemTable u.allocs = true) :
    Ends (setupGuest env) u
      (fun r t => accepted env u.trace.length stateFields = true ∧ r = .ok ⟨⟩ ∧
        ∃ ws : List StateWrite, ws.map (·.field) = stateFields ∧
          Did ["[mochivm] vmcs ready"] (insns ++ ws.map StateWrite.insn) written s t)
      (fun e t => accepted env u.trace.length stateFields = false ∧
        (∃ msg ∈ vmwriteMessages, e = .panic s!"{msg}: ()") ∧
        ∃ ws : List StateWrite, ws.map (·.field) <+: stateFields ∧
          Did [] (insns ++ ws.map StateWrite.insn) written s t) := by
  simp only [stacksOk, allocOk, Bool.and_eq_true] at hstacks
  obtain ⟨⟨hs₀, hs₁⟩, hs₂⟩ := hstacks
  rw [setupGuest, ends_bind, ends_allocatePages]
  cases h₀ : allocAnswer env u.st.systemTable u.allocs 4 with
  | error e => rw [h₀] at hs₀; cases hs₀
  | ok hostStack =>
  simp only
  rw [ends_bind, ends_allocatePage]
  simp only [Machine.allocated_st, Machine.allocated_allocs]
  cases h₁ : allocAnswer env u.st.systemTable (u.allocs + 1) 1 with
  | error e => rw [h₁] at hs₁; cases hs₁
  | ok guestCode =>
  simp only
  rw [ends_bind, ends_allocatePage]
  simp only [Machine.allocated_st, Machine.allocated_allocs]
  cases h₂ : allocAnswer env u.st.systemTable (u.allocs + 1 + 1) 1 with
  | error e => rw [h₂] at hs₂; cases hs₂
  | ok guestStack =>
  simp only
  rw [ends_bind, ends_copyNonoverlapping, ends_bind]
  have hpage : (env.allocate (u.allocs + 1) 1).2 = guestCode := by rw [allocAnswer_ok h₁]
  rw [hpage] at hcode
  have hcopied : Did [] insns written s (u.allocated.allocated.allocated.setMem
      (storeBytes u.mem guestCode guestBin)) :=
    ((h.congr rfl rfl rfl : Did _ _ _ s u.allocated.allocated.allocated)).setMem _ fun a ha =>
      storeBytes_within fun hin => ha (hcode a hin)
  change Ends _ (u.allocated.allocated.allocated.setMem (storeBytes u.mem guestCode guestBin)) _ _
  generalize hv : u.allocated.allocated.allocated.setMem (storeBytes u.mem guestCode guestBin) = v
    at hcopied ⊢
  have hvon : v.vmx.on = true := by rw [← hv]; exact hon
  have hvtrace : v.trace = u.trace := by rw [← hv]; rfl
  have hfields := writesOf_fields env v hostStack guestCode guestStack
  cases hacc : accepted env u.trace.length stateFields with
  | true =>
    rw [ends_of_returns (writeState_returns hvon (by rw [hvtrace]; exact hacc) _ _ _)]
    simp only
    rw [ends_bind, ends_setStatics, ends_bind, ends_serialPrintln, ends_pure]
    refine ⟨trivial, rfl, _, hfields, ?_⟩
    have hdid := hcopied.trans (wroteAll_did (writesOf env v hostStack guestCode guestStack) _ v)
    generalize v.wroteAll (writesOf env v hostStack guestCode guestStack) = w at hdid ⊢
    exact (hdid.congr (v := w.setSt { w.st with vmxActive := true }) rfl rfl rfl).printed _
  | false =>
    obtain ⟨before, w, after, hsplit, hall⟩ := @writeAll_rejected env
      (writesOf env v hostStack guestCode guestStack) v hvon
      (by rw [hfields, hvtrace]; exact hacc)
    have habort : Aborts (writeState env hostStack guestCode guestStack) v
        (.panic s!"{w.msg}: ()") ((v.wroteAll before).record w.insn) :=
      (writeState_eq env v hostStack guestCode guestStack).trans (bind_of_aborts hall _)
    rw [ends_of_aborts habort]
    have hmem : w ∈ writesOf env v hostStack guestCode guestStack := by
      rw [hsplit]
      exact List.mem_append_right _ List.mem_cons_self
    have hprefix : (before ++ [w]).map (·.field) <+: stateFields := by
      rw [← hfields, hsplit, List.append_cons before w after]
      exact (List.prefix_append _ _).map _
    refine ⟨rfl, ⟨w.msg, writesOf_message _ _ _ _ _ w hmem, rfl⟩, before ++ [w], hprefix, ?_⟩
    have hdid := (hcopied.trans (wroteAll_did before _ v)).record w.insn
    rw [List.append_nil, List.append_assoc] at hdid
    rw [List.map_append]
    exact hdid

end Guest

/-- **What `setup` does**, for each step it can stop at. -/
theorem setup_did (env : Env) (s : Machine) :
    Ends (setup env) s (SetupDid env s) (SetupPanicked env s) := by
  have hstart : ∀ W, Did [] [] W s s.allocated := fun W => (Did.refl W s).congr rfl rfl rfl
  rw [setup, ends_bind, ends_allocatePage]
  cases h₀ : allocAnswer env s.st.systemTable s.allocs 1 with
  | error e =>
    have hstop : setupStop env s = .noVmxonPage := by rw [setupStop, h₀]
    refine ⟨?_, [], ?_, hstart _⟩
    · rw [hstop, allocAnswer_error h₀]
      rfl
    · rw [hstop]
      rfl
  | ok region =>
  have hpage₀ : (env.allocate s.allocs 1).2 = region := by rw [allocAnswer_ok h₀]
  have htable := allocAnswer_table h₀
  simp only
  rw [ends_bind, vmxon, ends_bind, ends_rdmsr, ends_bind, ends_writeVolatile32, ends_vmxonInsn]
  simp only [Machine.setMem_trace, Machine.allocated_trace]
  have hstamped := (hstart (SetupWrites env s)).setMem (storeLE s.allocated.mem region 4
    (((s.allocated.regs.msr ia32VmxBasic).setWidth 32).setWidth 64)) fun a ha =>
      storeLE_within fun hin => ha (.inl (hpage₀ ▸ hin))
  by_cases h₁ : env.vmxonOk s.trace.length region
  case neg =>
    have hstop : setupStop env s = .vmxonFails := by simp only [setupStop, h₀, if_neg h₁]
    rw [if_neg h₁]
    refine ⟨?_, [.vmxon region], ?_, hstamped.record _⟩
    · rw [hstop]
      rfl
    · rw [hstop, SetupStop.Insns, hpage₀]
  case pos =>
  rw [if_pos h₁, ends_bind, ends_setStatics]
  generalize hu : Machine.setSt _ _ = u
  have hu₁ : Did [] [.vmxon region] (SetupWrites env s) s u := by
    rw [← hu]
    exact (hstamped.record (.vmxon region)).congr rfl rfl rfl
  have hon : u.vmx.on = true := by rw [← hu]; rfl
  have hregion : u.st.vmxonRegion = region := by rw [← hu]; rfl
  have hst : u.st.systemTable = s.st.systemTable := by rw [← hu]; rfl
  have hallocs : u.allocs = s.allocs + 1 := by rw [← hu]; rfl
  have hlen : u.trace.length = s.trace.length + 1 := by rw [← hu]; exact List.length_append
  clear hu hstamped
  -- the VMCS region
  rw [setupVmcs, ends_bind, ends_allocatePage, hst, hallocs]
  have hu₂ : Did [] [.vmxon region] (SetupWrites env s) s u.allocated := hu₁.congr rfl rfl rfl
  cases h₂ : allocAnswer env s.st.systemTable (s.allocs + 1) 1 with
  | error e =>
    have hstop : setupStop env s = .noVmcsPage region := by
      simp only [setupStop, h₀, if_pos h₁, h₂]
    simp only
    rw [ends_cleanup (by exact hon)]
    refine ⟨?_, _, ?_, hu₂.cleanup⟩
    · rw [hstop, allocAnswer_error h₂, if_neg htable]
      rfl
    · rw [hstop]
      exact congrArg (fun r => [VmxInsn.vmxon region] ++ offInsns r) hregion
  | ok vmcs =>
  have hpage₁ : (env.allocate (s.allocs + 1) 1).2 = vmcs := by rw [allocAnswer_ok h₂]
  simp only
  rw [ends_bind, ends_rdmsr, ends_bind, ends_writeVolatile32, ends_bind, vmclear]
  have hu₃ := hu₂.setMem (storeLE u.allocated.mem vmcs 4
    (((u.allocated.regs.msr 0x480#32).setWidth 32).setWidth 64)) fun a ha =>
      storeLE_within fun hin => ha (.inr (.inl (hpage₁ ▸ hin)))
  rw [ends_vmxInsn (by exact hon)]
  simp only [Machine.setMem_trace, Machine.allocated_trace, hlen]
  by_cases h₃ : env.vmclearOk (s.trace.length + 1) vmcs
  case neg =>
    have hstop : setupStop env s = .vmclearFails region := by
      simp only [setupStop, h₀, if_pos h₁, h₂, if_neg h₃]
    rw [if_neg h₃, ends_cleanup (by exact hon)]
    refine ⟨?_, _, ?_, (hu₃.record (.vmclear vmcs)).cleanup⟩
    · rw [hstop]
      rfl
    · rw [hstop, SetupStop.Insns, hpage₁]
      exact congrArg (fun r => [VmxInsn.vmxon region, .vmclear vmcs] ++ offInsns r) hregion
  case pos =>
  rw [if_pos h₃, ends_bind, vmptrld]
  generalize hv : Machine.setVmx _ _ = v
  have hv₁ : Did [] [.vmxon region, .vmclear vmcs] (SetupWrites env s) s v := by
    rw [← hv]
    exact (hu₃.record (.vmclear vmcs)).congr rfl rfl rfl
  have hon : v.vmx.on = true := by rw [← hv]; exact hon
  have hregion : v.st.vmxonRegion = region := by rw [← hv]; exact hregion
  have hst : v.st.systemTable = s.st.systemTable := by rw [← hv]; exact hst
  have hallocs : v.allocs = s.allocs + 2 := by rw [← hv]; exact congrArg (· + 1) hallocs
  have hlen : v.trace.length = s.trace.length + 2 := by
    rw [← hv]
    exact List.length_append.trans (congrArg (· + 1) hlen)
  clear hv hu₁ hu₂ hu₃
  -- the VMCS is made current
  rw [ends_vmxInsn hon, hlen]
  by_cases h₄ : env.vmptrldOk (s.trace.length + 2) vmcs
  case neg =>
    have hstop : setupStop env s = .vmptrldFails region := by
      simp only [setupStop, h₀, if_pos h₁, h₂, if_pos h₃, if_neg h₄]
    rw [if_neg h₄, ends_cleanup (by exact hon)]
    refine ⟨?_, _, ?_, (hv₁.record (.vmptrld vmcs)).cleanup⟩
    · rw [hstop]
      rfl
    · rw [hstop, SetupStop.Insns, hpage₁]
      exact congrArg (fun r => loadInsns region vmcs ++ offInsns r) hregion
  case pos =>
  rw [if_pos h₄, ends_bind, ends_setStatics]
  generalize hw : Machine.setSt _ _ = w
  have hw₁ : Did [] (loadInsns region vmcs) (SetupWrites env s) s w := by
    rw [← hw]
    exact (hv₁.record (.vmptrld vmcs)).congr rfl rfl rfl
  have hon : w.vmx.on = true := by rw [← hw]; exact hon
  have hregion : w.st.vmxonRegion = region := by rw [← hw]; exact hregion
  have hst : w.st.systemTable = s.st.systemTable := by rw [← hw]; exact hst
  have hallocs : w.allocs = s.allocs + 2 := by rw [← hw]; exact hallocs
  have hlen : w.trace.length = s.trace.length + 3 := by
    rw [← hw]
    exact List.length_append.trans (congrArg (· + 1) hlen)
  clear hw hv₁
  -- the stacks, the guest and the fields
  by_cases h₅ : stacksOk env s.st.systemTable (s.allocs + 2)
  case neg =>
    have hstop : setupStop env s = .noStack region vmcs := by
      simp only [setupStop, h₀, if_pos h₁, h₂, if_pos h₃, if_pos h₄, if_neg h₅]
    refine (setupGuest_did_noStack hon (by rw [hst]; exact htable) hw₁
      (by rw [hst, hallocs]; simpa using h₅) _).mono ?_ fun _ _ h => h
    rintro r t ⟨rfl, hdid⟩
    refine ⟨?_, _, ?_, hdid⟩
    · rw [hstop]
      rfl
    · rw [hstop, hregion]
      rfl
  case pos =>
  have hwhere : ∀ a, Within (env.allocate (w.allocs + 1) 1).2 guestBin.length a →
      SetupWrites env s a := by
    intro a ha
    rw [hallocs] at ha
    exact .inr (.inr ha)
  refine (setupGuest_did_stacks hon hw₁ hwhere (by rw [hst, hallocs]; exact h₅)).mono ?_ ?_
  · rintro r t ⟨hacc, rfl, ws, hws, hdid⟩
    rw [hlen] at hacc
    have hstop : setupStop env s = .done region vmcs := by
      simp only [setupStop, h₀, if_pos h₁, h₂, if_pos h₃, if_pos h₄, if_pos h₅, if_pos hacc]
    refine ⟨?_, _, ?_, hdid⟩
    · rw [hstop]
      rfl
    · rw [hstop]
      exact ⟨ws, hws, rfl⟩
  · rintro e t ⟨hacc, hmessage, ws, hws, hdid⟩
    rw [hlen] at hacc
    have hstop : setupStop env s = .vmwriteRejected region vmcs := by
      simp only [setupStop, h₀, if_pos h₁, h₂, if_pos h₃, if_pos h₄, if_pos h₅, hacc]
      rfl
    refine ⟨⟨_, _, hstop⟩, hmessage, _, ?_, hdid⟩
    rw [hstop]
    exact ⟨ws, hws, rfl⟩

/-! ## The exit handler -/

/-- The line for an exit that is not a HLT. -/
def unexpectedLine (reason qual : BitVec 64) : String :=
  s!"[mochivm] unexpected exit reason {reason.toNat} qual 0x" ++
    String.ofList (Nat.toDigits 16 qual.toNat) ++ ", stopping"

/-- The lines for the `n`-th HLT exit, which is the last one if `stops`. -/
def hltLines (n : Nat) (stops : Bool) : List String :=
  s!"[mochivm] guest hlt #{n}" ::
    if stops then [s!"[mochivm] guest halted {n} times, vmxoff"] else []

/-- The lines `exit_handler` prints. -/
def Machine.handlerLines (s : Machine) : List String :=
  if s.hltExit then hltLines (s.st.exitCount + 1).toNat s.stopsAt
  else [unexpectedLine (s.vmx.fields exitReason) (s.vmx.fields exitQualification)]

theorem Machine.tornDown_serial (env : Env) (s : Machine) : (s.tornDown env).serial = s.serial :=
  rfl

/-- **What `exit_handler` prints.** -/
theorem handler_lines {env : Env} {s : Machine} {region : Addr} (hs : s.Live region) :
    Ends (exitHandler env) s (fun _ t => t.serial = s.serial ++ s.handlerLines)
      (fun _ _ => False) := by
  rw [exitHandler, ends_bind, ends_vmread hs.on]
  cases hhlt : s.hltExit with
  | false =>
    rw [if_neg (by simpa [Machine.hltExit] using hhlt), ends_bind, ends_vmread (by exact hs.on),
      ends_bind, ends_serialPrintln, ends_bind,
      ends_teardown (by exact hs.on) (by exact hs.flag), ends_pure, Machine.tornDown_serial,
      Machine.handlerLines, hhlt]
    rfl
  | true =>
    rw [if_pos (by exact hhlt), ends_bind, ends_fetchAddExitCount, ends_bind, ends_serialPrintln,
      ends_bind, ends_vmread (by exact hs.on), ends_bind, vmwrite,
      ends_vmxInsn_ignored (by exact hs.on)]
    have hlooked := @looked_hlt env _ _ hs hhlt
      (s!"[mochivm] guest hlt #{(s.st.exitCount + 1).toNat}")
    by_cases hlast : s.st.exitCount + 1 ≥ maxHltExits
    · have hstop : s.stopsAt = true := by
        rw [Machine.stopsAt, decide_eq_true hlast, Bool.or_true]
      rw [if_pos (by exact hlast), ends_bind, ends_serialPrintln, ends_bind,
        ends_teardown (by exact hlooked.live.on) (by exact hlooked.live.flag), ends_pure,
        Machine.tornDown_serial, Machine.handlerLines, hhlt, hstop]
      exact List.append_assoc ..
    · have hstop : s.stopsAt = false := by
        rw [Machine.stopsAt, hhlt, decide_eq_false hlast]
        rfl
      rw [if_neg (by exact hlast), ends_pure, Machine.handlerLines, hhlt, hstop]
      rfl

/-! ## One turn of `host_entry` -/

/-- The lines of an exit, after `hlts` HLT exits. -/
def Exit.lines (e : Exit) (hlts : Nat) : List String :=
  if e.isHlt then hltLines (hlts + 1) (e.stops hlts)
  else [unexpectedLine (e.vmcs exitReason) (e.vmcs exitQualification)]

section Turn

variable {env : Env} {s : Machine} {region base : Addr}

/-- VMRESUME executes an instruction, or faults. -/
theorem vmresume_machine (env : Env) (c : Cpu) :
    (c.vmresume env).machine = c.machine ∨
      (c.vmresume env).machine = c.machine.record .vmresume := by
  rw [Cpu.vmresume]
  split
  · split
    · exact .inr rfl
    · exact .inr rfl
  · exact .inl rfl

/-- The last step of a turn, for a part of the machine that a recorded
instruction leaves alone. -/
theorem turn_last {α : Type} (part : Machine → α)
    (hpart : ∀ m insn, part (Machine.record m insn) = part m) {e : Exit} {al : BitVec 8}
    {t : Machine} (hret : Returns (exitHandler env) ((e.entry s).atCall env e.scratch) al t) :
    part (e.turn env s).machine = part ((e.entry s).dispatched env e.scratch).machine := by
  obtain ⟨hrun, hmachine, hmode, hanswer, hpc⟩ :=
    iterate_dispatched (c := e.entry s) rfl rfl hret
  have hturn : e.turn env s = ((e.entry s).dispatched env e.scratch).step env e.scratch := by
    rw [← hrun]
    exact Function.iterate_succ_apply' (Cpu.step env e.scratch) 35 (e.entry s)
  rw [hturn]
  generalize (e.entry s).dispatched env e.scratch = d at hmode hpc ⊢
  by_cases hal : al = 0
  · rw [if_pos hal] at hpc
    rw [step_of_fetch (i := .vmresume) hmode (by rw [hpc]; rfl)]
    show part (d.vmresume env).machine = _
    rcases vmresume_machine env d with h | h
    · rw [h]
    · rw [h, hpart]
  · rw [if_neg hal] at hpc
    rw [(@step_halting env e.scratch d ⟨hmode, .inr (by omega)⟩).2.1]

/-- **What a turn prints.** -/
theorem turn_serial (hs : s.Live region) (e : Exit) {hlts : Nat}
    (hcount : s.st.exitCount.toNat = hlts) (hlt : hlts < 5) :
    (e.turn env s).machine.serial = s.serial ++ e.lines hlts := by
  obtain ⟨al, t, hret, -⟩ := @handler_called env _ _ hs e
  have hcall := atCall_eq env e.scratch (e.entry s)
  have hexited := hs.exited e
  have hlive : ((e.entry s).atCall env e.scratch).Live region := by
    rw [hcall]
    exact ⟨hexited.on, hexited.current, hexited.region, hexited.flag⟩
  have hserial := (ends_of_returns hret).mp (handler_lines hlive)
  have hlines : ((e.entry s).atCall env e.scratch).handlerLines = e.lines hlts := by
    have hsum : ((s.exited e).st.exitCount + 1).toNat = hlts + 1 := toNat_succ hcount hlt
    rw [hcall, Exit.lines, ← exited_stopsAt hs e hcount hlt, ← exited_hltExit hs e, ← hsum,
      ← exited_fields hs.current e (f := exitReason) (by decide),
      ← exited_fields hs.current e (f := exitQualification) (by decide)]
    rfl
  have hdispatched := (iterate_dispatched (c := e.entry s) rfl rfl hret).2.1
  rw [turn_last Machine.serial (fun _ _ => rfl) hret, hdispatched, ← hlines]
  exact hserial.trans (by rw [hcall]; rfl)

/-- Pushes write below the stack pointer. -/
theorem line_pushes_mem {x : Scratch} {a : Addr} : ∀ (rs : List Gpr) (c : Cpu),
    8 * rs.length ≤ 2 ^ 63 →
    ¬ Within (c.rsp - BitVec.ofNat 64 (8 * rs.length)) (8 * rs.length) a →
    (c.line env x (rs.map .push)).machine.mem a = c.machine.mem a
  | [], _, _, _ => rfl
  | r :: rs, c, hlen, ha => by
    rw [List.length_cons] at hlen ha
    have hrest := line_pushes_mem (x := x) (a := a) rs (c.push (c.gpr r)) (by omega) (by
      intro hin
      refine ha ?_
      rw [Within] at hin ⊢
      change (a - (c.rsp - 8 - BitVec.ofNat 64 (8 * rs.length))).toNat < 8 * rs.length at hin
      bv_omega)
    refine hrest.trans (storeLE_within fun hin => ha ?_)
    rw [Within] at hin ⊢
    bv_omega

theorem line_pops_machine {x : Scratch} : ∀ (rs : List Gpr) (c : Cpu),
    (c.line env x (rs.map .pop)).machine = c.machine
  | [], _ => rfl
  | r :: rs, c => line_pops_machine rs (c.pop r)

/-- **Where a turn writes memory**: in the four pages of the host stack. -/
theorem turn_mem (hs : s.Live region) (e : Exit)
    (hrsp : (s.exited e).vmx.fields hostRsp = base + 0x4000) (hfits : e.Fits) {a : Addr}
    (ha : ¬ Within base 0x4000 a) : (e.turn env s).machine.mem a = e.mem a := by
  obtain ⟨al, t, hret, ht⟩ := @handler_called env _ _ hs e
  rw [turn_last (fun m => m.mem a) (fun _ _ => rfl) hret]
  -- the pushes
  have hpushed : (((e.entry s).line env e.scratch pushes).machine).mem a = e.mem a := by
    refine line_pushes_mem (savedRegs ++ [Gpr.rax]) (e.entry s) (by decide) fun hin => ha ?_
    rw [Within] at hin ⊢
    change (a - ((s.exited e).vmx.fields hostRsp - 128)).toNat < 128 at hin
    rw [hrsp] at hin
    bv_omega
  have hpointer : ((e.entry s).line env e.scratch pushes).rsp = base + 0x4000 - 128 := by
    refine (@line_pushes env e.scratch (savedRegs ++ [Gpr.rax]) (e.entry s) [] trivial
      (by decide)).2.1.trans ?_
    rw [← hrsp]
    rfl
  -- the pops write nothing, the call its return address and the handler's frame
  have hpops : ((e.entry s).dispatched env e.scratch).machine =
      (((e.entry s).line env e.scratch pushes).callHandler env e.scratch).machine :=
    line_pops_machine savedRegs.reverse _
  change Returns (exitHandler env) (((e.entry s).line env e.scratch pushes).machine.setMem _) al t
    at hret
  rw [hpops, Cpu.callHandler, show exitHandler env _ = _ from hret, ← hpushed]
  have hcalled : t.mem = storeLE ((e.entry s).line env e.scratch pushes).machine.mem
      (((e.entry s).line env e.scratch pushes).rsp - 8) 8 e.scratch.ret := ht.mem
  have hdepth : e.scratch.depth ≤ 0x4000 - 17 * 8 := hfits
  show scribble t.mem (((e.entry s).line env e.scratch pushes).rsp - 8) e.scratch.depth
    e.scratch.stack a = _
  rw [hpointer] at hcalled ⊢
  rw [scribble, if_neg, hcalled, storeLE_within]
  · intro hin
    refine ha ?_
    rw [Within] at hin ⊢
    bv_omega
  · intro hin
    refine ha ?_
    rw [Within]
    bv_omega

end Turn

end MochiVM.Hv
