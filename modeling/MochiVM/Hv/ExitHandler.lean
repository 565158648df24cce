import MochiVM.Hv.Vmcs

/-!
# What `exit_handler` does to the machine

`exit_handler` always returns: `exitHandler_spec` says what it answers and what
it leaves, in one statement for all exit reasons. `teardown` is behind it when it
answers 1, and behind `shutdown`.
-/

namespace MochiVM.Hv

open MochiVM.Panic

/-! ## `teardown` -/

/-- The machine after the VMCLEAR of `teardown`, whose result is not looked at. -/
def Machine.clearedVmcs (env : Env) (s : Machine) : Machine :=
  (s.record (.vmclear s.st.vmcsRegion)).setVmx
    (if env.vmclearOk s.trace.length s.st.vmcsRegion then s.vmx.clear s.st.vmcsRegion else s.vmx)

/-- The machine after `teardown`, entered with `VMX_ACTIVE`. -/
def Machine.tornDown (env : Env) (s : Machine) : Machine :=
  (s.clearedVmcs env).leftVmx.setSt { s.st with vmxActive := false }

section Ends

variable {env : Env} {s : Machine} {E : Abort → Machine → Prop}

theorem ends_teardown {Q : PUnit → Machine → Prop} (hon : s.vmx.on = true)
    (hactive : s.st.vmxActive = true) :
    Ends (teardown env) s Q E ↔ Q ⟨⟩ (s.tornDown env) := by
  rw [teardown, ends_bind, ends_getStatics, if_pos hactive, ends_bind, vmclear,
    ends_vmxInsn_ignored hon, ends_bind, ends_vmxoff]
  · exact Iff.rfl
  · show (if _ then _ else s.vmx).on = true
    split
    · exact hon
    · exact hon

/-- Without `VMX_ACTIVE`, `teardown` does nothing. -/
theorem ends_teardown_inactive {Q : PUnit → Machine → Prop} (hactive : s.st.vmxActive = false) :
    Ends (teardown env) s Q E ↔ Q ⟨⟩ s := by
  rw [teardown, ends_bind, ends_getStatics, hactive]
  exact Iff.rfl

theorem ends_fetchAddExitCount {Q : BitVec 64 → Machine → Prop} :
    Ends fetchAddExitCount s Q E ↔
      Q s.st.exitCount (s.setSt { s.st with exitCount := s.st.exitCount + 1 }) := Iff.rfl

end Ends

/-! ## The handler -/

/-- An exit is a HLT when its reason says so. -/
def Machine.hltExit (s : Machine) : Bool := s.vmx.fields exitReason == exitReasonHlt

/-- An exit the handler stops at: not a HLT, or the fifth one. -/
def Machine.stopsAt (s : Machine) : Bool :=
  !s.hltExit || decide (s.st.exitCount + 1 ≥ maxHltExits)

/-- The VMX instructions that look at an exit and, for a HLT, step over it. -/
def Machine.lookInsns (s : Machine) : List VmxInsn :=
  if s.hltExit then
    [.vmread exitReason, .vmread guestRip, .vmwrite guestRip (s.vmx.fields guestRip + 1)]
  else [.vmread exitReason, .vmread exitQualification]

/-- The VMX instructions `exit_handler` executes. -/
def Machine.handlerInsns (s : Machine) : List VmxInsn :=
  s.lookInsns ++ if s.stopsAt then [.vmclear s.st.vmcsRegion, .vmxoff] else []

/-- In VMX operation with the current VMCS that the statics name. -/
structure Machine.Live (s : Machine) (region : Addr) : Prop where
  on : s.vmx.on = true
  current : s.vmx.current = some region
  region : s.st.vmcsRegion = region
  flag : s.st.vmxActive = true

/-- What VMX operation leaves behind: the processor outside it, CR4.VMXE and
`VMX_ACTIVE` clear. -/
structure Machine.Down (s : Machine) : Prop where
  off : s.vmx.on = false
  vmxe : s.regs.cr4.getLsbD vmxeBit = false
  flag : s.st.vmxActive = false

/-- `u` is `s` once the exit was looked at and, for a HLT, stepped over. -/
structure Looked (env : Env) (s : Machine) (region : Addr) (u : Machine) : Prop where
  live : u.Live region
  count : u.st.exitCount = if s.hltExit then s.st.exitCount + 1 else s.st.exitCount
  insns : u.trace.map Event.insn = s.trace.map Event.insn ++ s.lookInsns
  /-- Only GUEST_RIP changes, and only for a HLT. -/
  fields : (∀ n, env.vmwriteOk n guestRip = true) → ∀ f, u.vmx.data region f =
    if s.hltExit ∧ f = guestRip then s.vmx.data region guestRip + 1 else s.vmx.data region f
  mem : u.mem = s.mem

/-- What `exit_handler`, entered in `s`, answers and leaves. -/
structure Handles (env : Env) (s : Machine) (region : Addr) (a : BitVec 8) (t : Machine) :
    Prop where
  answer : a = if s.stopsAt then 1 else 0
  count : t.st.exitCount = if s.hltExit then s.st.exitCount + 1 else s.st.exitCount
  insns : t.trace.map Event.insn = s.trace.map Event.insn ++ s.handlerInsns
  fields : (∀ n, env.vmwriteOk n guestRip = true) → ∀ f, t.vmx.data region f =
    if s.hltExit ∧ f = guestRip then s.vmx.data region guestRip + 1 else s.vmx.data region f
  mem : t.mem = s.mem
  live : s.stopsAt = false → t.Live region
  down : s.stopsAt = true → t.Down

theorem Machine.tornDown_down (env : Env) (s : Machine) : (s.tornDown env).Down :=
  ⟨rfl, getLsbD_and_not_cr4Vmxe _, rfl⟩

theorem Machine.tornDown_data (env : Env) (s : Machine) :
    (s.tornDown env).vmx.data = s.vmx.data := by
  show (s.clearedVmcs env).vmx.data = _
  rw [Machine.clearedVmcs, Machine.setVmx_vmx]
  split <;> rfl

theorem Machine.tornDown_insns (env : Env) (s : Machine) :
    (s.tornDown env).trace.map Event.insn =
      s.trace.map Event.insn ++ [.vmclear s.st.vmcsRegion, .vmxoff] := by
  show ((s.trace ++ [_]) ++ [_]).map Event.insn = _
  rw [List.append_assoc, List.map_append]
  rfl

theorem fitField_guestRip (v : BitVec 64) : fitField guestRip v = v := by
  rw [fitField, show fieldBits guestRip = 64 from rfl, BitVec.setWidth_eq, BitVec.setWidth_eq]

theorem Looked.printed {env : Env} {s u : Machine} {region : Addr} (h : Looked env s region u)
    (line : String) : Looked env s region (u.printed line) :=
  ⟨⟨h.live.on, h.live.current, h.live.region, h.live.flag⟩, h.count, h.insns, h.fields, h.mem⟩

/-- The handler goes on: it answers 0. -/
theorem Looked.resumes {env : Env} {s u : Machine} {region : Addr} (h : Looked env s region u)
    (hstop : s.stopsAt = false) : Handles env s region 0 u where
  answer := by rw [hstop]; rfl
  count := h.count
  insns := by rw [h.insns, Machine.handlerInsns, hstop, if_neg Bool.false_ne_true, List.append_nil]
  fields := h.fields
  mem := h.mem
  live := fun _ => h.live
  down := fun hstop' => absurd (hstop.symm.trans hstop') Bool.false_ne_true

/-- The handler stops: it tears VMX down and answers 1. -/
theorem Looked.stops {env : Env} {s u : Machine} {region : Addr} (h : Looked env s region u)
    (hregion : s.st.vmcsRegion = region) (hstop : s.stopsAt = true) :
    Handles env s region 1 (u.tornDown env) where
  answer := by rw [hstop]; rfl
  count := h.count
  insns := by
    rw [Machine.tornDown_insns, h.insns, h.live.region, Machine.handlerInsns, if_pos hstop, hregion,
      List.append_assoc]
  fields := by rw [Machine.tornDown_data]; exact h.fields
  mem := h.mem
  live := fun hstop' => absurd (hstop'.symm.trans hstop) Bool.false_ne_true
  down := fun _ => u.tornDown_down env

/-- The exit looked at, when it is not a HLT. -/
theorem looked_other {env : Env} {s : Machine} {region : Addr} (hs : s.Live region)
    (hhlt : s.hltExit = false) (line : String) :
    Looked env s region
      (((s.record (.vmread exitReason)).record (.vmread exitQualification)).printed line) where
  live := ⟨hs.on, hs.current, hs.region, hs.flag⟩
  count := by rw [hhlt]; rfl
  insns := by simp [Machine.lookInsns, hhlt]
  fields := fun _ f => by rw [if_neg (by simp [hhlt])]; rfl
  mem := rfl

/-- A HLT looked at and stepped over: the machine at the handler's comparison. -/
def Machine.steppedOver (env : Env) (s : Machine) (line : String) : Machine :=
  let u := (((s.record (.vmread exitReason)).setSt
    { s.st with exitCount := s.st.exitCount + 1 }).printed line).record (.vmread guestRip)
  (u.record (.vmwrite guestRip (s.vmx.fields guestRip + 1))).setVmx
    (if env.vmwriteOk u.trace.length guestRip then
      s.vmx.write guestRip (s.vmx.fields guestRip + 1)
    else s.vmx)

theorem looked_hlt {env : Env} {s : Machine} {region : Addr} (hs : s.Live region)
    (hhlt : s.hltExit = true) (line : String) :
    Looked env s region (s.steppedOver env line) where
  live := by
    rw [Machine.steppedOver]
    refine ⟨?_, ?_, hs.region, hs.flag⟩
    · split
      · exact hs.on
      · exact hs.on
    · split
      · exact hs.current
      · exact hs.current
  count := by rw [hhlt]; rfl
  insns := by simp [Machine.steppedOver, Machine.lookInsns, hhlt]
  fields := fun hrip f => by
    simp only [Machine.steppedOver, Machine.setVmx_vmx, hrip, if_true, Vmx.write, Vmx.setFields,
      Vmx.fields, hs.current, hhlt, true_and, fitField_guestRip]
  mem := rfl

/-- **What `exit_handler` does**: it never panics or faults. -/
theorem exitHandler_spec {env : Env} {s : Machine} {region : Addr} (hs : s.Live region) :
    Ends (exitHandler env) s (Handles env s region) (fun _ _ => False) := by
  rw [exitHandler, ends_bind, ends_vmread hs.on]
  cases hhlt : s.hltExit with
  | false =>
    have hstop : s.stopsAt = true := by rw [Machine.stopsAt, hhlt]; rfl
    rw [if_neg (by simpa [Machine.hltExit] using hhlt), ends_bind, ends_vmread (by exact hs.on),
      ends_bind, ends_serialPrintln, ends_bind,
      ends_teardown (by exact hs.on) (by exact hs.flag), ends_pure]
    exact (looked_other hs hhlt _).stops hs.region hstop
  | true =>
    rw [if_pos (by exact hhlt), ends_bind, ends_fetchAddExitCount, ends_bind, ends_serialPrintln,
      ends_bind, ends_vmread (by exact hs.on), ends_bind, vmwrite,
      ends_vmxInsn_ignored (by exact hs.on)]
    have hlooked := @looked_hlt env _ _ hs hhlt
      (s!"[mochivm] guest hlt #{(s.st.exitCount + 1).toNat}")
    by_cases hlast : s.st.exitCount + 1 ≥ maxHltExits
    · have hstop : s.stopsAt = true := by
        rw [Machine.stopsAt, decide_eq_true hlast, Bool.or_true]
      rw [if_pos (by exact hlast), ends_bind, ends_serialPrintln, ends_bind,
        ends_teardown (by exact hlooked.live.on) (by exact hlooked.live.flag), ends_pure]
      exact (hlooked.printed _).stops hs.region hstop
    · have hstop : s.stopsAt = false := by
        rw [Machine.stopsAt, hhlt, decide_eq_false hlast]
        rfl
      rw [if_neg (by exact hlast), ends_pure]
      exact hlooked.resumes hstop

end MochiVM.Hv
