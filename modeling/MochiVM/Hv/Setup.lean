import MochiVM.Hv.WriteState

/-!
# Where `setup` stops

`setup` is a sequence of fallible steps. `setupStop` names the first one that
fails, as a function of what the firmware and the processor answer; `setup_spec`
says what the machine looks like in each case. Everything about bring-up is
derived from it.
-/

namespace MochiVM.Hv

open MochiVM.Panic

/-- The step `setup` stops at. `region` is the VMXON page, `vmcs` the VMCS page. -/
inductive SetupStop where
  /-- The first page allocation fails. -/
  | noVmxonPage
  /-- VMXON fails. -/
  | vmxonFails
  /-- The second page allocation fails. -/
  | noVmcsPage (region : Addr)
  | vmclearFails (region : Addr)
  | vmptrldFails (region : Addr)
  /-- One of the three allocations after VMPTRLD fails. -/
  | noStack (region vmcs : Addr)
  /-- A VMWRITE of `write_state` is rejected. -/
  | vmwriteRejected (region vmcs : Addr)
  /-- Every step succeeds. -/
  | done (region vmcs : Addr)

/-- Whether an allocation succeeds. -/
def allocOk (env : Env) (systemTable : BitVec 64) (n : Nat) (pages : BitVec 64) : Bool :=
  (allocAnswer env systemTable n pages).isOk

/-- Whether the three allocations of `setupGuest` succeed, from the `n`-th on. -/
def stacksOk (env : Env) (systemTable : BitVec 64) (n : Nat) : Bool :=
  allocOk env systemTable n 4 && allocOk env systemTable (n + 1) 1 &&
    allocOk env systemTable (n + 2) 1

/-- The first step of `setup` that fails, when it is entered in `s`. -/
def setupStop (env : Env) (s : Machine) : SetupStop :=
  match allocAnswer env s.st.systemTable s.allocs 1 with
  | .error _ => .noVmxonPage
  | .ok region =>
    if env.vmxonOk s.trace.length region then
      match allocAnswer env s.st.systemTable (s.allocs + 1) 1 with
      | .error _ => .noVmcsPage region
      | .ok vmcs =>
        if env.vmclearOk (s.trace.length + 1) vmcs then
          if env.vmptrldOk (s.trace.length + 2) vmcs then
            if stacksOk env s.st.systemTable (s.allocs + 2) then
              if accepted env (s.trace.length + 3) stateFields then .done region vmcs
              else .vmwriteRejected region vmcs
            else .noStack region vmcs
          else .vmptrldFails region
        else .vmclearFails region
    else .vmxonFails

/-- No VMXOFF was executed between `s` and `t`. -/
def NoVmxoffSince (s t : Machine) : Prop := NewEvents (fun ev => ev.insn ≠ .vmxoff) s t

/-- The machine right before `vmxoff_and_clear`: in VMX operation, with these
VMCSs active, and otherwise as `setup` was entered in `s`. -/
structure InVmx (s : Machine) (region : Addr) (active : List Addr) (u : Machine) : Prop where
  on : u.vmx.on = true
  active : u.vmx.active = active
  regs : u.regs = s.regs
  region : u.st.vmxonRegion = region
  flag : u.st.vmxActive = s.st.vmxActive
  trace : NoVmxoffSince s u

/-- The clean-up ran, and an error is returned. -/
def CleanedUp (s : Machine) (region : Addr) (active : List Addr) (r : Except String PUnit)
    (t : Machine) : Prop :=
  r.isOk = false ∧ ∃ u : Machine, t = u.offAndCleared ∧ InVmx s region active u

theorem InVmx.allocated {s u : Machine} {region : Addr} {active : List Addr}
    (h : InVmx s region active u) : InVmx s region active u.allocated :=
  ⟨h.on, h.active, h.regs, h.region, h.flag, h.trace⟩

theorem InVmx.setMem {s u : Machine} {region : Addr} {active : List Addr}
    (h : InVmx s region active u) (mem : Addr → BitVec 8) :
    InVmx s region active (u.setMem mem) :=
  ⟨h.on, h.active, h.regs, h.region, h.flag, h.trace⟩

theorem InVmx.cleanup {s u : Machine} {region : Addr} {active : List Addr}
    (h : InVmx s region active u) (e : String) (E : Abort → Machine → Prop) :
    Ends (do vmxoffAndClear; pure (.error e)) u (CleanedUp s region active) E := by
  rw [ends_bind, ends_vmxoffAndClear h.on, ends_pure]
  exact ⟨rfl, u, rfl, h⟩

/-- How `setup`, entered in `s`, returns when it stops at the given step. -/
def SetupPost (s : Machine) : SetupStop → Except String PUnit → Machine → Prop
  | .noVmxonPage, r, t | .vmxonFails, r, t =>
    r.isOk = false ∧ t.vmx = s.vmx ∧ t.regs = s.regs ∧ t.st = s.st ∧ NoVmxoffSince s t
  | .noVmcsPage region, r, t | .vmclearFails region, r, t | .vmptrldFails region, r, t =>
    CleanedUp s region [] r t
  | .noStack region vmcs, r, t => CleanedUp s region [vmcs] r t
  | .vmwriteRejected _ _, _, _ => False
  | .done _ vmcs, r, t =>
    r.isOk = true ∧ t.vmx.on = true ∧ t.vmx.current = some vmcs ∧ t.st.vmcsRegion = vmcs ∧
      t.st.vmxActive = true ∧ t.st.exitCount = s.st.exitCount

/-- How it panics: only for a rejected VMWRITE. -/
def SetupPanic (s : Machine) : SetupStop → Abort → Machine → Prop
  | .vmwriteRejected _ _, e, t =>
    (∃ msg, e = .panic msg) ∧ t.vmx.on = true ∧ t.st.vmxActive = s.st.vmxActive
  | _, _, _ => False

/-! ## The last part -/

section Guest

variable {env : Env} {s u : Machine} {region : Addr} {active : List Addr}

/-- A failing allocation of `setupGuest` runs the clean-up. -/
theorem setupGuest_noStack (h : InVmx s region active u)
    (hno : stacksOk env u.st.systemTable u.allocs = false) (E : Abort → Machine → Prop) :
    Ends (setupGuest env) u (CleanedUp s region active) E := by
  rw [setupGuest, ends_bind, ends_allocatePages]
  cases h₀ : allocAnswer env u.st.systemTable u.allocs 4 with
  | error e => exact h.allocated.cleanup e E
  | ok hostStack =>
  simp only
  rw [ends_bind, ends_allocatePage]
  simp only [Machine.allocated_st, Machine.allocated_allocs]
  -- the host stack is there
  cases h₁ : allocAnswer env u.st.systemTable (u.allocs + 1) 1 with
  | error e => exact h.allocated.allocated.cleanup e E
  | ok guestCode =>
  simp only
  rw [ends_bind, ends_allocatePage]
  simp only [Machine.allocated_st, Machine.allocated_allocs]
  cases h₂ : allocAnswer env u.st.systemTable (u.allocs + 1 + 1) 1 with
  | error e => exact h.allocated.allocated.allocated.cleanup e E
  | ok guestStack =>
    -- no allocation fails, against `hno`
    rw [stacksOk, allocOk, allocOk, allocOk, h₀, h₁, h₂] at hno
    cases hno

/-- With the stacks allocated, `setupGuest` goes through exactly when the
processor accepts every VMWRITE. -/
theorem setupGuest_stacks (hon : u.vmx.on = true)
    (hstacks : stacksOk env u.st.systemTable u.allocs = true)
    {Q : Except String PUnit → Machine → Prop} {E : Abort → Machine → Prop}
    (hdone : accepted env u.trace.length stateFields = true → ∀ t : Machine,
      t.vmx.on = true → t.vmx.current = u.vmx.current →
      t.st = { u.st with vmxActive := true } → Q (.ok ⟨⟩) t)
    (hrejected : accepted env u.trace.length stateFields = false → ∀ msg (t : Machine),
      t.vmx.on = true → t.st = u.st → E (.panic msg) t) :
    Ends (setupGuest env) u Q E := by
  simp only [stacksOk, allocOk, Bool.and_eq_true] at hstacks
  obtain ⟨⟨hs₀, hs₁⟩, hs₂⟩ := hstacks
  rw [setupGuest, ends_bind, ends_allocatePages]
  cases h₀ : allocAnswer env u.st.systemTable u.allocs 4 with
  | error e => rw [h₀] at hs₀; cases hs₀
  | ok hostStack =>
  simp only
  rw [ends_bind, ends_allocatePage]
  simp only [Machine.allocated_st, Machine.allocated_allocs]
  cases h₁ : allocAnswer env u.st.systemTable (u.allocs + 1) 1 with
  | error e => rw [h₁] at hs₁; cases hs₁
  | ok guestCode =>
  simp only
  rw [ends_bind, ends_allocatePage]
  simp only [Machine.allocated_st, Machine.allocated_allocs]
  cases h₂ : allocAnswer env u.st.systemTable (u.allocs + 1 + 1) 1 with
  | error e => rw [h₂] at hs₂; cases hs₂
  | ok guestStack =>
  simp only
  -- the guest code is copied to its page, and no more is allocated
  rw [ends_bind, ends_copyNonoverlapping, ends_bind]
  generalize hv : u.allocated.allocated.allocated.setMem _ = v
  have hvon : v.vmx.on = true := by rw [← hv]; exact hon
  have hvtrace : v.trace = u.trace := by rw [← hv]; rfl
  have hvst : v.st = u.st := by rw [← hv]; rfl
  have hvcur : v.vmx.current = u.vmx.current := by rw [← hv]; rfl
  cases hacc : accepted env u.trace.length stateFields with
  | true =>
    rw [ends_of_returns (writeState_returns hvon (by rw [hvtrace]; exact hacc) _ _ _)]
    -- only what all the writes leave alone matters from here on
    have hwon := (v.wroteAll_on (writesOf env v hostStack guestCode guestStack)).trans hvon
    have hwcur := (v.wroteAll_current (writesOf env v hostStack guestCode guestStack)).trans hvcur
    have hwst := (v.wroteAll_st (writesOf env v hostStack guestCode guestStack)).trans hvst
    generalize v.wroteAll (writesOf env v hostStack guestCode guestStack) = w at hwon hwcur hwst ⊢
    simp only
    rw [ends_bind, ends_setStatics, ends_bind, ends_serialPrintln, ends_pure]
    refine hdone hacc _ ?_ ?_ ?_
    · rw [Machine.printed_vmx, Machine.setSt_vmx]
      exact hwon
    · rw [Machine.printed_vmx, Machine.setSt_vmx]
      exact hwcur
    · rw [Machine.printed_st, Machine.setSt_st, hwst]
  | false =>
    obtain ⟨msg, t, ht, hton, htst⟩ :=
      writeState_aborts hvon (by rw [hvtrace]; exact hacc) hostStack guestCode guestStack
    rw [ends_of_aborts ht]
    exact hrejected hacc msg t hton (htst.trans hvst)

end Guest

/-! ## The whole -/

theorem InVmx.record {s u : Machine} {region : Addr} {active : List Addr}
    (h : InVmx s region active u) {insn : VmxInsn} (hne : insn ≠ .vmxoff) :
    InVmx s region active (u.record insn) :=
  ⟨h.on, h.active, h.regs, h.region, h.flag, h.trace.record hne⟩

/-- **What `setup` does**, for each step it can stop at. -/
theorem setup_spec (env : Env) (s : Machine) (hactive : s.vmx.active = []) :
    Ends (setup env) s (SetupPost s (setupStop env s)) (SetupPanic s (setupStop env s)) := by
  rw [setup, ends_bind, ends_allocatePage]
  cases h₀ : allocAnswer env s.st.systemTable s.allocs 1 with
  | error e =>
    rw [show setupStop env s = .noVmxonPage by rw [setupStop, h₀]]
    exact ⟨rfl, rfl, rfl, rfl, NewEvents.refl _ s⟩
  | ok region =>
  simp only
  rw [ends_bind, vmxon, ends_bind, ends_rdmsr, ends_bind, ends_writeVolatile32, ends_vmxonInsn]
  simp only [Machine.setMem_trace, Machine.allocated_trace]
  by_cases h₁ : env.vmxonOk s.trace.length region
  case neg =>
    rw [if_neg h₁, show setupStop env s = .vmxonFails by simp only [setupStop, h₀, if_neg h₁]]
    exact ⟨rfl, rfl, rfl, rfl, (NewEvents.refl _ s).record (by simp)⟩
  case pos =>
  rw [if_pos h₁, ends_bind, ends_setStatics]
  generalize hu : Machine.setSt _ _ = u
  have hu₁ : InVmx s region [] u := by
    rw [← hu]
    exact ⟨rfl, hactive, rfl, rfl, rfl, (NewEvents.refl _ s).record (by simp)⟩
  have hst : u.st = { s.st with vmxonRegion := region } := by rw [← hu]; rfl
  have hallocs : u.allocs = s.allocs + 1 := by rw [← hu]; rfl
  have hlen : u.trace.length = s.trace.length + 1 := by rw [← hu]; exact List.length_append
  clear hu
  -- the VMCS region
  rw [setupVmcs, ends_bind, ends_allocatePage, hst, hallocs]
  cases h₂ : allocAnswer env s.st.systemTable (s.allocs + 1) 1 with
  | error e =>
    rw [show setupStop env s = .noVmcsPage region by simp only [setupStop, h₀, if_pos h₁, h₂]]
    exact hu₁.allocated.cleanup e _
  | ok vmcs =>
  simp only
  rw [ends_bind, ends_rdmsr, ends_bind, ends_writeVolatile32, ends_bind, vmclear]
  have hu₂ := hu₁.allocated.setMem (storeLE u.allocated.mem vmcs 4
    (((u.allocated.regs.msr 0x480#32).setWidth 32).setWidth 64))
  rw [ends_vmxInsn hu₂.on]
  simp only [Machine.setMem_trace, Machine.allocated_trace, hlen]
  by_cases h₃ : env.vmclearOk (s.trace.length + 1) vmcs
  case neg =>
    rw [if_neg h₃, show setupStop env s = .vmclearFails region by
      simp only [setupStop, h₀, if_pos h₁, h₂, if_neg h₃]]
    exact (hu₂.record (by simp)).cleanup _ _
  case pos =>
  rw [if_pos h₃, ends_bind, vmptrld]
  generalize hv : Machine.setVmx _ _ = v
  have hv₁ : InVmx s region [] v := by
    have hr := @InVmx.record _ _ _ _ hu₂ (.vmclear vmcs) (by simp)
    rw [← hv]
    exact ⟨hr.on, by simp [Vmx.clear, hu₁.active], hr.regs, hr.region, hr.flag, hr.trace⟩
  have hst : v.st = { s.st with vmxonRegion := region } := by rw [← hv]; exact hst
  have hallocs : v.allocs = s.allocs + 2 := by rw [← hv]; exact congrArg (· + 1) hallocs
  have hlen : v.trace.length = s.trace.length + 2 := by
    rw [← hv]
    exact List.length_append.trans (congrArg (· + 1) hlen)
  clear hv
  -- the VMCS is made current
  rw [ends_vmxInsn hv₁.on, hlen]
  by_cases h₄ : env.vmptrldOk (s.trace.length + 2) vmcs
  case neg =>
    rw [if_neg h₄, show setupStop env s = .vmptrldFails region by
      simp only [setupStop, h₀, if_pos h₁, h₂, if_pos h₃, if_neg h₄]]
    exact (hv₁.record (by simp)).cleanup _ _
  case pos =>
  rw [if_pos h₄, ends_bind, ends_setStatics]
  generalize hw : Machine.setSt _ _ = w
  have hw₁ : InVmx s region [vmcs] w := by
    have hr := @InVmx.record _ _ _ _ hv₁ (.vmptrld vmcs) (by simp)
    rw [← hw]
    exact ⟨hr.on, congrArg (vmcs :: ·) hv₁.active, hr.regs, hr.region, hr.flag, hr.trace⟩
  have hcur : w.vmx.current = some vmcs := by rw [← hw]; rfl
  have hwst : w.st = { s.st with vmxonRegion := region, vmcsRegion := vmcs } := by
    rw [← hw]
    exact congrArg (fun st : Statics => { st with vmcsRegion := vmcs }) hst
  have hwallocs : w.allocs = s.allocs + 2 := by rw [← hw]; exact hallocs
  have hwlen : w.trace.length = s.trace.length + 3 := by
    rw [← hw]
    exact List.length_append.trans (congrArg (· + 1) hlen)
  clear hw
  -- the stacks, the guest and the fields
  have hsys : w.st.systemTable = s.st.systemTable := by rw [hwst]
  by_cases h₅ : stacksOk env s.st.systemTable (s.allocs + 2)
  case neg =>
    rw [show setupStop env s = .noStack region vmcs by
      simp only [setupStop, h₀, if_pos h₁, h₂, if_pos h₃, if_pos h₄, if_neg h₅]]
    exact setupGuest_noStack hw₁ (by rw [hsys, hwallocs]; simpa using h₅) _
  case pos =>
  refine setupGuest_stacks hw₁.on (by rw [hsys, hwallocs]; exact h₅) ?_ ?_
  · intro hacc t hton htcur htst
    rw [hwlen] at hacc
    rw [show setupStop env s = .done region vmcs by
      simp only [setupStop, h₀, if_pos h₁, h₂, if_pos h₃, if_pos h₄, if_pos h₅, if_pos hacc]]
    exact ⟨rfl, hton, htcur.trans hcur, by rw [htst, hwst], by rw [htst], by rw [htst, hwst]⟩
  · intro hacc msg t hton htst
    rw [hwlen] at hacc
    rw [show setupStop env s = .vmwriteRejected region vmcs by
      simp only [setupStop, h₀, if_pos h₁, h₂, if_pos h₃, if_pos h₄, if_pos h₅, hacc]
      rfl]
    exact ⟨⟨msg, rfl⟩, hton, by rw [htst, hwst]⟩

end MochiVM.Hv
