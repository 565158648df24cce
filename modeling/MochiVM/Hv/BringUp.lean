import MochiVM.Hv.Init

/-!
# Bring-up undoes itself on error, almost

`init` comes back to the firmware when VMX is missing, when `feature_control`
fails and when `setup` does. In the first two cases nothing has happened. In the
third, CR4.VMXE was set by `apply_fixed_bits`, and who clears it depends on how
far `setup` came: `init_undone_iff` gives the exact condition.
-/

namespace MochiVM.Hv

open MochiVM.Panic

/-- The machine as the firmware hands it over: outside VMX operation, CR4.VMXE
clear, the statics at their initial values and nothing executed yet. -/
structure Fresh (s : Machine) : Prop where
  outside : s.vmx.vmxonPtr = none
  noneActive : s.vmx.active = []
  vmxe : s.regs.cr4.getLsbD vmxeBit = false
  inactive : s.st.vmxActive = false
  region : s.st.vmxonRegion = 0
  exitCount : s.st.exitCount = 0
  allocs : s.allocs = 0
  trace : s.trace = []

/-- What bring-up must leave when it comes back. -/
structure Undone (t : Machine) : Prop where
  outside : t.vmx.on = false
  vmxe : t.regs.cr4.getLsbD vmxeBit = false
  inactive : t.st.vmxActive = false
  region : t.st.vmxonRegion = 0
  /-- No VMCS was active at a VMXOFF. -/
  cleared : ∀ ev ∈ t.trace, ev.insn = .vmxoff → ev.vmx.active = []

/-- The exact condition on the answers of the firmware and the processor under
which bring-up undoes itself: CR4.VMXE is only cleared again by a clean-up that
runs once `VMXON_REGION` is set, and no clean-up clears the VMCS. -/
def CleansUp (env : Env) (s : Machine) : Prop :=
  reachesSetup env s = true →
    match setupStop env s with
    | .noVmxonPage | .vmxonFails => (s.regs.msr ia32VmxCr4Fixed1).getLsbD vmxeBit = false
    | .noVmcsPage region | .vmclearFails region | .vmptrldFails region => region ≠ 0
    | .noStack _ _ => False
    | .vmwriteRejected _ _ | .done _ _ => True

theorem undone_printed {t : Machine} {line : String} : Undone (t.printed line) ↔ Undone t :=
  ⟨fun h => ⟨h.outside, h.vmxe, h.inactive, h.region, h.cleared⟩,
    fun h => ⟨h.outside, h.vmxe, h.inactive, h.region, h.cleared⟩⟩

/-- When the clean-up undoes everything. -/
theorem undone_offAndCleared {s u : Machine} {region : Addr} {active : List Addr}
    (hinactive : s.st.vmxActive = false) (htrace : s.trace = [])
    (hu : InVmx s region active u) :
    Undone u.offAndCleared ↔ region ≠ 0 ∧ active = [] := by
  have hregion := hu.region
  rw [Machine.offAndCleared]
  by_cases hz : u.st.vmxonRegion = 0
  · -- the guard skips VMXOFF
    rw [if_pos hz]
    constructor
    · intro h
      exact absurd (hu.on.symm.trans h.outside) (by simp)
    · rintro ⟨hne, -⟩
      exact absurd (hregion.symm.trans hz) hne
  · rw [if_neg hz]
    constructor
    · intro h
      refine ⟨fun h₀ => hz (hregion.trans h₀), ?_⟩
      have hlast : (⟨.vmxoff, u.regs, u.vmx⟩ : Event) ∈ u.trace ++ [⟨.vmxoff, u.regs, u.vmx⟩] :=
        List.mem_append_right _ (List.mem_singleton_self _)
      exact hu.active.symm.trans (h.cleared _ hlast rfl)
    · rintro ⟨-, hactive⟩
      refine ⟨rfl, getLsbD_and_not_cr4Vmxe _, hu.flag.trans hinactive, rfl, ?_⟩
      intro ev hev hoff
      obtain hev | hev := List.mem_append.mp hev
      · obtain ⟨new, hnew, hne⟩ := hu.trace
        rw [hnew, htrace] at hev
        exact absurd hoff (hne ev hev)
      · obtain rfl := List.mem_singleton.mp hev
        exact hu.active.trans hactive

/-- The registers `setup` is entered with have CR4.VMXE set if it is allowed. -/
theorem prepared_vmxe {s : Machine}
    (hfixed : (s.regs.msr ia32VmxCr4Fixed0).getLsbD vmxeBit = true) :
    s.prepared.regs.cr4.getLsbD vmxeBit = (s.regs.msr ia32VmxCr4Fixed1).getLsbD vmxeBit := by
  have hmsr : ∀ m, m ≠ ia32FeatureControl → s.regs.unlocked.msr m = s.regs.msr m := by
    intro m hm
    rw [Regs.unlocked]
    split
    · rfl
    · exact Regs.setMsr_other _ _ hm
  show (s.regs.unlocked.fixedBits).cr4.getLsbD vmxeBit = _
  rw [Regs.fixedBits, BitVec.getLsbD_and, BitVec.getLsbD_or, hmsr _ (by decide),
    hmsr _ (by decide), hfixed, Bool.or_true, Bool.true_and]

/-- **Bring-up undoes itself on error exactly when** `CleansUp`: `init` returns
only when `setup` is not reached or fails. -/
theorem init_undone_iff (env : Env) (s : Machine) (hs : Fresh s)
    (hfixed : (s.regs.msr ia32VmxCr4Fixed0).getLsbD vmxeBit = true) :
    (∀ t, Returns (init env) s ⟨⟩ t → Undone t) ↔ CleansUp env s := by
  have hends : (∀ t, Returns (init env) s ⟨⟩ t → Undone t) ↔
      Ends (init env) s (fun _ t => Undone t) fun _ _ => True :=
    ⟨fun h => ends_iff_returns.mpr fun _ t ht => h t ht,
      fun h t ht => ends_iff_returns.mp h ⟨⟩ t ht⟩
  rw [hends, CleansUp]
  cases hreach : reachesSetup env s with
  | false =>
    obtain ⟨line, hline⟩ := ends_init_early hreach
    have hquiet : Undone s :=
      ⟨by rw [Vmx.on, hs.outside]; rfl, hs.vmxe, hs.inactive, hs.region,
        fun ev hev => by rw [hs.trace] at hev; cases hev⟩
    rw [hline, undone_printed, undone_printed]
    exact ⟨fun _ h => absurd h Bool.false_ne_true, fun _ => hquiet⟩
  | true =>
  rw [ends_init_setup hreach, show setupStop env s = setupStop env s.prepared from rfl]
  have hspec := setup_spec env s.prepared hs.noneActive
  cases hstop : setupStop env s.prepared <;> rw [hstop] at hspec
  -- VMX was never entered: only CR4.VMXE can be left over
  case noVmxonPage | vmxonFails =>
    obtain ⟨r, t, hr, hok, hvmx, hregs, hst, htrace⟩ | ⟨_, _, _, h⟩ := hspec.cases
    case inr => cases h
    rw [ends_of_returns hr]
    cases r with
    | ok _ => cases hok
    | error e =>
      simp only [true_implies]
      rw [undone_printed, ← prepared_vmxe hfixed, ← hregs]
      refine ⟨fun h => h.vmxe, fun h => ⟨?_, h, ?_, ?_, fun ev hev hoff => ?_⟩⟩
      · rw [hvmx, Vmx.on, show s.prepared.vmx.vmxonPtr = none from hs.outside]
        rfl
      · rw [hst]
        exact hs.inactive
      · rw [hst]
        exact hs.region
      · obtain ⟨new, hnew, hne⟩ := htrace
        rw [hnew, show s.prepared.trace = [] from hs.trace] at hev
        exact absurd hoff (hne ev hev)
  -- VMX was entered, and the clean-up ran: no VMCS was active
  case noVmcsPage region | vmclearFails region | vmptrldFails region =>
    obtain ⟨r, t, hr, hok, u, rfl, hu⟩ | ⟨_, _, _, h⟩ := hspec.cases
    case inr => cases h
    rw [ends_of_returns hr]
    cases r with
    | ok _ => cases hok
    | error e =>
      simp only [true_implies]
      rw [undone_printed, undone_offAndCleared (s := s.prepared) hs.inactive hs.trace hu]
      exact ⟨fun h => h.1, fun h => ⟨h, rfl⟩⟩
  -- here the VMCS was, and the clean-up clears none
  case noStack region vmcs =>
    obtain ⟨r, t, hr, hok, u, rfl, hu⟩ | ⟨_, _, _, h⟩ := hspec.cases
    case inr => cases h
    rw [ends_of_returns hr]
    cases r with
    | ok _ => cases hok
    | error e =>
      simp only [true_implies]
      rw [undone_printed, undone_offAndCleared (s := s.prepared) hs.inactive hs.trace hu]
      exact ⟨fun h => absurd h.2 (by simp), False.elim⟩
  case vmwriteRejected =>
    obtain ⟨_, _, _, h⟩ | ⟨e, t, ha, _⟩ := hspec.cases
    case inl => cases h
    rw [ends_of_aborts ha]
    exact ⟨fun _ _ => trivial, fun _ => trivial⟩
  case done region vmcs =>
    obtain ⟨r, t, hr, hok, hon, -⟩ | ⟨_, _, _, h⟩ := hspec.cases
    case inr => cases h
    rw [ends_of_returns hr]
    cases r with
    | error e => cases hok
    | ok _ =>
      -- the guest is entered, and `init` does not come back
      simp only
      rw [ends_enterGuest (s := t.printed _) hon]
      exact ⟨fun _ _ => trivial, fun _ => trivial⟩

/-! ## Concrete firmware -/

/-- A firmware and a processor that grant everything. -/
def grantingEnv : Env where
  cpuid := fun _ _ => (0, 0x20, 0)
  allocate := fun n _ => (0, 0x100000 + 0x4000 * BitVec.ofNat 64 n)
  vmxonOk := fun _ _ => true
  vmclearOk := fun _ _ => true
  vmptrldOk := fun _ _ => true
  vmwriteOk := fun _ _ => true
  vmlaunchOk := true
  vmresumeOk := fun _ => true
  hostEntry := 0x400000

/-- A machine as the firmware hands it over, with VMX enabled and locked, and
CR4.VMXE the one bit that VMX operation requires. -/
def bootMachine : Machine where
  regs := { (default : Regs) with
    msr := fun m =>
      if m = ia32FeatureControl then 7
      else if m = ia32VmxCr4Fixed0 then cr4Vmxe
      else if m = ia32VmxCr4Fixed1 then 0xFFFFFFFF
      else 0 }
  vmx := ⟨none, none, [], fun _ _ => 0⟩
  mem := fun _ => 0
  st := ⟨0x7F000000, 0, 0, false, 0⟩
  allocs := 0
  trace := []
  serial := []

theorem bootMachine_fresh : Fresh bootMachine :=
  ⟨rfl, rfl, by decide, rfl, rfl, rfl, rfl, rfl⟩

/-- The condition at a firmware that has no second page to give. -/
theorem init_undone_noVmcsPage :
    (∀ t, Returns (init { grantingEnv with
        allocate := fun n _ => if n = 1 then (1, 0) else (0, 0x100000) }) bootMachine ⟨⟩ t →
      Undone t) ↔
      CleansUp { grantingEnv with
        allocate := fun n _ => if n = 1 then (1, 0) else (0, 0x100000) } bootMachine :=
  init_undone_iff _ bootMachine bootMachine_fresh (by decide)

/-- A firmware without a page to give: `init` comes back with CR4.VMXE set. -/
theorem init_leaves_vmxe :
    ¬ ∀ env s, Fresh s → (s.regs.msr ia32VmxCr4Fixed0).getLsbD vmxeBit = true →
      ∀ t, Returns (init env) s ⟨⟩ t → Undone t := by
  intro h
  have hrun : Returns (init { grantingEnv with allocate := fun _ _ => (1, 0) }) bootMachine ⟨⟩
      (finalState (init { grantingEnv with allocate := fun _ _ => (1, 0) } bootMachine)) := rfl
  have hundone := h _ bootMachine bootMachine_fresh (by decide) _ hrun
  exact absurd hundone.vmxe (by decide)

end MochiVM.Hv
