import MochiVM.Hv.BringUp

/-!
# IA32_FEATURE_CONTROL and VMXON

`feature_control` tests and sets bit 1 of the MSR, which enables VMX inside SMX;
what VMXON needs outside SMX is bit 2. `featureControl_sound_iff` says for which
values of the MSR that makes no difference.

That VMXON finds the MSR as `feature_control` left it is an invariant of the
rest of `init`: no other code writes an MSR (`Stable`).
-/

namespace MochiVM.Hv

open MochiVM.Panic

/-- The lock bit. -/
def locked (v : BitVec 64) : Bool := v.getLsbD 0

/-- VMX enabled outside SMX. -/
def vmxOutsideSmx (v : BitVec 64) : Bool := v.getLsbD 2

/-- What is asked of `feature_control`, and of `init` around it. -/
structure FeatureControlSound (env : Env) (s : Machine) : Prop where
  /-- It fails exactly on a MSR locked with VMX off. -/
  error_iff : (∃ e t, Returns featureControl s (.error e) t) ↔
    locked (s.regs.msr ia32FeatureControl) = true ∧
      vmxOutsideSmx (s.regs.msr ia32FeatureControl) = false
  /-- When it succeeds the MSR is locked with VMX on, and has lost no bit. -/
  ok_enables : ∀ t, Returns featureControl s (.ok ⟨⟩) t →
    locked (t.regs.msr ia32FeatureControl) = true ∧
      vmxOutsideSmx (t.regs.msr ia32FeatureControl) = true ∧
      ∀ i, (s.regs.msr ia32FeatureControl).getLsbD i = true →
        (t.regs.msr ia32FeatureControl).getLsbD i = true
  /-- No path of `init` executes VMXON with the MSR unlocked or VMX off. -/
  vmxon_enabled : NewEvents (fun ev => ∀ r, ev.insn = .vmxon r →
    locked (ev.regs.msr ia32FeatureControl) = true ∧
      vmxOutsideSmx (ev.regs.msr ia32FeatureControl) = true) s (finalState (init env s))
  /-- An unlocked MSR is not left locked with VMX off. -/
  never_locks_off : locked (s.regs.msr ia32FeatureControl) = false →
    locked ((finalState (init env s)).regs.msr ia32FeatureControl) = true →
    vmxOutsideSmx ((finalState (init env s)).regs.msr ia32FeatureControl) = true

/-! ## What the rest of `init` keeps -/

/-- An invariant of the MSRs and of the trace: every other change of the machine
keeps it, and so does every VMX instruction. -/
structure Stable (I : Machine → Prop) : Prop where
  mem : ∀ s mem, I s → I (s.setMem mem)
  st : ∀ s st, I s → I (s.setSt st)
  vmx : ∀ s vmx, I s → I (s.setVmx vmx)
  allocated : ∀ s, I s → I s.allocated
  printed : ∀ s line, I s → I (s.printed line)
  regs : ∀ s r, r.msr = s.regs.msr → I s → I (s.setRegs r)
  record : ∀ s insn, I s → I (s.record insn)

namespace Stable

variable {I : Machine → Prop} {env : Env} (h : Stable I)

include h

theorem vmxInsn (insn : VmxInsn) (ok : Nat → Bool) (effect : Vmx → Vmx) :
    Keeps I (vmxInsn insn ok effect) :=
  vmxInsn_keeps (fun s hs => h.record s insn hs) fun s hs _ => h.vmx s _ hs

theorem vmxon (region : Addr) : Keeps I (vmxon env region) := by
  refine Keeps.bind (fun s hs => hs) fun revision => ?_
  refine Keeps.bind (fun s hs => h.mem s _ hs) fun _ s hs => ?_
  rw [vmxonInsn]
  split
  · exact h.vmx _ _ (h.record s _ hs)
  · exact h.record s _ hs

theorem vmxoffAndClear : Keeps I vmxoffAndClear := by
  refine Keeps.bind (fun s hs => hs) fun st => ?_
  split
  · refine (h.vmxInsn _ _ _).bind fun _ => Keeps.bind (fun s hs => hs) fun cr4 => ?_
    refine Keeps.bind (fun s hs => h.regs s _ rfl hs) fun _ => ?_
    exact fun s hs => h.st s _ hs
  · exact Keeps.pure I _

theorem writeAll : ∀ ws : List StateWrite, Keeps I (writeAll env ws)
  | [] => Keeps.pure I _
  | w :: ws => (expect_keeps (h.vmxInsn _ _ _) w.msg).bind fun _ => writeAll ws

theorem writeState (hostStack guestCode guestStack : BitVec 64) :
    Keeps I (writeState env hostStack guestCode guestStack) := by
  intro s hs
  rw [writeState_eq]
  exact ((h.writeAll _).bind fun _ => Keeps.pure I _) s hs

theorem allocatePages (pages : BitVec 64) : Keeps I (allocatePages env pages) :=
  fun s hs => h.allocated s hs

/-- A clean-up that ends in an error. -/
theorem cleanup (e : String) :
    Keeps I (do Hv.vmxoffAndClear; pure (.error e : Except String PUnit)) :=
  h.vmxoffAndClear.bind fun _ => Keeps.pure I _

theorem setupGuest : Keeps I (setupGuest env) := by
  refine (h.allocatePages 4).bind fun r => ?_
  rcases r with e | hostStack
  · exact h.cleanup e
  refine (h.allocatePages 1).bind fun r => ?_
  rcases r with e | guestCode
  · exact h.cleanup e
  refine (h.allocatePages 1).bind fun r => ?_
  rcases r with e | guestStack
  · exact h.cleanup e
  refine Keeps.bind (fun s hs => h.mem s _ hs) fun _ => ?_
  refine (h.writeState hostStack guestCode guestStack).bind fun r => ?_
  rcases r with e | _
  · exact Keeps.pure I _
  refine Keeps.bind (fun s hs => h.st s _ hs) fun _ => ?_
  exact Keeps.bind (fun s hs => h.printed s _ hs) fun _ => Keeps.pure I _

theorem setupVmcs : Keeps I (setupVmcs env) := by
  refine (h.allocatePages 1).bind fun r => ?_
  rcases r with e | vmcs
  · exact h.cleanup e
  refine Keeps.bind (fun s hs => hs) fun revision => ?_
  refine Keeps.bind (fun s hs => h.mem s _ hs) fun _ => ?_
  refine (h.vmxInsn _ _ _).bind fun r => ?_
  rcases r with _ | _
  · exact h.cleanup _
  refine (h.vmxInsn _ _ _).bind fun r => ?_
  rcases r with _ | _
  · exact h.cleanup _
  exact Keeps.bind (fun s hs => h.st s _ hs) fun _ => h.setupGuest

theorem setup : Keeps I (setup env) := by
  refine (h.allocatePages 1).bind fun r => ?_
  rcases r with e | region
  · exact Keeps.pure I _
  refine (h.vmxon region).bind fun r => ?_
  rcases r with e | _
  · exact Keeps.pure I _
  exact Keeps.bind (fun s hs => h.st s _ hs) fun _ => h.setupVmcs

theorem enterGuest : Keeps I (enterGuest env) := by
  intro s hs
  rw [Hv.enterGuest]
  split
  · exact h.record s _ hs
  · exact hs

/-- The run rule for `init`: the invariant is needed where `setup` is entered. -/
theorem init {s : Machine} (hreach : reachesSetup env s = true) (hprepared : I s.prepared) :
    I (finalState (Hv.init env s)) := by
  refine ends_iff_finalState.mp ((ends_init_setup hreach).mpr ?_)
  refine (keeps_iff_ends.mp h.setup s.prepared hprepared).mono ?_ fun _ _ ht => ht
  rintro (e | _) t ht
  · exact h.printed _ _ ht
  · exact keeps_iff_ends.mp h.enterGuest _ (h.printed _ _ ht)

end Stable

/-! ## The results of `feature_control` -/

section Results

variable {s : Machine}

theorem featureControl_ok (h : featureOk (s.regs.msr ia32FeatureControl) = true) :
    Returns featureControl s (.ok ⟨⟩) (s.setRegs s.regs.unlocked) := by
  have hends := ends_featureControl (s := s)
    (Q := fun r t => r = .ok ⟨⟩ ∧ t = s.setRegs s.regs.unlocked) (E := fun _ _ => False)
  rw [h, if_pos rfl] at hends
  obtain ⟨r, t, hr, rfl, rfl⟩ | ⟨_, _, _, hfalse⟩ := (hends.mpr ⟨rfl, rfl⟩).cases
  · exact hr
  · exact hfalse.elim

theorem featureControl_error (h : featureOk (s.regs.msr ia32FeatureControl) = false) :
    Returns featureControl s (.error "vmx locked and disabled by firmware") s := by
  have hends := ends_featureControl (s := s)
    (Q := fun r t => r = .error "vmx locked and disabled by firmware" ∧ t = s)
    (E := fun _ _ => False)
  rw [h, if_neg Bool.false_ne_true] at hends
  obtain ⟨r, t, hr, rfl, rfl⟩ | ⟨_, _, _, hfalse⟩ := (hends.mpr ⟨rfl, rfl⟩).cases
  · exact hr
  · exact hfalse.elim

theorem unlocked_msr_locked (h : locked (s.regs.msr ia32FeatureControl) = true) :
    s.regs.unlocked = s.regs := if_pos h

theorem unlocked_msr (h : locked (s.regs.msr ia32FeatureControl) = false) :
    s.regs.unlocked.msr ia32FeatureControl = s.regs.msr ia32FeatureControl ||| 3 := by
  have hbit : ¬ (s.regs.msr ia32FeatureControl).getLsbD 0 = true :=
    fun hl => Bool.false_ne_true (h.symm.trans hl)
  rw [Regs.unlocked, if_neg hbit, Regs.setMsr_self]

theorem or_three (v : BitVec 64) :
    locked (v ||| 3) = true ∧ vmxOutsideSmx (v ||| 3) = vmxOutsideSmx v := by
  refine ⟨?_, ?_⟩
  · rw [locked, BitVec.getLsbD_or]
    exact Bool.or_true _
  · rw [vmxOutsideSmx, BitVec.getLsbD_or]
    exact Bool.or_false _

end Results

/-- The values of IA32_FEATURE_CONTROL for which it makes no difference that
bit 1 is tested and set in place of bit 2. -/
def FeatureCond (v : BitVec 64) : Prop :=
  if locked v then v.getLsbD 1 = vmxOutsideSmx v else vmxOutsideSmx v = true

/-- With the condition, success leaves the MSR locked with VMX on. -/
theorem featureCond_enables {s : Machine} (hcond : FeatureCond (s.regs.msr ia32FeatureControl))
    (hok : featureOk (s.regs.msr ia32FeatureControl) = true) :
    locked (s.regs.unlocked.msr ia32FeatureControl) = true ∧
      vmxOutsideSmx (s.regs.unlocked.msr ia32FeatureControl) = true := by
  cases hlock : locked (s.regs.msr ia32FeatureControl) with
  | true =>
    rw [FeatureCond, if_pos hlock] at hcond
    rw [featureOk, show (s.regs.msr ia32FeatureControl).getLsbD 0 = true from hlock, Bool.not_true,
      Bool.false_or, hcond] at hok
    rw [unlocked_msr_locked hlock]
    exact ⟨hlock, hok⟩
  | false =>
    rw [FeatureCond, if_neg (by rw [hlock]; exact Bool.false_ne_true)] at hcond
    rw [unlocked_msr hlock, (or_three _).2]
    exact ⟨(or_three _).1, hcond⟩

/-- After `feature_control` the MSR stays, so every VMXON finds it enabled. -/
theorem stable_msr {v : BitVec 64} {s : Machine} (hv : locked v = true ∧ vmxOutsideSmx v = true) :
    Stable fun t => t.regs.msr ia32FeatureControl = v ∧
      NewEvents (fun ev => ∀ r, ev.insn = .vmxon r →
        locked (ev.regs.msr ia32FeatureControl) = true ∧
          vmxOutsideSmx (ev.regs.msr ia32FeatureControl) = true) s t where
  mem _ _ h := h
  st _ _ h := h
  vmx _ _ h := h
  allocated _ h := h
  printed _ _ h := h
  regs _ r hr h := ⟨(congrFun hr _).trans h.1, h.2⟩
  record _ _ h := ⟨h.1, h.2.record fun _ _ => by rw [h.1]; exact hv⟩

/-- **`feature_control` is sound exactly when** the two bits it confuses agree. -/
theorem featureControl_sound_iff (env : Env) (s : Machine) :
    FeatureControlSound env s ↔ FeatureCond (s.regs.msr ia32FeatureControl) := by
  constructor
  · intro h
    cases hlock : locked (s.regs.msr ia32FeatureControl) with
    | true =>
      -- success and failure are told apart by bit 1, and must be by bit 2
      have herr := h.error_iff
      rw [FeatureCond, if_pos hlock]
      have hbit : featureOk (s.regs.msr ia32FeatureControl) =
          (s.regs.msr ia32FeatureControl).getLsbD 1 := by
        rw [featureOk, show (s.regs.msr ia32FeatureControl).getLsbD 0 = true from hlock,
          Bool.not_true, Bool.false_or]
      cases h₁ : (s.regs.msr ia32FeatureControl).getLsbD 1 with
      | false => exact (herr.mp ⟨_, _, featureControl_error (hbit.trans h₁)⟩).2.symm
      | true =>
        cases h₂ : vmxOutsideSmx (s.regs.msr ia32FeatureControl) with
        | true => rfl
        | false =>
          obtain ⟨e, t, ht⟩ := herr.mpr ⟨hlock, h₂⟩
          cases ((featureControl_ok (hbit.trans h₁)).unique ht).1
    | false =>
      -- the write is made, and must leave bit 2 set
      rw [FeatureCond, if_neg (by rw [hlock]; exact Bool.false_ne_true)]
      have hok : featureOk (s.regs.msr ia32FeatureControl) = true := by
        rw [featureOk, show (s.regs.msr ia32FeatureControl).getLsbD 0 = false from hlock]
        rfl
      have henabled := (h.ok_enables _ (featureControl_ok hok)).2.1
      rw [Machine.setRegs_regs, unlocked_msr hlock, (or_three _).2] at henabled
      exact henabled
  · intro hcond
    refine ⟨?_, ?_, ?_, ?_⟩
    · constructor
      · rintro ⟨e, t, ht⟩
        cases hok : featureOk (s.regs.msr ia32FeatureControl) with
        | true => cases ((featureControl_ok hok).unique ht).1
        | false =>
          obtain ⟨h₀, h₁⟩ := Bool.or_eq_false_iff.mp hok
          have hlock : locked (s.regs.msr ia32FeatureControl) = true := by
            rwa [Bool.not_eq_false'] at h₀
          rw [FeatureCond, if_pos hlock] at hcond
          exact ⟨hlock, hcond.symm.trans h₁⟩
      · rintro ⟨hlock, hoff⟩
        rw [FeatureCond, if_pos hlock] at hcond
        refine ⟨_, _, featureControl_error ?_⟩
        rw [featureOk, show (s.regs.msr ia32FeatureControl).getLsbD 0 = true from hlock, hcond,
          hoff]
        rfl
    · intro t ht
      cases hok : featureOk (s.regs.msr ia32FeatureControl) with
      | false => cases ((featureControl_error hok).unique ht).1
      | true =>
        obtain ⟨-, rfl⟩ := (featureControl_ok hok).unique ht
        obtain ⟨hlock, hon⟩ := featureCond_enables hcond hok
        refine ⟨hlock, hon, fun i hi => ?_⟩
        rw [Machine.setRegs_regs]
        cases hl : locked (s.regs.msr ia32FeatureControl) with
        | true => rw [unlocked_msr_locked hl, hi]
        | false => rw [unlocked_msr hl, BitVec.getLsbD_or, hi, Bool.true_or]
    · cases hreach : reachesSetup env s with
      | false =>
        obtain ⟨line, hline⟩ := ends_init_early hreach
        exact ends_iff_finalState.mp ((hline _ _).mpr ⟨[], (List.append_nil _).symm, by simp⟩)
      | true =>
        have hok := (Bool.and_eq_true_iff.mp hreach).2
        exact ((stable_msr (featureCond_enables hcond hok)).init hreach ⟨rfl, .refl _ s⟩).2
    · intro hlock hlocked
      cases hreach : reachesSetup env s with
      | false =>
        obtain ⟨line, hline⟩ := ends_init_early hreach
        have hsame : (finalState (init env s)).regs = s.regs :=
          ends_iff_finalState.mp
            ((hline (fun _ t => t.regs = s.regs) fun _ t => t.regs = s.regs).mpr rfl)
        rw [hsame] at hlocked
        exact absurd (hlock.symm.trans hlocked) Bool.false_ne_true
      | true =>
        have henabled := featureCond_enables hcond (Bool.and_eq_true_iff.mp hreach).2
        have hsame := ((stable_msr henabled).init (s := s) hreach ⟨rfl, .refl _ s⟩).1
        rw [hsame]
        exact henabled.2

/-- A firmware that locked the MSR with VMX on outside SMX, value 5: the CPU is
taken for a disabled one. -/
theorem featureControl_rejects_enabled : ¬ ∀ env s, FeatureControlSound env s := by
  intro h
  have hrun : Returns featureControl
      (bootMachine.setRegs (bootMachine.regs.setMsr ia32FeatureControl 5))
      (.error "vmx locked and disabled by firmware")
      (bootMachine.setRegs (bootMachine.regs.setMsr ia32FeatureControl 5)) := rfl
  have hoff := ((h grantingEnv _).error_iff.mp ⟨_, _, hrun⟩).2
  exact absurd hoff (by decide)

end MochiVM.Hv
