import MochiVM.Hv.ExitLoop

/-!
# Panics and the processor's mode

The panic handler calls `shutdown`, which does nothing unless `VMX_ACTIVE` is
set, and `setup` sets it last. `panic_safe_iff` says when that is soon enough:
there is one kind of point at which a panic is raised, a VMWRITE of
`write_state` that the processor rejects, and there the flag is still clear.
-/

namespace MochiVM.Hv

open MochiVM.Panic MochiVM.Runs

/-- The points of a run at which a panic is raised. -/
inductive PanicPoint (env : Env) (s : Machine) : String → Machine → Prop
  /-- In `init`, with all it calls. -/
  | init {msg : String} {t : Machine} :
      Aborts (init env) s (.panic msg) t → PanicPoint env s msg t
  /-- In `exit_handler`, after any exits of the guest. -/
  | exit {msg : String} {s₀ t : Machine} {es : List Exit} {u : LoopState} (e : Exit) :
      Aborts (init env) s .launched s₀ → run (exitStep env) (.start s₀) es = some u →
      u.mode = .guest →
      Aborts (exitHandler env) ((e.entry u.machine).atCall env e.scratch) (.panic msg) t →
      PanicPoint env s msg t

/-- A machine that a panic may be raised in: `VMX_ACTIVE` tracks the processor's
mode, so that `shutdown` leaves VMX operation. -/
structure PanicSafe (env : Env) (t : Machine) : Prop where
  flag : t.vmx.on = true → t.st.vmxActive = true
  shutdown : Ends (shutdown env) t
    (fun _ u => u.vmx.on = false ∧ u.regs.cr4.getLsbD vmxeBit = false) fun _ _ => False

/-- How `init` ends other than by return, `setup` stopping at the given step. -/
def InitAborts : SetupStop → Abort → Machine → Prop
  | .vmwriteRejected _ _, e, t => (∃ msg, e = .panic msg) ∧ t.vmx.on = true ∧ t.st.vmxActive = false
  | .done _ vmcs, e, t => (e = .launched ∨ e = .halted) ∧ Launched t vmcs
  | _, _, _ => False

theorem Launched.launching {t : Machine} {region : Addr} (h : Launched t region)
    (line : String) (insn : VmxInsn) : Launched ((t.printed line).record insn) region :=
  ⟨⟨h.live.on, h.live.current, h.live.region, h.live.flag⟩, h.exitCount⟩

/-- **How `init` aborts**, when it does. -/
theorem init_aborts {env : Env} {s : Machine} (hs : Fresh s) :
    Ends (init env) s (fun _ _ => reachesSetup env s = true → ∀ region vmcs,
        setupStop env s ≠ .vmwriteRejected region vmcs)
      (fun e t => reachesSetup env s = true ∧ InitAborts (setupStop env s) e t) := by
  cases hreach : reachesSetup env s with
  | false =>
    obtain ⟨line, hline⟩ := ends_init_early hreach
    rw [hline]
    exact fun h => absurd h Bool.false_ne_true
  | true =>
  rw [ends_init_setup hreach, show setupStop env s = setupStop env s.prepared from rfl]
  refine (setup_spec env s.prepared hs.noneActive).mono ?_ ?_
  · -- `setup` returns: only its success goes on, into the guest
    intro r t hpost
    cases hstop : setupStop env s.prepared <;> rw [hstop] at hpost
    case done region vmcs =>
      obtain ⟨hok, hon, hcurrent, hregion, hflag, hcount⟩ := hpost
      cases r with
      | error e => cases hok
      | ok _ =>
        have hlaunched : Launched t vmcs :=
          ⟨⟨hon, hcurrent, hregion, hflag⟩, hcount.trans hs.exitCount⟩
        simp only
        rw [ends_enterGuest (s := t.printed _) hon]
        refine ⟨trivial, ?_, hlaunched.launching _ _⟩
        split
        · exact .inl rfl
        · exact .inr rfl
    case vmwriteRejected => exact hpost.elim
    case noVmxonPage | vmxonFails =>
      cases r with
      | ok _ => cases hpost.1
      | error e => simp
    case noVmcsPage | vmclearFails | vmptrldFails | noStack =>
      cases r with
      | ok _ => cases hpost.1
      | error e => simp
  · -- `setup` panics: a VMWRITE was rejected
    intro e t hpanic
    refine ⟨rfl, ?_⟩
    cases hstop : setupStop env s.prepared <;> rw [hstop] at hpanic
    case vmwriteRejected => exact ⟨hpanic.1, hpanic.2.1, hpanic.2.2.trans hs.inactive⟩
    all_goals exact hpanic.elim

/-- In VMX operation with the flag clear, `shutdown` does nothing. -/
theorem not_panicSafe {env : Env} {t : Machine} (hon : t.vmx.on = true)
    (hflag : t.st.vmxActive = false) : ¬ PanicSafe env t := by
  intro h
  exact absurd (hflag.symm.trans (h.flag hon)) Bool.false_ne_true

/-- `exit_handler` never panics, whatever the exits before. -/
theorem exit_no_panic {env : Env} {s₀ t : Machine} {region : Addr} {es : List Exit}
    {u : LoopState} (hs : Launched s₀ region) (hrun : run (exitStep env) (.start s₀) es = some u)
    (hguest : u.mode = .guest) (e : Exit) {a : Abort} :
    ¬ Aborts (exitHandler env) ((e.entry u.machine).atCall env e.scratch) a t := by
  intro h
  obtain ⟨hlive, hcount, hlt⟩ := (loop_inv hs hrun).guest hguest
  obtain ⟨al, v, hret, -⟩ := @exit_handled env _ _ hlive e _ hcount hlt
  exact hret.not_aborts h

/-- **A panic leaves VMX operation exactly when** none is raised in
`write_state`: the processor accepts its VMWRITEs whenever it gets there. -/
theorem panic_safe_iff (env : Env) (s : Machine) (hs : Fresh s) :
    (∀ msg t, PanicPoint env s msg t → PanicSafe env t) ↔
      (reachesSetup env s = true → ∀ region vmcs,
        setupStop env s ≠ .vmwriteRejected region vmcs) := by
  have hinit := @init_aborts env _ hs
  constructor
  · -- the panic of a rejected VMWRITE leaves VMX on, and the flag says off
    intro hsafe
    obtain ⟨_, _, _, hno⟩ | ⟨e, t, ht, hreach, he⟩ := hinit.cases
    · exact hno
    · intro _ region vmcs hstop
      rw [hstop] at he
      obtain ⟨⟨msg, rfl⟩, hon, hflag⟩ := he
      exact not_panicSafe hon hflag (hsafe msg t (.init ht))
  · intro hno msg t hpoint
    cases hpoint with
    | init ht =>
      obtain ⟨hreach, he⟩ := (ends_of_aborts ht).mp hinit
      cases hstop : setupStop env s <;> rw [hstop] at he
      case vmwriteRejected => exact absurd hstop (hno hreach _ _)
      case done => exact absurd he.1 (by simp)
      all_goals exact he.elim
    -- a guest runs only behind a successful `setup`
    | exit e ht hrun hguest hpanic =>
      obtain ⟨hreach, he⟩ := (ends_of_aborts ht).mp hinit
      cases hstop : setupStop env s <;> rw [hstop] at he
      case vmwriteRejected => exact absurd he.1 (by simp)
      case done => exact absurd hpanic (exit_no_panic he.2 hrun hguest e)
      all_goals exact he.elim

/-- The condition at a processor that accepts every VMWRITE. -/
theorem panic_safe_granting :
    (∀ msg t, PanicPoint grantingEnv bootMachine msg t → PanicSafe grantingEnv t) ↔
      (reachesSetup grantingEnv bootMachine = true → ∀ region vmcs,
        setupStop grantingEnv bootMachine ≠ .vmwriteRejected region vmcs) :=
  panic_safe_iff grantingEnv bootMachine bootMachine_fresh

/-- A processor that rejects the write to encoding 0x0820, which it does not
have. -/
def strictEnv : Env := { grantingEnv with vmwriteOk := fun _ f => f != guestSysenterCs }

/-- On that processor the panic leaves VMX on. -/
theorem panic_keeps_vmx :
    ¬ ∀ env s, Fresh s → ∀ msg t, PanicPoint env s msg t → PanicSafe env t := by
  intro h
  have hstop : setupStop strictEnv bootMachine = .vmwriteRejected 0x100000 0x104000 := rfl
  obtain ⟨_, _, _, hno⟩ | ⟨e, t, ht, -, he⟩ :=
    (@init_aborts strictEnv _ bootMachine_fresh).cases
  · exact hno (by decide) _ _ hstop
  · rw [hstop] at he
    obtain ⟨⟨msg, rfl⟩, hon, hflag⟩ := he
    exact not_panicSafe hon hflag (h strictEnv bootMachine bootMachine_fresh msg t (.init ht))

end MochiVM.Hv
