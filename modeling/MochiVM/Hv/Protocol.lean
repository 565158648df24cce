import MochiVM.Hv.Boot

/-!
# The order of the VMX instructions

Which VMX instruction may follow which is not for the hypervisor to decide.
`VmxOp` keeps what the processor's rules depend on: VMX operation, the current
VMCS, and the launch state of every VMCS. VMPTRLD wants a VMCS that VMCLEAR has
initialised, VMLAUNCH one that is clear, VMRESUME one that was launched, and
nothing but VMXON works outside VMX operation.

`boot_protocol`: every boot keeps to it, whatever the processor answers and
whatever the guest does.
-/

namespace MochiVM.Hv

open MochiVM.Panic MochiVM.Runs

/-! ## The rules -/

/-- The launch state of a VMCS, once VMCLEAR has set it. -/
inductive LaunchState where
  | clear | launched
deriving DecidableEq, Repr

/-- VMX operation, `count` instructions into it. -/
structure VmxOp where
  count : Nat
  /-- The VMXON region. -/
  on : Option Addr
  current : Option Addr
  launch : Addr → Option LaunchState

namespace VmxOp

/-- Before the first instruction. -/
def off : VmxOp := ⟨0, none, none, fun _ => none⟩

/-- The launch state of the current VMCS. -/
def currentState (p : VmxOp) : Option LaunchState := p.current.bind p.launch

/-- Whether an instruction is in order. -/
def allows (p : VmxOp) : VmxInsn → Bool
  | .vmxon _ => p.on.isNone
  | .vmxoff | .vmclear _ => p.on.isSome
  | .vmptrld v => p.on.isSome && (p.launch v).isSome
  | .vmread _ | .vmwrite _ _ => p.on.isSome && p.current.isSome
  | .vmlaunch => p.on.isSome && p.currentState == some .clear
  | .vmresume => p.on.isSome && p.currentState == some .launched

/-- VMX operation with the launch state of one VMCS replaced. -/
def setLaunch (p : VmxOp) (v : Addr) (state : LaunchState) : VmxOp :=
  { p with launch := fun w => if w = v then some state else p.launch w }

/-- What an instruction changes where the processor's answer is success. -/
def change (env : Env) (p : VmxOp) : VmxInsn → VmxOp
  | .vmxon region => if env.vmxonOk p.count region then { p with on := some region } else p
  | .vmxoff => { p with on := none, current := none }
  | .vmclear v =>
    if env.vmclearOk p.count v then
      { p.setLaunch v .clear with current := if p.current = some v then none else p.current }
    else p
  | .vmptrld v => if env.vmptrldOk p.count v then { p with current := some v } else p
  | .vmread _ | .vmwrite _ _ | .vmresume => p
  | .vmlaunch =>
    match p.current with
    | some v => if env.vmlaunchOk then p.setLaunch v .launched else p
    | none => p

/-- One instruction, if it is in order. -/
def step (env : Env) (p : VmxOp) (insn : VmxInsn) : Option VmxOp :=
  if p.allows insn then some { p.change env insn with count := p.count + 1 } else none

end VmxOp

/-- In VMX operation with this current VMCS, in this launch state. -/
structure VmxOp.Uses (p : VmxOp) (region vmcs : Addr) (state : LaunchState) : Prop where
  on : p.on = some region
  current : p.current = some vmcs
  launch : p.launch vmcs = some state

/-- Some exit stopped the loop. -/
def Stopped (es : List Exit) : Prop :=
  ∃ (i : Nat) (e : Exit), es[i]? = some e ∧ e.stops (hltCount (es.take i)) = true

/-- How a boot leaves VMX operation at its stage, the VMCS being `vmcs`. The
clean-up of `setup` does nothing for a VMXON region at address zero. -/
def Stage.Leaves (env : Env) (vmcs : Addr) (q : VmxOp) : Stage → Prop
  | .firmware => q.on = none ∨ q.on = some 0
  | .panicked _ => ∃ region vmcs, q.Uses region vmcs .clear
  | .refused => ∃ region, q.Uses region vmcs .clear
  | .guest es _ =>
    (Stopped es → q.on = none ∧
      ((∀ n, env.vmclearOk n vmcs = true) → q.launch vmcs = some .clear)) ∧
    (¬ Stopped es → ∃ region, q.Uses region vmcs .launched)

/-! ## Single instructions -/

section Steps

variable {env : Env} {p : VmxOp} {region vmcs : Addr} {state : LaunchState}

theorem VmxOp.Uses.count (h : p.Uses region vmcs state) (n : Nat) :
    VmxOp.Uses { p with count := n } region vmcs state := ⟨h.on, h.current, h.launch⟩

/-- The instructions that change nothing. -/
def VmxInsn.looks : VmxInsn → Bool
  | .vmread _ | .vmwrite _ _ => true
  | _ => false

theorem step_looks (h : p.Uses region vmcs state) {insn : VmxInsn} (hi : insn.looks = true) :
    p.step env insn = some { p with count := p.count + 1 } := by
  have hallows : (p.on.isSome && p.current.isSome) = true := by
    rw [h.on, h.current]
    rfl
  cases insn with
  | vmread | vmwrite => exact if_pos hallows
  | vmxon | vmxoff | vmclear | vmptrld | vmlaunch | vmresume => cases hi

/-- Reads and writes of the current VMCS are in order. -/
theorem run_looks {is : List VmxInsn} (hall : ∀ i ∈ is, i.looks = true)
    (h : p.Uses region vmcs state) :
    ∃ q, run (VmxOp.step env) p is = some q ∧ q.Uses region vmcs state := by
  induction is generalizing p with
  | nil => exact ⟨p, rfl, h⟩
  | cons i is ih =>
    obtain ⟨q, hq, huses⟩ :=
      ih (fun j hj => hall j (List.mem_cons_of_mem i hj)) (h.count (p.count + 1))
    refine ⟨q, ?_, huses⟩
    rw [run, step_looks h (hall i List.mem_cons_self)]
    exact hq

theorem looks_writes (ws : List StateWrite) : ∀ i ∈ ws.map StateWrite.insn, i.looks = true := by
  intro i hi
  obtain ⟨w, -, rfl⟩ := List.mem_map.mp hi
  rfl

theorem looks_exit (e : Exit) : ∀ i ∈ e.lookInsns, i.looks = true := by
  intro i hi
  rw [Exit.lookInsns] at hi
  split at hi
  · simp only [List.mem_cons, List.not_mem_nil, or_false] at hi
    rcases hi with rfl | rfl | rfl <;> rfl
  · simp only [List.mem_cons, List.not_mem_nil, or_false] at hi
    rcases hi with rfl | rfl <;> rfl

theorem step_vmlaunch (h : p.Uses region vmcs .clear) : ∃ q, p.step env .vmlaunch = some q ∧
    q.Uses region vmcs (if env.vmlaunchOk then .launched else .clear) := by
  have hallows : p.allows .vmlaunch = true := by
    rw [VmxOp.allows, VmxOp.currentState, h.on, h.current, Option.bind_some, h.launch]
    rfl
  refine ⟨_, if_pos hallows, ?_⟩
  rw [VmxOp.change, h.current]
  cases env.vmlaunchOk with
  | true => exact ⟨h.on, h.current, if_pos rfl⟩
  | false => exact ⟨h.on, h.current, h.launch⟩

theorem step_vmresume (h : p.Uses region vmcs .launched) :
    ∃ q, p.step env .vmresume = some q ∧ q.Uses region vmcs .launched := by
  have hallows : p.allows .vmresume = true := by
    rw [VmxOp.allows, VmxOp.currentState, h.on, h.current, Option.bind_some, h.launch]
    rfl
  exact ⟨_, if_pos hallows, h.on, h.current, h.launch⟩

/-- Leaving VMX operation, the VMCS flushed. -/
theorem run_teardown (h : p.Uses region vmcs state) :
    ∃ q, run (VmxOp.step env) p [.vmclear vmcs, .vmxoff] = some q ∧ q.on = none ∧
      ((∀ n, env.vmclearOk n vmcs = true) → q.launch vmcs = some .clear) := by
  have hclear : p.allows (.vmclear vmcs) = true := by
    rw [VmxOp.allows, h.on]
    rfl
  generalize hr : ({ p.change env (.vmclear vmcs) with count := p.count + 1 } : VmxOp) = r
  have hon : r.on = some region := by
    rw [← hr, VmxOp.change]
    split <;> exact h.on
  have hoff : r.allows .vmxoff = true := by
    rw [VmxOp.allows, hon]
    rfl
  refine ⟨{ r.change env .vmxoff with count := r.count + 1 }, ?_, rfl, fun hok => ?_⟩
  · rw [run, VmxOp.step, if_pos hclear, hr, Option.bind_some, run, VmxOp.step, if_pos hoff]
    rfl
  · show r.launch vmcs = some .clear
    rw [← hr, VmxOp.change, if_pos (hok _)]
    exact if_pos rfl

end Steps

/-! ## Bring-up -/

section BringUp

variable {env : Env} {s : Machine}

/-- VMXON, as the first instruction. -/
theorem step_vmxon (region : Addr) : VmxOp.off.step env (.vmxon region) =
    some ⟨1, if env.vmxonOk 0 region then some region else none, none, fun _ => none⟩ := by
  rw [VmxOp.step, if_pos (by rfl), VmxOp.change]
  by_cases h : env.vmxonOk 0 region = true
  · rw [if_pos h, if_pos (by exact h)]
    rfl
  · rw [if_neg h, if_neg (by exact h)]
    rfl

/-- VMCLEAR behind it. -/
theorem run_vmclear {region vmcs : Addr} (hvmxon : env.vmxonOk 0 region = true) :
    ∃ q, run (VmxOp.step env) .off [.vmxon region, .vmclear vmcs] = some q ∧ q.count = 2 ∧
      q.on = some region ∧ (env.vmclearOk 1 vmcs = true → q.launch vmcs = some .clear) := by
  rw [run, step_vmxon, if_pos hvmxon, Option.bind_some, run]
  refine ⟨_, rfl, rfl, ?_, fun hok => ?_⟩
  · rw [VmxOp.change]
    split <;> rfl
  · rw [VmxOp.change, if_pos hok]
    exact if_pos rfl

/-- The clean-up, in VMX operation. -/
theorem run_offInsns {p : VmxOp} {region : Addr} (hon : p.on = some region) :
    ∃ q, run (VmxOp.step env) p (offInsns region) = some q ∧ (q.on = none ∨ q.on = some 0) := by
  have hoff : p.allows .vmxoff = true := by
    rw [VmxOp.allows, hon]
    rfl
  rw [offInsns]
  split
  next hz => exact ⟨p, rfl, .inr (hz ▸ hon)⟩
  next => exact ⟨_, by rw [run, VmxOp.step, if_pos hoff]; rfl, .inl rfl⟩

/-- The instructions up to VMPTRLD, where the processor accepts the first two. -/
theorem run_loadInsns {region vmcs : Addr} (hvmxon : env.vmxonOk 0 region = true)
    (hvmclear : env.vmclearOk 1 vmcs = true) :
    ∃ q, run (VmxOp.step env) .off (loadInsns region vmcs) = some q ∧ q.on = some region ∧
      (env.vmptrldOk 2 vmcs = true → q.Uses region vmcs .clear) := by
  obtain ⟨p, hp, hcount, hon, hlaunch⟩ := @run_vmclear env region vmcs hvmxon
  have hallows : p.allows (.vmptrld vmcs) = true := by
    rw [VmxOp.allows, hon, hlaunch hvmclear]
    rfl
  have hsplit : loadInsns region vmcs = [.vmxon region, .vmclear vmcs] ++ [.vmptrld vmcs] := rfl
  refine ⟨{ p.change env (.vmptrld vmcs) with count := p.count + 1 }, ?_, ?_, fun hok => ?_⟩
  · rw [hsplit, run_concat, hp, Option.bind_some, VmxOp.step, if_pos hallows]
  · show (p.change env (.vmptrld vmcs)).on = some region
    rw [VmxOp.change]
    split <;> exact hon
  · rw [VmxOp.change, hcount, if_pos hok]
    exact ⟨hon, rfl, hlaunch hvmclear⟩

/-- How `setup` leaves VMX operation. -/
def SetupStop.Leaves (q : VmxOp) : SetupStop → Prop
  | .vmwriteRejected region vmcs | .done region vmcs => q.Uses region vmcs .clear
  | _ => q.on = none ∨ q.on = some 0

/-- **`setup` keeps to the order**, wherever it stops. -/
theorem setup_protocol (htrace : s.trace = []) {insns : List VmxInsn}
    (h : (setupStop env s).Insns env s insns) :
    ∃ q, run (VmxOp.step env) .off insns = some q ∧ (setupStop env s).Leaves q := by
  rw [setupStop, htrace] at h ⊢
  cases h₀ : allocAnswer env s.st.systemTable s.allocs 1 with
  | error e =>
    simp only [h₀] at h ⊢
    obtain rfl := h
    exact ⟨_, rfl, .inl rfl⟩
  | ok region =>
  have hpage₀ : (env.allocate s.allocs 1).2 = region := by rw [allocAnswer_ok h₀]
  simp only [h₀, List.length_nil] at h ⊢
  by_cases h₁ : env.vmxonOk 0 region = true
  case neg =>
    rw [if_neg h₁] at h ⊢
    rw [SetupStop.Insns, hpage₀] at h
    subst h
    refine ⟨_, by rw [run, step_vmxon, if_neg h₁]; rfl, .inl rfl⟩
  case pos =>
  rw [if_pos h₁] at h ⊢
  cases h₂ : allocAnswer env s.st.systemTable (s.allocs + 1) 1 with
  | error e =>
    simp only [h₂] at h ⊢
    obtain rfl := h
    rw [run, step_vmxon, if_pos h₁]
    exact run_offInsns rfl
  | ok vmcs =>
  have hpage₁ : (env.allocate (s.allocs + 1) 1).2 = vmcs := by rw [allocAnswer_ok h₂]
  simp only [h₂] at h ⊢
  by_cases h₃ : env.vmclearOk (0 + 1) vmcs = true
  case neg =>
    rw [if_neg h₃] at h ⊢
    rw [SetupStop.Insns, hpage₁] at h
    obtain ⟨p, hp, -, hon, -⟩ := @run_vmclear env region vmcs h₁
    rw [h, run_append, hp]
    exact run_offInsns hon
  case pos =>
  obtain ⟨p, hp, hon, huses⟩ := run_loadInsns h₁ h₃
  rw [if_pos h₃] at h ⊢
  by_cases h₄ : env.vmptrldOk (0 + 2) vmcs = true
  case neg =>
    rw [if_neg h₄] at h ⊢
    rw [SetupStop.Insns, hpage₁] at h
    rw [h, run_append, hp]
    exact run_offInsns hon
  case pos =>
  rw [if_pos h₄] at h ⊢
  split at h
  next h₅ =>
    rw [if_pos h₅]
    split at h
    next h₆ =>
      rw [if_pos h₆]
      obtain ⟨ws, -, rfl⟩ := h
      rw [run_append, hp]
      exact run_looks (looks_writes ws) (huses h₄)
    next h₆ =>
      rw [if_neg h₆]
      obtain ⟨ws, -, rfl⟩ := h
      rw [run_append, hp]
      exact run_looks (looks_writes ws) (huses h₄)
  next h₅ =>
    rw [if_neg h₅]
    rw [SetupStop.Insns] at h
    rw [h, run_append, hp]
    exact run_offInsns hon

/-- The same of `init` before it launches the guest. -/
theorem bringUp_protocol (htrace : s.trace = []) {insns : List VmxInsn}
    (h : BringUpInsns env s insns) :
    ∃ q, run (VmxOp.step env) .off insns = some q ∧
      (reachesSetup env s = false → q.on = none) ∧
      (reachesSetup env s = true → (setupStop env s).Leaves q) := by
  rw [BringUpInsns] at h
  cases hreach : reachesSetup env s with
  | false =>
    rw [hreach, if_neg Bool.false_ne_true] at h
    subst h
    exact ⟨_, rfl, fun _ => rfl, fun hyes => absurd hyes Bool.false_ne_true⟩
  | true =>
    rw [hreach, if_pos rfl] at h
    obtain ⟨q, hq, hleaves⟩ := setup_protocol htrace h
    exact ⟨q, hq, fun hno => absurd hno (by decide), fun _ => hleaves⟩

end BringUp

/-! ## The exits -/

theorem stopped_concat {es : List Exit} {e : Exit} (hno : ¬ Stopped es) :
    Stopped (es ++ [e]) ↔ e.stops (hltCount es) = true := by
  constructor
  · rintro ⟨i, x, hx, hstops⟩
    rcases getElem?_concat_cases hx with ⟨hlt, hx⟩ | ⟨rfl, rfl⟩
    · rw [List.take_append_of_le_length (Nat.le_of_lt hlt)] at hstops
      exact absurd ⟨i, x, hx, hstops⟩ hno
    · rwa [List.take_left] at hstops
  · intro hstops
    refine ⟨es.length, e, List.getElem?_concat_length, ?_⟩
    rwa [List.take_left]

/-- **The exits keep to the order**: each looks at the VMCS that was launched, and
resumes it or flushes it. -/
theorem loop_protocol {env : Env} {vmcs region : Addr} {s : Machine} (hs : Launched s vmcs)
    {p : VmxOp} (hp : p.Uses region vmcs .launched) {es : List Exit} {t : LoopState}
    (h : run (exitStep env) (.start s) es = some t) :
    ∃ q, run (VmxOp.step env) p (perExit (Exit.insns vmcs) 0 es) = some q ∧
      (Stage.guest es t.mode).Leaves env vmcs q := by
  suffices hall : LoopInv env vmcs s es t ∧ (t.mode = .guest → ¬ Stopped es) ∧
      ∃ q, run (VmxOp.step env) p (perExit (Exit.insns vmcs) 0 es) = some q ∧
        (Stage.guest es t.mode).Leaves env vmcs q from hall.2.2
  have hnone : ¬ Stopped [] := by
    rintro ⟨i, e, he, -⟩
    cases he
  refine run_inv_history (I := fun es t => LoopInv env vmcs s es t ∧
    (LoopState.mode t = .guest → ¬ Stopped es) ∧ ∃ q, run (VmxOp.step env) p
      (perExit (Exit.insns vmcs) 0 es) = some q ∧ (Stage.guest es t.mode).Leaves env vmcs q) ?_
    ⟨loopInv_start hs, fun _ => hnone, p, rfl, fun hstop => absurd hstop hnone, fun _ => ⟨_, hp⟩⟩ h
  rintro es t e u ⟨hinv, hnot, q, hq, -, hgo⟩ hstep
  have hinv' := exitStep_inv hinv hstep
  have hmode : t.mode = .guest := by
    cases hmode : t.mode with
    | guest => rfl
    | host | aborted => simp [exitStep, hmode] at hstep
  have hstopped := @stopped_concat es e (hnot hmode)
  obtain ⟨region, huses⟩ := hgo (hnot hmode)
  obtain ⟨r, hr, hlooked⟩ := @run_looks env q region vmcs .launched _ (looks_exit e) huses
  have hrun : ∀ is, run (VmxOp.step env) p (perExit (Exit.insns vmcs) 0 es ++ (e.lookInsns ++ is)) =
      run (VmxOp.step env) r is := by
    intro is
    rw [run_append, hq, Option.bind_some, run_append, hr, Option.bind_some]
  refine ⟨hinv', ?_, ?_⟩
  · -- a guest that runs on was resumed
    rintro hguest ⟨i, x, hx, hstops⟩
    exact absurd (hinv'.stopped hx hstops).2.1 (by
      rw [(hinv'.guest hguest).1.on]
      exact Bool.noConfusion)
  · rw [perExit_concat, Nat.zero_add, Exit.insns, hrun]
    cases hstops : e.stops (hltCount es) with
    | true =>
      obtain ⟨r', hr', hoff, hflushed⟩ := @run_teardown env r region vmcs .launched hlooked
      exact ⟨r', hr', fun _ => ⟨hoff, hflushed⟩, fun hno => absurd (hstopped.mpr hstops) hno⟩
    | false =>
      obtain ⟨r', hr', huses'⟩ := @step_vmresume env r region vmcs hlooked
      refine ⟨r', by rw [if_neg Bool.false_ne_true, run, hr']; rfl, fun hstop => ?_,
        fun _ => ⟨region, huses'⟩⟩
      rw [hstopped.mp hstop] at hstops
      cases hstops

/-! ## Every boot -/

/-- **Every boot keeps to the order of the VMX instructions**: `insns` are those of
bring-up, and the stage says how it leaves VMX operation. -/
theorem boot_protocol {env : Env} {systemTable : BitVec 64} {s t : Machine} {stage : Stage}
    (hs : Fresh s) (h : Boot env systemTable s stage t) :
    ∃ vmcs insns q, stage.Follows env (s.booted systemTable) vmcs ∧
      BringUpInsns env (s.booted systemTable) insns ∧
      t.trace.map Event.insn = insns ++ stage.insns vmcs ∧
      run (VmxOp.step env) .off (t.trace.map Event.insn) = some q ∧ stage.Leaves env vmcs q := by
  obtain ⟨vmcs, insns, hfollows, hinsns, htrace⟩ := (h.did hs).trace
  obtain ⟨p, hp, hearly, hsetup⟩ := bringUp_protocol (hs.booted systemTable).trace hinsns
  have hrun : run (VmxOp.step env) .off (t.trace.map Event.insn) =
      run (VmxOp.step env) p (stage.insns vmcs) := by
    rw [htrace, run_append, hp]
    rfl
  have hreach : initError env (s.booted systemTable) = none →
      reachesSetup env (s.booted systemTable) = true := by
    intro hnone
    by_contra hno
    obtain ⟨line, hline, -⟩ := initError_early (Bool.not_eq_true _ ▸ hno)
    cases hnone.symm.trans hline
  suffices hq : ∃ q, run (VmxOp.step env) p (stage.insns vmcs) = some q ∧
      stage.Leaves env vmcs q by
    obtain ⟨q, hq, hleaves⟩ := hq
    exact ⟨vmcs, insns, q, hfollows, hinsns, htrace, hrun.trans hq, hleaves⟩
  cases stage with
  | firmware =>
    refine ⟨p, rfl, ?_⟩
    cases hr : reachesSetup env (s.booted systemTable) with
    | false => exact .inl (hearly hr)
    | true =>
      have hleaves := hsetup hr
      rw [Stage.Follows, initError_setup hr] at hfollows
      cases hstop : setupStop env (s.booted systemTable) <;> rw [hstop] at hleaves hfollows
      case vmwriteRejected | done => cases hfollows
      all_goals exact hleaves
  | panicked msg =>
    obtain ⟨hnone, ⟨region, vmcs', hstop⟩, -⟩ := hfollows
    have hleaves := hsetup (hreach hnone)
    rw [hstop] at hleaves
    exact ⟨p, rfl, region, vmcs', hleaves⟩
  | refused =>
    obtain ⟨hnone, ⟨region, hstop⟩, hrefused⟩ := hfollows
    have hleaves := hsetup (hreach hnone)
    rw [hstop] at hleaves
    obtain ⟨q, hq, huses⟩ := @step_vmlaunch env p region vmcs hleaves
    rw [hrefused, if_neg Bool.false_ne_true] at huses
    exact ⟨q, by rw [Stage.insns, run, hq]; rfl, region, huses⟩
  | guest es mode =>
    obtain ⟨hnone, ⟨region, hstop⟩, hok⟩ := hfollows
    have hleaves := hsetup (hreach hnone)
    rw [hstop] at hleaves
    obtain ⟨vmcs', s₀, u, hs₀, hloop, -, rfl, -, ⟨region', hstop'⟩, -⟩ := h.loop hs
    obtain ⟨-, rfl⟩ := SetupStop.done.inj (hstop.symm.trans hstop')
    obtain ⟨q, hq, huses⟩ := @step_vmlaunch env p region vmcs hleaves
    rw [hok, if_pos rfl] at huses
    obtain ⟨q', hq', hend⟩ := loop_protocol hs₀ huses hloop
    exact ⟨q', by rw [Stage.insns, run, hq]; exact hq', hend⟩

/-- Five HLTs, and out of VMX operation. -/
theorem boot_protocol_fiveHlts : ∃ (mode : Mode) (t : Machine) (vmcs : Addr)
    (insns : List VmxInsn) (q : VmxOp),
    (Stage.guest fiveHlts mode).Follows grantingEnv (bootMachine.booted 0x7F000000) vmcs ∧
      BringUpInsns grantingEnv (bootMachine.booted 0x7F000000) insns ∧
      t.trace.map Event.insn = insns ++ (Stage.guest fiveHlts mode).insns vmcs ∧
      run (VmxOp.step grantingEnv) .off (t.trace.map Event.insn) = some q ∧
      (Stage.guest fiveHlts mode).Leaves grantingEnv vmcs q := by
  obtain ⟨mode, t, h⟩ := boot_fiveHlts
  exact ⟨mode, t, boot_protocol bootMachine_fresh h⟩

end MochiVM.Hv
