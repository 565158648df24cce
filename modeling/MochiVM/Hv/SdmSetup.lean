import MochiVM.Hv.Sdm

/-!
# `setup` on the processor of the SDM (vmcs.rs:130)

`Wrappers.setup` run with the wrappers of `Sdm`. What a VMX failure looks like
changes in the middle of it: up to VMPTRLD there is no current VMCS and every
failure sets CF, from then on there is one and none does. `noticed_iff` and
`regions_iff` put what follows for `setup` next to what holds of each wrapper.
-/

namespace MochiVM.Hv.Sdm

open MochiVM.Panic

/-- The wrappers of `Sdm`. -/
def wrappers (p : Processor) : Wrappers State where
  machine := State.machine
  put := State.put
  machine_put _ _ := rfl
  put_put _ _ _ := rfl
  rdmsr msr := code (rdmsrChecked msr)
  vmxon := vmxon p
  vmxoff := vmxoff p
  vmclear := vmclear p
  vmptrld := vmptrld p
  vmwrite := vmwrite p

section Steps

variable {p : Processor} {env : Env} {s t : State}

/-! ## One instruction of a run -/

theorem rdmsr_ok {msr : BitVec 32} {v : BitVec 64}
    (h : Returns ((wrappers p).rdmsr msr) s v t) : v = s.machine.regs.msr msr ∧ t = s := by
  have hrun : code (rdmsrChecked msr) s = .ok v t := h
  rw [code, rdmsrChecked] at hrun
  by_cases hmissing : msr = ia32VmxSecondaryProcbasedCtls ∧ hasSecondary s.machine.regs.msr = false
  · rw [if_pos hmissing] at hrun
    cases hrun
  · rw [if_neg hmissing] at hrun
    cases hrun
    exact ⟨rfl, rfl⟩

/-- An instruction whose wrapper returned `Ok`. -/
structure Passed (p : Processor) (s t : State) (i : Insn) : Prop where
  fault : fault s.machine i = none
  valid : outcome p s.machine i ≠ .failInvalid
  eq : t = s.executed p i

theorem Executes.passed {i : Insn} {u : State} {ε : Type} {e : ε} {m : SdmM (Except ε PUnit)}
    (h : Executes p i s u e m) (hret : Returns m s (.ok ⟨⟩) t) : Passed p u t i := by
  obtain ⟨hfault, heq, hok⟩ := (h _ _).mp hret
  refine ⟨hfault, fun hinvalid => ?_, heq⟩
  rw [if_pos hinvalid] at hok
  cases hok

theorem Passed.on {i : Insn} (h : Passed p s t i) (hi : ∀ loc, i ≠ .vmxon loc) :
    s.machine.vmx.on = true := on_of_fault hi h.fault

/-- The VMX state of a write is the old one but for the content of the VMCS. -/
theorem after_vmwrite (p : Processor) (m : Machine) (field : BitVec 32) (value : BitVec 64) :
    (after p m (.vmwrite field value)).vmxonPtr = m.vmx.vmxonPtr ∧
      (after p m (.vmwrite field value)).current = m.vmx.current := by
  rw [after]
  split <;> exact ⟨rfl, rfl⟩

/-- With a current VMCS, a VMWRITE succeeds when the field can be written. -/
theorem vmwrite_succeeds_iff {m : Machine} {field : BitVec 32} {value : BitVec 64}
    (hon : m.vmx.on = true) (hcur : m.vmx.current.isSome = true) :
    outcome p m (.vmwrite field value) = .succeed ↔ p.writable field = true := by
  have hnone : m.vmx.current.isNone = false := by
    cases hc : m.vmx.current with
    | none => rw [hc] at hcur; cases hcur
    | some _ => rfl
  have hhas : p.writable field = true → p.hasField field = true := fun h =>
    (Bool.and_eq_true_iff.mp h).1
  rw [outcome_on hon, refusal, hnone, Bool.false_or, hcur]
  cases hf : p.hasField field with
  | false =>
    have hw : p.writable field = false := by
      cases hw : p.writable field with
      | false => rfl
      | true => exact absurd ((hhas hw).symm.trans hf) (by simp)
    simp [hw]
  | true => cases p.writable field <;> simp

/-! ## The writes of `write_state` -/

/-- The instruction of a VMWRITE. -/
def writeInsn (w : StateWrite) : Insn := .vmwrite w.field w.value

theorem issue_ok {x : StateStep} (h : Returns ((wrappers p).issue x) s ⟨⟩ t) :
    Passed p s t (writeInsn (x.resolved s.machine.regs)) := by
  have hwrite : ∀ {y : StateWrite} {f : Except PUnit PUnit → SdmM PUnit},
      f (.ok ⟨⟩) = pure ⟨⟩ → (∀ e u, ¬ Returns (f (.error e)) u ⟨⟩ t) →
      Returns ((wrappers p).vmwrite y.field y.value >>= f) s ⟨⟩ t → Passed p s t (writeInsn y) := by
    intro y f hok herror h
    obtain ⟨r, u, hr, h⟩ := h.of_bind
    cases r with
    | ok _ =>
      rw [hok] at h
      obtain ⟨-, rfl⟩ := (returns_pure _ _).unique h
      exact (tested_executes p _ s).passed hr
    | error e => exact absurd h (herror e u)
  obtain ⟨caps, write⟩ := x
  cases caps with
  | none => exact hwrite rfl (fun _ _ h => by cases h) h
  | some msr =>
    obtain ⟨v, u, hv, h⟩ := h.of_bind
    obtain ⟨rfl, rfl⟩ := rdmsr_ok hv
    exact hwrite rfl (fun _ _ h => by cases h) h

/-- The VMWRITEs of a list, in a run from `m` that issued them all. -/
structure Writes (p : Processor) (m : Machine) (ws : List StateWrite) (new : List Step) :
    Prop where
  insns : new.map Step.insn = ws.map writeInsn
  step : ∀ step ∈ new, step.outcome = outcome p step.found step.insn ∧
    step.found.vmx.on = true ∧ step.found.vmx.current = m.vmx.current

theorem issueAll_writes : ∀ {xs : List StateStep} {s t : State},
    Returns ((wrappers p).issueAll xs) s ⟨⟩ t → ∃ new, t.log = s.log ++ new ∧
      Writes p s.machine (xs.map (·.resolved s.machine.regs)) new
  | [], s, t, h => by
    obtain ⟨-, rfl⟩ := (returns_pure _ _).unique h
    exact ⟨[], (List.append_nil _).symm, rfl, fun _ h => absurd h List.not_mem_nil⟩
  | x :: xs, s, t, h => by
    obtain ⟨_, u, hx, h⟩ := h.of_bind
    have hpassed := issue_ok hx
    obtain ⟨new, hlog, hwrites⟩ := issueAll_writes h
    have hu := hpassed.eq
    obtain ⟨-, hcur⟩ := after_vmwrite p s.machine (x.resolved s.machine.regs).field
      (x.resolved s.machine.regs).value
    have hregs : u.machine.regs = s.machine.regs := by rw [hu]; rfl
    have hcurrent : u.machine.vmx.current = s.machine.vmx.current := by
      rw [hu]
      exact hcur
    rw [hregs] at hwrites
    refine ⟨⟨writeInsn (x.resolved s.machine.regs), s.machine,
      outcome p s.machine (writeInsn (x.resolved s.machine.regs))⟩ :: new, ?_, ?_, ?_⟩
    · rw [hlog, hu]
      exact List.append_assoc _ _ _
    · exact congrArg _ hwrites.insns
    · intro step hstep
      obtain rfl | hstep := List.mem_cons.mp hstep
      · exact ⟨rfl, hpassed.on (by simp [writeInsn]), rfl⟩
      · obtain ⟨hout, hon, hc⟩ := hwrites.step step hstep
        exact ⟨hout, hon, hc.trans hcurrent⟩

/-- **`write_state` issues a VMWRITE for each of its fields**, all to the VMCS
that is current when it starts. -/
theorem writeState_writes {hostStack guestCode guestStack : BitVec 64} {r : Except String PUnit}
    (h : Returns ((wrappers p).writeState env hostStack guestCode guestStack) s r t) :
    ∃ new, t.log = s.log ++ new ∧
      Writes p s.machine (writesOf env s.machine hostStack guestCode guestStack) new := by
  rw [Returns, Wrappers.writeState] at h
  obtain ⟨_, u, hall, h⟩ := Returns.of_bind h
  obtain ⟨-, rfl⟩ := (returns_pure _ _).unique h
  obtain ⟨new, hlog, hwrites⟩ := issueAll_writes hall
  rw [show (wrappers p).machine s = s.machine from rfl] at hwrites
  rw [stateSteps_resolved] at hwrites
  exact ⟨new, hlog, hwrites⟩

/-- Every VMWRITE of the list succeeds when every field can be written. -/
theorem Writes.succeed_iff {m : Machine} {ws : List StateWrite} {new : List Step}
    (h : Writes p m ws new) (hcur : m.vmx.current.isSome = true) :
    (∀ step ∈ new, step.outcome = .succeed) ↔ ∀ w ∈ ws, p.writable w.field = true := by
  have hstep : ∀ step ∈ new, ∀ w, step.insn = writeInsn w →
      (step.outcome = .succeed ↔ p.writable w.field = true) := by
    intro step hstep w hw
    obtain ⟨hout, hon, hc⟩ := h.step step hstep
    rw [hout, hw]
    exact vmwrite_succeeds_iff hon (by rw [hc]; exact hcur)
  constructor
  · intro hall w hw
    have hmem : writeInsn w ∈ new.map Step.insn := by
      rw [h.insns]
      exact List.mem_map_of_mem hw
    obtain ⟨step, hnew, hinsn⟩ := List.mem_map.mp hmem
    exact (hstep step hnew w hinsn).mp (hall step hnew)
  · intro hall step hnew
    have hmem : step.insn ∈ ws.map writeInsn := by
      rw [← h.insns]
      exact List.mem_map_of_mem hnew
    obtain ⟨w, hw, hinsn⟩ := List.mem_map.mp hmem
    exact (hstep step hnew w hinsn.symm).mpr (hall w hw)

end Steps

/-! ## A run of `setup` -/

/-- The page `setup` enters VMX operation with. -/
def vmxonPage (env : Env) (m : Machine) : Addr := (env.allocate m.allocs 1).2

/-- The page `setup` allocates for the VMCS. -/
def vmcsPage (env : Env) (m : Machine) : Addr := (env.allocate (m.allocs + 1) 1).2

/-- The state with the revision identifier written to both pages. -/
def State.pagesStamped (env : Env) (s : State) : State :=
  (s.stamped (vmxonPage env s.machine)).stamped (vmcsPage env s.machine)

/-- What a run of `setup` from `s` to `t` that returned `Ok` has executed: VMXON,
VMCLEAR and VMPTRLD in the machines `m₁`, `m₂` and `m₃`, and the writes. -/
structure SetupSteps (p : Processor) (env : Env) (s t : State) (m₁ m₂ m₃ : Machine)
    (writes : List Step) : Prop where
  log : t.log = s.log ++
    ([⟨.vmxon (vmxonPage env s.machine), m₁, outcome p m₁ (.vmxon (vmxonPage env s.machine))⟩,
      ⟨.vmclear (vmcsPage env s.machine), m₂, outcome p m₂ (.vmclear (vmcsPage env s.machine))⟩,
      ⟨.vmptrld (vmcsPage env s.machine), m₃, outcome p m₃ (.vmptrld (vmcsPage env s.machine))⟩] ++
      writes)
  vmxon_found : m₁.vmx = s.machine.vmx
  vmxon_valid : outcome p m₁ (.vmxon (vmxonPage env s.machine)) ≠ .failInvalid
  vmclear_mem : m₂.mem = (s.pagesStamped env).machine.mem
  vmclear_regs : m₂.regs = s.machine.regs
  vmclear_vmx : m₂.vmx = after p m₁ (.vmxon (vmxonPage env s.machine))
  vmclear_on : m₂.vmx.on = true
  vmclear_valid : outcome p m₂ (.vmclear (vmcsPage env s.machine)) ≠ .failInvalid
  vmptrld_found : m₃ = m₂.setVmx (after p m₂ (.vmclear (vmcsPage env s.machine)))
  vmptrld_on : m₃.vmx.on = true
  vmptrld_valid : outcome p m₃ (.vmptrld (vmcsPage env s.machine)) ≠ .failInvalid
  writes : ∃ m₄ ws, m₄.vmx = after p m₃ (.vmptrld (vmcsPage env s.machine)) ∧
    ws.map StateWrite.field = stateFields ∧ Writes p m₄ ws writes

theorem setup_steps {p : Processor} {env : Env} {s t : State}
    (h : Returns ((wrappers p).setup env) s (.ok ⟨⟩) t) :
    ∃ m₁ m₂ m₃ writes, SetupSteps p env s t m₁ m₂ m₃ writes := by
  obtain ⟨run⟩ := setup_returns_iff.mp h
  obtain ⟨r₁, r₂, revision, entered, read, cleared, loaded, hpage₁, hvmxon, hpage₂, hbasic,
    hclear, hload, guest⟩ := run
  obtain ⟨hostStack, guestCode, guestStack, filled, -, -, -, hwrite, rfl⟩ := guest
  -- each instruction went through the test of CF
  have hpassed₁ := (vmxon_executes p r₁ _).passed hvmxon
  obtain ⟨rfl, rfl⟩ := rdmsr_ok hbasic
  have hpassed₂ := (tested_executes p (.vmclear r₂) _).passed hclear
  have hpassed₃ := (tested_executes p (.vmptrld r₂) _).passed hload
  obtain ⟨new, hlog, hwrites⟩ := writeState_writes hwrite
  have hallocs : entered.machine.allocs = s.machine.allocs + 1 := by rw [hpassed₁.eq]; rfl
  -- the pages are those the firmware answered with
  have hr₁ : r₁ = vmxonPage env s.machine := (congrArg Prod.snd (allocAnswer_ok hpage₁)).symm
  have hr₂ : r₂ = vmcsPage env s.machine := by
    rw [vmcsPage, ← hallocs]
    exact (congrArg Prod.snd (allocAnswer_ok hpage₂)).symm
  subst hr₁ hr₂
  refine ⟨_, _, _, new, ?_, ?_, hpassed₁.valid, ?_, ?_, ?_, hpassed₂.on (by simp),
    hpassed₂.valid, ?_, hpassed₃.on (by simp), hpassed₃.valid, _, _, ?_,
    writesOf_fields _ _ _ _ _, hwrites⟩
  · -- the log, from the last instruction back to the first
    show filled.log = _
    rw [hlog]
    show loaded.log ++ new = _
    rw [hpassed₃.eq]
    show cleared.log ++ _ ++ new = _
    rw [hpassed₂.eq]
    show entered.log ++ _ ++ _ ++ new = _
    rw [hpassed₁.eq]
    show s.log ++ _ ++ _ ++ _ ++ new = _
    simp only [List.append_assoc]
    rfl
  · rfl
  · show ((entered.machine.setSt _).allocated.stamped _ _).mem = _
    rw [hpassed₁.eq]
    rfl
  · show entered.machine.regs = _
    rw [hpassed₁.eq]
    rfl
  · show entered.machine.vmx = _
    rw [hpassed₁.eq]
    rfl
  · rw [hpassed₂.eq]
    rfl
  · show loaded.machine.vmx = _
    rw [hpassed₃.eq]
    rfl

/-! ## What the three instructions leave -/

section Outcomes

variable {p : Processor} {m m' : Machine} {i : Insn} {loc : Addr}

theorem after_succeed (h : outcome p m i = .succeed) : after p m i = effect m i := by
  rw [after, h]

/-- VMXON outside VMX operation either succeeds or sets CF. -/
theorem vmxon_succeeds (hoff : m.vmx.on = false)
    (hvalid : outcome p m (.vmxon loc) ≠ .failInvalid) : outcome p m (.vmxon loc) = .succeed := by
  rw [outcome_off hoff] at hvalid ⊢
  simp only at hvalid ⊢
  split at hvalid
  next h => rw [if_pos h]
  next => exact absurd rfl hvalid

/-- VMXON in VMX operation is refused; without an error in CF it was with a
current VMCS. -/
theorem vmxon_on (hon : m.vmx.on = true) (hvalid : outcome p m (.vmxon loc) ≠ .failInvalid) :
    (after p m (.vmxon loc)).vmxonPtr = m.vmx.vmxonPtr := by
  rw [after]
  rw [outcome_on hon] at hvalid ⊢
  cases hcur : m.vmx.current with
  | none => simp [refusal, hcur] at hvalid
  | some c => rfl

theorem vmclear_vmxonPtr : (after p m (.vmclear loc)).vmxonPtr = m.vmx.vmxonPtr := by
  rw [after]
  split <;> rfl

/-- After VMPTRLD without an error in CF there is a current VMCS. -/
theorem vmptrld_current (hvalid : outcome p m (.vmptrld loc) ≠ .failInvalid) :
    (after p m (.vmptrld loc)).current.isSome = true := by
  cases hout : outcome p m (.vmptrld loc) with
  | succeed =>
    rw [after_succeed hout]
    rfl
  | failInvalid => exact absurd hout hvalid
  | failValid n =>
    rw [after, hout]
    exact (failValid_iff.mp ⟨n, hout⟩).2.1

/-- Whether VMPTRLD is refused depends on memory, the registers and the VMXON
region only. -/
theorem refusal_vmptrld_congr (hmem : m.mem = m'.mem) (hregs : m.regs = m'.regs)
    (hptr : m.vmx.vmxonPtr = m'.vmx.vmxonPtr) :
    refusal p m (.vmptrld loc) = refusal p m' (.vmptrld loc) := by
  obtain ⟨regs, ⟨ptr, current, active, data⟩, mem⟩ := m
  obtain ⟨regs', ⟨ptr', current', active', data'⟩, mem'⟩ := m'
  cases hmem
  cases hregs
  cases hptr
  rfl

/-- VMCLEAR takes what VMPTRLD takes. -/
theorem refusal_vmclear (h : refusal p m (.vmptrld loc) = none) :
    refusal p m (.vmclear loc) = none := by
  simp only [refusal] at h ⊢
  split at h
  · cases h
  next htakes =>
    rw [if_neg htakes]
    split at h
    · cases h
    next hptr => rw [if_neg hptr]

end Outcomes

section Setup

variable {p : Processor} {env : Env} {s t : State} {m₁ m₂ m₃ : Machine} {writes : List Step}

/-- **Entered outside VMX operation**, a `setup` that returns `Ok` has executed
its first three instructions successfully, and writes to the VMCS whose address
the VMCS page holds. -/
theorem SetupSteps.off (h : SetupSteps p env s t m₁ m₂ m₃ writes)
    (hoff : s.machine.vmx.on = false) :
    outcome p m₂ (.vmclear (vmcsPage env s.machine)) = .succeed ∧
      outcome p m₃ (.vmptrld (vmcsPage env s.machine)) = .succeed ∧
      ∀ step ∈ writes, step.found.vmx.current =
        some (pointer (s.pagesStamped env).machine (vmcsPage env s.machine)) := by
  have hfound : m₁.vmx.on = false := by rw [h.vmxon_found]; exact hoff
  have hentered := vmxon_succeeds hfound h.vmxon_valid
  -- no VMCS is current until VMPTRLD
  have hcur₂ : m₂.vmx.current = none := by
    rw [h.vmclear_vmx, after_succeed hentered]
    rfl
  have hcleared := outcome_noCurrent hcur₂ h.vmclear_valid
  have hcur₃ : m₃.vmx.current = none := by
    rw [h.vmptrld_found, Machine.setVmx_vmx, after_succeed hcleared]
    show (if m₂.vmx.current = _ then none else m₂.vmx.current) = none
    rw [hcur₂]
    rfl
  have hloaded := outcome_noCurrent hcur₃ h.vmptrld_valid
  obtain ⟨m₄, ws, hvmx, -, hwrites⟩ := h.writes
  refine ⟨hcleared, hloaded, fun step hstep => ?_⟩
  -- the pointer is read from memory as it was stamped
  have hmem : m₃.mem = (s.pagesStamped env).machine.mem := by
    rw [h.vmptrld_found]
    exact h.vmclear_mem
  rw [(hwrites.step step hstep).2.2, hvmx, after_succeed hloaded]
  show some (loadLE m₃.mem _ 8) = _
  rw [hmem]
  rfl

/-- **Entered in VMX operation**, VMCLEAR and VMPTRLD succeed when the VMCS page
holds what VMPTRLD takes. -/
theorem SetupSteps.on_iff (h : SetupSteps p env s t m₁ m₂ m₃ writes)
    (hon : s.machine.vmx.on = true) :
    outcome p m₂ (.vmclear (vmcsPage env s.machine)) = .succeed ∧
      outcome p m₃ (.vmptrld (vmcsPage env s.machine)) = .succeed ↔
      refusal p (s.pagesStamped env).machine (.vmptrld (vmcsPage env s.machine)) = none := by
  have hptr₂ : m₂.vmx.vmxonPtr = s.machine.vmx.vmxonPtr := by
    rw [h.vmclear_vmx, vmxon_on (by rw [h.vmxon_found]; exact hon) h.vmxon_valid, h.vmxon_found]
  have hsame₂ : refusal p m₂ (.vmptrld (vmcsPage env s.machine)) =
      refusal p (s.pagesStamped env).machine (.vmptrld (vmcsPage env s.machine)) :=
    refusal_vmptrld_congr h.vmclear_mem h.vmclear_regs hptr₂
  have hsame₃ : refusal p m₃ (.vmptrld (vmcsPage env s.machine)) =
      refusal p m₂ (.vmptrld (vmcsPage env s.machine)) := by
    rw [h.vmptrld_found]
    exact refusal_vmptrld_congr rfl rfl vmclear_vmxonPtr
  rw [succeed_iff_on h.vmclear_on, succeed_iff_on h.vmptrld_on, hsame₃, hsame₂]
  exact ⟨And.right, fun haccepted => ⟨refusal_vmclear (hsame₂.trans haccepted), haccepted⟩⟩

/-- The writes succeed when every field of `write_state` can be written. -/
theorem SetupSteps.writes_iff (h : SetupSteps p env s t m₁ m₂ m₃ writes) :
    (∀ step ∈ writes, step.outcome = .succeed) ↔ ∀ f ∈ stateFields, p.writable f = true := by
  obtain ⟨m₄, ws, hvmx, hfields, hwrites⟩ := h.writes
  have hcur : m₄.vmx.current.isSome = true := by
    rw [hvmx]
    exact vmptrld_current h.vmptrld_valid
  rw [hwrites.succeed_iff hcur, ← hfields, List.forall_mem_map]

/-- The instructions of the run. -/
theorem SetupSteps.new (h : SetupSteps p env s t m₁ m₂ m₃ writes) :
    t.log.drop s.log.length =
      [⟨.vmxon (vmxonPage env s.machine), m₁, outcome p m₁ (.vmxon (vmxonPage env s.machine))⟩,
        ⟨.vmclear (vmcsPage env s.machine), m₂, outcome p m₂ (.vmclear (vmcsPage env s.machine))⟩,
        ⟨.vmptrld (vmcsPage env s.machine), m₃,
          outcome p m₃ (.vmptrld (vmcsPage env s.machine))⟩] ++ writes := by
  rw [h.log, List.drop_left]

end Setup

/-! ## Failures in `setup` -/

/-- Every VMCLEAR, VMPTRLD and VMWRITE between `s` and `t` took effect. -/
def TookEffect (s t : State) : Prop :=
  ∀ step ∈ t.log.drop s.log.length, (∀ loc, step.insn ≠ .vmxon loc) → step.outcome = .succeed

/-- What `setup` relies on where the flag test sees nothing. -/
structure TakesAll (p : Processor) (env : Env) (s : State) : Prop where
  /-- In VMX operation already, VMPTRLD takes the word in the VMCS page. -/
  region : s.machine.vmx.on = true →
    refusal p (s.pagesStamped env).machine (.vmptrld (vmcsPage env s.machine)) = none
  fields : ∀ f ∈ stateFields, p.writable f = true

section Noticed

variable {p : Processor} {env : Env} {s t : State}

/-- **When `setup` returns `Ok`, all it issued took effect** only on a processor
that has every field. -/
theorem setup_tookEffect_iff (h : Returns ((wrappers p).setup env) s (.ok ⟨⟩) t) :
    TookEffect s t ↔ TakesAll p env s := by
  obtain ⟨m₁, m₂, m₃, writes, hsteps⟩ := setup_steps h
  have hloads : (outcome p m₂ (.vmclear (vmcsPage env s.machine)) = .succeed ∧
      outcome p m₃ (.vmptrld (vmcsPage env s.machine)) = .succeed) ↔
      (s.machine.vmx.on = true →
        refusal p (s.pagesStamped env).machine (.vmptrld (vmcsPage env s.machine)) = none) := by
    cases hon : s.machine.vmx.on with
    | false =>
      obtain ⟨hcleared, hloaded, -⟩ := hsteps.off hon
      exact ⟨fun _ h => absurd h Bool.false_ne_true, fun _ => ⟨hcleared, hloaded⟩⟩
    | true => exact (hsteps.on_iff hon).trans ⟨fun h _ => h, fun h => h rfl⟩
  have hwrites : (∀ step ∈ writes, (∀ loc, step.insn ≠ .vmxon loc) → step.outcome = .succeed) ↔
      ∀ step ∈ writes, step.outcome = .succeed := by
    obtain ⟨m₄, ws, -, -, hw⟩ := hsteps.writes
    refine forall₂_congr fun step hstep => ⟨fun h => h fun loc hloc => ?_, fun h _ => h⟩
    -- none of the writes is a VMXON
    have hmem : step.insn ∈ ws.map writeInsn := by
      rw [← hw.insns]
      exact List.mem_map_of_mem hstep
    obtain ⟨w, -, hwrite⟩ := List.mem_map.mp hmem
    rw [hloc] at hwrite
    cases hwrite
  have hall : TookEffect s t ↔ (outcome p m₂ (.vmclear (vmcsPage env s.machine)) = .succeed ∧
      outcome p m₃ (.vmptrld (vmcsPage env s.machine)) = .succeed) ∧
      ∀ step ∈ writes, (∀ loc, step.insn ≠ .vmxon loc) → step.outcome = .succeed := by
    rw [TookEffect, hsteps.new, List.cons_append, List.cons_append, List.cons_append,
      List.nil_append, List.forall_mem_cons, List.forall_mem_cons, List.forall_mem_cons]
    simp [and_assoc]
  rw [hall, hloads, hwrites, hsteps.writes_iff]
  exact ⟨fun h => ⟨h.1, h.2⟩, fun h => ⟨h.region, h.fields⟩⟩

/-- **Which VMX failures are noticed**: a wrapper misses the failures that it has
with a current VMCS, and `setup` those of the processor that lacks a field. -/
theorem noticed_iff (p : Processor) (env : Env) (s : State) :
    (∀ region, Noticed (vmxon p region) (.vmxon region) s ↔
      ¬ Silent p s.machine (.vmxon region)) ∧
    (Noticed (vmxoff p) .vmxoff s ↔ ¬ Silent p s.machine .vmxoff) ∧
    (∀ region, Noticed (vmclear p region) (.vmclear region) s ↔
      ¬ Silent p s.machine (.vmclear region)) ∧
    (∀ region, Noticed (vmptrld p region) (.vmptrld region) s ↔
      ¬ Silent p s.machine (.vmptrld region)) ∧
    (∀ field value, Noticed (vmwrite p field value) (.vmwrite field value) s ↔
      ¬ Silent p s.machine (.vmwrite field value)) ∧
    ∀ t, Returns ((wrappers p).setup env) s (.ok ⟨⟩) t → (TookEffect s t ↔ TakesAll p env s) :=
  ⟨fun region => vmxon_noticed_iff p region s, tested_noticed_iff p _ s,
    fun _ => tested_noticed_iff p _ s, fun _ => tested_noticed_iff p _ s,
    fun _ _ => tested_noticed_iff p _ s, fun _ h => setup_tookEffect_iff h⟩

/-- A processor with every field but the secondary controls. -/
def noSecondaryFields : Processor where
  physWidth := 39
  hasField field := field != secondaryProcBasedCtls
  writesExitInfo := false
  shadowing := false
  dualMonitor := false
  rflags _ := 0x2

/-- On it, `write_state`'s write of the secondary controls is rejected, and
`vmwrite` returns `Ok`. -/
theorem not_noticed_secondary :
    ¬ ∀ (p : Processor) (s : State) (field : BitVec 32) (value : BitVec 64),
      Noticed (vmwrite p field value) (.vmwrite field value) s := by
  intro h
  have hnoticed := h noSecondaryFields ⟨vmxMachine, []⟩ secondaryProcBasedCtls 0
  exact (tested_noticed_iff _ _ _).mp hnoticed ⟨rfl, rfl, rfl, rfl⟩

end Noticed

/-! ## The regions of `setup` -/

/-- Every VMWRITE between `s` and `t` goes to the VMCS at `region`. -/
def WritesTo (region : Addr) (s t : State) : Prop :=
  ∀ step ∈ t.log.drop s.log.length, ∀ field value, step.insn = .vmwrite field value →
    step.found.vmx.current = some region

theorem setup_writesTo_iff {p : Processor} {env : Env} {s t : State}
    (hoff : s.machine.vmx.on = false) (h : Returns ((wrappers p).setup env) s (.ok ⟨⟩) t) :
    WritesTo (vmcsPage env s.machine) s t ↔
      (s.pagesStamped env).Points (vmcsPage env s.machine) := by
  obtain ⟨m₁, m₂, m₃, writes, hsteps⟩ := setup_steps h
  obtain ⟨-, -, hcurrent⟩ := hsteps.off hoff
  obtain ⟨m₄, ws, -, hfields, hwrites⟩ := hsteps.writes
  rw [WritesTo, hsteps.new]
  constructor
  · intro hto
    -- there is a write, to the first of the fields
    obtain ⟨w, hw⟩ : ∃ w, w ∈ ws := by
      refine List.exists_mem_of_ne_nil ws fun hnil => ?_
      rw [hnil] at hfields
      exact absurd hfields.symm (by decide)
    have hmem : writeInsn w ∈ writes.map Step.insn := by
      rw [hwrites.insns]
      exact List.mem_map_of_mem hw
    obtain ⟨step, hstep, hinsn⟩ := List.mem_map.mp hmem
    have hregion := hto step (List.mem_append_right _ hstep) w.field w.value hinsn
    exact Option.some.inj ((hcurrent step hstep).symm.trans hregion)
  · intro hpoints step hstep field value hinsn
    obtain hstep | hstep := List.mem_append.mp hstep
    · -- the first three instructions are not writes
      simp only [List.mem_cons, List.not_mem_nil, or_false] at hstep
      obtain rfl | rfl | rfl := hstep <;> cases hinsn
    · rw [hcurrent step hstep]
      exact congrArg some hpoints

/-- **When the wrappers act on the region they are given**: when the eight bytes
there, with the revision identifier that was written to them, are its own
address. VMCLEAR and VMPTRLD also refuse the VMXON region. -/
theorem regions_iff (p : Processor) (env : Env) {region : Addr} (htakes : p.takes region = true)
    (s : State) :
    (Enabled s.machine →
      (ActsOn (vmxon p region) region { s.machine.vmx.enter region with current := none } s ↔
        (s.stamped region).Points region)) ∧
    (Operating s.machine →
      (ActsOn (vmclear p region) region (s.machine.vmx.clear region) s ↔
        s.Points region ∧ s.machine.vmx.vmxonPtr ≠ some region) ∧
      (ActsOn (vmptrld p region) region (s.machine.vmx.load region) (s.stamped region) ↔
        (s.stamped region).Points region ∧ s.machine.vmx.vmxonPtr ≠ some region)) ∧
    ∀ t, Enabled s.machine → Returns ((wrappers p).setup env) s (.ok ⟨⟩) t →
      (WritesTo (vmcsPage env s.machine) s t ↔
        (s.pagesStamped env).Points (vmcsPage env s.machine)) :=
  ⟨fun hs => vmxon_actsOn_iff hs htakes,
    fun hs => ⟨vmclear_actsOn_iff hs htakes, vmptrld_actsOn_iff hs htakes⟩,
    fun _ hs h => setup_writesTo_iff hs.off h⟩

/-- A processor with VMX enabled and revision identifier 0x12. -/
def enabledMachine : Machine :=
  bootMachine.setRegs (bootMachine.regs.fixedBits.setMsr ia32VmxBasic 0x12)

theorem enabledMachine_enabled : Enabled enabledMachine := ⟨rfl, by decide, by decide, by decide⟩

/-- In a page of zeros VMXON finds the revision identifier as its region. -/
theorem not_actsOn_zeros :
    ¬ ∀ (p : Processor) (s : State) (region : Addr), Enabled s.machine → p.takes region = true →
      ActsOn (vmxon p region) region { s.machine.vmx.enter region with current := none } s := by
  intro h
  have hacts := h noSecondaryFields ⟨enabledMachine, []⟩ 0x100000 enabledMachine_enabled (by decide)
  have hpoints := (vmxon_actsOn_iff enabledMachine_enabled (by decide)).mp hacts
  have hword := stamped_pointer ⟨enabledMachine, []⟩ 0x100000
  rw [show pointer _ _ = _ from hpoints] at hword
  exact absurd hword (by decide)

/-- VMCLEAR of a page that holds its own address. -/
theorem regions_iff_selfPointer :
    ActsOn (vmclear noSecondaryFields 0x200000) 0x200000 (vmxMachine.vmx.clear 0x200000)
      ⟨vmxMachine.setMem (storeLE vmxMachine.mem 0x200000 8 0x200000), []⟩ := by
  have hoperating : Operating (vmxMachine.setMem (storeLE vmxMachine.mem 0x200000 8 0x200000)) :=
    ⟨rfl, by decide⟩
  exact (((regions_iff noSecondaryFields grantingEnv (by decide) _).2.1 hoperating).1).mpr
    ⟨loadLE_storeLE 0x200000, by decide⟩

end MochiVM.Hv.Sdm
