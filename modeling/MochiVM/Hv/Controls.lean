import MochiVM.Hv.SetupVia
import MochiVM.Hv.VmcsFields

/-!
# The execution controls (vmx.rs:142, vmcs.rs:336)

The low half of a capability MSR holds the bits that a control word must have,
the high half those that it may have. `calc_ctrl` cuts the requested word to
that; `controlsSafe_iff` says for which MSRs the hypervisor gets what it relies
on. It assumes four things it does not check: that MSR 0x48B exists, that it
asks for no bit, that the controls it requests are allowed, and that load-EFER is
on without being requested. vmcs.rs has bit 3 of the VM-exit controls and bit 2
of the VM-entry controls for load-EFER, the SDM has bits 21 and 15.

MSR 0x48B does not exist unless bit 63 of MSR 0x482 is set; `rdmsrChecked`
raises the exception that reading it then is.
-/

namespace MochiVM.Hv

open MochiVM.Panic

/-! ## The controls -/

/-- A control word: its field, its capability MSR, the bits requested, and how
vmx.rs computes it from these. -/
structure Control where
  field : BitVec 32
  msr : BitVec 32
  desired : BitVec 32
  compute : BitVec 64 → BitVec 32 → BitVec 32

/-- The word that `write_state` writes. -/
def Control.word (msr : BitVec 32 → BitVec 64) (c : Control) : BitVec 32 :=
  c.compute (msr c.msr) c.desired

/-- The controls computed with `calc_ctrl`. -/
def primaryControls : List Control :=
  [⟨pinBasedCtls, ia32VmxPinbasedCtls, 0, ctrlWord⟩,
   ⟨procBasedCtls, ia32VmxProcbasedCtls, hltExiting, ctrlWord⟩,
   ⟨vmExitCtls, ia32VmxExitCtls, hostLongMode ||| loadIa32EferExit, ctrlWord⟩,
   ⟨vmEntryCtls, ia32VmxEntryCtls, guestLongMode ||| loadIa32EferEntry, ctrlWord⟩]

/-- The secondary processor-based controls. -/
def secondaryControl : Control :=
  ⟨secondaryProcBasedCtls, ia32VmxSecondaryProcbasedCtls, 0, secondaryWord⟩

def controls : List Control := secondaryControl :: primaryControls

/-- A control bit that the hypervisor relies on, at its place in the SDM. -/
structure Relied where
  field : BitVec 32
  msr : BitVec 32
  bit : Nat

/-- HLT exiting, host address-space size on exit, IA-32e-mode guest on entry. -/
def modeControls : List Relied :=
  [⟨procBasedCtls, ia32VmxProcbasedCtls, 7⟩,
   ⟨vmExitCtls, ia32VmxExitCtls, 9⟩,
   ⟨vmEntryCtls, ia32VmxEntryCtls, 9⟩]

/-- Load-EFER on exit and on entry. -/
def loadEfer : List Relied :=
  [⟨vmExitCtls, ia32VmxExitCtls, 21⟩,
   ⟨vmEntryCtls, ia32VmxEntryCtls, 15⟩]

def relied : List Relied := modeControls ++ loadEfer

/-- Whether MSR 0x48B exists. -/
def hasSecondary (msr : BitVec 32 → BitVec 64) : Bool := (msr ia32VmxProcbasedCtls).getLsbD 63

/-- `rdmsr` on a processor that may lack MSR 0x48B. -/
def rdmsrChecked (msr : BitVec 32) : HvM (BitVec 64) := fun s =>
  if msr = ia32VmxSecondaryProcbasedCtls ∧ hasSecondary s.regs.msr = false then
    .error (.fault .generalProtection) s
  else rdmsr msr s

/-- The wrappers of `Vmx` on such a processor. -/
def checked (env : Env) : Wrappers Machine := { named env with rdmsr := rdmsrChecked }

/-! ## What is asked of them -/

/-- A word that the processor accepts, and that keeps what was requested. -/
structure Legal (caps : BitVec 64) (desired word : BitVec 32) : Prop where
  must : ∀ i < 32, caps.getLsbD i = true → word.getLsbD i = true
  may : ∀ i < 32, caps.getLsbD (32 + i) = false → word.getLsbD i = false
  kept : ∀ i < 32, caps.getLsbD i = false → caps.getLsbD (32 + i) = true →
    word.getLsbD i = desired.getLsbD i

/-- Every bit that must be 1 may be 1. -/
def MustAllowed (caps : BitVec 64) : Prop :=
  ∀ i < 32, caps.getLsbD i = true → caps.getLsbD (32 + i) = true

/-- The capability MSRs that exist ask for no bit that they forbid. -/
structure Consistent (msr : BitVec 32 → BitVec 64) : Prop where
  primary : ∀ c ∈ primaryControls, MustAllowed (msr c.msr)
  secondary : hasSecondary msr = true → MustAllowed (msr ia32VmxSecondaryProcbasedCtls)

/-- What is asked of the control words, on a processor with these MSRs. -/
structure ControlsSafe (msr : BitVec 32 → BitVec 64) : Prop where
  /-- Every control word that `write_state` writes is legal. -/
  legal : ∀ env s hostStack guestCode guestStack, s.regs.msr = msr →
    ∀ x ∈ writesOf env s hostStack guestCode guestStack, ∀ c ∈ controls, x.field = c.field →
      Legal (msr c.msr) c.desired (x.value.setWidth 32)
  /-- `write_state` reads no MSR that does not exist. -/
  exists_read : ∀ env s hostStack guestCode guestStack t, s.regs.msr = msr →
    ¬ Aborts ((checked env).writeState env hostStack guestCode guestStack) s
      (.fault .generalProtection) t
  /-- When `setup` returns `Ok`, the controls relied on are in effect. -/
  inEffect : ∀ env s t, s.regs.msr = msr → Returns ((checked env).setup env) s (.ok ⟨⟩) t →
    ∀ b ∈ relied, (t.vmx.fields b.field).getLsbD b.bit = true

/-- What the MSRs have to say for that. -/
structure Capable (msr : BitVec 32 → BitVec 64) : Prop where
  hasSecondary : hasSecondary msr = true
  /-- MSR 0x48B asks for no bit. -/
  optional : (msr ia32VmxSecondaryProcbasedCtls).setWidth 32 = (0 : BitVec 32)
  /-- The controls that are requested may be 1. -/
  allowed : ∀ b ∈ modeControls, (msr b.msr).getLsbD (32 + b.bit) = true
  /-- Load-EFER, which is not requested, must be 1. -/
  forced : ∀ b ∈ loadEfer, (msr b.msr).getLsbD b.bit = true

/-! ## The words -/

theorem ctrlWord_bit (caps : BitVec 64) (desired : BitVec 32) {i : Nat} (hi : i < 32) :
    (ctrlWord caps desired).getLsbD i =
      ((desired.getLsbD i || caps.getLsbD i) && caps.getLsbD (32 + i)) := by
  rw [ctrlWord]
  simp [hi]

/-- **`calc_ctrl` computes a legal word.** -/
theorem ctrlWord_legal {caps : BitVec 64} (h : MustAllowed caps) (desired : BitVec 32) :
    Legal caps desired (ctrlWord caps desired) where
  must i hi hmust := by rw [ctrlWord_bit caps desired hi, hmust, h i hi hmust, Bool.or_true]; rfl
  may i hi hmay := by rw [ctrlWord_bit caps desired hi, hmay, Bool.and_false]
  kept i hi hmust hmay := by
    rw [ctrlWord_bit caps desired hi, hmust, hmay, Bool.or_false, Bool.and_true]

/-- The word `calc_secondary(0)` is legal only if nothing must be 1. -/
theorem secondaryWord_legal_iff (caps : BitVec 64) :
    Legal caps 0 (secondaryWord caps 0) ↔ caps.setWidth 32 = (0 : BitVec 32) := by
  have hzero : secondaryWord caps 0 = 0 := BitVec.zero_and
  rw [hzero]
  constructor
  · intro h
    apply BitVec.eq_of_getLsbD_eq
    intro i hi
    cases hbit : caps.getLsbD i with
    | false => simp [hbit]
    | true => exact absurd (h.must i hi hbit) (by simp)
  · intro h
    refine ⟨fun i hi hmust => ?_, fun i _ _ => by simp, fun i _ _ _ => rfl⟩
    have hbit := congrArg (fun v : BitVec 32 => v.getLsbD i) h
    simp [hi, hmust] at hbit

/-- What `write_state` writes for a control. -/
theorem control_mem {env : Env} {s : Machine} {hostStack guestCode guestStack : BitVec 64}
    {c : Control} (hc : c ∈ controls) :
    StateWrite.ctrl c.field (c.word s.regs.msr) ∈
      writesOf env s hostStack guestCode guestStack := by
  have hcontrol : StateWrite.ctrl c.field (c.word s.regs.msr) ∈ controlWrites s.regs := by
    simp only [controls, primaryControls, secondaryControl, List.mem_cons, List.not_mem_nil,
      or_false] at hc
    rcases hc with rfl | rfl | rfl | rfl | rfl <;> simp [controlWrites, Control.word]
  simp only [writesOf, stateWrites, List.append_assoc]
  exact List.mem_append_left _ hcontrol

/-- It writes nothing else to that field. -/
theorem control_unique {env : Env} {s : Machine} {hostStack guestCode guestStack : BitVec 64}
    {c : Control} (hc : c ∈ controls) {x : StateWrite}
    (hx : x ∈ writesOf env s hostStack guestCode guestStack) (hfield : x.field = c.field) :
    x = .ctrl c.field (c.word s.regs.msr) := by
  have hnodup := stateFields_nodup
  rw [← writesOf_fields env s hostStack guestCode guestStack] at hnodup
  exact List.inj_on_of_nodup_map hnodup hx (control_mem hc) hfield

theorem ctrl_value (field word : BitVec 32) :
    (StateWrite.ctrl field word).value.setWidth 32 = word := by
  show (word.setWidth 64).setWidth 32 = word
  simp

theorem legal_iff {msr : BitVec 32 → BitVec 64} (h : Consistent msr) :
    (∀ c ∈ controls, Legal (msr c.msr) c.desired (c.word msr)) ↔
      (msr ia32VmxSecondaryProcbasedCtls).setWidth 32 = (0 : BitVec 32) := by
  rw [← secondaryWord_legal_iff]
  constructor
  · exact fun hall => hall secondaryControl List.mem_cons_self
  · intro hsecondary c hc
    obtain rfl | hprimary := List.mem_cons.mp hc
    · exact hsecondary
    · have hcompute : c.compute = ctrlWord := by
        simp only [primaryControls, List.mem_cons, List.not_mem_nil, or_false] at hprimary
        rcases hprimary with rfl | rfl | rfl | rfl <;> rfl
      rw [Control.word, hcompute]
      exact ctrlWord_legal (h.primary c hprimary) c.desired

/-! ## Reading the MSRs -/

section Checked

variable {env : Env} {s t : Machine} {hostStack guestCode guestStack : BitVec 64}

theorem rdmsrChecked_returns {msr : BitVec 32}
    (h : msr = ia32VmxSecondaryProcbasedCtls → hasSecondary s.regs.msr = true) :
    Returns (rdmsrChecked msr) s (s.regs.msr msr) s := by
  refine if_neg fun hmissing => ?_
  rw [h hmissing.1] at hmissing
  exact absurd hmissing.2 (by simp)

theorem rdmsrChecked_other {msr : BitVec 32} (h : msr ≠ ia32VmxSecondaryProcbasedCtls) :
    rdmsrChecked msr = rdmsr msr :=
  funext fun _ => if_neg fun hmissing => h hmissing.1

theorem rdmsrChecked_faults (h : hasSecondary s.regs.msr = false) :
    Aborts (rdmsrChecked ia32VmxSecondaryProcbasedCtls) s (.fault .generalProtection) s :=
  if_pos ⟨rfl, h⟩

theorem checked_onMachine (env : Env) : OnMachine (checked env) env where
  machine _ := rfl
  put _ _ := rfl
  rdmsr {msr s a t} h := by
    have hrun : rdmsrChecked msr s = .ok a t := h
    rw [rdmsrChecked] at hrun
    split at hrun
    · cases hrun
    · cases hrun
      rfl
  vmxon := rfl
  vmclear := rfl
  vmptrld := rfl
  vmwrite := rfl

/-- With MSR 0x48B there, nothing is different. -/
theorem checked_writeState (h : hasSecondary s.regs.msr = true) :
    (checked env).writeState env hostStack guestCode guestStack s =
      writeState env hostStack guestCode guestStack s :=
  (checked_onMachine env).writeState fun _ _ _ _ u hu =>
    rdmsrChecked_returns fun _ => by rw [hu]; exact h

/-- Outside VMX operation the first VMWRITE is an invalid opcode. -/
theorem writeState_off (hoff : s.vmx.on = false) :
    Aborts (writeState env hostStack guestCode guestStack) s (.fault .invalidOpcode) s := by
  have hfault : ∀ {ws : List StateWrite}, ws ≠ [] →
      Aborts (writeAll env ws) s (.fault .invalidOpcode) s := by
    intro ws hne
    cases ws with
    | nil => exact absurd rfl hne
    | cons w ws => exact ((vmxInsn_faults hoff).bind _).bind _
  have hne : writesOf env s hostStack guestCode guestStack ≠ [] := by
    intro hnil
    have hfields := writesOf_fields env s hostStack guestCode guestStack
    rw [hnil] at hfields
    exact absurd hfields (by decide)
  exact (writeState_eq env s hostStack guestCode guestStack).trans ((hfault hne).bind _)

/-- `write_state` raises no general-protection exception of its own. -/
theorem writeState_not_gp :
    ¬ Aborts (writeState env hostStack guestCode guestStack) s (.fault .generalProtection) t := by
  intro h
  by_cases hon : s.vmx.on = true
  · cases hacc : accepted env s.trace.length stateFields with
    | true => exact (writeState_returns hon hacc _ _ _).not_aborts h
    | false =>
      obtain ⟨msg, u, hu, -⟩ := writeState_aborts hon hacc hostStack guestCode guestStack
      exact absurd (hu.unique h).1 (by simp)
  · have hoff : s.vmx.on = false := by simpa using hon
    have hfault : Aborts (writeState env hostStack guestCode guestStack) s
        (.fault .invalidOpcode) s := writeState_off hoff
    exact absurd (hfault.unique h).1 (by simp)

/-- A VMWRITE that the processor accepts. -/
theorem issue_returns {x : StateStep} (hon : s.vmx.on = true)
    (hok : ∀ n f, env.vmwriteOk n f = true)
    (hrd : ∀ msr ∈ x.caps, msr ≠ ia32VmxSecondaryProcbasedCtls) :
    Returns ((checked env).issue x) s ⟨⟩ (s.wrote (x.resolved s.regs)) := by
  refine ((checked_onMachine env).issue fun msr hmsr =>
    rdmsrChecked_returns fun h => absurd h (hrd msr hmsr)).trans ?_
  rw [expect_vmwrite env hon, if_pos (hok _ _)]

/-- The third step of a list raises an exception. -/
theorem issueAll_third {w : Wrappers Machine} {u v : Machine} {e : Abort} {x y z : StateStep}
    {xs : List StateStep} (hx : Returns (w.issue x) s ⟨⟩ u) (hy : Returns (w.issue y) u ⟨⟩ v)
    (hz : Aborts (w.issue z) v e v) : Aborts (w.issueAll (x :: y :: z :: xs)) s e v :=
  hx.bind_aborts (hy.bind_aborts (hz.bind _))

/-- **Without MSR 0x48B `write_state` faults**, however willing the processor is
otherwise. -/
theorem checked_writeState_faults (hno : hasSecondary s.regs.msr = false)
    (hon : s.vmx.on = true) (hok : ∀ n f, env.vmwriteOk n f = true) :
    ∃ t, Aborts ((checked env).writeState env hostStack guestCode guestStack) s
      (.fault .generalProtection) t := by
  have hpin : ∀ msr ∈ (StateStep.computed pinBasedCtls ia32VmxPinbasedCtls 0).caps,
      msr ≠ ia32VmxSecondaryProcbasedCtls := by
    rintro _ ⟨⟩
    decide
  have hproc : ∀ msr ∈ (StateStep.computed procBasedCtls ia32VmxProcbasedCtls hltExiting).caps,
      msr ≠ ia32VmxSecondaryProcbasedCtls := by
    rintro _ ⟨⟩
    decide
  -- the first two fields are computed from MSRs that exist
  have hfirst := issue_returns hon hok hpin
  generalize hu : s.wrote _ = u at hfirst
  have huon : u.vmx.on = true := by rw [← hu]; exact hon
  have huregs : u.regs = s.regs := by rw [← hu]; rfl
  have hnext := issue_returns huon hok hproc
  generalize hv : u.wrote _ = v at hnext
  have hvregs : v.regs = s.regs := by rw [← hv]; exact huregs
  -- the third one faults
  have hread : Aborts ((checked env).issue (.secondary secondaryProcBasedCtls 0)) v
      (.fault .generalProtection) v :=
    (rdmsrChecked_faults (by rw [hvregs]; exact hno)).bind _
  obtain ⟨xs, hxs⟩ : ∃ xs, stateSteps s.regs (trBaseOf s) env.hostEntry hostStack guestCode
      guestStack = .computed pinBasedCtls ia32VmxPinbasedCtls 0 ::
        .computed procBasedCtls ia32VmxProcbasedCtls hltExiting ::
        .secondary secondaryProcBasedCtls 0 :: xs := ⟨_, rfl⟩
  have hall : Aborts ((checked env).issueAll (stateSteps s.regs (trBaseOf s) env.hostEntry
      hostStack guestCode guestStack)) s (.fault .generalProtection) v := by
    rw [hxs]
    exact issueAll_third hfirst hnext hread
  refine ⟨v, ?_⟩
  rw [Aborts, Wrappers.writeState]
  exact bind_of_aborts hall _

end Checked

/-! ## In effect -/

/-- Each is a bit of a control that `calc_ctrl` computes; `requested` is whether
`write_state` asks for it. -/
structure Computed (b : Relied) (c : Control) (requested : Bool) : Prop where
  mem : c ∈ primaryControls
  field : c.field = b.field
  msr : c.msr = b.msr
  compute : c.compute = ctrlWord
  desired : c.desired.getLsbD b.bit = requested
  bits : fieldBits c.field = 32
  lt : b.bit < 32

theorem computed_modeControls : ∀ b ∈ modeControls, ∃ c, Computed b c true := by
  intro b hb
  simp only [modeControls, List.mem_cons, List.not_mem_nil, or_false] at hb
  rcases hb with rfl | rfl | rfl
  · exact ⟨_, List.mem_cons_of_mem _ List.mem_cons_self, rfl, rfl, rfl, by decide, rfl, by decide⟩
  · exact ⟨_, List.mem_cons_of_mem _ (List.mem_cons_of_mem _ List.mem_cons_self), rfl, rfl, rfl,
      by decide, rfl, by decide⟩
  · exact ⟨_, List.mem_cons_of_mem _ (List.mem_cons_of_mem _ (List.mem_cons_of_mem _
      List.mem_cons_self)), rfl, rfl, rfl, by decide, rfl, by decide⟩

theorem computed_loadEfer : ∀ b ∈ loadEfer, ∃ c, Computed b c false := by
  intro b hb
  simp only [loadEfer, List.mem_cons, List.not_mem_nil, or_false] at hb
  rcases hb with rfl | rfl
  · exact ⟨_, List.mem_cons_of_mem _ (List.mem_cons_of_mem _ List.mem_cons_self), rfl, rfl, rfl,
      by decide, rfl, by decide⟩
  · exact ⟨_, List.mem_cons_of_mem _ (List.mem_cons_of_mem _ (List.mem_cons_of_mem _
      List.mem_cons_self)), rfl, rfl, rfl, by decide, rfl, by decide⟩

/-- **What is in effect after `setup`** is what was requested or must be, as far
as the MSR allows. -/
theorem checked_setup_bit {env : Env} {s t : Machine} (hsec : hasSecondary s.regs.msr = true)
    (run : SetupRun (checked env) env s t) {b : Relied} {c : Control} {requested : Bool}
    (hb : Computed b c requested) : (t.vmx.fields b.field).getLsbD b.bit =
      ((requested || (s.regs.msr b.msr).getLsbD b.bit) &&
        (s.regs.msr b.msr).getLsbD (32 + b.bit)) := by
  obtain ⟨hc, hfield, hmsr, hcompute, hdesired, hbits, hlt⟩ := hb
  have hfilling := run.filling (checked_onMachine env)
  have hwrite : Returns (writeState env run.guest.hostStack run.guest.guestCode
      run.guest.guestStack) run.entry (.ok ⟨⟩) run.guest.filled := by
    refine (checked_writeState ?_).symm.trans run.guest.writeState
    rw [hfilling.regs]
    exact hsec
  have hvalue := writeState_fields hfilling.current hwrite
    (control_mem (List.mem_cons_of_mem _ hc))
  rw [run.guest.vmx_eq (checked_onMachine env), ← hfield]
  refine (congrArg (fun v : BitVec 64 => v.getLsbD b.bit) hvalue).trans ?_
  rw [hfilling.regs]
  show (fitField c.field ((c.word s.regs.msr).setWidth 64)).getLsbD b.bit = _
  rw [fitField, hbits, Control.word, hcompute, hmsr]
  have hword := ctrlWord_bit (s.regs.msr b.msr) c.desired hlt
  rw [hdesired] at hword
  simp only [BitVec.getLsbD_setWidth, hword, hlt, show b.bit < 64 by omega, decide_true,
    Bool.true_and]

/-- On processors that ask for no bit that they forbid, load-EFER is in effect
only where it must be. -/
theorem loadEfer_setup_bit {env : Env} {s t : Machine} (hcons : Consistent s.regs.msr)
    (hsec : hasSecondary s.regs.msr = true) (run : SetupRun (checked env) env s t) {b : Relied}
    (hb : b ∈ loadEfer) :
    (t.vmx.fields b.field).getLsbD b.bit = (s.regs.msr b.msr).getLsbD b.bit := by
  obtain ⟨c, hc⟩ := computed_loadEfer b hb
  rw [checked_setup_bit hsec run hc, Bool.false_or]
  cases hmust : (s.regs.msr b.msr).getLsbD b.bit with
  | false => rfl
  | true => rw [← hc.msr, hcons.primary c hc.mem b.bit hc.lt (hc.msr ▸ hmust)]; rfl

theorem modeControls_setup_bit {env : Env} {s t : Machine}
    (hsec : hasSecondary s.regs.msr = true) (run : SetupRun (checked env) env s t) {b : Relied}
    (hb : b ∈ modeControls) :
    (t.vmx.fields b.field).getLsbD b.bit = (s.regs.msr b.msr).getLsbD (32 + b.bit) := by
  obtain ⟨c, hc⟩ := computed_modeControls b hb
  rw [checked_setup_bit hsec run hc, Bool.true_or, Bool.true_and]

/-- A run with MSR 0x48B there is a run that does not ask whether it is. -/
def SetupRun.check {env : Env} {s t : Machine} (run : SetupRun (named env) env s t)
    (hsec : hasSecondary s.regs.msr = true) : SetupRun (checked env) env s t where
  vmxonRegion := run.vmxonRegion
  vmcsRegion := run.vmcsRegion
  revision := run.revision
  entered := run.entered
  read := run.read
  cleared := run.cleared
  loaded := run.loaded
  vmxonPage := run.vmxonPage
  vmxon := run.vmxon
  vmcsPage := run.vmcsPage
  basic := by
    have hsame : (checked env).rdmsr 0x480#32 = (named env).rdmsr 0x480#32 :=
      show rdmsrChecked 0x480#32 = rdmsr 0x480#32 from rdmsrChecked_other (by decide)
    rw [hsame]
    exact run.basic
  vmclear := run.vmclear
  vmptrld := run.vmptrld
  guest :=
    { hostStack := run.guest.hostStack
      guestCode := run.guest.guestCode
      guestStack := run.guest.guestStack
      filled := run.guest.filled
      stackPages := run.guest.stackPages
      codePage := run.guest.codePage
      stackPage := run.guest.stackPage
      writeState := by
        have hfilling := run.filling (named_onMachine env)
        have hnamed : (named env).writeState env run.guest.hostStack run.guest.guestCode
            run.guest.guestStack run.entry = writeState env run.guest.hostStack
            run.guest.guestCode run.guest.guestStack run.entry :=
          (named_onMachine env).writeState fun _ _ _ _ _ _ => rfl
        refine (checked_writeState ?_).trans (hnamed.symm.trans run.guest.writeState)
        show hasSecondary run.entry.regs.msr = true
        rw [hfilling.regs]
        exact hsec
      done := run.guest.done }

/-- The machine that firmware hands over, with other MSRs. -/
def bootWith (msr : BitVec 32 → BitVec 64) : Machine :=
  bootMachine.setRegs { bootMachine.regs with msr := msr }

theorem accepted_of_willing {env : Env} (h : ∀ n f, env.vmwriteOk n f = true) :
    ∀ (fields : List (BitVec 32)) (n : Nat), accepted env n fields = true
  | [], _ => rfl
  | f :: fields, n => by rw [accepted, h n f, accepted_of_willing h fields (n + 1)]; rfl

theorem bootMachine_table : bootMachine.st.systemTable ≠ 0 := by decide

/-- Everything is granted, on a processor that CPUID describes so. -/
def grantingOn (cpuid : BitVec 32 → BitVec 32 → BitVec 32 × BitVec 32 × BitVec 32) : Env :=
  { grantingEnv with cpuid := cpuid }

/-- With a processor that accepts everything, `setup` returns `Ok`. -/
theorem setup_granting (cpuid : BitVec 32 → BitVec 32 → BitVec 32 × BitVec 32 × BitVec 32)
    {s : Machine} (hactive : s.vmx.active = [])
    (htable : s.st.systemTable ≠ 0) : ∃ t, Returns (setup (grantingOn cpuid)) s (.ok ⟨⟩) t := by
  have halloc : ∀ n pages, allocAnswer (grantingOn cpuid) s.st.systemTable n pages =
      .ok (0x100000 + 0x4000 * BitVec.ofNat 64 n) := by
    intro n pages
    rw [allocAnswer, if_neg htable]
    rfl
  have hstacks : ∀ n, stacksOk (grantingOn cpuid) s.st.systemTable n = true := by
    intro n
    simp only [stacksOk, allocOk, halloc]
    rfl
  have hvmxon : ∀ n region, (grantingOn cpuid).vmxonOk n region = true := fun _ _ => rfl
  have hclear : ∀ n region, (grantingOn cpuid).vmclearOk n region = true := fun _ _ => rfl
  have hload : ∀ n region, (grantingOn cpuid).vmptrldOk n region = true := fun _ _ => rfl
  have haccepted : ∀ n, accepted (grantingOn cpuid) n stateFields = true :=
    accepted_of_willing (fun _ _ => rfl) stateFields
  obtain ⟨region, vmcs, hstop⟩ :
      ∃ region vmcs, setupStop (grantingOn cpuid) s = .done region vmcs := by
    simp only [setupStop, halloc, hstacks, hvmxon, hclear, hload, haccepted, if_true]
    exact ⟨_, _, rfl⟩
  have hends := setup_spec (grantingOn cpuid) s hactive
  rw [hstop, Ends] at hends
  cases hrun : setup (grantingOn cpuid) s with
  | error e t =>
    rw [hrun] at hends
    exact hends.elim
  | ok r t =>
    rw [hrun] at hends
    cases r with
    | ok _ => exact ⟨t, hrun⟩
    | error e => exact absurd hends.1 (by simp [Except.isOk, Except.toBool])

/-- A processor in VMX operation without MSR 0x48B. -/
theorem checked_writeState_faults_boot {msr : BitVec 32 → BitVec 64}
    (h : hasSecondary msr = false) :
    ∃ t, Aborts ((checked grantingEnv).writeState grantingEnv 0 0 0)
      ((bootWith msr).setVmx vmxMachine.vmx) (.fault .generalProtection) t :=
  checked_writeState_faults h rfl fun _ _ => rfl

theorem ControlsSafe.capable {msr : BitVec 32 → BitVec 64} (h : Consistent msr)
    (hsafe : ControlsSafe msr) : Capable msr := by
  -- without the secondary MSR the third read faults
  have hsec : hasSecondary msr = true := by
    cases hsec : hasSecondary msr with
    | true => rfl
    | false =>
      obtain ⟨t, ht⟩ := checked_writeState_faults_boot hsec
      exact absurd ht (hsafe.exists_read grantingEnv _ _ _ _ t rfl)
  -- the bits relied on, in the run of a machine with these MSRs
  obtain ⟨t, ht⟩ : ∃ t, Returns (setup grantingEnv) (bootWith msr) (.ok ⟨⟩) t :=
    setup_granting grantingEnv.cpuid rfl bootMachine_table
  rw [← named_setup] at ht
  obtain ⟨run⟩ := setup_returns_iff.mp ht
  have hbits := hsafe.inEffect grantingEnv (bootWith msr) t rfl (run.check hsec).returns
  refine ⟨hsec, ?_, fun b hb => ?_, fun b hb => ?_⟩
  · refine (legal_iff h).mp fun c hc => ?_
    have hlegal := hsafe.legal grantingEnv (bootWith msr) 0 0 0 rfl _ (control_mem hc) c hc rfl
    rw [ctrl_value] at hlegal
    exact hlegal
  · rw [← hbits b (List.mem_append_left _ hb)]
    exact (modeControls_setup_bit (s := bootWith msr) hsec (run.check hsec) hb).symm
  · rw [← hbits b (List.mem_append_right _ hb)]
    exact (loadEfer_setup_bit (s := bootWith msr) h hsec (run.check hsec) hb).symm

theorem Capable.controlsSafe {msr : BitVec 32 → BitVec 64} (h : Consistent msr)
    (hcap : Capable msr) : ControlsSafe msr := by
  refine ⟨?_, ?_, ?_⟩
  · rintro env s hostStack guestCode guestStack rfl x hx c hc hfield
    rw [control_unique hc hx hfield, ctrl_value]
    exact (legal_iff h).mpr hcap.optional c hc
  · rintro env s hostStack guestCode guestStack t rfl haborts
    have hplain : Aborts (writeState env hostStack guestCode guestStack) s
        (.fault .generalProtection) t :=
      (checked_writeState hcap.hasSecondary).symm.trans haborts
    exact writeState_not_gp hplain
  · rintro env s t rfl hreturns b hb
    obtain ⟨run⟩ := setup_returns_iff.mp hreturns
    obtain hb | hb := List.mem_append.mp hb
    · rw [modeControls_setup_bit hcap.hasSecondary run hb]
      exact hcap.allowed b hb
    · rw [loadEfer_setup_bit h hcap.hasSecondary run hb]
      exact hcap.forced b hb

/-- **The controls are right on the processors that have what `write_state`
takes for granted**, and on no others. -/
theorem controlsSafe_iff (msr : BitVec 32 → BitVec 64) (h : Consistent msr) :
    ControlsSafe msr ↔ Capable msr :=
  ⟨ControlsSafe.capable h, Capable.controlsSafe h⟩

/-- A processor that allows every control and asks for none: load-EFER is off. -/
theorem not_controlsSafe_allAllowed : ¬ ControlsSafe fun _ => 0xFFFFFFFF00000000 := by
  have hconsistent : Consistent fun _ => 0xFFFFFFFF00000000 := by
    have hlow : ∀ i : Fin 32, (0xFFFFFFFF00000000 : BitVec 64).getLsbD i = false := by decide
    refine ⟨fun c _ i hi hmust => ?_, fun _ i hi hmust => ?_⟩ <;>
      exact absurd ((hlow ⟨i, hi⟩).symm.trans hmust) Bool.false_ne_true
  intro hsafe
  have hforced := (hsafe.capable hconsistent).forced _ List.mem_cons_self
  exact absurd hforced (by decide)

/-- A processor with every primary control and no secondary ones. -/
def noSecondaryMsrs : BitVec 32 → BitVec 64 := fun m =>
  if m = ia32VmxSecondaryProcbasedCtls then 0 else 0x7FFFFFFF00000000

theorem noSecondaryMsrs_consistent : Consistent noSecondaryMsrs where
  primary := by
    intro c hc i _ hmust
    simp only [primaryControls, List.mem_cons, List.not_mem_nil, or_false] at hc
    have hlow : ∀ i : Fin 32, (0x7FFFFFFF00000000 : BitVec 64).getLsbD i = false := by decide
    rcases hc with rfl | rfl | rfl | rfl <;>
      exact absurd ((hlow ⟨i, by assumption⟩).symm.trans hmust) Bool.false_ne_true
  secondary h := absurd h (by decide)

/-- On it `write_state` reads a MSR that does not exist. -/
theorem not_controlsSafe_noSecondary :
    ¬ ∀ msr, Consistent msr → ControlsSafe msr := by
  intro h
  obtain ⟨t, ht⟩ := @checked_writeState_faults_boot noSecondaryMsrs (by decide)
  exact (h noSecondaryMsrs noSecondaryMsrs_consistent).exists_read grantingEnv _ 0 0 0 t rfl ht

/-- The condition on that processor. -/
theorem controlsSafe_iff_noSecondary : ControlsSafe noSecondaryMsrs ↔ Capable noSecondaryMsrs :=
  controlsSafe_iff noSecondaryMsrs noSecondaryMsrs_consistent

end MochiVM.Hv
