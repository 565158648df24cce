import MochiVM.Hv.HostEntry
import MochiVM.Hv.BringUp
import MochiVM.Lib.Runs

/-!
# The exit loop

The guest runs until the processor takes a VM exit; `host_entry` then runs until
VMRESUME gives the processor back or it halts. `exitStep` is one such turn and a
run of the loop is a sequence of exits, each with any reason and any state of
the guest's registers, memory and VMCS fields.

`exit_turn` says what one turn does, `exitLoop_run` what a whole run does: the
guest is resumed until the first exit that is not a HLT or is the fifth, which
leaves VMX operation for good.
-/

namespace MochiVM.Hv

open MochiVM.Panic MochiVM.Runs

/-! ## VM exits -/

/-- A VM exit: what the guest and the processor leave to the host. The guest can
write any memory. `regs` are the registers loaded from the host-state area,
which is more than enough to leave open. -/
structure Exit where
  gpr : Gpr → BitVec 64
  regs : Regs
  mem : Addr → BitVec 8
  /-- The VMCS fields outside the host-state area. -/
  vmcs : BitVec 32 → BitVec 64
  /-- What the compiled handler leaves behind. -/
  scratch : Scratch

/-- A field of the host-state area: bits 11:10 of its encoding are 3. A VM exit
does not change it. -/
def hostField (field : BitVec 32) : Bool := (field >>> 10).setWidth 2 == 3#2

/-- The machine at the first instruction of `host_entry`. -/
def Machine.exited (s : Machine) (e : Exit) : Machine :=
  ((s.setRegs e.regs).setMem e.mem).setVmx
    (s.vmx.setFields fun f => if hostField f then s.vmx.fields f else e.vmcs f)

/-- The processor at the first instruction of `host_entry`. -/
def Exit.entry (e : Exit) (s : Machine) : Cpu where
  gpr := e.gpr
  rsp := (s.exited e).vmx.fields hostRsp
  zf := false
  pc := 0
  mode := .host
  machine := s.exited e
  answer := none

def Exit.isHlt (e : Exit) : Bool := e.vmcs exitReason == exitReasonHlt

/-- Whether the handler stops at this exit, after `hlts` HLT exits. -/
def Exit.stops (e : Exit) (hlts : Nat) : Bool := !e.isHlt || decide (hlts + 1 = 5)

/-- The number of HLT exits. -/
def hltCount (es : List Exit) : Nat := es.countP Exit.isHlt

/-- The processor after `host_entry`'s turn: it has left, or it halts
(`exit_turn`), and then stays so (`iterate_done`). -/
def Exit.turn (env : Env) (s : Machine) (e : Exit) : Cpu :=
  (Cpu.step env e.scratch)^[36] (e.entry s)

/-! ## The loop -/

/-- An exit that was taken: the machine it left to the host, and the processor
after `host_entry`'s turn. -/
structure Turn where
  exit : Exit
  before : Machine
  cpu : Cpu

/-- The VMX instructions of a turn. -/
def Turn.insns (x : Turn) : List VmxInsn :=
  (x.cpu.machine.trace.drop x.before.trace.length).map Event.insn

/-- The loop between two exits. -/
structure LoopState where
  machine : Machine
  /-- `guest` while the guest runs. -/
  mode : Mode
  turns : List Turn

/-- The loop as `enter_guest` starts it. -/
def LoopState.start (s : Machine) : LoopState := ⟨s, .guest, []⟩

/-- One exit, which only a running guest can take. -/
def exitStep (env : Env) (s : LoopState) (e : Exit) : Option LoopState :=
  match s.mode with
  | .guest =>
    let c := e.turn env s.machine
    some ⟨c.machine, c.mode, s.turns ++ [⟨e, s.machine.exited e, c⟩]⟩
  | .host | .aborted _ => none

theorem exitStep_guest (env : Env) {s : LoopState} (hmode : s.mode = .guest) (e : Exit) :
    exitStep env s e = some ⟨(e.turn env s.machine).machine, (e.turn env s.machine).mode,
      s.turns ++ [⟨e, s.machine.exited e, e.turn env s.machine⟩]⟩ := by
  rw [exitStep, hmode]

/-! ## One turn -/

/-- The VMX instructions that look at an exit and, for a HLT, step over it. -/
def Exit.lookInsns (e : Exit) : List VmxInsn :=
  if e.isHlt then
    [.vmread exitReason, .vmread guestRip, .vmwrite guestRip (e.vmcs guestRip + 1)]
  else [.vmread exitReason, .vmread exitQualification]

/-- What a turn does after `hlts` HLT exits, the VMCS being `region`. -/
structure TurnSpec (env : Env) (region : Addr) (hlts : Nat) (x : Turn) : Prop where
  found : x.before.Live region
  rip : x.before.vmx.fields guestRip = x.exit.vmcs guestRip
  done : x.cpu.Done
  answer : x.cpu.answer = some (if x.exit.stops hlts then 1 else 0)
  insns : x.cpu.machine.trace.map Event.insn = x.before.trace.map Event.insn ++
    (x.exit.lookInsns ++ if x.exit.stops hlts then [.vmclear region, .vmxoff] else [.vmresume])
  count : x.cpu.machine.st.exitCount.toNat = hlts + if x.exit.isHlt then 1 else 0
  /-- Only GUEST_RIP changes, by one, and only for a HLT. -/
  fields : (∀ n, env.vmwriteOk n guestRip = true) → ∀ f, x.cpu.machine.vmx.data region f =
    if x.exit.isHlt ∧ f = guestRip then x.before.vmx.data region f + 1
    else x.before.vmx.data region f
  live : x.exit.stops hlts = false → x.cpu.machine.Live region
  resumed : x.exit.stops hlts = false → (∀ n, env.vmresumeOk n = true) → x.cpu.mode = .guest
  down : x.exit.stops hlts = true → x.cpu.machine.Down ∧ x.cpu.mode = .host

section Turn

variable {env : Env} {s : Machine} {region : Addr}

/-- Outside the host-state area, an exit decides what is read. -/
theorem exited_fields (hcur : s.vmx.current = some region) (e : Exit) {f : BitVec 32}
    (hf : hostField f = false) : (s.exited e).vmx.fields f = e.vmcs f := by
  simp [Machine.exited, Vmx.setFields, Vmx.fields, hcur, hf]

theorem Machine.Live.exited (hs : s.Live region) (e : Exit) : (s.exited e).Live region :=
  ⟨hs.on, hs.current, hs.region, hs.flag⟩

theorem exited_hltExit (hs : s.Live region) (e : Exit) : (s.exited e).hltExit = e.isHlt := by
  rw [Machine.hltExit, exited_fields hs.current e (by decide), Exit.isHlt]

theorem toNat_succ {v : BitVec 64} {n : Nat} (h : v.toNat = n) (hlt : n < 5) :
    (v + 1).toNat = n + 1 := by
  rw [BitVec.toNat_add, h]
  exact Nat.mod_eq_of_lt (show n + 1 < 2 ^ 64 by omega)

theorem exited_stopsAt (hs : s.Live region) (e : Exit) {hlts : Nat}
    (hcount : s.st.exitCount.toNat = hlts) (hlt : hlts < 5) :
    (s.exited e).stopsAt = e.stops hlts := by
  have hsum := toNat_succ hcount hlt
  have hfifth : s.st.exitCount + 1 ≥ maxHltExits ↔ hlts + 1 = 5 := by
    show maxHltExits.toNat ≤ (s.st.exitCount + 1).toNat ↔ _
    rw [hsum, show maxHltExits.toNat = 5 from rfl]
    omega
  rw [Machine.stopsAt, exited_hltExit hs, Exit.stops]
  exact congrArg (!e.isHlt || ·) (decide_eq_decide.mpr hfifth)

/-- The instructions of the handler, read off the exit. -/
theorem exited_handlerInsns (hs : s.Live region) (e : Exit) {hlts : Nat}
    (hcount : s.st.exitCount.toNat = hlts) (hlt : hlts < 5) :
    (s.exited e).handlerInsns =
      e.lookInsns ++ if e.stops hlts then [.vmclear region, .vmxoff] else [] := by
  rw [Exit.lookInsns, Machine.handlerInsns, Machine.lookInsns, exited_hltExit hs,
    exited_stopsAt hs e hcount hlt,
    exited_fields hs.current e (by decide), (hs.exited e).region]

/-- What the handler answers and leaves, in terms of the exit. -/
structure ExitHandled (env : Env) (s : Machine) (region : Addr) (e : Exit) (hlts : Nat)
    (al : BitVec 8) (t : Machine) : Prop where
  answer : al = if e.stops hlts then 1 else 0
  insns : t.trace.map Event.insn = (s.exited e).trace.map Event.insn ++
    (e.lookInsns ++ if e.stops hlts then [.vmclear region, .vmxoff] else [])
  count : t.st.exitCount.toNat = hlts + if e.isHlt then 1 else 0
  fields : (∀ n, env.vmwriteOk n guestRip = true) → ∀ f, t.vmx.data region f =
    if e.isHlt ∧ f = guestRip then (s.exited e).vmx.data region f + 1
    else (s.exited e).vmx.data region f
  live : e.stops hlts = false → t.Live region
  down : e.stops hlts = true → t.Down

/-- The handler, called from `host_entry`, returns. -/
theorem handler_called (hs : s.Live region) (e : Exit) :
    ∃ al t, Returns (exitHandler env) ((e.entry s).atCall env e.scratch) al t ∧
      Handles env ((e.entry s).atCall env e.scratch) region al t := by
  have hexited := hs.exited e
  have hlive : ((e.entry s).atCall env e.scratch).Live region := by
    rw [atCall_eq]
    exact ⟨hexited.on, hexited.current, hexited.region, hexited.flag⟩
  obtain h | ⟨_, _, _, h⟩ := (exitHandler_spec hlive).cases
  · exact h
  · exact h.elim

/-- What it answers and leaves. -/
theorem exit_handled (hs : s.Live region) (e : Exit) {hlts : Nat}
    (hcount : s.st.exitCount.toNat = hlts) (hlt : hlts < 5) :
    ∃ al t, Returns (exitHandler env) ((e.entry s).atCall env e.scratch) al t ∧
      ExitHandled env s region e hlts al t := by
  obtain ⟨al, t, hret, ht⟩ := @handler_called env _ _ hs e
  have hcall : (e.entry s).atCall env e.scratch =
      (s.exited e).setMem ((e.entry s).atCall env e.scratch).mem := atCall_eq env e.scratch _
  generalize (e.entry s).atCall env e.scratch = call at *
  generalize call.mem = mem at hcall
  have hhlt : call.hltExit = e.isHlt := by rw [hcall]; exact exited_hltExit hs e
  have hstops : call.stopsAt = e.stops hlts := by
    rw [hcall]
    exact exited_stopsAt hs e hcount hlt
  refine ⟨al, t, hret, ?_, ?_, ?_, ?_, ?_, ?_⟩
  · rw [← hstops]
    exact ht.answer
  · rw [← exited_handlerInsns hs e hcount hlt, ht.insns, hcall]
    rfl
  · rw [ht.count, hhlt, hcall]
    cases e.isHlt with
    | false => exact hcount
    | true => exact toNat_succ hcount hlt
  · intro hrip f
    rw [ht.fields hrip, hhlt, hcall]
    by_cases hf : f = guestRip
    · rw [hf]
      rfl
    · rw [if_neg (by simp [hf]), if_neg (by simp [hf])]
      rfl
  · exact fun h => ht.live (hstops.trans h)
  · exact fun h => ht.down (hstops.trans h)

/-- VMRESUME in VMX operation: the guest runs, or control falls into the halt
loop. -/
theorem vmresume_live {c : Cpu} (hc : c.machine.Live region) (hmode : c.mode = .host)
    (hpc : c.pc = 35) :
    (c.vmresume env).machine = c.machine.record .vmresume ∧ (c.vmresume env).Done ∧
      (c.vmresume env).answer = c.answer ∧
      ((∀ n, env.vmresumeOk n = true) → (c.vmresume env).mode = .guest) := by
  rw [Cpu.vmresume, if_pos hc.on, hc.current, Option.isSome_some, Bool.true_and]
  split
  · exact ⟨rfl, .inl (by simp), rfl, fun _ => rfl⟩
  next hno => exact ⟨rfl, .inr ⟨hmode, by simp [hpc]⟩, rfl, fun h => absurd (h _) hno⟩

/-- A turn is the code up to the branch on what the handler returned, and one
step more. -/
theorem turn_dispatched {e : Exit} {al : BitVec 8} {t : Machine}
    (hret : Returns (exitHandler env) ((e.entry s).atCall env e.scratch) al t) :
    ∃ d : Cpu, e.turn env s = d.step env e.scratch ∧
      (∃ mem, d.machine = t.setMem mem) ∧ d.mode = .host ∧
      d.answer = some al ∧ d.pc = if al = 0 then 35 else 54 := by
  obtain ⟨hrun, hmachine, hmode, hanswer, hpc⟩ :=
    iterate_dispatched (c := e.entry s) rfl rfl hret
  refine ⟨(e.entry s).dispatched env e.scratch, ?_, ⟨_, hmachine⟩, hmode, hanswer, hpc⟩
  rw [← hrun]
  exact Function.iterate_succ_apply' (Cpu.step env e.scratch) 35 (e.entry s)

/-- **One turn of `host_entry`.** -/
theorem exit_turn (hs : s.Live region) (e : Exit) {hlts : Nat}
    (hcount : s.st.exitCount.toNat = hlts) (hlt : hlts < 5) :
    TurnSpec env region hlts ⟨e, s.exited e, e.turn env s⟩ := by
  obtain ⟨al, t, hret, ht⟩ := exit_handled hs e hcount hlt
  obtain ⟨d, hturn, ⟨mem, hmachine⟩, hmode, hanswer, hpc⟩ := turn_dispatched hret
  rw [hturn]
  have hal := ht.answer
  have hinsns := ht.insns
  cases hstop : e.stops hlts with
  -- the handler answered 0: VMRESUME
  | false =>
    rw [hstop, if_neg Bool.false_ne_true] at hal
    rw [hal, if_pos rfl] at hpc
    have hlive := ht.live hstop
    rw [step_of_fetch (i := .vmresume) hmode (by rw [hpc]; rfl)]
    obtain ⟨hmachine', hdone, hanswer', hguest⟩ := @vmresume_live env region d
      (by rw [hmachine]; exact ⟨hlive.on, hlive.current, hlive.region, hlive.flag⟩) hmode hpc
    change TurnSpec env region hlts ⟨e, s.exited e, d.vmresume env⟩
    generalize d.vmresume env = d' at *
    rw [hmachine] at hmachine'
    refine ⟨hs.exited e, exited_fields hs.current e (by decide), hdone, ?_, ?_, ?_, ?_, ?_,
      fun _ => hguest, ?_⟩
    · rw [hanswer', hanswer, hal, hstop]
      rfl
    · rw [hstop, if_neg Bool.false_ne_true, List.append_nil] at hinsns
      simp only [hmachine', Machine.record_trace, Machine.setMem_trace, List.map_append, hinsns,
        hstop, Bool.false_eq_true, if_false, List.append_assoc]
      rfl
    · rw [hmachine']
      exact ht.count
    · rw [hmachine']
      exact ht.fields
    · rw [hmachine']
      exact fun _ => ⟨hlive.on, hlive.current, hlive.region, hlive.flag⟩
    · exact fun h => absurd (hstop.symm.trans h) Bool.false_ne_true
  -- it answered 1, VMX being off: the halt loop
  | true =>
    rw [hstop, if_pos rfl] at hal
    rw [hal, if_neg (by decide)] at hpc
    obtain ⟨hdone, hmachine', hanswer'⟩ := @step_halting env e.scratch d
      ⟨hmode, .inr (by omega)⟩
    generalize d.step env e.scratch = d' at *
    rw [hmachine] at hmachine'
    refine ⟨hs.exited e, exited_fields hs.current e (by decide), .inr hdone, ?_, ?_, ?_, ?_, ?_,
      ?_, ?_⟩
    · rw [hanswer', hanswer, hal, hstop]
      rfl
    · rw [hmachine', hstop]
      rw [hstop] at hinsns
      exact hinsns
    · rw [hmachine']
      exact ht.count
    · rw [hmachine']
      exact ht.fields
    · exact fun h => absurd (h.symm.trans hstop) Bool.false_ne_true
    · exact fun h => absurd (h.symm.trans hstop) Bool.false_ne_true
    · have hdown := ht.down hstop
      rw [hmachine']
      exact fun _ => ⟨⟨hdown.off, hdown.vmxe, hdown.flag⟩, hdone.1⟩

/-- The instructions of a turn are the new ones of the trace. -/
theorem TurnSpec.insns_eq {hlts : Nat} {x : Turn} (h : TurnSpec env region hlts x) :
    x.insns = x.exit.lookInsns ++
      if x.exit.stops hlts then [.vmclear region, .vmxoff] else [.vmresume] := by
  rw [Turn.insns, List.map_drop, h.insns, List.drop_left' (List.length_map _)]

theorem TurnSpec.trace_eq {hlts : Nat} {x : Turn} (h : TurnSpec env region hlts x) :
    x.cpu.machine.trace.map Event.insn = x.before.trace.map Event.insn ++ x.insns := by
  rw [h.insns_eq, h.insns]

theorem TurnSpec.answer_eq_one {hlts : Nat} {x : Turn} (h : TurnSpec env region hlts x) :
    x.cpu.answer = some 1 ↔ x.exit.stops hlts = true := by
  rw [h.answer]
  cases x.exit.stops hlts <;> simp

/-- How often an instruction that does not look at the exit is executed. -/
theorem TurnSpec.count_insns {hlts : Nat} {x : Turn} (h : TurnSpec env region hlts x)
    {insn : VmxInsn} (hinsn : insn ∉ x.exit.lookInsns) :
    x.insns.count insn =
      (if x.exit.stops hlts then [.vmclear region, .vmxoff] else [.vmresume]).count insn := by
  rw [h.insns_eq, List.count_append, List.count_eq_zero_of_not_mem hinsn, Nat.zero_add]

/-- The one VMWRITE of a turn. -/
theorem TurnSpec.vmwrite_mem {hlts : Nat} {x : Turn} (h : TurnSpec env region hlts x)
    {f : BitVec 32} {v : BitVec 64} (hmem : .vmwrite f v ∈ x.insns) :
    x.exit.isHlt = true ∧ f = guestRip ∧ v = x.before.vmx.fields guestRip + 1 := by
  have htail : .vmwrite f v ∉
      if x.exit.stops hlts then [VmxInsn.vmclear region, .vmxoff] else [.vmresume] := by
    split <;> simp
  rw [h.insns_eq, List.mem_append] at hmem
  have hlook := hmem.resolve_right htail
  rw [Exit.lookInsns] at hlook
  cases hhlt : x.exit.isHlt with
  | false => simp [hhlt] at hlook
  | true =>
    rw [h.rip]
    simpa [hhlt] using hlook

theorem not_mem_lookInsns (e : Exit) :
    VmxInsn.vmresume ∉ e.lookInsns ∧ VmxInsn.vmxoff ∉ e.lookInsns := by
  rw [Exit.lookInsns]
  cases e.isHlt <;> simp

end Turn

/-! ## Whole runs -/

/-- What a run of the loop from `s` over the exits `es` keeps. -/
structure LoopInv (env : Env) (region : Addr) (s : Machine) (es : List Exit) (t : LoopState) :
    Prop where
  exits : t.turns.map Turn.exit = es
  turn : ∀ i x, t.turns[i]? = some x → TurnSpec env region (hltCount (es.take i)) x
  trace : t.machine.trace.map Event.insn =
    s.trace.map Event.insn ++ t.turns.flatMap Turn.insns
  guest : t.mode = .guest → t.machine.Live region ∧
    t.machine.st.exitCount.toNat = hltCount es ∧ hltCount es < 5
  last : ∀ i x, t.turns[i]? = some x → x.exit.stops (hltCount (es.take i)) = true →
    i + 1 = es.length ∧ t.machine = x.cpu.machine ∧ t.mode = x.cpu.mode

theorem hltCount_concat (es : List Exit) (e : Exit) :
    hltCount (es ++ [e]) = hltCount es + if e.isHlt then 1 else 0 := by
  rw [hltCount, List.countP_append, List.countP_singleton]
  rfl

/-- A running guest has not been stopped, and has not halted five times. -/
theorem hltCount_lt {e : Exit} {hlts : Nat} (hlt : hlts < 5) (h : e.stops hlts = false) :
    hlts + (if e.isHlt then 1 else 0) < 5 := by
  rw [Exit.stops, Bool.or_eq_false_iff, decide_eq_false_iff_not] at h
  split <;> omega

/-- The machine the loop starts from: as `setup` leaves it on success. -/
structure Launched (s : Machine) (region : Addr) : Prop where
  live : s.Live region
  exitCount : s.st.exitCount = 0

/-- **`setup` leaves the machine the loop starts from.** -/
theorem setup_launched {env : Env} {s t : Machine} (hactive : s.vmx.active = [])
    (hcount : s.st.exitCount = 0) (h : Returns (setup env) s (.ok ⟨⟩) t) :
    ∃ region, Launched t region := by
  have hspec := (ends_of_returns h).mp (setup_spec env s hactive)
  cases hstop : setupStop env s <;> rw [hstop] at hspec
  case noVmxonPage | vmxonFails => exact absurd hspec.1 (by simp [Except.isOk, Except.toBool])
  case noVmcsPage | vmclearFails | vmptrldFails | noStack =>
    exact absurd hspec.1 (by simp [Except.isOk, Except.toBool])
  case vmwriteRejected => exact hspec.elim
  case done region vmcs =>
    obtain ⟨-, hon, hcurrent, hregion, hflag, hcount'⟩ := hspec
    exact ⟨vmcs, ⟨hon, hcurrent, hregion, hflag⟩, hcount'.trans hcount⟩

theorem loopInv_start {env : Env} {s : Machine} {region : Addr} (hs : Launched s region) :
    LoopInv env region s [] (.start s) where
  exits := rfl
  turn := fun _ _ h => by cases h
  trace := (List.append_nil _).symm
  guest := fun _ => ⟨hs.live, by show s.st.exitCount.toNat = 0; rw [hs.exitCount]; rfl, by decide⟩
  last := fun _ _ h => by cases h

/-- One exit keeps the invariant. -/
theorem exitStep_inv {env : Env} {region : Addr} {s : Machine} {es : List Exit}
    {t u : LoopState} {e : Exit} (h : LoopInv env region s es t)
    (hstep : exitStep env t e = some u) : LoopInv env region s (es ++ [e]) u := by
  cases hmode : t.mode with
  | host | aborted => simp [exitStep, hmode] at hstep
  | guest =>
  obtain ⟨hlive, hcount, hlt⟩ := h.guest hmode
  have hspec := @exit_turn env _ _ hlive e _ hcount hlt
  rw [exitStep_guest env hmode] at hstep
  generalize e.turn env t.machine = c at hspec hstep
  obtain rfl := Option.some.inj hstep
  have hlen : t.turns.length = es.length := by rw [← h.exits, List.length_map]
  -- the turns so far keep their place in the longer sequence
  have hold : ∀ {i x}, t.turns[i]? = some x → (es ++ [e]).take i = es.take i := by
    intro i x hx
    have := (List.getElem?_eq_some_iff.mp hx).1
    exact List.take_append_of_le_length (by omega)
  have hnew : (es ++ [e]).take t.turns.length = es := by rw [hlen, List.take_left]
  refine ⟨?_, ?_, ?_, ?_, ?_⟩
  · rw [List.map_append, h.exits]
    rfl
  · intro i x hx
    obtain ⟨-, hx⟩ | ⟨rfl, rfl⟩ := getElem?_concat_cases hx
    · rw [hold hx]
      exact h.turn i x hx
    · rw [hnew]
      exact hspec
  · have htrace := hspec.trace_eq
    rw [List.flatMap_append, ← List.append_assoc, ← h.trace]
    exact htrace.trans (by rw [List.flatMap_singleton]; rfl)
  · -- a guest that runs on was not stopped by this exit
    intro hguest
    have hstop : e.stops (hltCount es) = false := by
      cases hstop : e.stops (hltCount es) with
      | false => rfl
      | true => exact absurd (hguest.symm.trans (hspec.down hstop).2) (by simp)
    refine ⟨hspec.live hstop, ?_, ?_⟩
    · rw [hltCount_concat]
      exact hspec.count
    · rw [hltCount_concat]
      exact hltCount_lt hlt hstop
  · intro i x hx hstop
    obtain ⟨-, hx⟩ | ⟨rfl, rfl⟩ := getElem?_concat_cases hx
    · -- a guest that was stopped does not run
      rw [hold hx] at hstop
      have hhost := ((h.turn i x hx).down hstop).2
      rw [← (h.last i x hx hstop).2.2, hmode] at hhost
      cases hhost
    · exact ⟨by rw [hlen, List.length_append]; rfl, rfl, rfl⟩

/-- **The invariant holds after every run.** -/
theorem loop_inv {env : Env} {region : Addr} {s : Machine} (hs : Launched s region)
    {es : List Exit} {t : LoopState} (h : run (exitStep env) (.start s) es = some t) :
    LoopInv env region s es t :=
  run_inv_history (I := LoopInv env region s) (fun _ _ _ _ hi hstep => exitStep_inv hi hstep)
    (loopInv_start hs) h

/-- A guest that is resumed takes any further exit: there is a run over every
sequence of exits of which only the last stops the loop. -/
theorem loop_total {env : Env} (hresume : ∀ n, env.vmresumeOk n = true) {region : Addr}
    {s : Machine} (hs : Launched s region) (es : List Exit)
    (hgo : ∀ i e, es[i]? = some e → i + 1 < es.length → e.stops (hltCount (es.take i)) = false) :
    ∃ t, run (exitStep env) (.start s) es = some t := by
  suffices hgen : ∀ k ≤ es.length, ∃ t, run (exitStep env) (.start s) (es.take k) = some t ∧
      (k < es.length → t.mode = .guest) by
    obtain ⟨t, ht, -⟩ := hgen es.length (Nat.le_refl _)
    exact ⟨t, by rwa [List.take_length] at ht⟩
  -- by induction on the exits taken; the guest runs after each
  intro k
  induction k with
  | zero => exact fun _ => ⟨_, rfl, fun _ => rfl⟩
  | succ k ih =>
    intro hk
    obtain ⟨t, ht, hguest⟩ := ih (by omega)
    have hmode := hguest hk
    have he : es[k]? = some es[k] := List.getElem?_eq_getElem hk
    obtain ⟨hlive, hcount, hlt⟩ := (loop_inv hs ht).guest hmode
    have hspec := @exit_turn env _ _ hlive es[k] _ hcount hlt
    have hstep := exitStep_guest env hmode es[k]
    generalize es[k].turn env t.machine = c at hspec hstep
    have hrun : run (exitStep env) (.start s) (es.take (k + 1)) = exitStep env t es[k] := by
      rw [List.take_add_one, he, Option.toList_some, run_concat, ht, Option.bind_some]
    exact ⟨_, hrun.trans hstep, fun hk' => hspec.resumed (hgo k _ he hk') hresume⟩

/-- The guarantee of the exit loop. -/
structure ExitLoop (env : Env) (region : Addr) (s : Machine) (es : List Exit) (t : LoopState) :
    Prop where
  exits : t.turns.map Turn.exit = es
  /-- `exit_handler` answers 0 on every exit before the first one that is not a
  HLT or is the fifth, and 1 on that one, -/
  answer : ∀ i (x : Turn), t.turns[i]? = some x →
    x.cpu.answer = some (if x.exit.stops (hltCount (es.take i)) then 1 else 0)
  /-- which is the last. -/
  last : ∀ i (x : Turn), t.turns[i]? = some x → x.cpu.answer = some 1 → i + 1 = es.length
  /-- VMRESUME follows exactly the exits answered 0. -/
  vmresume : ∀ x ∈ t.turns,
    x.insns.count .vmresume = if x.cpu.answer = some 0 then 1 else 0
  /-- VMXOFF follows exactly the exit answered 1, after a VMCLEAR of the current
  VMCS. -/
  vmxoff : ∀ x ∈ t.turns, x.insns.count .vmxoff = if x.cpu.answer = some 1 then 1 else 0
  once : ∀ x ∈ t.turns, x.cpu.answer = some 1 →
    (t.turns.flatMap Turn.insns).count .vmxoff = 1
  vmclear : ∀ x ∈ t.turns, x.cpu.answer = some 1 →
    x.before.vmx.current = some region ∧ ∃ before, x.insns = before ++ [.vmclear region, .vmxoff]
  /-- The turns execute all the VMX instructions of the run. -/
  insns : t.machine.trace.map Event.insn =
    s.trace.map Event.insn ++ t.turns.flatMap Turn.insns
  /-- After it VMX is off for good: `host_entry` halts, and a shutdown executes
  no VMX instruction. -/
  off : ∀ x ∈ t.turns, x.cpu.answer = some 1 → t.machine.Down ∧
    (∀ n, ((Cpu.step env x.exit.scratch)^[n] x.cpu).mode = .host ∧
      ((Cpu.step env x.exit.scratch)^[n] x.cpu).machine = t.machine) ∧
    ∀ msg, ∃ u, Aborts (panicHandler env msg) t.machine .halted u ∧ u.trace = t.machine.trace
  /-- `EXIT_COUNT` is the number of HLT exits so far. -/
  count : ∀ i (x : Turn), t.turns[i]? = some x →
    x.cpu.machine.st.exitCount.toNat = hltCount (es.take (i + 1))
  /-- A HLT exit advances GUEST_RIP by one; nothing else is written. -/
  rip : ∀ x ∈ t.turns, ∀ f, x.cpu.machine.vmx.data region f =
    if x.exit.isHlt ∧ f = guestRip then x.before.vmx.data region f + 1
    else x.before.vmx.data region f
  vmwrite : ∀ x ∈ t.turns, ∀ f v, .vmwrite f v ∈ x.insns →
    x.exit.isHlt = true ∧ f = guestRip ∧ v = x.before.vmx.fields guestRip + 1

/-- An instruction that only the last turn executes, and once, is executed once. -/
theorem count_flatMap_last {ts : List Turn} {insn : VmxInsn} {i : Nat} {x : Turn}
    (hx : ts[i]? = some x) (hlast : i + 1 = ts.length) (hone : x.insns.count insn = 1)
    (hnone : ∀ j y, ts[j]? = some y → j < i → y.insns.count insn = 0) :
    (ts.flatMap Turn.insns).count insn = 1 := by
  have hsplit : ts = ts.take i ++ [x] := by
    have := List.take_add_one (l := ts) (i := i)
    rwa [hlast, List.take_length, hx] at this
  have hzero : ((ts.take i).flatMap Turn.insns).count insn = 0 := by
    refine List.count_eq_zero_of_not_mem fun hmem => ?_
    obtain ⟨y, hy, hin⟩ := List.mem_flatMap.mp hmem
    obtain ⟨j, hj⟩ := List.mem_iff_getElem?.mp hy
    rw [List.getElem?_take] at hj
    split at hj
    next hlt =>
      have hpos := List.count_pos_iff.mpr hin
      rw [hnone j y hj hlt] at hpos
      exact absurd hpos (Nat.lt_irrefl 0)
    next => cases hj
  rw [hsplit, List.flatMap_append, List.count_append, hzero, List.flatMap_singleton, hone]

/-- A panic after VMX was left: the handler executes no VMX instruction. -/
theorem panicHandler_down {env : Env} {s : Machine} (hs : s.Down) (msg : String) :
    ∃ u, Aborts (panicHandler env msg) s .halted u ∧ u.trace = s.trace := by
  have hends : Ends (panicHandler env msg) s (fun _ _ => False)
      (fun e u => e = .halted ∧ u.trace = s.trace) := by
    rw [panicHandler, ends_bind, ends_serialPrintln, ends_bind, shutdown,
      ends_teardown_inactive (by exact hs.flag), ends_throw]
    exact ⟨rfl, rfl⟩
  obtain ⟨_, _, _, h⟩ | ⟨e, u, hu, rfl, htrace⟩ := hends.cases
  · exact h.elim
  · exact ⟨u, hu, htrace⟩

/-- **The exit loop over any run.** -/
theorem exitLoop_run {env : Env} (hrip : ∀ n, env.vmwriteOk n guestRip = true) {region : Addr}
    {s : Machine} (hs : Launched s region) {es : List Exit} {t : LoopState}
    (h : run (exitStep env) (.start s) es = some t) : ExitLoop env region s es t := by
  have hi := loop_inv hs h
  -- every turn is at its place in the sequence of exits
  have hturn : ∀ x ∈ t.turns, ∃ i, t.turns[i]? = some x ∧
      TurnSpec env region (hltCount (es.take i)) x := by
    intro x hx
    obtain ⟨i, hx⟩ := List.mem_iff_getElem?.mp hx
    exact ⟨i, hx, hi.turn i x hx⟩
  have hlast : ∀ i (x : Turn), t.turns[i]? = some x → x.cpu.answer = some 1 → i + 1 = es.length :=
    fun i x hx hone => (hi.last i x hx ((hi.turn i x hx).answer_eq_one.mp hone)).1
  have hoff : ∀ x ∈ t.turns, x.insns.count .vmxoff = if x.cpu.answer = some 1 then 1 else 0 := by
    intro x hx
    obtain ⟨i, -, hspec⟩ := hturn x hx
    rw [hspec.count_insns (not_mem_lookInsns _).2, hspec.answer]
    cases x.exit.stops (hltCount (es.take i)) <;> simp
  have hlen : t.turns.length = es.length := by rw [← hi.exits, List.length_map]
  refine ⟨hi.exits, fun i x hx => (hi.turn i x hx).answer, hlast, ?_, hoff, ?_, ?_, hi.trace, ?_,
    ?_, ?_, ?_⟩
  · intro x hx
    obtain ⟨i, -, hspec⟩ := hturn x hx
    rw [hspec.count_insns (not_mem_lookInsns _).1, hspec.answer]
    cases x.exit.stops (hltCount (es.take i)) <;> simp
  · intro x hx hone
    obtain ⟨i, hx', -⟩ := hturn x hx
    -- an earlier turn that left VMX would have been the last
    refine count_flatMap_last hx' ((hlast i x hx' hone).trans hlen.symm)
      ((hoff x hx).trans (if_pos hone)) fun j y hy hlt => ?_
    rw [hoff y (List.mem_of_getElem? hy), if_neg]
    intro hyone
    have := hlast j y hy hyone
    have := hlast i x hx' hone
    omega
  · intro x hx hone
    obtain ⟨i, -, hspec⟩ := hturn x hx
    refine ⟨hspec.found.current, x.exit.lookInsns, ?_⟩
    rw [hspec.insns_eq, if_pos (hspec.answer_eq_one.mp hone)]
  · intro x hx hone
    obtain ⟨i, hx, hspec⟩ := hturn x hx
    have hstop := hspec.answer_eq_one.mp hone
    obtain ⟨-, hmachine, hmode⟩ := hi.last i x hx hstop
    obtain ⟨hdown, hhost⟩ := hspec.down hstop
    rw [hmachine]
    refine ⟨hdown, fun n => ?_, fun msg => panicHandler_down hdown msg⟩
    obtain ⟨-, hmode', hmachine', -⟩ := @iterate_done env x.exit.scratch _ hspec.done n
    exact ⟨hmode'.trans hhost, hmachine'⟩
  · intro i x hx
    have hexit : es[i]? = some x.exit := by rw [← hi.exits, List.getElem?_map, hx]; rfl
    rw [(hi.turn i x hx).count, List.take_add_one, hexit]
    exact (hltCount_concat _ _).symm
  · intro x hx
    obtain ⟨i, -, hspec⟩ := hturn x hx
    exact hspec.fields hrip
  · intro x hx f v hmem
    obtain ⟨i, -, hspec⟩ := hturn x hx
    exact hspec.vmwrite_mem hmem

/-! ## A concrete run -/

/-- A machine whose guest was just launched. -/
def launchedMachine : Machine :=
  (bootMachine.setVmx ⟨some 0x100000, some 0x104000, [0x104000], fun _ _ => 0⟩).setSt
    ⟨0x7F000000, 0x100000, 0x104000, true, 0⟩

/-- An exit with the given reason, by a guest at address 0x7000. -/
def exitFor (reason : BitVec 64) : Exit where
  gpr := fun _ => 0
  regs := { (default : Regs) with cr4 := cr4Vmxe }
  mem := fun _ => 0
  vmcs := fun f => if f = exitReason then reason else if f = guestRip then 0x7000 else 0
  scratch := ⟨fun _ => 0xDEAD, 64, fun _ => 0xCC, 0x40001D⟩

/-- A HLT, and then an exit for another reason. -/
theorem exitLoop_run_hlt_cpuid :
    ∃ t, run (exitStep grantingEnv) (.start launchedMachine) [exitFor 12, exitFor 10] = some t ∧
      ExitLoop grantingEnv 0x104000 launchedMachine [exitFor 12, exitFor 10] t := by
  have hs : Launched launchedMachine 0x104000 := ⟨⟨rfl, rfl, rfl, rfl⟩, rfl⟩
  have hgo : ∀ i e, [exitFor 12, exitFor 10][i]? = some e → i + 1 < 2 →
      e.stops (hltCount ([exitFor 12, exitFor 10].take i)) = false := by
    intro i e he hi
    obtain rfl : i = 0 := by omega
    cases he
    decide
  obtain ⟨t, ht⟩ := @loop_total grantingEnv (fun _ => rfl) _ _ hs _ hgo
  exact ⟨t, ht, exitLoop_run (fun _ => rfl) hs ht⟩

end MochiVM.Hv
