import MochiVM.Hv.Boot
import MochiVM.Hv.GuestCode

/-!
# The guest under the hypervisor

The guest executes its own instructions until a HLT, which exits where HLT
exiting is on; the hypervisor then has its turn, and the guest goes on with the
registers that VMRESUME finds and at GUEST_RIP. `Sys.step` is an instruction or
such an exit, of any guest code.

`guest_run`: the guest cannot tell the hypervisor from a processor of its own,
on which a HLT is over at once, up to the fifth HLT. `hello_boot` is what that
makes of guest/hello.S after a whole boot.
-/

namespace MochiVM.Hv

open MochiVM.Panic MochiVM.Runs

/-! ## The system -/

/-- The guest and the hypervisor: the registers and the instruction pointer are
the guest's while it runs. -/
structure Sys where
  loop : LoopState
  gpr : Gpr → BitVec 64
  rip : Addr

/-- What happens next. An exit leaves open the registers loaded from the
host-state area, the VMCS fields that it fills in, and what the compiled handler
leaves behind. -/
inductive Tick where
  | insn
  | exit (regs : Regs) (vmcs : BitVec 32 → BitVec 64) (scratch : Scratch)

/-- A control field: bits 11:10 of its encoding are 0. A VM exit does not change
it. -/
def controlField (field : BitVec 32) : Bool := (field >>> 10).setWidth 2 == 0#2

namespace Sys

/-- HLT exiting is on in the current VMCS. -/
def hltExits (s : Sys) : Bool := (s.loop.machine.vmx.fields procBasedCtls).getLsbD 7

/-- The exit that a HLT causes: GUEST_RIP is the HLT itself. -/
def hltExit (s : Sys) (regs : Regs) (vmcs : BitVec 32 → BitVec 64) (scratch : Scratch) : Exit where
  gpr := s.gpr
  regs := regs
  mem := s.loop.machine.mem
  vmcs := fun f =>
    if f = exitReason then exitReasonHlt else if f = guestRip then s.rip
    else if controlField f then s.loop.machine.vmx.fields f else vmcs f
  scratch := scratch

/-- The instruction that the guest is at. -/
def next (s : Sys) : Option GuestInsn :=
  if s.loop.mode = .guest then GuestInsn.fetch s.loop.machine.mem s.rip else none

def step (env : Env) (s : Sys) : Tick → Option Sys
  | .insn =>
    match s.next with
    | none | some .hlt => none
    | some i =>
      let b := (Bare.mk s.gpr s.rip 0).exec i
      some { s with gpr := b.gpr, rip := b.rip }
  | .exit regs vmcs scratch =>
    if s.next = some .hlt ∧ s.hltExits then
      let e := s.hltExit regs vmcs scratch
      (exitStep env s.loop e).map fun loop =>
        ⟨loop, (e.turn env s.loop.machine).gpr, loop.machine.vmx.fields guestRip⟩
    else none

end Sys

def Tick.isExit : Tick → Bool
  | .insn => false
  | .exit _ _ _ => true

/-- The handler of an exit needs no more stack than there is. -/
def Tick.Fits : Tick → Prop
  | .insn => True
  | .exit _ _ scratch => scratch.depth ≤ 0x4000 - 17 * 8

/-! ## Registers over a turn -/

section Turn

variable {env : Env} {s : Machine} {region base : Addr}

/-- VMRESUME finds the registers that the guest had. -/
theorem turn_gpr (hs : s.Live region) {e : Exit} (hfits : e.Fits)
    (hguest : (e.turn env s).mode = .guest) : (e.turn env s).gpr = e.gpr := by
  obtain ⟨al, t, hret, ht⟩ := @handler_called env _ _ hs e
  have hdepth : e.scratch.depth ≤ 2 ^ 32 := Nat.le_trans hfits (by decide)
  obtain ⟨hrun, -, hmode, -, hpc⟩ := iterate_dispatched (c := e.entry s) rfl rfl hret
  have hrestored := (dispatched_restores hret ht.mem hdepth).1
  have hturn : e.turn env s = ((e.entry s).dispatched env e.scratch).step env e.scratch := by
    rw [← hrun]
    exact Function.iterate_succ_apply' (Cpu.step env e.scratch) 35 (e.entry s)
  rw [hturn] at hguest ⊢
  generalize (e.entry s).dispatched env e.scratch = d at *
  by_cases hal : al = 0
  · rw [if_pos hal] at hpc
    rw [step_of_fetch (i := .vmresume) hmode (by rw [hpc]; rfl)]
    refine Eq.trans ?_ hrestored
    show (d.vmresume env).gpr = d.gpr
    rw [Cpu.vmresume]
    split
    · split <;> rfl
    · rfl
  · -- the processor halts
    rw [if_neg hal] at hpc
    have hhost := (@step_halting env e.scratch d ⟨hmode, .inr (by omega)⟩).1.1
    rw [hguest] at hhost
    cases hhost

/-- The HLT exit keeps the controls. -/
theorem hltExit_control (t : Sys) (regs : Regs) (vmcs : BitVec 32 → BitVec 64) (x : Scratch) :
    (t.hltExit regs vmcs x).vmcs procBasedCtls = t.loop.machine.vmx.fields procBasedCtls := by
  have hreason : procBasedCtls ≠ exitReason := by decide
  have hrip : procBasedCtls ≠ guestRip := by decide
  have hcontrol : controlField procBasedCtls = true := by decide
  simp only [Sys.hltExit, if_neg hreason, if_neg hrip, if_pos hcontrol]

end Turn

/-! ## In step with a processor of its own -/

/-- What the HLTs print. -/
def hltText (hlts : Nat) : List String :=
  (List.range hlts).flatMap fun i => hltLines (i + 1) (decide (i + 1 = 5))

/-- The system and the processor of its own, started with memory `mem₀`. -/
structure Shadows (region base : Addr) (mem₀ : Addr → BitVec 8) (before : List String) (b : Bare)
    (t : Sys) : Prop where
  mem : ∀ a, ¬ Within base 0x4000 a → t.loop.machine.mem a = mem₀ a
  serial : t.loop.machine.serial = before ++ hltText b.hlts
  guest : t.loop.mode = .guest → t.gpr = b.gpr ∧ t.rip = b.rip ∧ b.hlts < 5
  hypervisor : t.loop.mode = .guest → t.loop.machine.Live region ∧
    t.loop.machine.st.exitCount.toNat = b.hlts ∧
    t.loop.machine.vmx.data region hostRsp = base + 0x4000 ∧ t.hltExits = true
  stopped : t.loop.mode ≠ .guest → t.loop.mode = .host ∧ t.loop.machine.Down ∧ b.hlts = 5

/-- The instruction at `a` is not on the host stack. -/
def Apart (base a : Addr) : Prop := ∀ i < 5, ¬ Within base 0x4000 (a + BitVec.ofNat 64 i)

theorem fetch_congr {mem mem' : Addr → BitVec 8} {a : Addr}
    (h : ∀ i < 5, mem (a + BitVec.ofNat 64 i) = mem' (a + BitVec.ofNat 64 i)) :
    GuestInsn.fetch mem a = GuestInsn.fetch mem' a := by
  have hfirst : mem a = mem' a := by simpa using h 0 (by decide)
  have hsecond : mem (a + 1) = mem' (a + 1) := h 1 (by decide)
  have himm : loadLE mem (a + 1) 4 = loadLE mem' (a + 1) 4 := by
    refine loadLE_congr fun i hi => ?_
    have hshift : a + 1 + BitVec.ofNat 64 i = a + BitVec.ofNat 64 (i + 1) := by bv_omega
    rw [hshift]
    exact h (i + 1) (Nat.succ_lt_succ hi)
  rw [GuestInsn.fetch, GuestInsn.fetch, hfirst, hsecond, himm]

section Step

variable {env : Env} {region base : Addr} {mem₀ : Addr → BitVec 8} {before : List String}
  {b : Bare} {t u : Sys}

/-- Both are at the same instruction. -/
theorem Shadows.fetch (h : Shadows region base mem₀ before b t) (hguest : t.loop.mode = .guest)
    (hapart : Apart base b.rip) : t.next = GuestInsn.fetch mem₀ b.rip := by
  rw [Sys.next, if_pos hguest, (h.guest hguest).2.1]
  exact fetch_congr fun i hi => h.mem _ (hapart i hi)

/-- An instruction that does not exit. -/
theorem step_insn {i : GuestInsn} (hi : i ≠ .hlt) (hnext : t.next = some i) :
    t.step env .insn =
      some { t with gpr := ((Bare.mk t.gpr t.rip 0).exec i).gpr,
                    rip := ((Bare.mk t.gpr t.rip 0).exec i).rip } := by
  cases i with
  | hlt => exact absurd rfl hi
  | mov | jmp => simp only [Sys.step, hnext]

/-- It does to the guest what it does to the processor of its own. -/
theorem Shadows.insn (h : Shadows region base mem₀ before b t) (hguest : t.loop.mode = .guest)
    {i : GuestInsn} (hi : i ≠ .hlt) :
    Shadows region base mem₀ before (b.exec i)
      { t with gpr := ((Bare.mk t.gpr t.rip 0).exec i).gpr,
               rip := ((Bare.mk t.gpr t.rip 0).exec i).rip } := by
  obtain ⟨hgpr, hrip, hlt⟩ := h.guest hguest
  have hhlts : (b.exec i).hlts = b.hlts := by
    cases i with
    | hlt => exact absurd rfl hi
    | mov | jmp => rfl
  refine ⟨h.mem, by rw [hhlts]; exact h.serial, fun _ => ?_, fun hmode => ?_,
    fun hno => absurd hguest hno⟩
  · rw [hhlts, hgpr, hrip]
    cases i with
    | hlt => exact absurd rfl hi
    | mov | jmp => exact ⟨rfl, rfl, hlt⟩
  · rw [hhlts]
    exact h.hypervisor hmode

/-- A HLT and the hypervisor's turn. -/
theorem Shadows.hlt (hrip : ∀ n, env.vmwriteOk n guestRip = true)
    (hresume : ∀ n, env.vmresumeOk n = true) (h : Shadows region base mem₀ before b t)
    (hguest : t.loop.mode = .guest) {regs : Regs} {vmcs : BitVec 32 → BitVec 64} {x : Scratch}
    (hfits : x.depth ≤ 0x4000 - 17 * 8) {loop : LoopState}
    (hexit : exitStep env t.loop (t.hltExit regs vmcs x) = some loop) :
    Shadows region base mem₀ before (b.exec .hlt)
      ⟨loop, ((t.hltExit regs vmcs x).turn env t.loop.machine).gpr,
        loop.machine.vmx.fields guestRip⟩ := by
  obtain ⟨hgpr, hripeq, hlt⟩ := h.guest hguest
  obtain ⟨hlive, hcount, hrsp, hbit⟩ := h.hypervisor hguest
  have hcontrol := hltExit_control t regs vmcs x
  have hfitsE : (t.hltExit regs vmcs x).Fits := hfits
  have hgprE : (t.hltExit regs vmcs x).gpr = b.gpr := hgpr
  have hmemE : (t.hltExit regs vmcs x).mem = t.loop.machine.mem := rfl
  have hripE : (t.hltExit regs vmcs x).vmcs guestRip = b.rip := by
    have hreason : guestRip ≠ exitReason := by decide
    simp only [Sys.hltExit, if_neg hreason, if_pos, hripeq]
  have hhlt : (t.hltExit regs vmcs x).isHlt = true := by
    simp only [Exit.isHlt, Sys.hltExit, if_pos, beq_self_eq_true]
  generalize t.hltExit regs vmcs x = e at *
  have hspec := @exit_turn env _ _ hlive e _ hcount hlt
  have hserial := @turn_serial env _ _ hlive e _ hcount hlt
  obtain ⟨hrspE, hrsp'⟩ := @turn_hostRsp env _ _ hlive e _ hrsp
  have hmem : ∀ a, ¬ Within base 0x4000 a → (e.turn env t.loop.machine).machine.mem a = e.mem a :=
    fun a ha => turn_mem hlive e hrspE hfitsE ha
  have hregs := @turn_gpr env _ _ hlive e hfitsE
  rw [exitStep_guest env hguest] at hexit
  generalize e.turn env t.loop.machine = c at *
  obtain rfl := Option.some.inj hexit
  have hstops : e.stops b.hlts = decide (b.hlts + 1 = 5) := by
    rw [Exit.stops, hhlt]
    rfl
  -- the fields that the guest runs on, once it was resumed
  have hgo : c.mode = .guest → e.stops b.hlts = false := by
    intro hmode
    cases hstop : e.stops b.hlts with
    | false => rfl
    | true => cases hmode.symm.trans (hspec.down hstop).2
  have hfield : e.stops b.hlts = false → ∀ f, hostField f = false →
      c.machine.vmx.fields f = if f = guestRip then e.vmcs f + 1 else e.vmcs f := by
    intro hstop f hf
    have hold := exited_fields hlive.current e hf
    rw [Vmx.fields, show (t.loop.machine.exited e).vmx.current = some region from
      hspec.found.current] at hold
    change (t.loop.machine.exited e).vmx.data region f = e.vmcs f at hold
    have hnew := hspec.fields hrip f
    simp only [hhlt, true_and, hold] at hnew
    rw [Vmx.fields, (hspec.live hstop).current]
    exact hnew
  refine ⟨fun a ha => ?_, ?_, ?_, ?_, ?_⟩
  · rw [← h.mem a ha, ← hmemE]
    exact hmem a ha
  · show c.machine.serial = before ++ hltText (b.hlts + 1)
    rw [hserial, h.serial, Exit.lines, if_pos hhlt, hstops, hltText, hltText, List.range_succ,
      List.flatMap_append, List.flatMap_singleton, List.append_assoc]
  · intro hmode
    have hstop := hgo hmode
    refine ⟨(hregs hmode).trans hgprE, ?_, ?_⟩
    · show c.machine.vmx.fields guestRip = b.rip + 1
      rw [hfield hstop guestRip (by decide), if_pos rfl, hripE]
    · rw [hstops, decide_eq_false_iff_not] at hstop
      show b.hlts + 1 < 5
      omega
  · intro hmode
    have hstop := hgo hmode
    refine ⟨hspec.live hstop, ?_, hrsp', ?_⟩
    · rw [hspec.count, hhlt]
      rfl
    · show (c.machine.vmx.fields procBasedCtls).getLsbD 7 = true
      rw [hfield hstop procBasedCtls (by decide), if_neg (by decide), hcontrol]
      exact hbit
  · intro hmode
    have hstop : e.stops b.hlts = true := by
      by_contra hno
      exact hmode (hspec.resumed (Bool.not_eq_true _ ▸ hno) hresume)
    obtain ⟨hdown, hhost⟩ := hspec.down hstop
    rw [hstops, decide_eq_true_eq] at hstop
    exact ⟨hhost, hdown, hstop⟩

/-- A step is an instruction of the guest's. -/
theorem next_of_step {l : Tick} (hstep : t.step env l = some u) :
    ∃ i, t.next = some i ∧ l.isExit = decide (i = .hlt) := by
  cases l with
  | insn =>
    cases hnext : t.next with
    | none => simp [Sys.step, hnext] at hstep
    | some i =>
      cases i with
      | hlt => simp [Sys.step, hnext] at hstep
      | mov r imm => exact ⟨.mov r imm, rfl, rfl⟩
      | jmp rel => exact ⟨.jmp rel, rfl, rfl⟩
  | exit regs vmcs x =>
    rw [Sys.step] at hstep
    split at hstep
    next hexits => exact ⟨.hlt, hexits.1, rfl⟩
    next => cases hstep

/-- **One step** of the system is one of the processor of its own. -/
theorem Shadows.step (hrip : ∀ n, env.vmwriteOk n guestRip = true)
    (hresume : ∀ n, env.vmresumeOk n = true) (h : Shadows region base mem₀ before b t)
    (hapart : Apart base b.rip) {l : Tick} (hfits : l.Fits) (hstep : t.step env l = some u) :
    ∃ b', b.step mem₀ = some b' ∧ Shadows region base mem₀ before b' u := by
  obtain ⟨i, hnext, hl⟩ := next_of_step hstep
  have hguest : t.loop.mode = .guest := by
    by_contra hno
    rw [Sys.next, if_neg hno] at hnext
    cases hnext
  have hbare : b.step mem₀ = some (b.exec i) := by
    rw [Bare.step, ← h.fetch hguest hapart, hnext]
    rfl
  refine ⟨b.exec i, hbare, ?_⟩
  cases l with
  | insn =>
    have hi : i ≠ .hlt := of_decide_eq_false hl.symm
    rw [step_insn hi hnext] at hstep
    obtain rfl := Option.some.inj hstep
    exact h.insn hguest hi
  | exit regs vmcs x =>
    obtain rfl : i = .hlt := of_decide_eq_true hl.symm
    rw [Sys.step] at hstep
    split at hstep
    next =>
      obtain ⟨loop, hloop, rfl⟩ := Option.map_eq_some_iff.mp hstep
      exact h.hlt hrip hresume hguest hfits hloop
    next => cases hstep

/-- The guest can go on: a HLT exits, whatever the exit looks like. -/
theorem Shadows.progress (h : Shadows region base mem₀ before b t) (hapart : Apart base b.rip)
    (hguest : t.loop.mode = .guest) {i : GuestInsn} (hi : GuestInsn.fetch mem₀ b.rip = some i)
    {l : Tick} (hl : l.isExit = decide (i = .hlt)) : (t.step env l).isSome = true := by
  have hnext := (h.fetch hguest hapart).trans hi
  cases l with
  | insn =>
    have hne : i ≠ .hlt := of_decide_eq_false hl.symm
    rw [step_insn hne hnext]
    rfl
  | exit regs vmcs x =>
    obtain rfl : i = .hlt := of_decide_eq_true hl.symm
    obtain ⟨-, -, -, hbit⟩ := h.hypervisor hguest
    rw [Sys.step, if_pos ⟨hnext, hbit⟩]
    show (Option.map _ (exitStep env t.loop _)).isSome = true
    rw [Option.isSome_map, exitStep_guest env hguest]
    rfl

/-- What can happen next. -/
theorem Shadows.isSome_step (h : Shadows region base mem₀ before b t) (hapart : Apart base b.rip)
    (hguest : t.loop.mode = .guest) (l : Tick) : (t.step env l).isSome = true ↔
      ∃ i, GuestInsn.fetch mem₀ b.rip = some i ∧ l.isExit = decide (i = .hlt) := by
  constructor
  · intro hsome
    obtain ⟨u, hu⟩ := Option.isSome_iff_exists.mp hsome
    rw [← h.fetch hguest hapart]
    exact next_of_step hu
  · rintro ⟨i, hi, hl⟩
    exact h.progress hapart hguest hi hl

end Step

/-! ## Every run -/

/-- The guest at VMLAUNCH, with any registers. -/
def Sys.start (s : Machine) (g : Gpr → BitVec 64) : Sys := ⟨.start s, g, s.vmx.fields guestRip⟩

/-- The machine that launches a guest: the host stack is the four pages at
`base`, and HLTs exit. -/
structure Ready (s : Machine) (region base : Addr) : Prop where
  launched : Launched s region
  stack : s.vmx.data region hostRsp = base + 0x4000
  exits : (s.vmx.fields procBasedCtls).getLsbD 7 = true

theorem Ready.shadows {s : Machine} {region base : Addr} (h : Ready s region base)
    (g : Gpr → BitVec 64) : Shadows region base s.mem s.serial ⟨g, s.vmx.fields guestRip, 0⟩
      (Sys.start s g) where
  mem := fun _ _ => rfl
  serial := (List.append_nil _).symm
  guest := fun _ => ⟨rfl, rfl, Nat.succ_pos 4⟩
  hypervisor := fun _ => ⟨h.launched.live, by
    show s.st.exitCount.toNat = 0
    rw [h.launched.exitCount]
    rfl, h.stack, h.exits⟩
  stopped := fun hno => absurd rfl hno

section Runs

variable {env : Env} {s : Machine} {region base : Addr} {g : Gpr → BitVec 64} {ls : List Tick}
  {t : Sys}

theorem run_shadows (hrip : ∀ n, env.vmwriteOk n guestRip = true)
    (hresume : ∀ n, env.vmresumeOk n = true) (hs : Ready s region base)
    (hapart : ∀ n b, Bare.after s.mem ⟨g, s.vmx.fields guestRip, 0⟩ n = some b → Apart base b.rip)
    (hfits : ∀ l ∈ ls, l.Fits) (hrun : run (Sys.step env) (.start s g) ls = some t) :
    ∃ b, Bare.after s.mem ⟨g, s.vmx.fields guestRip, 0⟩ ls.length = some b ∧
      Shadows region base s.mem s.serial b t := by
  refine run_inv_history (I := fun ls t => (∀ l ∈ ls, Tick.Fits l) →
    ∃ b, Bare.after s.mem ⟨g, s.vmx.fields guestRip, 0⟩ ls.length = some b ∧
      Shadows region base s.mem s.serial b t) ?_ (fun _ => ⟨_, rfl, hs.shadows g⟩) hrun hfits
  intro ls t l u ih hstep hall
  obtain ⟨b, hb, hshadows⟩ := ih fun l' hl' => hall l' (List.mem_append_left _ hl')
  obtain ⟨b', hb', hshadows'⟩ := hshadows.step hrip hresume (hapart _ b hb)
    (hall l (List.mem_append_right _ List.mem_cons_self)) hstep
  refine ⟨b', ?_, hshadows'⟩
  rw [List.length_append, List.length_singleton, Bare.after, hb, Option.bind_some, hb']

end Runs

/-! ## From the boot to the guest -/

theorem holds_storeBytes {mem : Addr → BitVec 8} {a : Addr} {bytes : List (BitVec 8)}
    (hlen : bytes.length ≤ 2 ^ 64) : Holds (storeBytes mem a bytes) a bytes := by
  intro k b hb
  have hk : k < 2 ^ 64 := Nat.lt_of_lt_of_le (List.getElem?_eq_some_iff.mp hb).1 hlen
  have hoff : (a + BitVec.ofNat 64 k - a).toNat = k := by
    rw [BitVec.add_comm, BitVec.add_sub_cancel, BitVec.toNat_ofNat, Nat.mod_eq_of_lt hk]
  rw [storeBytes, hoff, hb]
  rfl

section Setup

variable {env : Env} {s t : Machine}

/-- The guest's code is where the fourth allocation is. -/
theorem SetupRun.guestCode_eq {w : Wrappers Machine} (h : OnMachine w env)
    (run : SetupRun w env s t) :
    allocAnswer env s.st.systemTable (s.allocs + 3) 1 = .ok run.guest.guestCode := by
  obtain ⟨-, htable, hallocs⟩ := run.filling_loaded h
  have hpage := run.guest.codePage
  generalize run.guest.guestCode = code at *
  rw [h.machine, h.on, Machine.page] at hpage
  rw [← htable, show s.allocs + 3 = run.loaded.allocs + 1 by rw [hallocs]]
  exact hpage

/-- **`setup` leaves a guest that is ready**: GUEST_RIP is at its code. -/
theorem setup_ready (hactive : s.vmx.active = []) (hcount : s.st.exitCount = 0)
    (hallowed : (s.regs.msr ia32VmxProcbasedCtls).getLsbD 39 = true)
    (h : Returns (setup env) s (.ok ⟨⟩) t) : ∃ region base,
      env.allocate (s.allocs + 2) 4 = (0, base) ∧
      env.allocate (s.allocs + 3) 1 = (0, t.vmx.fields guestRip) ∧ Ready t region base ∧
      Holds t.mem (t.vmx.fields guestRip) guestBin := by
  obtain ⟨region, hlaunched⟩ := setup_launched hactive hcount h
  have hvia : Returns ((named env).setup env) s (.ok ⟨⟩) t := by rwa [named_setup]
  obtain ⟨run⟩ := setup_returns_iff.mp hvia
  have honmachine := named_onMachine env
  have hfilling := run.filling honmachine
  have hwrite : Returns (writeState env run.guest.hostStack run.guest.guestCode
      run.guest.guestStack) run.entry (.ok ⟨⟩) run.guest.filled :=
    (honmachine.writeState fun _ _ _ _ _ _ => rfl).symm.trans run.guest.writeState
  have hvmx := run.guest.vmx_eq honmachine
  -- a field that `write_state` writes
  have hfield : ∀ w ∈ writesOf env run.entry run.guest.hostStack run.guest.guestCode
      run.guest.guestStack, t.vmx.fields w.field = fitField w.field w.value := by
    intro w hw
    rw [hvmx]
    exact writeState_fields hfilling.current hwrite hw
  have hwide : ∀ f v, fieldBits f = 64 → fitField f v = v := by
    intro f v hf
    rw [fitField, hf, BitVec.setWidth_eq, BitVec.setWidth_eq]
  have hcode : t.vmx.fields guestRip = run.guest.guestCode := by
    have hwritten := hfield (.field64 guestRip run.guest.guestCode) (by
      simp [writesOf, stateWrites, guestGeneralWrites])
    exact hwritten.trans (hwide guestRip _ rfl)
  have hstack : t.vmx.data region hostRsp = run.guest.hostStack + 0x4000 := by
    have hdata : t.vmx.fields hostRsp = t.vmx.data region hostRsp := by
      rw [Vmx.fields, hlaunched.live.current]
    have hwritten := hfield (.field64 hostRsp (run.guest.hostStack + 0x4000)) (by
      simp [writesOf, stateWrites, hostWrites])
    rw [← hdata]
    exact hwritten.trans (hwide hostRsp _ rfl)
  have hexits : (t.vmx.fields procBasedCtls).getLsbD 7 = true := by
    have hword := ctrlWord_bit (s.regs.msr ia32VmxProcbasedCtls) hltExiting
      (i := 7) (by decide)
    have hwritten := hfield (.ctrl procBasedCtls (ctrlWord
      (run.entry.regs.msr ia32VmxProcbasedCtls) hltExiting)) (by
        simp [writesOf, stateWrites, controlWrites])
    rw [hfilling.regs] at hwritten
    rw [hallowed, show hltExiting.getLsbD 7 = true by decide] at hword
    rw [show t.vmx.fields procBasedCtls = _ from hwritten]
    simp [StateWrite.ctrl, fitField, show fieldBits procBasedCtls = 32 from rfl, hword]
  -- the guest's code is the last that is written to memory
  have hentry : ∃ mem, run.entry.mem = storeBytes mem run.guest.guestCode guestBin := by
    rw [SetupRun.entry, honmachine.on]
    exact ⟨_, rfl⟩
  obtain ⟨mem, hentry⟩ := hentry
  have hfilled : run.guest.filled.mem = run.entry.mem := by
    rw [writeState_returns_wroteAll hwrite]
    exact run.entry.wroteAll_frame _ Machine.mem fun _ _ => rfl
  have hmem : t.mem = storeBytes mem run.guest.guestCode guestBin := by
    refine (congrArg Machine.mem run.guest.done).trans ?_
    rw [honmachine.on]
    exact hfilled.trans hentry
  refine ⟨region, run.guest.hostStack, allocAnswer_ok (run.hostStack_eq honmachine), ?_,
    ⟨hlaunched, hstack, hexits⟩, ?_⟩
  · rw [hcode]
    exact allocAnswer_ok (run.guestCode_eq honmachine)
  · rw [hcode, hmem]
    exact holds_storeBytes (by decide)

/-- A guest that was launched was set up. -/
theorem efiMain_launched {systemTable : BitVec 64} (hs : Fresh s)
    (h : Aborts (efiMain env systemTable) s .launched t) :
    ∃ u, Returns (setup env) (s.booted systemTable).prepared (.ok ⟨⟩) u ∧
      t = (u.printed "[mochivm] launching guest...").record .vmlaunch := by
  have hboot := hs.booted systemTable
  suffices hends : Ends (efiMain env systemTable) s (fun _ _ => True) (fun e t => e = .launched →
      ∃ u, Returns (setup env) (s.booted systemTable).prepared (.ok ⟨⟩) u ∧
        t = (u.printed "[mochivm] launching guest...").record .vmlaunch) from
    (ends_of_aborts h).mp hends rfl
  rw [ends_efiMain]
  cases hreach : reachesSetup env (s.booted systemTable) with
  | false =>
    obtain ⟨line, -, hline⟩ := initError_early hreach
    rw [hline]
    trivial
  | true =>
    rw [ends_init_setup hreach]
    obtain ⟨r, u, hr, -⟩ | ⟨e, u, he, hpanicked⟩ :=
      (setup_did env (s.booted systemTable).prepared).cases
    · rw [ends_of_returns hr]
      cases r with
      | error e => trivial
      | ok =>
        obtain ⟨region, hlaunched⟩ := @setup_launched env (s.booted systemTable).prepared u
          hboot.noneActive hboot.exitCount hr
        simp only
        rw [ends_enterGuest (s := u.printed _) hlaunched.live.on]
        exact fun _ => ⟨u, hr, rfl⟩
    · rw [ends_of_aborts he]
      rintro rfl
      obtain ⟨msg, -, hmsg⟩ := hpanicked.message
      cases hmsg

/-- **A boot that launches its guest** has it ready. -/
theorem boot_ready {systemTable : BitVec 64} (hs : Fresh s)
    (hallowed : (s.regs.msr ia32VmxProcbasedCtls).getLsbD 39 = true)
    (h : Aborts (efiMain env systemTable) s .launched t) : ∃ region base,
      env.allocate 2 4 = (0, base) ∧ env.allocate 3 1 = (0, t.vmx.fields guestRip) ∧
      Ready t region base ∧ Holds t.mem (t.vmx.fields guestRip) guestBin := by
  obtain ⟨v, hv, rfl⟩ := efiMain_launched hs h
  have hboot := hs.booted systemTable
  have hmsr :
      ((s.booted systemTable).prepared.regs.msr ia32VmxProcbasedCtls).getLsbD 39 = true := by
    refine (congrArg (fun x : BitVec 64 => x.getLsbD 39) ?_).trans hallowed
    show s.regs.unlocked.msr ia32VmxProcbasedCtls = _
    rw [Regs.unlocked]
    split
    · rfl
    · exact Regs.setMsr_other _ _ (by decide)
  obtain ⟨region, base, hbase, hcode, hready, hholds⟩ :=
    @setup_ready env (s.booted systemTable).prepared v hboot.noneActive hboot.exitCount hmsr hv
  change env.allocate ((s.booted systemTable).allocs + 2) 4 = _ at hbase
  change env.allocate ((s.booted systemTable).allocs + 3) 1 = _ at hcode
  rw [hboot.allocs] at hbase hcode
  exact ⟨region, base, hbase, hcode,
    ⟨hready.launched.launching _ _, hready.stack, hready.exits⟩, hholds⟩

end Setup

/-! ## hello.S -/

/-- hello.S stays on its own page. -/
theorem hello_apart {mem : Addr → BitVec 8} {g : Gpr → BitVec 64} {base code : Addr}
    (hholds : Holds mem code guestBin)
    (hpages : ∀ a, Within code 0x1000 a → ¬ Within base 0x4000 a) (n : Nat) (b : Bare)
    (hb : Bare.after mem ⟨g, code, 0⟩ n = some b) : Apart base b.rip := by
  rw [bare_hello g code hholds] at hb
  obtain rfl := Option.some.inj hb
  intro i hi
  refine hpages _ ?_
  have hindex : helloIndex n < 4 := by
    rw [helloIndex]
    split <;> omega
  have hoffset : offset helloS (helloIndex n) < 16 := by
    have hall : ∀ k : Fin 4, offset helloS k.val < 16 := by decide
    exact hall ⟨_, hindex⟩
  rw [Within, helloAt]
  bv_omega

/-- The instruction it is at. -/
theorem hello_fetch {mem : Addr → BitVec 8} {code : Addr} (hholds : Holds mem code guestBin)
    (g : Gpr → BitVec 64) (n : Nat) :
    GuestInsn.fetch mem (helloAt g code n).rip = some (helloInsn n) := by
  rw [guestBin_eq] at hholds
  exact fetch_program hholds (helloS_index n)

/-- hello.S under the hypervisor after `n` steps, from the registers `g`. -/
structure HelloRun (env : Env) (g : Gpr → BitVec 64) (before : List String) (n : Nat) (u : Sys) :
    Prop where
  steps : n ≤ 11
  serial : u.loop.machine.serial = before ++ hltText ((n - 1) / 2)
  /-- The HLTs and only they exit. -/
  guest : n < 11 → u.loop.mode = .guest ∧ u.gpr = helloRegs g n ∧
    ∀ l, (u.step env l).isSome = true ↔ l.isExit = decide (helloInsn n = .hlt)
  stopped : n = 11 → u.loop.mode = .host ∧ u.loop.machine.Down

/-- **The guest, from the boot on**: whatever registers it starts with, hello.S
takes eleven steps, the loads are there when their instructions are through and
no other register changes. Its fifth HLT prints the last line and leaves VMX
operation, and nothing follows. -/
theorem hello_boot {env : Env} (hrip : ∀ n, env.vmwriteOk n guestRip = true)
    (hresume : ∀ n, env.vmresumeOk n = true) {systemTable : BitVec 64} {s t : Machine}
    (hs : Fresh s) (hallowed : (s.regs.msr ia32VmxProcbasedCtls).getLsbD 39 = true)
    (hpages : ∀ a, Within (env.allocate 3 1).2 0x1000 a → ¬ Within (env.allocate 2 4).2 0x4000 a)
    (h : Aborts (efiMain env systemTable) s .launched t) (g : Gpr → BitVec 64) {ls : List Tick}
    (hfits : ∀ l ∈ ls, l.Fits) {u : Sys} (hrun : run (Sys.step env) (.start t g) ls = some u) :
    HelloRun env g t.serial ls.length u := by
  obtain ⟨region, base, hbase, hcode, hready, hholds⟩ := boot_ready hs hallowed h
  rw [hbase, hcode] at hpages
  have hbare := bare_hello g (t.vmx.fields guestRip) hholds
  have hapart := @hello_apart _ g base _ hholds hpages
  -- every run is one of hello.S by itself
  have hall : ∀ {ls : List Tick} {u : Sys}, (∀ l ∈ ls, l.Fits) →
      run (Sys.step env) (.start t g) ls = some u →
      Shadows region base t.mem t.serial (helloAt g (t.vmx.fields guestRip) ls.length) u := by
    intro ls u hfits hrun
    obtain ⟨b, hb, hshadows⟩ := run_shadows hrip hresume hready hapart hfits hrun
    rw [hbare] at hb
    obtain rfl := Option.some.inj hb
    exact hshadows
  have hshadows := hall hfits hrun
  have hguest : ls.length < 11 → u.loop.mode = .guest := by
    intro hlt
    by_contra hno
    have hfive : (ls.length - 1) / 2 = 5 := (hshadows.stopped hno).2.2
    omega
  refine ⟨?_, hshadows.serial, fun hlt => ?_, fun heleven => ?_⟩
  · -- the machine that the eleventh step leaves makes no other
    by_contra hno
    rw [← List.take_append_drop 11 ls, run_append] at hrun
    obtain ⟨v, hv, hrest⟩ := Option.bind_eq_some_iff.mp hrun
    have hlen : (ls.take 11).length = 11 := List.length_take_of_le (by omega)
    have hat := hall (fun l hl => hfits l (List.mem_of_mem_take hl)) hv
    rw [hlen] at hat
    have hstopped : v.loop.mode ≠ .guest := fun hmode =>
      absurd (hat.guest hmode).2.2 (Nat.lt_irrefl 5)
    rw [List.drop_eq_getElem_cons (by omega), run] at hrest
    obtain ⟨w, hw, -⟩ := Option.bind_eq_some_iff.mp hrest
    obtain ⟨i, hi, -⟩ := next_of_step hw
    rw [Sys.next, if_neg hstopped] at hi
    cases hi
  · have hmode := hguest hlt
    refine ⟨hmode, (hshadows.guest hmode).1, fun l => ?_⟩
    rw [hshadows.isSome_step (hapart _ _ (hbare ls.length)) hmode l, hello_fetch hholds g]
    simp
  · have hmode : u.loop.mode ≠ .guest := fun hmode => by
      have hfew : (ls.length - 1) / 2 < 5 := (hshadows.guest hmode).2.2
      omega
    exact ⟨(hshadows.stopped hmode).1, (hshadows.stopped hmode).2.1⟩

/-- MSRs that allow HLT exiting. -/
def hltMsrs (m : BitVec 32) : BitVec 64 :=
  if m = ia32VmxProcbasedCtls then 1 <<< 39 else bootMachine.regs.msr m

/-- The ticks of hello.S. -/
def helloTick (n : Nat) : Tick :=
  if helloInsn n = .hlt then .exit default (fun _ => 0) (exitFor 12).scratch else .insn

theorem helloTick_isExit (n : Nat) : (helloTick n).isExit = decide (helloInsn n = .hlt) := by
  rw [helloTick]
  split
  next h => exact (decide_eq_true h).symm
  next h => exact (decide_eq_false h).symm

theorem helloTick_fits (n : Nat) : ∀ l ∈ (List.range n).map helloTick, l.Fits := by
  intro l hl
  obtain ⟨k, -, rfl⟩ := List.mem_map.mp hl
  rw [helloTick]
  split
  · exact show 64 ≤ 0x4000 - 17 * 8 by decide
  · trivial

theorem hltMsrs_fresh : Fresh (bootWith hltMsrs) :=
  ⟨rfl, rfl, bootMachine_fresh.vmxe, rfl, rfl, rfl, rfl, rfl⟩

theorem granting_pages : ∀ a, Within (grantingEnv.allocate 3 1).2 0x1000 a →
    ¬ Within (grantingEnv.allocate 2 4).2 0x4000 a := by
  intro a hcode hstack
  rw [Within] at hcode hstack
  change (a - (0x100000 + 0x4000 * 3)).toNat < 0x1000 at hcode
  change (a - (0x100000 + 0x4000 * 2)).toNat < 0x4000 at hstack
  bv_omega

/-- All eleven steps. -/
theorem hello_boot_granting : ∃ t u,
    Aborts (efiMain grantingEnv 0x7F000000) (bootWith hltMsrs) .launched t ∧
      run (Sys.step grantingEnv) (.start t fun _ => 0) ((List.range 11).map helloTick) = some u ∧
      HelloRun grantingEnv (fun _ => 0) t.serial 11 u := by
  obtain ⟨t, -, -, ht⟩ := @boot_granting hltMsrs (by decide)
  have hall : ∀ k u, run (Sys.step grantingEnv) (.start t fun _ => 0)
      ((List.range k).map helloTick) = some u →
      HelloRun grantingEnv (fun _ => 0) t.serial k u := by
    intro k u hu
    have h := hello_boot (fun _ => rfl) (fun _ => rfl) hltMsrs_fresh (by decide) granting_pages ht
      (fun _ => 0) (helloTick_fits k) hu
    rwa [List.length_map, List.length_range] at h
  obtain ⟨u, hu⟩ := run_exists (n := 11) fun k hk u hu =>
    (((hall k u hu).guest hk).2.2 (helloTick k)).mpr (helloTick_isExit k)
  exact ⟨t, u, ht, hu, hall 11 u hu⟩

end MochiVM.Hv
