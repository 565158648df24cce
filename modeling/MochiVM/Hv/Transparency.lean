import MochiVM.Hv.ExitLoop
import MochiVM.Hv.Memory
import MochiVM.Hv.Controls

/-!
# What a VM exit leaves of the guest's registers (vmcs.rs:200)

`host_entry` pushes the fifteen general registers and a pad, calls the handler,
drops the pad and pops the registers again. `dispatched_restores`: the pops
mirror the pushes, so that every register holds what it held at the exit and rsp
is where it was. `Transparent` adds where the stack is while this happens, and
`transparent_run` says it of every exit of every run that starts with `setup`.

The handler is `exitHandler` and what the calling convention lets its compiled
code leave behind (`Scratch`); it is assumed to use no more stack than is left.
-/

namespace MochiVM.Hv

open MochiVM.Panic MochiVM.Runs

/-! ## Pushes and pops -/

section Lines

variable {env : Env} {x : Scratch}

/-- The pushed values lie on the stack, the last one first. -/
theorem line_pushes : ∀ (rs : List Gpr) (c : Cpu) (vs : List (BitVec 64)),
    OnStack c.machine.mem c.rsp vs → 8 * (vs.length + rs.length) ≤ 2 ^ 64 →
    (c.line env x (rs.map .push)).gpr = c.gpr ∧
      (c.line env x (rs.map .push)).rsp = c.rsp - BitVec.ofNat 64 (8 * rs.length) ∧
      OnStack (c.line env x (rs.map .push)).machine.mem (c.line env x (rs.map .push)).rsp
        ((rs.map c.gpr).reverse ++ vs)
  | [], c, vs, h, _ => ⟨rfl, (BitVec.sub_zero _).symm, h⟩
  | r :: rs, c, vs, h, hlen => by
    rw [List.length_cons] at hlen
    obtain ⟨hgpr, hrsp, hstack⟩ := line_pushes rs (c.push (c.gpr r)) (c.gpr r :: vs)
      (h.push (by omega) (c.gpr r)) (by rw [List.length_cons]; omega)
    refine ⟨hgpr, hrsp.trans ?_, ?_⟩
    · show c.rsp - 8 - _ = _
      rw [List.length_cons]
      bv_omega
    · have hlist : ((r :: rs).map c.gpr).reverse ++ vs =
          (rs.map c.gpr).reverse ++ c.gpr r :: vs := by
        rw [List.map_cons, List.reverse_cons, List.append_assoc]
        rfl
      rw [hlist]
      exact hstack

/-- Registers popped from values of theirs hold these values. -/
theorem line_pops (f : Gpr → BitVec 64) : ∀ (rs : List Gpr) (c : Cpu) (vs : List (BitVec 64)),
    rs.Nodup → OnStack c.machine.mem c.rsp (rs.map f ++ vs) →
    (∀ r ∈ rs, (c.line env x (rs.map .pop)).gpr r = f r) ∧
      (∀ r ∉ rs, (c.line env x (rs.map .pop)).gpr r = c.gpr r) ∧
      (c.line env x (rs.map .pop)).rsp = c.rsp + BitVec.ofNat 64 (8 * rs.length)
  | [], c, _, _, _ => ⟨fun _ h => absurd h List.not_mem_nil, fun _ _ => rfl,
      (BitVec.add_zero _).symm⟩
  | r :: rs, c, vs, hnodup, h => by
    obtain ⟨hnotin, hrest⟩ := List.nodup_cons.mp hnodup
    obtain ⟨hin, hout, hrsp⟩ := line_pops f rs (c.pop r) vs hrest h.2
    refine ⟨fun r' hr' => ?_, fun r' hr' => ?_, hrsp.trans ?_⟩
    · obtain rfl | hr' := List.mem_cons.mp hr'
      · -- the register popped first is not popped again
        refine (hout r' hnotin).trans ?_
        show (if r' = r' then loadLE c.machine.mem c.rsp 8 else c.gpr r') = _
        rw [if_pos rfl]
        exact h.1
      · exact hin r' hr'
    · obtain ⟨hne, hr'⟩ := List.ne_and_not_mem_of_not_mem_cons hr'
      exact (hout r' hr').trans (if_neg hne)
    · show c.rsp + 8 + _ = _
      rw [List.length_cons]
      bv_omega

end Lines

theorem savedRegs_all (r : Gpr) : r ∈ savedRegs := by cases r <;> decide

theorem savedRegs_nodup : savedRegs.reverse.Nodup := by decide

/-! ## The call -/

section Call

variable {env : Env} {x : Scratch} {c : Cpu} {al : BitVec 8} {t : Machine}

/-- The handler leaves the stack above its return address alone. -/
theorem callHandler_stack {vs : List (BitVec 64)}
    (hret : Returns (exitHandler env)
      (c.machine.setMem (storeLE c.machine.mem (c.rsp - 8) 8 x.ret)) al t)
    (hmem : t.mem = storeLE c.machine.mem (c.rsp - 8) 8 x.ret)
    (hstack : OnStack c.machine.mem c.rsp vs) (hlen : 8 * vs.length + x.depth + 8 ≤ 2 ^ 64) :
    (c.callHandler env x).rsp = c.rsp ∧
      OnStack (c.callHandler env x).machine.mem c.rsp vs := by
  rw [Cpu.callHandler, show exitHandler env _ = _ from hret]
  refine ⟨rfl, hstack.of_same (by omega) fun y hy => ?_⟩
  show scribble t.mem (c.rsp - 8) x.depth x.stack y = _
  -- seen from the return address, `y` is above it, and far above what is below it
  have habove : (y - (c.rsp - 8)).toNat = (y - c.rsp).toNat + 8 := by bv_omega
  have hbelow : (c.rsp - 8 - 1 - y).toNat = 2 ^ 64 - 9 - (y - c.rsp).toNat := by bv_omega
  rw [scribble, if_neg (by omega), hmem]
  exact storeLE_outside (by omega)

/-- **The pops mirror the pushes.** -/
theorem dispatched_restores (hret : Returns (exitHandler env) (c.atCall env x) al t)
    (hmem : t.mem = (c.atCall env x).mem) (hdepth : x.depth ≤ 2 ^ 32) :
    (c.dispatched env x).gpr = c.gpr ∧ (c.dispatched env x).rsp = c.rsp := by
  obtain ⟨hgpr, hrsp, hstack⟩ := @line_pushes env x (savedRegs ++ [Gpr.rax]) c [] trivial
    (by decide)
  obtain ⟨hrsp', hstack'⟩ := callHandler_stack hret hmem hstack (by
    simp only [List.length_append, List.length_reverse, List.length_map, List.length_nil,
      show savedRegs.length = 15 from rfl, List.length_singleton]
    omega)
  have hpad : OnStack (c.tested env x).machine.mem (c.tested env x).rsp
      (savedRegs.reverse.map c.gpr ++ []) := by
    have hrspt : (c.tested env x).rsp = (c.line env x pushes).rsp + 8 :=
      congrArg (· + 8) hrsp'
    rw [hrspt, List.map_reverse]
    rw [List.map_append, List.reverse_append, List.append_nil] at hstack'
    rw [List.append_nil]
    exact hstack'.2
  obtain ⟨hin, -, hpopped⟩ := @line_pops env x c.gpr savedRegs.reverse
    ((c.tested env x).exec env x (.jnz 39)) [] savedRegs_nodup hpad
  refine ⟨funext fun r => hin r (List.mem_reverse.mpr (savedRegs_all r)), hpopped.trans ?_⟩
  show ((c.line env x pushes).callHandler env x).rsp + 8 + _ = _
  rw [hrsp', show (c.line env x pushes).rsp = _ from hrsp]
  simp only [List.length_append, List.length_reverse, List.length_singleton,
    show savedRegs.length = 15 from rfl]
  bv_omega

end Call

/-! ## What the handler leaves alone -/

/-- Of the VMCS the handler writes GUEST_RIP only, whatever the processor
accepts. -/
theorem exitHandler_keeps_data (env : Env) (region : Addr) {f : BitVec 32} (hf : f ≠ guestRip)
    (v : BitVec 64) : Keeps (fun m => m.vmx.data region f = v) (exitHandler env) := by
  have hread : ∀ field, Keeps (fun m => m.vmx.data region f = v) (vmread field) := by
    intro field s hs
    rw [vmread]
    split <;> exact hs
  have hwrite : ∀ value, Keeps (fun m => m.vmx.data region f = v) (vmwrite env guestRip value) := by
    refine fun value => vmxInsn_keeps (fun _ hs => hs) fun s hs _ => ?_
    show (s.vmx.write guestRip value).data region f = v
    simp only [Vmx.write, Vmx.setFields, Vmx.fields, if_neg hf]
    split
    next hcur => simpa only [hcur] using hs
    next => exact hs
  have hteardown : Keeps (fun m => m.vmx.data region f = v) (teardown env) := by
    refine Keeps.bind (fun _ hs => hs) fun st => ?_
    split
    · refine Keeps.bind (vmxInsn_keeps (fun _ hs => hs) fun _ hs _ => hs) fun _ => ?_
      refine Keeps.bind (vmxInsn_keeps (fun _ hs => hs) fun _ hs _ => hs) fun _ => ?_
      exact fun _ hs => hs
    · exact Keeps.pure _ _
  refine (hread exitReason).bind fun reason => ?_
  split
  · refine Keeps.bind (fun _ hs => hs) fun count => Keeps.bind (fun _ hs => hs) fun _ => ?_
    refine (hread guestRip).bind fun rip => (hwrite _).bind fun _ => ?_
    split
    · exact Keeps.bind (fun _ hs => hs) fun _ => hteardown.bind fun _ => Keeps.pure _ _
    · exact Keeps.pure _ _
  · refine (hread exitQualification).bind fun qual => Keeps.bind (fun _ hs => hs) fun _ => ?_
    exact hteardown.bind fun _ => Keeps.pure _ _

/-! ## Where `host_entry` is -/

/-- The processor executes `i` next. -/
def Cpu.Fetches (c : Cpu) (i : Insn) : Prop := c.mode = .host ∧ hostEntryCode[c.pc]? = some i

theorem fetch_push {k : Nat} {r : Gpr} (h : hostEntryCode[k]? = some (.push r)) : k < 16 := by
  by_contra hk
  have hmem : Insn.push r ∈ hostEntryCode.drop 16 := by
    refine List.mem_of_getElem? (i := k - 16) ?_
    rw [List.getElem?_drop, show 16 + (k - 16) = k by omega]
    exact h
  revert hmem
  cases r <;> decide

/-- The call and VMRESUME are in one place each. -/
theorem fetch_once {k : Nat} :
    (hostEntryCode[k]? = some .callHandler → k = 16) ∧
      (hostEntryCode[k]? = some .vmresume → k = 35) := by
  have hall : ∀ k : Fin 57, (hostEntryCode[k.val]? = some .callHandler → k.val = 16) ∧
      (hostEntryCode[k.val]? = some .vmresume → k.val = 35) := by decide
  by_cases hk : k < 57
  · exact hall ⟨k, hk⟩
  · have hnone : hostEntryCode[k]? = none := List.getElem?_eq_none (by
      show 57 ≤ k
      omega)
    rw [hnone]
    exact ⟨by simp, by simp⟩

/-- A processor that is done with its turn is in none of the places that
matter. -/
theorem Cpu.Done.pc {c : Cpu} (h : c.Done) {i : Insn} (hf : c.Fetches i) : 35 < c.pc := by
  obtain hleft | ⟨-, hpc⟩ := h
  · exact absurd hf.1 hleft
  · omega

/-! ## One exit -/

/-- The processor at the first instruction of a turn. -/
def Turn.entry (x : Turn) : Cpu where
  gpr := x.exit.gpr
  rsp := x.before.vmx.fields hostRsp
  zf := false
  pc := 0
  mode := .host
  machine := x.before
  answer := none

/-- The processor after `n` steps of a turn. -/
def Turn.after (env : Env) (x : Turn) (n : Nat) : Cpu :=
  (Cpu.step env x.exit.scratch)^[n] x.entry

/-- The eight bytes at `a` are in the four pages at `base`. -/
def InStack (base a : Addr) : Prop := (a - base).toNat + 8 ≤ 0x4000

/-- The handler of an exit needs no more stack than the sixteen pushes and the
return address leave. -/
def Exit.Fits (e : Exit) : Prop := e.scratch.depth ≤ 0x4000 - 17 * 8

/-- A VM exit that the guest does not see in its registers, the host stack being
the four pages at `base`. -/
structure Transparent (env : Env) (base : Addr) (x : Turn) : Prop where
  turn : x.cpu = x.after env 36
  entry : x.before.vmx.fields hostRsp = base + 0x4000
  pushes : ∀ n r, (x.after env n).Fetches (.push r) → InStack base ((x.after env n).rsp - 8)
  /-- The return address is pushed there as well, -/
  call : ∀ n, (x.after env n).Fetches .callHandler → InStack base ((x.after env n).rsp - 8)
  /-- and the call is made with rsp aligned. -/
  aligned : ∀ n, (x.after env n).Fetches .callHandler → (x.after env n).rsp.toNat % 16 = 0
  resumed : x.cpu.answer = some 0 → ∃ n, (x.after env n).Fetches .vmresume
  /-- At VMRESUME the registers are those at the exit, rsp is HOST_RSP. -/
  restored : ∀ n, (x.after env n).Fetches .vmresume →
    (x.after env n).gpr = x.exit.gpr ∧ (x.after env n).rsp = x.before.vmx.fields hostRsp
  stopped : x.cpu.answer ≠ some 0 → ∀ n, ¬ (x.after env n).Fetches .vmresume

section Turn

variable {env : Env} {s : Machine} {region base : Addr}

/-- The stack pointer while the registers are pushed. -/
theorem rsp_pushing (env : Env) (x : Turn) {n : Nat} (hn : n ≤ 16) :
    (x.after env n).rsp = x.before.vmx.fields hostRsp - BitVec.ofNat 64 (8 * n) := by
  have hlen : ((savedRegs ++ [Gpr.rax]).take n).length = n := by
    rw [List.length_take]
    exact Nat.min_eq_left hn
  obtain ⟨hrun, -, -⟩ := iterate_line_take env x.exit.scratch (c := x.entry) pushes_straight rfl
    (code_pushes rfl) (k := n) hn
  obtain ⟨-, hrsp, -⟩ := @line_pushes env x.exit.scratch ((savedRegs ++ [Gpr.rax]).take n)
    x.entry [] trivial (by rw [hlen, List.length_nil]; omega)
  rw [Turn.after, hrun, pushes, ← List.map_take, hrsp, hlen]
  rfl

/-- Pushes below HOST_RSP, seventeen words at most. -/
theorem inStack_below {n : Nat} (hn : n ≤ 16) {rsp : BitVec 64}
    (h : rsp = base + 0x4000 - BitVec.ofNat 64 (8 * n)) : InStack base (rsp - 8) := by
  rw [InStack, h]
  bv_omega

theorem turn_after (env : Env) (s : Machine) (e : Exit) (n : Nat) :
    Turn.after env ⟨e, s.exited e, e.turn env s⟩ n =
      (Cpu.step env e.scratch)^[n] (e.entry s) := rfl

/-- Where in the code a turn is tells how many steps it has made, up to
VMRESUME. -/
theorem after_place {e : Exit} {al : BitVec 8} {t : Machine} {x : Turn}
    (hx : x = ⟨e, s.exited e, e.turn env s⟩) (hdone : (e.turn env s).Done)
    (hret : Returns (exitHandler env) ((e.entry s).atCall env e.scratch) al t) {n : Nat} {i : Insn}
    (hf : (x.after env n).Fetches i) (hpc : (x.after env n).pc ≤ 35) :
    n = (x.after env n).pc ∧ (n < 20 ∨ al = 0) := by
  subst hx
  by_cases hn : n ≤ 35
  · obtain ⟨-, hplace⟩ := iterate_pc (c := e.entry s) rfl rfl hret hn
    rw [← turn_after] at hplace
    rw [hplace] at hpc ⊢
    split at hpc
    next h => exact ⟨(if_pos h).symm, .inl h⟩
    next h =>
      split at hpc
      next hal => exact ⟨by rw [if_neg h, if_pos hal], .inr hal⟩
      next => omega
  · -- after its 36 steps the turn is over
    have hafter : Turn.after env ⟨e, s.exited e, e.turn env s⟩ n =
        (Cpu.step env e.scratch)^[n - 36] (e.turn env s) := by
      rw [turn_after, Exit.turn, ← Function.iterate_add_apply, show n - 36 + 36 = n by omega]
    rw [hafter] at hf hpc
    have hlate : (((Cpu.step env e.scratch)^[n - 36]) (e.turn env s)).Done :=
      (iterate_done hdone (n - 36)).1
    exact absurd (hlate.pc hf) (by omega)

/-- The turn ends, and the answer is the handler's. -/
theorem turn_answer (hs : s.Live region) (e : Exit) (hlt : s.st.exitCount.toNat < 5)
    {al : BitVec 8} {t : Machine}
    (hret : Returns (exitHandler env) ((e.entry s).atCall env e.scratch) al t) :
    (e.turn env s).Done ∧ (e.turn env s).answer = some al := by
  have hspec := @exit_turn env _ _ hs e _ rfl hlt
  obtain ⟨al', t', hret', ht⟩ := @exit_handled env _ _ hs e _ rfl hlt
  obtain ⟨rfl, -⟩ := hret.unique hret'
  generalize e.turn env s = c at *
  exact ⟨hspec.done, hspec.answer.trans (congrArg some ht.answer.symm)⟩

/-- **One exit is transparent.** -/
theorem turn_transparent (hs : s.Live region) (e : Exit) (hlt : s.st.exitCount.toNat < 5)
    (hrsp : (s.exited e).vmx.fields hostRsp = base + 0x4000) (halign : base.toNat % 4096 = 0)
    (hfits : e.Fits) : Transparent env base ⟨e, s.exited e, e.turn env s⟩ := by
  obtain ⟨al, t, hret, ht⟩ := @handler_called env _ _ hs e
  obtain ⟨hdone, hanswer⟩ := turn_answer hs e hlt hret
  generalize hx : (⟨e, s.exited e, e.turn env s⟩ : Turn) = x
  -- an instruction of the turn is fetched at its own index only
  have hplace : ∀ {n i}, (x.after env n).Fetches i → (x.after env n).pc ≤ 35 →
      n = (x.after env n).pc ∧ (n < 20 ∨ al = 0) := by
    intro n i hf hpc
    exact after_place hx.symm hdone hret hf hpc
  have hbefore : x.before.vmx.fields hostRsp = base + 0x4000 := by rw [← hx]; exact hrsp
  have hpushing : ∀ {n}, n ≤ 16 → (x.after env n).rsp = base + 0x4000 - BitVec.ofNat 64 (8 * n) :=
    fun hn => by rw [rsp_pushing env x hn, hbefore]
  -- so the call is made once, on the stack of sixteen pushes
  have hcall : ∀ {n}, (x.after env n).Fetches .callHandler → n = 16 := by
    intro n hf
    have hpc := fetch_once.1 hf.2
    rw [(hplace hf (by omega)).1, hpc]
  have hresume : ∀ {n}, (x.after env n).Fetches .vmresume → n = 35 ∧ al = 0 := by
    intro n hf
    have hpc := fetch_once.2 hf.2
    obtain ⟨hn, hal⟩ := hplace hf (by omega)
    exact ⟨by rw [hn, hpc], hal.resolve_left (by omega)⟩
  have hafter : ∀ n, x.after env n = (Cpu.step env e.scratch)^[n] (e.entry s) := fun n => by
    rw [← hx, turn_after]
  have hcpu : x.cpu = e.turn env s := by rw [← hx]
  refine ⟨by rw [hafter, hcpu, Exit.turn], hbefore, ?_, ?_, ?_, ?_, ?_, ?_⟩
  · intro n r hf
    have hpc := fetch_push hf.2
    have hn : n ≤ 16 := by
      have := (hplace hf (by omega)).1
      omega
    exact inStack_below hn (hpushing hn)
  · intro n hf
    obtain rfl := hcall hf
    exact inStack_below (Nat.le_refl 16) (hpushing (Nat.le_refl 16))
  · intro n hf
    obtain rfl := hcall hf
    rw [hpushing (Nat.le_refl 16)]
    bv_omega
  · -- answered 0, the turn gets to the VMRESUME
    intro hzero
    rw [hcpu, hanswer] at hzero
    obtain ⟨hmode, hpc⟩ := iterate_pc (c := e.entry s) rfl rfl hret (Nat.le_refl 35)
    rw [if_neg (by omega), if_pos (Option.some.inj hzero), ← hafter] at hpc
    rw [← hafter] at hmode
    exact ⟨35, hmode, by rw [hpc]; rfl⟩
  · -- what the pops restore is what the pushes saved
    intro n hf
    obtain ⟨rfl, -⟩ := hresume hf
    have hdepth : e.scratch.depth ≤ 2 ^ 32 := Nat.le_trans hfits (by decide)
    obtain ⟨hgpr, hrsp'⟩ := dispatched_restores hret ht.mem hdepth
    rw [hafter, (iterate_dispatched (c := e.entry s) rfl rfl hret).1, hgpr, hrsp', ← hx]
    exact ⟨rfl, rfl⟩
  · intro hnonzero n hf
    rw [hcpu, hanswer, (hresume hf).2] at hnonzero
    exact hnonzero rfl

/-! ## What is left of HOST_RSP -/

theorem vmresume_vmx (env : Env) (c : Cpu) : (c.vmresume env).machine.vmx = c.machine.vmx := by
  rw [Cpu.vmresume]
  split
  · split
    · rfl
    · rfl
  · rfl

/-- An exit keeps the host-state area, and so does the turn. -/
theorem turn_hostRsp (hs : s.Live region) (e : Exit) {v : BitVec 64}
    (hv : s.vmx.data region hostRsp = v) :
    (s.exited e).vmx.fields hostRsp = v ∧
      (e.turn env s).machine.vmx.data region hostRsp = v := by
  have hexited : (s.exited e).vmx.data region hostRsp = v := by
    rw [← hv]
    simp [Machine.exited, Vmx.setFields, Vmx.fields, hs.current,
      show hostField hostRsp = true by decide]
  refine ⟨?_, ?_⟩
  · rw [Vmx.fields, show (s.exited e).vmx.current = some region from hs.current]
    exact hexited
  · obtain ⟨al, t, hret, -⟩ := @handler_called env _ _ hs e
    have hcall : ((e.entry s).atCall env e.scratch).vmx.data region hostRsp = v := by
      rw [atCall_eq]
      exact hexited
    have ht : t.vmx.data region hostRsp = v :=
      (exitHandler_keeps_data env region (by decide) v).returns hcall hret
    obtain ⟨d, hturn, ⟨mem, hmachine⟩, hmode, -, hpc⟩ := turn_dispatched hret
    rw [hturn]
    have hd : d.machine.vmx.data region hostRsp = v := by
      rw [hmachine]
      exact ht
    by_cases hal : al = 0
    · rw [if_pos hal] at hpc
      rw [step_of_fetch (i := .vmresume) hmode (by rw [hpc]; rfl)]
      show (d.vmresume env).machine.vmx.data region hostRsp = v
      rw [vmresume_vmx]
      exact hd
    · rw [if_neg hal] at hpc
      rw [(@step_halting env e.scratch d ⟨hmode, .inr (by omega)⟩).2.1]
      exact hd

end Turn

/-! ## Every run -/

/-- What a run keeps while the guest runs, besides the turns it has made. -/
structure StackInv (env : Env) (region base : Addr) (t : LoopState) : Prop where
  guest : t.mode = .guest → t.machine.Live region ∧ t.machine.st.exitCount.toNat < 5 ∧
    t.machine.vmx.data region hostRsp = base + 0x4000
  turns : ∀ x ∈ t.turns, Transparent env base x

/-- One exit keeps the invariant. -/
theorem exitStep_stack {env : Env} {region base : Addr} (halign : base.toNat % 4096 = 0)
    {t u : LoopState} {e : Exit} (hfits : e.Fits) (h : StackInv env region base t)
    (hstep : exitStep env t e = some u) : StackInv env region base u := by
  cases hmode : t.mode with
  | host | aborted => simp [exitStep, hmode] at hstep
  | guest =>
  obtain ⟨hlive, hlt, hdata⟩ := h.guest hmode
  have hspec := @exit_turn env _ _ hlive e _ rfl hlt
  obtain ⟨hrsp, hkept⟩ := @turn_hostRsp env _ _ hlive e _ hdata
  have hturn := @turn_transparent env _ _ _ hlive e hlt hrsp halign hfits
  rw [exitStep_guest env hmode] at hstep
  generalize e.turn env t.machine = c at *
  obtain rfl := Option.some.inj hstep
  refine ⟨fun hguest => ?_, fun x hx => ?_⟩
  · have hstop : e.stops t.machine.st.exitCount.toNat = false := by
      cases hstop : e.stops t.machine.st.exitCount.toNat with
      | false => rfl
      | true => exact absurd (hguest.symm.trans (hspec.down hstop).2) (by simp)
    refine ⟨hspec.live hstop, ?_, hkept⟩
    rw [hspec.count]
    exact hltCount_lt hlt hstop
  · obtain hx | hx := List.mem_append.mp hx
    · exact h.turns x hx
    · obtain rfl := List.mem_singleton.mp hx
      exact hturn

/-- What `setup` puts into HOST_RSP: the end of the four pages that its third
allocation gave. -/
theorem setup_hostRsp {env : Env} {s t : Machine} (hactive : s.vmx.active = [])
    (hcount : s.st.exitCount = 0) (h : Returns (setup env) s (.ok ⟨⟩) t) :
    ∃ region base, Launched t region ∧ env.allocate (s.allocs + 2) 4 = (0, base) ∧
      t.vmx.data region hostRsp = base + 0x4000 := by
  obtain ⟨region, hlaunched⟩ := setup_launched hactive hcount h
  have hvia : Returns ((named env).setup env) s (.ok ⟨⟩) t := by rwa [named_setup]
  obtain ⟨run⟩ := setup_returns_iff.mp hvia
  have honmachine := named_onMachine env
  have hwrite : Returns (writeState env run.guest.hostStack run.guest.guestCode
      run.guest.guestStack) run.entry (.ok ⟨⟩) run.guest.filled :=
    (honmachine.writeState fun _ _ _ _ _ _ => rfl).symm.trans run.guest.writeState
  have hmem : StateWrite.field64 hostRsp (run.guest.hostStack + 0x4000) ∈
      writesOf env run.entry run.guest.hostStack run.guest.guestCode run.guest.guestStack := by
    refine List.mem_append_right _ ?_
    simp [hostWrites]
  have hfield := writeState_fields (run.filling honmachine).current hwrite hmem
  have hvmx := run.guest.vmx_eq honmachine
  refine ⟨region, run.guest.hostStack, hlaunched,
    allocAnswer_ok (run.hostStack_eq honmachine), ?_⟩
  have hcur : t.vmx.fields hostRsp = t.vmx.data region hostRsp := by
    rw [Vmx.fields, hlaunched.live.current]
  rw [← hcur, hvmx]
  refine hfield.trans ?_
  show fitField hostRsp (run.guest.hostStack + 0x4000) = _
  rw [fitField, show fieldBits hostRsp = 64 from rfl, BitVec.setWidth_eq, BitVec.setWidth_eq]

/-- **VM exits are transparent to the guest's registers**: in every run of the
exit loop after `setup`, if the firmware allocates whole pages and no handler
needs more stack than is left. -/
theorem transparent_run {env : Env} {s t : Machine} (hactive : s.vmx.active = [])
    (hcount : s.st.exitCount = 0)
    (hpages : ∀ n pages, (env.allocate n pages).1 = 0 → (env.allocate n pages).2.toNat % 4096 = 0)
    (h : Returns (setup env) s (.ok ⟨⟩) t) {es : List Exit} (hfits : ∀ e ∈ es, e.Fits)
    {u : LoopState} (hrun : run (exitStep env) (.start t) es = some u) :
    u.turns.map Turn.exit = es ∧
      ∀ x ∈ u.turns, Transparent env (env.allocate (s.allocs + 2) 4).2 x := by
  obtain ⟨region, base, hlaunched, halloc, hdata⟩ := setup_hostRsp hactive hcount h
  have halign := hpages (s.allocs + 2) 4
  rw [halloc] at halign ⊢
  have hstart : StackInv env region base (.start t) := by
    refine ⟨fun _ => ⟨hlaunched.live, ?_, hdata⟩, fun x hx => absurd hx List.not_mem_nil⟩
    show t.st.exitCount.toNat < 5
    rw [hlaunched.exitCount]
    decide
  have hinv : StackInv env region base u :=
    run_inv_on (P := Exit.Fits) (fun _ _ _ he hi hstep => exitStep_stack (halign rfl) he hi hstep)
      hfits hstart hrun
  exact ⟨(loop_inv hlaunched hrun).exits, hinv.turns⟩

/-- The guest halts twice and is then stopped by an exit for another reason. -/
theorem transparent_run_hlt_hlt_cpuid :
    ∃ s t, Returns (setup grantingEnv) (bootWith bootMachine.regs.msr) (.ok ⟨⟩) s ∧
      run (exitStep grantingEnv) (.start s) [exitFor 12, exitFor 12, exitFor 10] = some t ∧
      t.turns.map Turn.exit = [exitFor 12, exitFor 12, exitFor 10] ∧
      ∀ x ∈ t.turns, Transparent grantingEnv 0x108000 x := by
  obtain ⟨s, hs⟩ := setup_granting grantingEnv.cpuid (s := bootMachine) rfl bootMachine_table
  obtain ⟨region, hlaunched⟩ := setup_launched (by rfl) (by rfl) hs
  have hgo : ∀ i e, [exitFor 12, exitFor 12, exitFor 10][i]? = some e → i + 1 < 3 →
      e.stops (hltCount ([exitFor 12, exitFor 12, exitFor 10].take i)) = false := by
    intro i e he hi
    obtain rfl | rfl : i = 0 ∨ i = 1 := by omega
    · cases he
      decide
    · cases he
      decide
  have hpages : ∀ n pages, (grantingEnv.allocate n pages).1 = 0 →
      (grantingEnv.allocate n pages).2.toNat % 4096 = 0 := by
    intro n pages _
    show (0x100000 + 0x4000 * BitVec.ofNat 64 n : BitVec 64).toNat % 4096 = 0
    bv_omega
  have hfits : ∀ e ∈ [exitFor 12, exitFor 12, exitFor 10], e.Fits := by
    intro e he
    simp only [List.mem_cons, List.not_mem_nil, or_false] at he
    obtain rfl | rfl | rfl := he <;> exact show 64 ≤ 0x4000 - 17 * 8 by decide
  obtain ⟨t, ht⟩ := @loop_total grantingEnv (fun _ => rfl) _ _ hlaunched _ hgo
  exact ⟨s, t, hs, ht, transparent_run (by rfl) (by rfl) hpages hs hfits ht⟩

end MochiVM.Hv
