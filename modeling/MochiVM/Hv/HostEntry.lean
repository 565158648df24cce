import MochiVM.Hv.ExitHandler

/-!
# The exit dispatcher (vmcs.rs:200)

`host_entry` is naked assembly: the processor jumps to its first instruction on
every VM exit. It saves the guest's registers, calls `exit_handler`, and either
restores them and resumes the guest or restores them and halts. It is modelled
instruction by instruction, on a processor with general registers, a stack
pointer and the zero flag.

The compiled `exit_handler` is `exitHandler` on the machine; what the sysv64
calling convention lets it do besides is in `Scratch`.
-/

namespace MochiVM.Hv

open MochiVM.Panic

/-! ## The code -/

/-- The general registers, rsp apart. -/
inductive Gpr where
  | rax | rcx | rdx | rbx | rbp | rsi | rdi | r8 | r9 | r10 | r11 | r12 | r13 | r14 | r15
deriving DecidableEq, Repr

/-- The instructions of `host_entry`; a jump target is an index into the code. -/
inductive Insn where
  | push (r : Gpr)
  | pop (r : Gpr)
  /-- `call {handler}`. -/
  | callHandler
  | addRsp (n : BitVec 64)
  /-- `test al, al`. -/
  | testAl
  | jnz (target : Nat)
  | vmresume
  | cli
  | hlt
  | jmp (target : Nat)
deriving DecidableEq, Repr

/-- `host_entry` (vmcs.rs:202). -/
def hostEntryCode : List Insn :=
  [.push .rax,
   .push .rcx,
   .push .rdx,
   .push .rbx,
   .push .rbp,
   .push .rsi,
   .push .rdi,
   .push .r8,
   .push .r9,
   .push .r10,
   .push .r11,
   .push .r12,
   .push .r13,
   .push .r14,
   .push .r15,
   .push .rax, -- alignment pad
   .callHandler,
   .addRsp 8,
   .testAl,
   .jnz 39,
   .pop .r15,
   .pop .r14,
   .pop .r13,
   .pop .r12,
   .pop .r11,
   .pop .r10,
   .pop .r9,
   .pop .r8,
   .pop .rdi,
   .pop .rsi,
   .pop .rbp,
   .pop .rbx,
   .pop .rdx,
   .pop .rcx,
   .pop .rax,
   .vmresume,
   .cli, -- 36, label 1
   .hlt,
   .jmp 36,
   .pop .r15, -- 39, label 2
   .pop .r14,
   .pop .r13,
   .pop .r12,
   .pop .r11,
   .pop .r10,
   .pop .r9,
   .pop .r8,
   .pop .rdi,
   .pop .rsi,
   .pop .rbp,
   .pop .rbx,
   .pop .rdx,
   .pop .rcx,
   .pop .rax,
   .cli, -- 54, label 3
   .hlt,
   .jmp 54]

/-! ## The processor -/

/-- Who has the processor. -/
inductive Mode where
  /-- The code of `host_entry`, at `pc`. -/
  | host
  | guest
  | aborted (e : Abort)
deriving DecidableEq, Repr

/-- The processor in `host_entry`. `answer` is a ghost: what `exit_handler`
returned. -/
structure Cpu where
  gpr : Gpr → BitVec 64
  rsp : BitVec 64
  zf : Bool
  pc : Nat
  mode : Mode
  machine : Machine
  answer : Option (BitVec 8)

/-- What the compiled `exit_handler` leaves behind besides its effect on the
machine: any value in the registers its caller saves, and any bytes in the
`depth` bytes of stack below its return address. -/
structure Scratch where
  gpr : Gpr → BitVec 64
  depth : Nat
  stack : Addr → BitVec 8
  /-- The return address of the call. -/
  ret : BitVec 64

/-- The registers that sysv64 has the caller save. -/
def Gpr.callerSaved : Gpr → Bool
  | .rax | .rcx | .rdx | .rsi | .rdi | .r8 | .r9 | .r10 | .r11 => true
  | .rbx | .rbp | .r12 | .r13 | .r14 | .r15 => false

/-- Memory with the `depth` bytes below `a` taken from `stack`. -/
def scribble (mem : Addr → BitVec 8) (a : Addr) (depth : Nat) (stack : Addr → BitVec 8) :
    Addr → BitVec 8 :=
  fun x => if (a - 1 - x).toNat < depth then stack x else mem x

/-- A register with its low byte replaced. -/
def withAl (v : BitVec 64) (al : BitVec 8) : BitVec 64 := (v &&& ~~~0xFF) ||| al.setWidth 64

namespace Cpu

def push (c : Cpu) (v : BitVec 64) : Cpu :=
  { c with
    rsp := c.rsp - 8
    machine := c.machine.setMem (storeLE c.machine.mem (c.rsp - 8) 8 v)
    pc := c.pc + 1 }

def pop (c : Cpu) (r : Gpr) : Cpu :=
  { c with
    gpr := fun r' => if r' = r then loadLE c.machine.mem c.rsp 8 else c.gpr r'
    rsp := c.rsp + 8
    pc := c.pc + 1 }

/-- `call {handler}` and the return: `exit_handler` runs on the machine with the
return address pushed. -/
def callHandler (env : Env) (x : Scratch) (c : Cpu) : Cpu :=
  let called := c.machine.setMem (storeLE c.machine.mem (c.rsp - 8) 8 x.ret)
  match exitHandler env called with
  | .ok al t =>
    { c with
      gpr := fun r =>
        if r = .rax then withAl (x.gpr .rax) al
        else if r.callerSaved then x.gpr r
        else c.gpr r
      machine := t.setMem (scribble t.mem (c.rsp - 8) x.depth x.stack)
      pc := c.pc + 1
      answer := some al }
  | .error e t => { c with machine := t, mode := .aborted e }

/-- VMRESUME: on failure control falls through. -/
def vmresume (env : Env) (c : Cpu) : Cpu :=
  if c.machine.vmx.on then
    let recorded := { c with machine := c.machine.record .vmresume }
    if c.machine.vmx.current.isSome && env.vmresumeOk c.machine.trace.length then
      { recorded with mode := .guest }
    else { recorded with pc := c.pc + 1 }
  else { c with mode := .aborted (.fault .invalidOpcode) }

/-- One instruction. HLT waits for an interrupt that CLI holds off. -/
def exec (env : Env) (x : Scratch) (c : Cpu) : Insn → Cpu
  | .push r => c.push (c.gpr r)
  | .pop r => c.pop r
  | .callHandler => c.callHandler env x
  | .addRsp n => { c with rsp := c.rsp + n, pc := c.pc + 1 }
  | .testAl => { c with zf := (c.gpr .rax).setWidth 8 == 0#8, pc := c.pc + 1 }
  | .jnz target => { c with pc := if c.zf then c.pc + 1 else target }
  | .vmresume => c.vmresume env
  | .cli | .hlt => { c with pc := c.pc + 1 }
  | .jmp target => { c with pc := target }

/-- One step of the processor in `host_entry`. -/
def step (env : Env) (x : Scratch) (c : Cpu) : Cpu :=
  match c.mode with
  | .host =>
    match hostEntryCode[c.pc]? with
    | some i => c.exec env x i
    | none => c
  | .guest | .aborted _ => c

end Cpu

/-! ## Straight lines of code -/

/-- The instructions that only move data and go on. -/
def Insn.straight : Insn → Bool
  | .push _ | .pop _ | .addRsp _ | .testAl => true
  | _ => false

section Step

variable {env : Env} {x : Scratch} {c : Cpu}

theorem step_of_fetch {i : Insn} (hmode : c.mode = .host) (hfetch : hostEntryCode[c.pc]? = some i) :
    c.step env x = c.exec env x i := by
  rw [Cpu.step, hmode, hfetch]

theorem step_of_left (hmode : c.mode ≠ .host) : c.step env x = c := by
  rw [Cpu.step]
  split
  · exact absurd (by assumption) hmode
  · rfl
  · rfl

/-- What a straight instruction leaves alone. -/
structure Cpu.SameBut (c d : Cpu) : Prop where
  machine : d.machine = c.machine.setMem d.machine.mem
  mode : d.mode = c.mode
  answer : d.answer = c.answer

theorem Cpu.SameBut.trans {c d e : Cpu} (h : c.SameBut d) (h' : d.SameBut e) : c.SameBut e where
  machine := by rw [h'.machine, h.machine]; rfl
  mode := h'.mode.trans h.mode
  answer := h'.answer.trans h.answer

theorem Cpu.SameBut.setMem {c d : Cpu} (h : c.SameBut d) (mem : Addr → BitVec 8) :
    d.machine.setMem mem = c.machine.setMem mem := by
  rw [h.machine]
  rfl

theorem exec_straight {i : Insn} (hi : i.straight = true) :
    c.SameBut (c.exec env x i) ∧ (c.exec env x i).pc = c.pc + 1 := by
  cases i <;> first | exact ⟨⟨rfl, rfl, rfl⟩, rfl⟩ | cases hi

/-- A straight line of code. -/
def Cpu.line (env : Env) (x : Scratch) (c : Cpu) (is : List Insn) : Cpu :=
  is.foldl (Cpu.exec env x) c

theorem line_sameBut : ∀ (is : List Insn) (c : Cpu), (∀ i ∈ is, i.straight = true) →
    c.SameBut (c.line env x is) ∧ (c.line env x is).pc = c.pc + is.length
  | [], _, _ => ⟨⟨rfl, rfl, rfl⟩, rfl⟩
  | i :: is, c, h => by
    obtain ⟨hhead, hpc⟩ := @exec_straight env x c i (h i List.mem_cons_self)
    obtain ⟨hrest, hpc'⟩ := line_sameBut is (c.exec env x i) fun j hj =>
      h j (List.mem_cons_of_mem _ hj)
    refine ⟨hhead.trans hrest, ?_⟩
    show ((c.exec env x i).line env x is).pc = _
    rw [hpc', hpc, List.length_cons]
    omega

/-- A straight line runs in as many steps as it has instructions. -/
theorem iterate_line : ∀ (is : List Insn) (c : Cpu) (rest : List Insn),
    (∀ i ∈ is, i.straight = true) → c.mode = .host → hostEntryCode.drop c.pc = is ++ rest →
    (Cpu.step env x)^[is.length] c = c.line env x is
  | [], _, _, _, _, _ => rfl
  | i :: is, c, rest, h, hmode, hcode => by
    have hfetch : hostEntryCode[c.pc]? = some i := by
      rw [← List.head?_drop, hcode]
      rfl
    obtain ⟨hhead, hpc⟩ := @exec_straight env x c i (h i List.mem_cons_self)
    rw [List.length_cons, Function.iterate_succ_apply, step_of_fetch hmode hfetch]
    refine iterate_line is _ rest (fun j hj => h j (List.mem_cons_of_mem _ hj))
      (hhead.mode.trans hmode) ?_
    rw [hpc, ← List.tail_drop, hcode]
    rfl

end Step

/-! ## One pass through the code -/

/-- The registers `host_entry` saves, in the order it pushes them. -/
def savedRegs : List Gpr :=
  [.rax, .rcx, .rdx, .rbx, .rbp, .rsi, .rdi, .r8, .r9, .r10, .r11, .r12, .r13, .r14, .r15]

/-- The pushes, the alignment pad included. -/
def pushes : List Insn := (savedRegs ++ [Gpr.rax]).map Insn.push

def pops : List Insn := savedRegs.reverse.map Insn.pop

theorem pushes_straight : ∀ i ∈ pushes, i.straight = true := by decide

theorem pops_straight : ∀ i ∈ pops, i.straight = true := by decide

section Pass

variable (env : Env) (x : Scratch) (c : Cpu)

/-- The machine `exit_handler` is entered with: the guest's registers and the
return address are on the stack. -/
def Cpu.atCall : Machine :=
  let d := c.line env x pushes
  d.machine.setMem (storeLE d.machine.mem (d.rsp - 8) 8 x.ret)

/-- The processor right after `test al, al`. -/
def Cpu.tested : Cpu :=
  ((c.line env x pushes).callHandler env x).line env x [.addRsp 8, .testAl]

/-- The processor at the end of the pops, those before VMRESUME or those before
the halt loop. -/
def Cpu.dispatched : Cpu := ((c.tested env x).exec env x (.jnz 39)).line env x pops

end Pass

section Pass

variable {env : Env} {x : Scratch} {c : Cpu}

/-- `withAl` puts the answer where `test al, al` looks. -/
theorem setWidth_withAl (v : BitVec 64) (al : BitVec 8) : (withAl v al).setWidth 8 = al := by
  apply BitVec.eq_of_getLsbD_eq
  intro i hi
  have hmask : ∀ j : Fin 8, (~~~(0xFF : BitVec 64)).getLsbD j = false := by decide
  have hbit : (~~~(0xFF : BitVec 64)).getLsbD i = false := hmask ⟨i, hi⟩
  rw [BitVec.getLsbD_setWidth, withAl, BitVec.getLsbD_or, BitVec.getLsbD_and, hbit,
    BitVec.getLsbD_setWidth, Bool.and_false, Bool.false_or]
  simp [hi, show i < 64 by omega]

/-- Right before the call nothing has happened but the pushes. -/
theorem atCall_eq (env : Env) (x : Scratch) (c : Cpu) :
    c.atCall env x = c.machine.setMem (c.atCall env x).mem :=
  (line_sameBut pushes c pushes_straight).1.setMem _

/-- The processor after a call that returned. -/
structure Answered (c : Cpu) (al : BitVec 8) (t : Machine) (d : Cpu) : Prop where
  machine : d.machine = t.setMem d.machine.mem
  mode : d.mode = .host
  answer : d.answer = some al
  al : (d.gpr .rax).setWidth 8 = al
  pc : d.pc = c.pc + 1

theorem callHandler_answered {al : BitVec 8} {t : Machine} (hmode : c.mode = .host)
    (hret : Returns (exitHandler env)
      (c.machine.setMem (storeLE c.machine.mem (c.rsp - 8) 8 x.ret)) al t) :
    Answered c al t (c.callHandler env x) := by
  rw [Cpu.callHandler, show exitHandler env _ = _ from hret]
  exact ⟨rfl, hmode, rfl, setWidth_withAl _ _, rfl⟩

theorem tested_answered {al : BitVec 8} {t : Machine} {d : Cpu} (h : Answered c al t d) :
    (d.line env x [.addRsp 8, .testAl]).zf = (al == 0#8) := by
  rw [← h.al]
  rfl

theorem tested_straight : ∀ i ∈ [Insn.addRsp 8, .testAl], i.straight = true := by decide

/-- The part of a straight line that has run after `k` steps. -/
theorem iterate_line_take (env : Env) (x : Scratch) {is rest : List Insn}
    (hstraight : ∀ i ∈ is, i.straight = true) (hmode : c.mode = .host)
    (hcode : hostEntryCode.drop c.pc = is ++ rest) {k : Nat} (hk : k ≤ is.length) :
    (Cpu.step env x)^[k] c = c.line env x (is.take k) ∧
      (c.line env x (is.take k)).mode = .host ∧ (c.line env x (is.take k)).pc = c.pc + k := by
  have htake : ∀ i ∈ is.take k, i.straight = true := fun i hi =>
    hstraight i (List.mem_of_mem_take hi)
  have hlen : (is.take k).length = k := by rw [List.length_take, Nat.min_eq_left hk]
  have hrun := @iterate_line env x (is.take k) c (is.drop k ++ rest) htake hmode
    (by rw [← List.append_assoc, List.take_append_drop]; exact hcode)
  obtain ⟨hsame, hpc⟩ := @line_sameBut env x (is.take k) c htake
  rw [hlen] at hrun hpc
  exact ⟨hrun, hsame.mode.trans hmode, hpc⟩

/-- The code that is left before the pushes. -/
theorem code_pushes (hpc : c.pc = 0) :
    hostEntryCode.drop c.pc = pushes ++ hostEntryCode.drop 16 := by
  rw [hpc]
  rfl

/-- **The handler is called** and answers. -/
theorem iterate_called (hmode : c.mode = .host) (hpc : c.pc = 0) {al : BitVec 8} {t : Machine}
    (hret : Returns (exitHandler env) (c.atCall env x) al t) :
    (Cpu.step env x)^[17] c = (c.line env x pushes).callHandler env x ∧
      Answered (c.line env x pushes) al t ((c.line env x pushes).callHandler env x) ∧
      ((c.line env x pushes).callHandler env x).pc = 17 := by
  obtain ⟨hpushed, hlen⟩ := @line_sameBut env x pushes c pushes_straight
  have hrun : (Cpu.step env x)^[16] c = c.line env x pushes :=
    iterate_line pushes c _ pushes_straight hmode (code_pushes hpc)
  have hpc' : (c.line env x pushes).pc = 16 := by rw [hlen, hpc]; rfl
  have hmode' : (c.line env x pushes).mode = .host := hpushed.mode.trans hmode
  have hcall := callHandler_answered hmode' hret
  refine ⟨?_, hcall, by rw [hcall.pc, hpc']⟩
  rw [Function.iterate_succ_apply', hrun,
    step_of_fetch (i := .callHandler) hmode' (by rw [hpc']; rfl)]
  rfl

/-- The processor after the jump: in front of the pops. -/
structure Jumped (al : BitVec 8) (t : Machine) (d : Cpu) : Prop where
  machine : d.machine = t.setMem d.machine.mem
  mode : d.mode = .host
  answer : d.answer = some al
  pc : d.pc = if al = 0 then 20 else 39

/-- **The answer decides where control goes.** -/
theorem iterate_jumped (hmode : c.mode = .host) (hpc : c.pc = 0) {al : BitVec 8} {t : Machine}
    (hret : Returns (exitHandler env) (c.atCall env x) al t) :
    (Cpu.step env x)^[20] c = (c.tested env x).exec env x (.jnz 39) ∧
      Jumped al t ((c.tested env x).exec env x (.jnz 39)) := by
  obtain ⟨hrun, hcall, hpc₂⟩ := iterate_called hmode hpc hret
  -- the pad and the test
  obtain ⟨htested, hlen⟩ := @line_sameBut env x [.addRsp 8, .testAl]
    ((c.line env x pushes).callHandler env x) tested_straight
  have hrun₃ : (Cpu.step env x)^[19] c = c.tested env x := by
    rw [show 19 = [Insn.addRsp 8, .testAl].length + 17 from rfl, Function.iterate_add_apply, hrun]
    exact iterate_line _ _ _ tested_straight hcall.mode (by rw [hpc₂]; rfl)
  have hmode₃ : (c.tested env x).mode = .host := htested.mode.trans hcall.mode
  have hpc₃ : (c.tested env x).pc = 19 := hlen.trans (by rw [hpc₂]; rfl)
  have hzf : (c.tested env x).zf = (al == 0#8) := tested_answered hcall
  -- the jump
  have hsame : ((c.line env x pushes).callHandler env x).SameBut
      ((c.tested env x).exec env x (.jnz 39)) := htested.trans ⟨rfl, rfl, rfl⟩
  refine ⟨?_, ?_, hmode₃, hsame.answer.trans hcall.answer, ?_⟩
  · rw [Function.iterate_succ_apply', hrun₃,
      step_of_fetch (i := .jnz 39) hmode₃ (by rw [hpc₃]; rfl)]
  · refine hsame.machine.trans ?_
    rw [hcall.machine]
    rfl
  · show (if (c.tested env x).zf then (c.tested env x).pc + 1 else 39) = _
    rw [hzf, hpc₃]
    by_cases hal : al = 0 <;> simp [hal]

/-- The code that is left in front of the pops. -/
theorem code_pops {al : BitVec 8} {t : Machine} {d : Cpu} (h : Jumped al t d) :
    ∃ rest, hostEntryCode.drop d.pc = pops ++ rest := by
  rw [h.pc]
  by_cases hal : al = 0
  · rw [if_pos hal]
    exact ⟨hostEntryCode.drop 35, rfl⟩
  · rw [if_neg hal]
    exact ⟨hostEntryCode.drop 54, rfl⟩

/-- **The handler returned**: the registers are popped, before VMRESUME or
before the halt loop. -/
theorem iterate_dispatched (hmode : c.mode = .host) (hpc : c.pc = 0) {al : BitVec 8}
    {t : Machine} (hret : Returns (exitHandler env) (c.atCall env x) al t) :
    (Cpu.step env x)^[35] c = c.dispatched env x ∧
      (c.dispatched env x).machine = t.setMem (c.dispatched env x).machine.mem ∧
      (c.dispatched env x).mode = .host ∧ (c.dispatched env x).answer = some al ∧
      (c.dispatched env x).pc = if al = 0 then 35 else 54 := by
  obtain ⟨hrun, hjumped⟩ := iterate_jumped hmode hpc hret
  obtain ⟨rest, hcode⟩ := code_pops hjumped
  obtain ⟨hpopped, hpc'⟩ := @line_sameBut env x pops
    ((c.tested env x).exec env x (.jnz 39)) pops_straight
  refine ⟨?_, ?_, hpopped.mode.trans hjumped.mode, hpopped.answer.trans hjumped.answer, ?_⟩
  · rw [show 35 = pops.length + 20 from rfl, Function.iterate_add_apply, hrun]
    exact iterate_line pops _ rest pops_straight hjumped.mode hcode
  · refine hpopped.machine.trans ?_
    rw [hjumped.machine]
    rfl
  · refine hpc'.trans ?_
    rw [hjumped.pc]
    by_cases hal : al = 0
    · rw [if_pos hal, if_pos hal]
      rfl
    · rw [if_neg hal, if_neg hal]
      rfl

/-- **Where `host_entry` is after `n` steps**: it never goes back. -/
theorem iterate_pc (hmode : c.mode = .host) (hpc : c.pc = 0) {al : BitVec 8} {t : Machine}
    (hret : Returns (exitHandler env) (c.atCall env x) al t) {n : Nat} (hn : n ≤ 35) :
    ((Cpu.step env x)^[n] c).mode = .host ∧
      ((Cpu.step env x)^[n] c).pc = if n < 20 then n else if al = 0 then n else n + 19 := by
  obtain hpush | ⟨k, hk, rfl⟩ | ⟨k, hk, rfl⟩ :
      n ≤ 16 ∨ (∃ k ≤ 2, n = k + 17) ∨ ∃ k ≤ 15, n = k + 20 := by
    by_cases h₁ : n ≤ 16
    · exact .inl h₁
    · by_cases h₂ : n < 20
      · exact .inr (.inl ⟨n - 17, by omega, by omega⟩)
      · exact .inr (.inr ⟨n - 20, by omega, by omega⟩)
  · obtain ⟨hrun, hmode', hpc'⟩ := iterate_line_take env x pushes_straight hmode
      (code_pushes hpc) (k := n) hpush
    rw [hrun, hpc', hpc, if_pos (by omega), Nat.zero_add]
    exact ⟨hmode', rfl⟩
  · obtain ⟨hrun, hcall, hpc₂⟩ := iterate_called hmode hpc hret
    have hcode : hostEntryCode.drop ((c.line env x pushes).callHandler env x).pc =
        [.addRsp 8, .testAl] ++ hostEntryCode.drop 19 := by
      rw [hpc₂]
      rfl
    obtain ⟨hrun', hmode', hpc'⟩ := iterate_line_take env x tested_straight hcall.mode hcode hk
    rw [Function.iterate_add_apply, hrun, hrun', hpc', hpc₂, if_pos (by omega)]
    exact ⟨hmode', Nat.add_comm _ _⟩
  · obtain ⟨hrun, hjumped⟩ := iterate_jumped hmode hpc hret
    obtain ⟨rest, hcode⟩ := code_pops hjumped
    obtain ⟨hrun', hmode', hpc'⟩ := iterate_line_take env x pops_straight
      hjumped.mode hcode (k := k) hk
    have hlate : ¬ k + 20 < 20 := by omega
    rw [Function.iterate_add_apply, hrun, hrun', hpc', hjumped.pc, if_neg hlate]
    refine ⟨hmode', ?_⟩
    by_cases hal : al = 0
    · rw [if_pos hal, if_pos hal]
      omega
    · rw [if_neg hal, if_neg hal]
      omega

/-! ## Leaving the code, or not -/

/-- In one of the two `cli; hlt; jmp` loops. -/
def Cpu.Halting (c : Cpu) : Prop :=
  c.mode = .host ∧ (36 ≤ c.pc ∧ c.pc ≤ 38 ∨ 54 ≤ c.pc ∧ c.pc ≤ 56)

/-- A processor that halts executes nothing but the loop. -/
theorem step_halting (h : c.Halting) :
    (c.step env x).Halting ∧ (c.step env x).machine = c.machine ∧
      (c.step env x).answer = c.answer := by
  obtain ⟨hmode, hpc⟩ := h
  have hcases : c.pc = 36 ∨ c.pc = 37 ∨ c.pc = 38 ∨ c.pc = 54 ∨ c.pc = 55 ∨ c.pc = 56 := by omega
  rw [Cpu.step, hmode, Cpu.Halting]
  rcases hcases with h | h | h | h | h | h <;> rw [h] <;>
    simp [hostEntryCode, Cpu.exec, hmode, h]

/-- A processor that has left `host_entry`, or halts in it. -/
def Cpu.Done (c : Cpu) : Prop := c.mode ≠ .host ∨ c.Halting

theorem step_done (h : c.Done) :
    (c.step env x).Done ∧ (c.step env x).mode = c.mode ∧ (c.step env x).machine = c.machine ∧
      (c.step env x).answer = c.answer := by
  obtain hleft | hhalt := h
  · rw [step_of_left hleft]
    exact ⟨.inl hleft, rfl, rfl, rfl⟩
  · obtain ⟨hnext, hmachine, hanswer⟩ := @step_halting env x _ hhalt
    exact ⟨.inr hnext, hnext.1.trans hhalt.1.symm, hmachine, hanswer⟩

/-- **Once done, `host_entry` stays done**, however long it is run. -/
theorem iterate_done (h : c.Done) (n : Nat) :
    ((Cpu.step env x)^[n] c).Done ∧ ((Cpu.step env x)^[n] c).mode = c.mode ∧
      ((Cpu.step env x)^[n] c).machine = c.machine ∧
      ((Cpu.step env x)^[n] c).answer = c.answer := by
  induction n with
  | zero => exact ⟨h, rfl, rfl, rfl⟩
  | succ n ih =>
    obtain ⟨hdone, hmode, hmachine, hanswer⟩ := ih
    rw [Function.iterate_succ_apply']
    obtain ⟨hdone', hmode', hmachine', hanswer'⟩ := @step_done env x _ hdone
    exact ⟨hdone', hmode'.trans hmode, hmachine'.trans hmachine, hanswer'.trans hanswer⟩

end Pass

end MochiVM.Hv
