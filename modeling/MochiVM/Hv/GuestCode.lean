import MochiVM.Hv.HostEntry
import MochiVM.Hv.Memory
import MochiVM.Lib.Runs

/-!
# The guest's code (guest/hello.S, hv/guest.rs)

The instructions that the guest is made of, their encoding, and a processor that
executes them by itself, with no hypervisor under it, a HLT being over at once.

Memory that holds a program's bytes is fetched as that program
(`fetch_program`), and `GUEST_BIN` is what `guest/hello.S` assembles to. Then
`bare_hello` says where that program is after any number of instructions.
-/

namespace MochiVM.Hv

/-! ## Instructions -/

/-- The registers that `mov r32, imm32` encodes without a prefix, esp apart. -/
inductive Reg32 where
  | eax | ecx | edx | ebx | ebp | esi | edi
deriving DecidableEq, Repr

namespace Reg32

/-- The register it is the low half of. -/
def gpr : Reg32 → Gpr
  | .eax => .rax
  | .ecx => .rcx
  | .edx => .rdx
  | .ebx => .rbx
  | .ebp => .rbp
  | .esi => .rsi
  | .edi => .rdi

/-- The opcode of the move to it. -/
def opcode : Reg32 → BitVec 8
  | .eax => 0xB8
  | .ecx => 0xB9
  | .edx => 0xBA
  | .ebx => 0xBB
  | .ebp => 0xBD
  | .esi => 0xBE
  | .edi => 0xBF

def ofOpcode (b : BitVec 8) : Option Reg32 :=
  [.eax, .ecx, .edx, .ebx, .ebp, .esi, .edi].find? (·.opcode = b)

theorem ofOpcode_opcode (r : Reg32) : ofOpcode r.opcode = some r := by cases r <;> rfl

theorem opcode_ne (r : Reg32) : r.opcode ≠ 0xF4 ∧ r.opcode ≠ 0xEB := by cases r <;> decide

end Reg32

/-- The instructions of guest/hello.S. -/
inductive GuestInsn where
  /-- `mov r32, imm32`. -/
  | mov (r : Reg32) (imm : BitVec 32)
  | hlt
  /-- `jmp rel8`, counted from the next instruction. -/
  | jmp (rel : BitVec 8)
deriving DecidableEq, Repr

namespace GuestInsn

def encode : GuestInsn → List (BitVec 8)
  | .mov r imm => r.opcode :: (List.range 4).map fun i => (imm >>> (8 * i)).setWidth 8
  | .hlt => [0xF4]
  | .jmp rel => [0xEB, rel]

/-- The length of the encoding. -/
def length (i : GuestInsn) : Nat := i.encode.length

/-- The instruction at `a`. -/
def fetch (mem : Addr → BitVec 8) (a : Addr) : Option GuestInsn :=
  if mem a = 0xF4 then some .hlt
  else if mem a = 0xEB then some (.jmp (mem (a + 1)))
  else (Reg32.ofOpcode (mem a)).map fun r => .mov r ((loadLE mem (a + 1) 4).setWidth 32)

end GuestInsn

/-- Memory holds these bytes at `a`. -/
def Holds (mem : Addr → BitVec 8) (a : Addr) (bytes : List (BitVec 8)) : Prop :=
  ∀ k b, bytes[k]? = some b → mem (a + BitVec.ofNat 64 k) = b

theorem Holds.left {mem : Addr → BitVec 8} {a : Addr} {bs bs' : List (BitVec 8)}
    (h : Holds mem a (bs ++ bs')) : Holds mem a bs := by
  intro k b hb
  refine h k b ?_
  rw [List.getElem?_append_left (List.getElem?_eq_some_iff.mp hb).1]
  exact hb

theorem Holds.right {mem : Addr → BitVec 8} {a : Addr} {bs bs' : List (BitVec 8)}
    (h : Holds mem a (bs ++ bs')) : Holds mem (a + BitVec.ofNat 64 bs.length) bs' := by
  intro k b hb
  have hat : (bs ++ bs')[bs.length + k]? = some b := by
    rw [List.getElem?_append_right (Nat.le_add_right ..), Nat.add_sub_cancel_left]
    exact hb
  have hmem := h (bs.length + k) b hat
  rwa [BitVec.ofNat_add, ← BitVec.add_assoc] at hmem

/-- **An instruction is fetched as it was encoded.** -/
theorem fetch_encode {mem : Addr → BitVec 8} {a : Addr} {i : GuestInsn}
    (h : Holds mem a i.encode) : GuestInsn.fetch mem a = some i := by
  have hfirst : ∀ b rest, i.encode = b :: rest → mem a = b := by
    intro b rest hb
    have hmem := h 0 b (by rw [hb]; rfl)
    rwa [BitVec.add_zero] at hmem
  cases i with
  | hlt => rw [GuestInsn.fetch, if_pos (hfirst 0xF4 [] rfl)]
  | jmp rel =>
    rw [GuestInsn.fetch, hfirst 0xEB [rel] rfl, if_neg (by decide), if_pos rfl]
    exact congrArg (fun v => some (GuestInsn.jmp v)) (h 1 rel rfl)
  | mov r imm =>
    rw [GuestInsn.fetch, hfirst r.opcode _ rfl, if_neg r.opcode_ne.1, if_neg r.opcode_ne.2,
      Reg32.ofOpcode_opcode, Option.map_some]
    have himm : (loadLE mem (a + 1) 4).setWidth 32 = imm := by
      apply BitVec.eq_of_getLsbD_eq
      intro j hj
      have hbyte : mem (a + BitVec.ofNat 64 (j / 8 + 1)) = (imm >>> (8 * (j / 8))).setWidth 8 := by
        refine h (j / 8 + 1) _ ?_
        rw [GuestInsn.encode, List.getElem?_cons_succ, List.getElem?_map,
          List.getElem?_range (by omega)]
        rfl
      have hshift : a + 1 + BitVec.ofNat 64 (j / 8) = a + BitVec.ofNat 64 (j / 8 + 1) := by bv_omega
      rw [BitVec.getLsbD_setWidth, loadLE_bit (by omega) (by omega), hshift, hbyte,
        BitVec.getLsbD_setWidth, BitVec.getLsbD_ushiftRight, Nat.div_add_mod]
      simp [hj, Nat.mod_lt j (show 0 < 8 by decide)]
    rw [himm]

/-! ## Programs -/

/-- Where the `k`-th instruction of a program is. -/
def offset (program : List GuestInsn) (k : Nat) : Nat :=
  ((program.take k).flatMap GuestInsn.encode).length

/-- **A program is fetched as it was assembled.** -/
theorem fetch_program {mem : Addr → BitVec 8} {a : Addr} {program : List GuestInsn}
    (h : Holds mem a (program.flatMap GuestInsn.encode)) {k : Nat} {i : GuestInsn}
    (hi : program[k]? = some i) :
    GuestInsn.fetch mem (a + BitVec.ofNat 64 (offset program k)) = some i := by
  obtain ⟨hk, rfl⟩ := List.getElem?_eq_some_iff.mp hi
  rw [← List.take_append_drop k program, List.drop_eq_getElem_cons hk, List.flatMap_append,
    List.flatMap_cons] at h
  exact fetch_encode h.right.left

/-- guest/hello.S. -/
def helloS : List GuestInsn :=
  [.mov .edi 0xDEADBEEF,
   .mov .ebx 0x12345678,
   .hlt, -- loop:
   .jmp (-3)]

/-- **`GUEST_BIN` is hello.S assembled.** -/
theorem guestBin_eq : guestBin = helloS.flatMap GuestInsn.encode := by decide

/-! ## A processor of its own -/

/-- A processor that executes guest code, HLTs being counted. -/
structure Bare where
  gpr : Gpr → BitVec 64
  rip : Addr
  hlts : Nat

namespace Bare

/-- A move to a 32-bit register clears the upper half. -/
def exec (b : Bare) : GuestInsn → Bare
  | .mov r imm =>
    { b with gpr := fun q => if q = r.gpr then imm.setWidth 64 else b.gpr q, rip := b.rip + 5 }
  | .hlt => { b with rip := b.rip + 1, hlts := b.hlts + 1 }
  | .jmp rel => { b with rip := b.rip + 2 + rel.signExtend 64 }

def step (mem : Addr → BitVec 8) (b : Bare) : Option Bare :=
  (GuestInsn.fetch mem b.rip).map b.exec

/-- After `n` instructions. -/
def after (mem : Addr → BitVec 8) (b : Bare) : Nat → Option Bare
  | 0 => some b
  | n + 1 => (after mem b n).bind (step mem)

end Bare

/-! ## hello.S by itself -/

section Hello

variable (g : Gpr → BitVec 64) (a : Addr)

/-- Its registers after `n` instructions, from `g`. -/
def helloRegs (n : Nat) (r : Gpr) : BitVec 64 :=
  if r = .rbx ∧ 2 ≤ n then 0x12345678 else if r = .rdi ∧ 1 ≤ n then 0xDEADBEEF else g r

/-- Where it is: at the HLT and the jump by turns, in the end. -/
def helloIndex (n : Nat) : Nat := if n < 2 then n else 2 + n % 2

/-- After `n` instructions from `a` on. -/
def helloAt (n : Nat) : Bare :=
  ⟨helloRegs g n, a + BitVec.ofNat 64 (offset helloS (helloIndex n)), (n - 1) / 2⟩

/-- The instruction it executes next. -/
def helloInsn (n : Nat) : GuestInsn :=
  if n = 0 then .mov .edi 0xDEADBEEF else if n = 1 then .mov .ebx 0x12345678
  else if n % 2 = 0 then .hlt else .jmp (-3)

theorem helloS_index (n : Nat) : helloS[helloIndex n]? = some (helloInsn n) := by
  obtain rfl | rfl | hn : n = 0 ∨ n = 1 ∨ 2 ≤ n := by omega
  · rfl
  · rfl
  · rw [helloIndex, helloInsn, if_neg (by omega), if_neg (by omega), if_neg (by omega)]
    obtain hmod | hmod := Nat.mod_two_eq_zero_or_one n <;> rw [hmod] <;> rfl

/-- From the second move on the registers stay. -/
theorem helloRegs_late {n : Nat} (hn : 2 ≤ n) : helloRegs g (n + 1) = helloRegs g n := by
  funext r
  simp only [helloRegs, hn, show 2 ≤ n + 1 by omega, show 1 ≤ n by omega, show 1 ≤ n + 1 by omega,
    and_true]

theorem exec_hello (n : Nat) : (helloAt g a n).exec (helloInsn n) = helloAt g a (n + 1) := by
  obtain rfl | rfl | ⟨hn, hmod⟩ | ⟨hn, hmod⟩ :
      n = 0 ∨ n = 1 ∨ (2 ≤ n ∧ n % 2 = 0) ∨ 2 ≤ n ∧ n % 2 = 1 := by omega
  · have hregs : (fun q => if q = Reg32.edi.gpr then (0xDEADBEEF : BitVec 32).setWidth 64
        else helloRegs g 0 q) = helloRegs g 1 := by
      funext r
      by_cases hr : r = .rdi <;> simp [helloRegs, Reg32.gpr, hr]
    exact congrArg₂ (fun r v => Bare.mk r v 0) hregs (BitVec.add_assoc ..)
  · have hregs : (fun q => if q = Reg32.ebx.gpr then (0x12345678 : BitVec 32).setWidth 64
        else helloRegs g 1 q) = helloRegs g 2 := by
      funext r
      by_cases hr : r = .rbx <;> simp [helloRegs, Reg32.gpr, hr]
    exact congrArg₂ (fun r v => Bare.mk r v 0) hregs (BitVec.add_assoc ..)
  · -- the HLT
    have hi : helloIndex n = 2 ∧ helloIndex (n + 1) = 3 := by
      rw [helloIndex, helloIndex, if_neg (by omega), if_neg (by omega)]
      omega
    rw [helloAt, helloAt, hi.1, hi.2, helloRegs_late g hn, helloInsn, if_neg (by omega),
      if_neg (by omega), if_pos hmod, show (n + 1 - 1) / 2 = (n - 1) / 2 + 1 by omega]
    exact congrArg (fun v => Bare.mk _ v _) (BitVec.add_assoc ..)
  · -- the jump back to it
    have hi : helloIndex n = 3 ∧ helloIndex (n + 1) = 2 := by
      rw [helloIndex, helloIndex, if_neg (by omega), if_neg (by omega)]
      omega
    rw [helloAt, helloAt, hi.1, hi.2, helloRegs_late g hn, helloInsn, if_neg (by omega),
      if_neg (by omega), if_neg (by omega), show (n + 1 - 1) / 2 = (n - 1) / 2 by omega]
    refine congrArg (fun v => Bare.mk _ v _) ?_
    rw [BitVec.add_assoc, BitVec.add_assoc]
    rfl

/-- **hello.S by itself.** -/
theorem bare_hello {mem : Addr → BitVec 8} (h : Holds mem a guestBin) (n : Nat) :
    Bare.after mem ⟨g, a, 0⟩ n = some (helloAt g a n) := by
  rw [guestBin_eq] at h
  induction n with
  | zero =>
    have hregs : helloRegs g 0 = g := funext fun r => by simp [helloRegs]
    rw [Bare.after, helloAt, hregs]
    exact congrArg (fun rip => some (Bare.mk g rip 0)) (BitVec.add_zero a).symm
  | succ n ih =>
    rw [Bare.after, ih, Option.bind_some, Bare.step]
    show (GuestInsn.fetch mem (a + BitVec.ofNat 64 (offset helloS (helloIndex n)))).map _ = _
    rw [fetch_program h (helloS_index n), Option.map_some, exec_hello]

end Hello

end MochiVM.Hv
