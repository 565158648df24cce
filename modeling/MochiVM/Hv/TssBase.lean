import MochiVM.Hv.VmcsFields
import MochiVM.Hv.Memory

/-!
# The base of the task-state segment

`write_state` takes the TR base from the GDT: a 64-bit TSS descriptor has the
base in eight of its sixteen bytes, between limit and attributes, and the
selector in TR has the descriptor's index above two bits of privilege level.
`read_gdt_entry_base` decodes the right bytes (`gdtEntryBase_eq_iff`), but
`write_state` hands it the whole selector as an offset, so a privilege level
shifts all of them. The main result is `trBaseRight_iff`.
-/

namespace MochiVM.Hv

open MochiVM.Panic

/-! ## The decoding -/

/-- The bytes of a descriptor that hold the base, least significant first. -/
def baseBytes : List Nat := [2, 3, 4, 7, 8, 9, 10, 11]

/-- What `read_gdt_entry_base` puts together is a word of those bytes. -/
theorem gdtEntryBase_eq_loadLE (mem : Addr → BitVec 8) (gdtBase offset : BitVec 64) :
    gdtEntryBase mem gdtBase offset = loadLE
      (fun x => mem (gdtBase + offset + BitVec.ofNat 64 (baseBytes.getD x.toNat 0))) 0 8 := by
  simp only [gdtEntryBase, loadLE, BitVec.shiftLeft_or_distrib, ← BitVec.shiftLeft_add,
    BitVec.or_assoc]
  simp [baseBytes]

theorem gdtEntryBase_eq_iff {mem : Addr → BitVec 8} {gdtBase offset base : BitVec 64} :
    gdtEntryBase mem gdtBase offset = base ↔ ∀ i < 8,
      mem (gdtBase + offset + BitVec.ofNat 64 (baseBytes.getD i 0)) =
        (base >>> (8 * i)).setWidth 8 := by
  rw [gdtEntryBase_eq_loadLE, loadLE_eq_iff]
  refine forall₂_congr fun i hi => ?_
  have hindex : ((0 : Addr) + BitVec.ofNat 64 i).toNat = i := by bv_omega
  rw [hindex]

/-! ## The descriptor -/

/-- A 64-bit TSS descriptor. -/
structure TssDescriptor where
  limit : BitVec 20
  base : BitVec 64
  /-- Type, S, DPL and P. -/
  access : BitVec 8
  /-- AVL and G, with the two bits between them. -/
  flags : BitVec 4
  reserved : BitVec 32

/-- Its bytes, as the SDM lays them out. -/
def TssDescriptor.bytes (d : TssDescriptor) : List (BitVec 8) :=
  [d.limit.setWidth 8, (d.limit >>> 8).setWidth 8,
    d.base.setWidth 8, (d.base >>> 8).setWidth 8, (d.base >>> 16).setWidth 8,
    d.access, d.flags.setWidth 8 <<< 4 ||| (d.limit >>> 16).setWidth 8,
    (d.base >>> 24).setWidth 8, (d.base >>> 32).setWidth 8, (d.base >>> 40).setWidth 8,
    (d.base >>> 48).setWidth 8, (d.base >>> 56).setWidth 8,
    d.reserved.setWidth 8, (d.reserved >>> 8).setWidth 8, (d.reserved >>> 16).setWidth 8,
    (d.reserved >>> 24).setWidth 8]

theorem forall_baseBytes {P : Nat → Prop} :
    (∀ i < 8, P (baseBytes.getD i 0)) ↔ ∀ k ∈ baseBytes, P k := by
  constructor
  · intro h k hk
    obtain ⟨i, hi, rfl⟩ := List.mem_iff_getElem.mp hk
    have := h i hi
    rwa [List.getD_eq_getElem _ _ hi] at this
  · intro h i hi
    rw [List.getD_eq_getElem _ _ hi]
    exact h _ (List.getElem_mem hi)

theorem baseBytes_lt : ∀ i < 8, baseBytes.getD i 0 < 16 := by decide

/-- The eight bytes are the base. -/
theorem TssDescriptor.bytes_base (d : TssDescriptor) : ∀ i < 8,
    d.bytes.getD (baseBytes.getD i 0) 0 = (d.base >>> (8 * i)).setWidth 8 := by
  intro i hi
  obtain rfl | rfl | rfl | rfl | rfl | rfl | rfl | rfl :
    i = 0 ∨ i = 1 ∨ i = 2 ∨ i = 3 ∨ i = 4 ∨ i = 5 ∨ i = 6 ∨ i = 7 := by omega
  · rw [Nat.mul_zero, BitVec.ushiftRight_zero]
    rfl
  all_goals rfl

/-! ## The selector -/

/-- The offset in the GDT that a selector's index names. -/
def descOffset (sel : BitVec 16) : Nat := sel.toNat / 8 * 8

/-- The requested privilege level in a selector. -/
def rpl (sel : BitVec 16) : Nat := sel.toNat % 4

/-- TR names the descriptor `d`, inside the GDT. -/
structure NamesTss (s : Machine) (d : TssDescriptor) : Prop where
  /-- The table indicator. -/
  gdt : s.regs.tr.getLsbD 2 = false
  inside : descOffset s.regs.tr + 15 ≤ s.regs.gdtr.1.toNat
  bytes : ∀ i < 16, s.mem (s.regs.gdtr.2 + BitVec.ofNat 64 (descOffset s.regs.tr + i)) =
    d.bytes.getD i 0

/-- Shifted by the privilege level, the bytes of the base are the same. -/
def RplHarmless (s : Machine) : Prop :=
  ∀ k ∈ baseBytes,
    s.mem (s.regs.gdtr.2 + BitVec.ofNat 64 (descOffset s.regs.tr + rpl s.regs.tr + k)) =
      s.mem (s.regs.gdtr.2 + BitVec.ofNat 64 (descOffset s.regs.tr + k))

theorem rplHarmless_of_ring0 {s : Machine} (h : rpl s.regs.tr = 0) : RplHarmless s := by
  intro k _
  rw [h, Nat.add_zero]

/-- The TR base is that of the descriptor. -/
structure TrBaseRight (s : Machine) (d : TssDescriptor) : Prop where
  read : Returns (readGdtEntryBase s.regs.gdtr.2 (s.regs.tr.setWidth 64)) s d.base s
  /-- `write_state` stores it for the guest and for the host. -/
  stored : ∀ env hostStack guestCode guestStack region r t, s.vmx.current = some region →
    Returns (writeState env hostStack guestCode guestStack) s r t →
    t.vmx.fields guestTrBase = d.base ∧ t.vmx.fields hostTrBase = d.base

theorem tr_eq {sel : BitVec 16} (h : sel.getLsbD 2 = false) :
    sel.setWidth 64 = BitVec.ofNat 64 (descOffset sel + rpl sel) := by
  -- with TI clear the low three bits are the RPL
  have hbit : sel.toNat / 4 % 2 = 0 := by
    have htest : sel.toNat.testBit 2 = false := h
    rw [Nat.testBit_eq_decide_div_mod_eq] at htest
    have := of_decide_eq_false htest
    omega
  apply BitVec.eq_of_toNat_eq
  rw [BitVec.toNat_setWidth, BitVec.toNat_ofNat, descOffset, rpl]
  omega

/-- Both fields get what was read. -/
theorem writeState_trBase {env : Env} {s t : Machine} {region : Addr}
    {hostStack guestCode guestStack : BitVec 64} {r : Except String PUnit}
    (hcur : s.vmx.current = some region)
    (h : Returns (writeState env hostStack guestCode guestStack) s r t) :
    t.vmx.fields guestTrBase = trBaseOf s ∧ t.vmx.fields hostTrBase = trBaseOf s := by
  have hguest : StateWrite.field64 guestTrBase (trBaseOf s) ∈
      writesOf env s hostStack guestCode guestStack := by
    simp [writesOf, stateWrites, guestSegmentWrites]
  have hhost : StateWrite.field64 hostTrBase (trBaseOf s) ∈
      writesOf env s hostStack guestCode guestStack := by
    simp [writesOf, stateWrites, hostWrites]
  have hfit : ∀ f, fieldBits f = 64 → fitField f (trBaseOf s) = trBaseOf s := by
    intro f hf
    rw [fitField, hf, BitVec.setWidth_eq, BitVec.setWidth_eq]
  exact ⟨(writeState_fields hcur h hguest).trans (hfit guestTrBase rfl),
    (writeState_fields hcur h hhost).trans (hfit hostTrBase rfl)⟩

/-- **The TSS base** is the descriptor's exactly when the selector's privilege
level does no harm. -/
theorem trBaseRight_iff {s : Machine} {d : TssDescriptor} (h : NamesTss s d) :
    TrBaseRight s d ↔ RplHarmless s := by
  -- the bytes read against those of the descriptor, one by one
  have hread : trBaseOf s = d.base ↔ RplHarmless s := by
    rw [trBaseOf, gdtEntryBase_eq_iff, RplHarmless, ← forall_baseBytes, tr_eq h.gdt]
    refine forall₂_congr fun i hi => ?_
    rw [BitVec.add_assoc, ← BitVec.ofNat_add, ← d.bytes_base i hi,
      h.bytes _ (baseBytes_lt i hi)]
  constructor
  · intro hright
    exact hread.mp (hright.read.unique rfl).1.symm
  · intro hrpl
    have hbase := hread.mpr hrpl
    refine ⟨congrArg (EStateM.Result.ok · s) hbase, ?_⟩
    intro env hostStack guestCode guestStack region r t hcur hret
    obtain ⟨hguest, hhost⟩ := writeState_trBase hcur hret
    exact ⟨hguest.trans hbase, hhost.trans hbase⟩

/-- A busy TSS at 0xFFFFFE0000003000. -/
def busyTss : TssDescriptor := ⟨0x67, 0xFFFFFE0000003000, 0x8B, 0, 0⟩

/-- A machine with that descriptor behind the null descriptor of its GDT. -/
def tssMachine (tr : BitVec 16) : Machine :=
  (bootMachine.setRegs { bootMachine.regs with gdtr := (0x17, 0x1000), tr := tr }).setMem
    (storeBytes (fun _ => 0) 0x1008 busyTss.bytes)

theorem trBaseRight_ring0 : TrBaseRight (tssMachine 0x08) busyTss :=
  (trBaseRight_iff ⟨by decide, by decide, by decide⟩).mpr (rplHarmless_of_ring0 (by decide))

/-- With privilege level 3 in the selector the base is read three bytes off. -/
theorem not_trBaseRight_rpl3 : ¬ ∀ s d, NamesTss s d → TrBaseRight s d := by
  intro h
  have hright := h (tssMachine 0x0B) busyTss ⟨by decide, by decide, by decide⟩
  have hbase : gdtEntryBase (tssMachine 0x0B).mem 0x1000 0x0B = busyTss.base :=
    (hright.read.unique rfl).1.symm
  exact absurd hbase (by decide)

end MochiVM.Hv
