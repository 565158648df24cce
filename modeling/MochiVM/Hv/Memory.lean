import MochiVM.Hv.Machine

/-!
# Words in memory

`storeLE` and `loadLE` are inverse, and a store leaves other words alone.
`OnStack mem a vs` says that the words `vs` lie one after the other from `a` on:
what a stack that grows downwards holds above its pointer.
-/

namespace MochiVM.Hv

variable {mem mem' : Addr → BitVec 8} {a b x : Addr}

/-! ## One word -/

theorem loadLE_congr : ∀ {n : Nat} {a : Addr},
    (∀ i < n, mem (a + BitVec.ofNat 64 i) = mem' (a + BitVec.ofNat 64 i)) →
    loadLE mem a n = loadLE mem' a n
  | 0, _, _ => rfl
  | n + 1, a, h => by
    have hhead : mem a = mem' a := by simpa using h 0 (Nat.succ_pos n)
    have htail : loadLE mem (a + 1) n = loadLE mem' (a + 1) n := loadLE_congr fun i hi => by
      have hshift : a + 1 + BitVec.ofNat 64 i = a + BitVec.ofNat 64 (i + 1) := by bv_omega
      rw [hshift]
      exact h (i + 1) (Nat.succ_lt_succ hi)
    rw [loadLE, loadLE, hhead, htail]

/-- The bits of a loaded word are those of the bytes. -/
theorem loadLE_bit : ∀ {n : Nat} {a : Addr} {i : Nat}, n ≤ 8 → i < 8 * n →
    (loadLE mem a n).getLsbD i = (mem (a + BitVec.ofNat 64 (i / 8))).getLsbD (i % 8)
  | 0, _, _, _, hi => absurd hi (Nat.not_lt_zero _)
  | n + 1, a, i, hn, hi => by
    rw [loadLE, BitVec.getLsbD_or, BitVec.getLsbD_setWidth, BitVec.getLsbD_shiftLeft]
    by_cases hlow : i < 8
    · rw [Nat.div_eq_of_lt hlow, Nat.mod_eq_of_lt hlow]
      simp [hlow, show i < 64 by omega]
    · have ih : (loadLE mem (a + 1) n).getLsbD (i - 8) =
          (mem (a + 1 + BitVec.ofNat 64 ((i - 8) / 8))).getLsbD ((i - 8) % 8) :=
        loadLE_bit (by omega) (by omega)
      have hshift : a + 1 + BitVec.ofNat 64 ((i - 8) / 8) = a + BitVec.ofNat 64 (i / 8) := by
        rw [show i / 8 = (i - 8) / 8 + 1 by omega]
        bv_omega
      rw [hshift, show (i - 8) % 8 = i % 8 by omega] at ih
      rw [ih, BitVec.getLsbD_of_ge _ i (by omega)]
      simp [hlow, show i < 64 by omega]

/-- A word is what its bytes say. -/
theorem loadLE_eq_iff {v : BitVec 64} :
    loadLE mem a 8 = v ↔ ∀ i < 8, mem (a + BitVec.ofNat 64 i) = (v >>> (8 * i)).setWidth 8 := by
  constructor
  · rintro rfl i hi
    apply BitVec.eq_of_getLsbD_eq
    intro j hj
    rw [BitVec.getLsbD_setWidth, BitVec.getLsbD_ushiftRight, loadLE_bit (Nat.le_refl 8) (by omega),
      show (8 * i + j) / 8 = i by omega, show (8 * i + j) % 8 = j by omega]
    simp [hj]
  · intro h
    apply BitVec.eq_of_getLsbD_eq
    intro i hi
    rw [loadLE_bit (Nat.le_refl 8) (by omega), h (i / 8) (by omega), BitVec.getLsbD_setWidth,
      BitVec.getLsbD_ushiftRight, show 8 * (i / 8) + i % 8 = i by omega]
    simp [show i % 8 < 8 by omega]

theorem storeLE_outside {n : Nat} {v : BitVec 64} (h : n ≤ (x - a).toNat) :
    storeLE mem a n v x = mem x := if_neg (by omega)

theorem storeLE_inside {n i : Nat} {v : BitVec 64} (hi : i < n) (hn : n ≤ 8) :
    storeLE mem a n v (a + BitVec.ofNat 64 i) = (v >>> (8 * i)).setWidth 8 := by
  have hoff : (a + BitVec.ofNat 64 i - a).toNat = i := by bv_omega
  rw [storeLE, hoff, if_pos hi]

theorem loadLE_storeLE_bit {n i : Nat} (v : BitVec 64) (hn : n ≤ 8) (hi : i < 8 * n) :
    (loadLE (storeLE mem a n v) a n).getLsbD i = v.getLsbD i := by
  rw [loadLE_bit hn hi, storeLE_inside (by omega) hn, BitVec.getLsbD_setWidth,
    BitVec.getLsbD_ushiftRight, Nat.div_add_mod]
  simp [Nat.mod_lt]

/-- **What was stored is loaded.** -/
theorem loadLE_storeLE (v : BitVec 64) : loadLE (storeLE mem a 8 v) a 8 = v :=
  BitVec.eq_of_getLsbD_eq fun _ hi => loadLE_storeLE_bit v (Nat.le_refl 8) hi

/-- A stored `u32`. -/
theorem loadLE_storeLE_u32 (v : BitVec 32) :
    (loadLE (storeLE mem a 4 (v.setWidth 64)) a 4).setWidth 32 = v := by
  apply BitVec.eq_of_getLsbD_eq
  intro i hi
  rw [BitVec.getLsbD_setWidth, loadLE_storeLE_bit _ (by decide) hi, BitVec.getLsbD_setWidth]
  simp [hi, show i < 64 by omega]

/-! ## A stack of words -/

/-- The words `vs`, from `a` on. -/
def OnStack (mem : Addr → BitVec 8) : Addr → List (BitVec 64) → Prop
  | _, [] => True
  | a, v :: vs => loadLE mem a 8 = v ∧ OnStack mem (a + 8) vs

/-- Only the bytes of the words matter. -/
theorem OnStack.of_same : ∀ {vs : List (BitVec 64)} {a : Addr}, OnStack mem a vs →
    8 * vs.length ≤ 2 ^ 64 → (∀ x, (x - a).toNat < 8 * vs.length → mem' x = mem x) →
    OnStack mem' a vs
  | [], _, _, _, _ => trivial
  | v :: vs, a, h, hlen, hsame => by
    rw [List.length_cons] at hlen hsame
    refine ⟨?_, h.2.of_same (by omega) fun x hx => hsame x ?_⟩
    · rw [← h.1]
      refine loadLE_congr fun i hi => hsame _ ?_
      have hoff : (a + BitVec.ofNat 64 i - a).toNat = i := by bv_omega
      omega
    · have hoff : (x - a).toNat = (x - (a + 8)).toNat + 8 := by bv_omega
      omega

/-- A store below the stack. -/
theorem OnStack.push {vs : List (BitVec 64)} (h : OnStack mem a vs)
    (hlen : 8 * (vs.length + 1) ≤ 2 ^ 64) (v : BitVec 64) :
    OnStack (storeLE mem (a - 8) 8 v) (a - 8) (v :: vs) := by
  refine ⟨loadLE_storeLE v, ?_⟩
  rw [BitVec.sub_add_cancel]
  refine h.of_same (by omega) fun x hx => storeLE_outside ?_
  have hoff : (x - (a - 8)).toNat = (x - a).toNat + 8 := by bv_omega
  omega

end MochiVM.Hv
