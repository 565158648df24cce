import Mathlib

/-!
# Slices and splices of lists

A mutable buffer is a list. `slice b off n` is the sub-buffer `b[off .. off+n]`,
`splice b off src` overwrites the elements from `off` on with `src`. The two
are related by the usual lens laws; writes next to each other merge
(`splice_splice_adjacent`), so a loop that fills a table row by row is one big
write. `toLE`/`fromLE` are the little-endian byte encodings.
-/

namespace MochiVM.Slice

universe u

variable {α : Type u}

/-- The sub-buffer of `n` elements at `off`. -/
def slice (b : List α) (off n : Nat) : List α := (b.drop off).take n

/-- Overwrite the elements of `b` from `off` on with `src`. -/
def splice (b : List α) (off : Nat) (src : List α) : List α :=
  b.take off ++ src ++ b.drop (off + src.length)

/-! ## Lengths -/

theorem length_slice {b : List α} {off n : Nat} (h : off + n ≤ b.length) :
    (slice b off n).length = n := by
  simp only [slice, List.length_take, List.length_drop]
  omega

theorem length_splice {b : List α} {off : Nat} {src : List α}
    (h : off + src.length ≤ b.length) : (splice b off src).length = b.length := by
  simp only [splice, List.length_append, List.length_take, List.length_drop]
  omega

/-! ## Slices of slices and of concatenations -/

theorem getElem?_slice (b : List α) (off n i : Nat) :
    (slice b off n)[i]? = if i < n then b[off + i]? else none := by
  rw [slice, List.getElem?_take, List.getElem?_drop]

theorem slice_slice (b : List α) {off n i k : Nat} (h : i + k ≤ n) :
    slice (slice b off n) i k = slice b (off + i) k := by
  refine List.ext_getElem? fun j => ?_
  rw [getElem?_slice, getElem?_slice, getElem?_slice]
  by_cases hj : j < k
  · rw [if_pos hj, if_pos hj, if_pos (by omega), Nat.add_assoc]
  · rw [if_neg hj, if_neg hj]

theorem slice_add (b : List α) (off m n : Nat) :
    slice b off (m + n) = slice b off m ++ slice b (off + m) n := by
  rw [slice, slice, slice, List.take_add, List.drop_drop]

theorem slice_full (b : List α) : slice b 0 b.length = b := by
  simp [slice]

/-- A slice inside the left part of a concatenation. -/
theorem slice_append_left {a : List α} (c : List α) {off n : Nat}
    (h : off + n ≤ a.length) : slice (a ++ c) off n = slice a off n := by
  rw [slice, slice, List.drop_append_of_le_length (by omega),
    List.take_append_of_le_length (by rw [List.length_drop]; omega)]

/-- A slice inside the right part of a concatenation. -/
theorem slice_append_right (a c : List α) {off : Nat} (n : Nat)
    (h : a.length ≤ off) : slice (a ++ c) off n = slice c (off - a.length) n := by
  rw [slice, slice, List.drop_append, List.drop_eq_nil_of_le h, List.nil_append]

/-- The middle of a concatenation is the slice at its offset. -/
theorem slice_middle (a m c : List α) : slice (a ++ m ++ c) a.length m.length = m := by
  rw [List.append_assoc, slice_append_right _ _ _ (Nat.le_refl _), Nat.sub_self,
    slice_append_left _ (by omega), slice_full]

theorem slice_replicate (x : α) {m off n : Nat} (h : off + n ≤ m) :
    slice (List.replicate m x) off n = List.replicate n x := by
  rw [slice, List.drop_replicate, List.take_replicate]
  congr 1
  omega

theorem length_flatten_const {w : Nat} {rows : List (List α)}
    (hw : ∀ r ∈ rows, r.length = w) : rows.flatten.length = w * rows.length := by
  induction rows with
  | nil => simp
  | cons r rows ih =>
    rw [List.flatten_cons, List.length_append, hw r List.mem_cons_self,
      ih fun r hr => hw r (List.mem_cons_of_mem _ hr), List.length_cons, Nat.mul_succ,
      Nat.add_comm]

/-- Row `k` of a table whose rows all have width `w`. -/
theorem slice_flatten {w : Nat} {rows : List (List α)} (hw : ∀ r ∈ rows, r.length = w)
    {k : Nat} {r : List α} (hk : rows[k]? = some r) : slice rows.flatten (w * k) w = r := by
  induction rows generalizing k with
  | nil => simp at hk
  | cons s rows ih =>
    have hs : s.length = w := hw s List.mem_cons_self
    rw [List.flatten_cons]
    cases k with
    | zero =>
      obtain rfl : s = r := by simpa using hk
      rw [Nat.mul_zero, slice_append_left _ (by omega), ← hs, slice_full]
    | succ k =>
      rw [slice_append_right _ _ _ (by rw [hs, Nat.mul_succ]; omega), hs, Nat.mul_succ,
        Nat.add_sub_cancel]
      exact ih (fun r hr => hw r (List.mem_cons_of_mem _ hr)) (by simpa using hk)

/-! ## Lens laws -/

theorem getElem?_splice {b : List α} {off : Nat} {src : List α}
    (h : off + src.length ≤ b.length) (i : Nat) :
    (splice b off src)[i]? =
      if off ≤ i ∧ i < off + src.length then src[i - off]? else b[i]? := by
  have hoff : (b.take off).length = off := by rw [List.length_take]; omega
  rw [splice, List.append_assoc]
  by_cases h₁ : i < off
  · rw [List.getElem?_append_left (by omega), List.getElem?_take, if_pos h₁,
      if_neg (by omega)]
  · rw [List.getElem?_append_right (by omega), hoff]
    by_cases h₂ : i < off + src.length
    · rw [List.getElem?_append_left (by omega), if_pos (by omega)]
    · rw [List.getElem?_append_right (by omega), List.getElem?_drop, if_neg (by omega)]
      congr 1
      omega

/-- Writing through a sub-buffer is writing into the buffer. -/
theorem splice_slice_splice {b : List α} {lo n off : Nat} {src : List α}
    (h : lo + n ≤ b.length) (hs : off + src.length ≤ n) :
    splice b lo (splice (slice b lo n) off src) = splice b (lo + off) src := by
  have hn : (slice b lo n).length = n := length_slice h
  have hl : (splice (slice b lo n) off src).length = n := by
    rw [length_splice (by omega), hn]
  refine List.ext_getElem? fun i => ?_
  rw [getElem?_splice (by omega), getElem?_splice (by omega), hl]
  by_cases hi : lo ≤ i ∧ i < lo + n
  · rw [if_pos hi, getElem?_splice (by omega)]
    by_cases hw : off ≤ i - lo ∧ i - lo < off + src.length
    · rw [if_pos hw, if_pos (by omega)]
      congr 1
      omega
    · rw [if_neg hw, if_neg (by omega), getElem?_slice, if_pos (by omega)]
      congr 1
      omega
  · rw [if_neg hi, getElem?_splice (by omega), if_neg (by omega)]

/-! ## Writes that add up -/

/-- Two writes next to each other are one write. -/
theorem splice_splice_adjacent {b : List α} {off : Nat} {s t : List α}
    (h : off + (s ++ t).length ≤ b.length) :
    splice (splice b off s) (off + s.length) t = splice b off (s ++ t) := by
  rw [List.length_append] at h
  have hs : (splice b off s).length = b.length := length_splice (by omega)
  refine List.ext_getElem? fun i => ?_
  rw [getElem?_splice (by omega), getElem?_splice (by omega),
    getElem?_splice (by rw [List.length_append]; omega), List.length_append]
  by_cases h₁ : off + s.length ≤ i ∧ i < off + s.length + t.length
  · rw [if_pos h₁, if_pos (by omega), List.getElem?_append_right (by omega)]
    congr 1
    omega
  · rw [if_neg h₁]
    by_cases h₂ : off ≤ i ∧ i < off + s.length
    · rw [if_pos h₂, if_pos (by omega), List.getElem?_append_left (by omega)]
    · rw [if_neg h₂, if_neg (by omega)]

theorem splice_nil (b : List α) (off : Nat) : splice b off [] = b := by
  simp [splice]

/-! ## Little-endian bytes -/

/-- `n` bytes of `v`, least significant first. -/
def toLE : Nat → Nat → List UInt8
  | 0, _ => []
  | n + 1, v => UInt8.ofNat v :: toLE n (v / 256)

/-- The number a byte string spells, least significant byte first. -/
def fromLE : List UInt8 → Nat
  | [] => 0
  | b :: bs => b.toNat + 256 * fromLE bs

@[simp] theorem length_toLE (n v : Nat) : (toLE n v).length = n := by
  induction n generalizing v with
  | zero => rfl
  | succ n ih => simp [toLE, ih]

theorem fromLE_toLE (n v : Nat) : fromLE (toLE n v) = v % 256 ^ n := by
  induction n generalizing v with
  | zero => simp [toLE, fromLE, Nat.mod_one]
  | succ n ih =>
    have hbyte : (UInt8.ofNat v).toNat = v % 256 := UInt8.toNat_ofNat'
    rw [toLE, fromLE, ih, hbyte, Nat.pow_succ, Nat.mul_comm (256 ^ n) 256, Nat.mod_mul]

theorem fromLE_toLE_of_lt {n v : Nat} (h : v < 256 ^ n) : fromLE (toLE n v) = v := by
  rw [fromLE_toLE, Nat.mod_eq_of_lt h]

theorem fromLE_replicate_zero (n : Nat) : fromLE (List.replicate n 0) = 0 := by
  induction n with
  | zero => rfl
  | succ n ih => simp [List.replicate_succ, fromLE, ih]

end MochiVM.Slice
