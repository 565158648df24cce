import Mathlib

/-!
# Cutting an encoded sequence

A sequence of items is encoded in units: item `a` takes `w a` of them, at least
one. A position counted in units is a boundary of the sequence when no item
straddles it, and only there can the sequence be cut without looking at what the
units are. `dropAt` is the cut.
-/

namespace MochiVM.Cut

universe u

variable {α : Type u} (w : α → Nat)

/-- The units a sequence takes. -/
def size (l : List α) : Nat := (l.map w).sum

@[simp] theorem size_nil : size w [] = 0 := rfl

@[simp] theorem size_cons (a : α) (l : List α) : size w (a :: l) = w a + size w l := by
  rw [size, List.map_cons, List.sum_cons, size]

@[simp] theorem size_append (l l' : List α) : size w (l ++ l') = size w l + size w l' := by
  rw [size, List.map_append, List.sum_append, size, size]

theorem size_replicate (n : Nat) (a : α) : size w (List.replicate n a) = n * w a := by
  rw [size, List.map_replicate, List.sum_replicate, smul_eq_mul]

/-- Position `n` is between two items of `l`, or at an end of it. -/
def Boundary (l : List α) (n : Nat) : Prop := ∃ p r, l = p ++ r ∧ size w p = n

/-- The items after the first `n` units; `none` if an item straddles `n`, or if
there are fewer. -/
def dropAt : List α → Nat → Option (List α)
  | l, 0 => some l
  | [], _ + 1 => none
  | a :: l, n + 1 => if w a ≤ n + 1 then dropAt l (n + 1 - w a) else none

variable {w}

theorem boundary_zero (l : List α) : Boundary w l 0 := ⟨[], l, rfl, rfl⟩

/-- A front of at least a unit has the first item. -/
theorem front_cons {a : α} {l r : List α} {n : Nat} (hn : 0 < n) :
    (∃ p, a :: l = p ++ r ∧ size w p = n) ↔ w a ≤ n ∧ ∃ p, l = p ++ r ∧ size w p = n - w a := by
  constructor
  · rintro ⟨p, heq, rfl⟩
    cases p with
    | nil => exact absurd hn (Nat.lt_irrefl 0)
    | cons b p =>
      rw [List.cons_append] at heq
      injection heq with hab hl
      subst hab
      rw [size_cons]
      exact ⟨Nat.le_add_right _ _, p, hl, (Nat.add_sub_cancel_left _ _).symm⟩
  · rintro ⟨hle, p, rfl, hp⟩
    refine ⟨a :: p, rfl, ?_⟩
    rw [size_cons]
    omega

theorem boundary_cons {a : α} {l : List α} {n : Nat} (hn : 0 < n) :
    Boundary w (a :: l) n ↔ w a ≤ n ∧ Boundary w l (n - w a) := by
  constructor
  · rintro ⟨p, r, heq, hp⟩
    obtain ⟨hle, q, hl, hq⟩ := (front_cons hn).mp ⟨p, heq, hp⟩
    exact ⟨hle, q, r, hl, hq⟩
  · rintro ⟨hle, p, r, hl, hp⟩
    obtain ⟨q, heq, hq⟩ := (front_cons hn).mpr ⟨hle, p, hl, hp⟩
    exact ⟨q, r, heq, hq⟩

/-- The boundaries of the second part of a sequence. -/
theorem boundary_append {p l : List α} {n : Nat} :
    Boundary w (p ++ l) (size w p + n) ↔ Boundary w l n := by
  rcases Nat.eq_zero_or_pos n with rfl | hn
  · exact ⟨fun _ => boundary_zero l, fun _ => ⟨p, l, rfl, rfl⟩⟩
  · induction p with
    | nil => rw [List.nil_append, size_nil, Nat.zero_add]
    | cons a p ih =>
      rw [List.cons_append, size_cons, boundary_cons (by omega),
        show w a + size w p + n - w a = size w p + n by omega, ih]
      exact ⟨fun h => h.2, fun h => ⟨by omega, h⟩⟩

section Positive

variable (hw : ∀ a, 0 < w a)
include hw

theorem eq_nil_of_size {l : List α} (h : size w l = 0) : l = [] := by
  cases l with
  | nil => rfl
  | cons a l =>
    have := hw a
    rw [size_cons] at h
    omega

theorem front_zero {l r : List α} : (∃ p, l = p ++ r ∧ size w p = 0) ↔ l = r := by
  constructor
  · rintro ⟨p, heq, hp⟩
    rw [eq_nil_of_size hw hp] at heq
    exact heq
  · rintro rfl
    exact ⟨[], rfl, rfl⟩

/-- The cut finds the front of `n` units, if there is one. -/
theorem dropAt_eq_some {l r : List α} {n : Nat} :
    dropAt w l n = some r ↔ ∃ p, l = p ++ r ∧ size w p = n := by
  induction l generalizing n with
  | nil =>
    cases n with
    | zero => rw [dropAt, Option.some_inj, front_zero hw]
    | succ n =>
      constructor
      · intro h
        cases h
      · rintro ⟨p, heq, hp⟩
        rw [(List.append_eq_nil_iff.mp heq.symm).1] at hp
        cases hp
  | cons a l ih =>
    cases n with
    | zero => rw [dropAt, Option.some_inj, front_zero hw]
    | succ n =>
      rw [dropAt, front_cons (Nat.succ_pos n)]
      by_cases hle : w a ≤ n + 1
      · rw [if_pos hle, ih]
        exact ⟨fun h => ⟨hle, h⟩, fun h => h.2⟩
      · -- the first item straddles the place
        rw [if_neg hle]
        constructor
        · intro h
          cases h
        · intro h
          exact absurd h.1 hle

theorem dropAt_eq_none {l : List α} {n : Nat} : dropAt w l n = none ↔ ¬ Boundary w l n := by
  rw [Option.eq_none_iff_forall_ne_some]
  constructor
  · rintro h ⟨p, r, hl, hp⟩
    exact h r ((dropAt_eq_some hw).mpr ⟨p, hl, hp⟩)
  · intro h r hr
    obtain ⟨p, hl, hp⟩ := (dropAt_eq_some hw).mp hr
    exact h ⟨p, r, hl, hp⟩

end Positive

end MochiVM.Cut
