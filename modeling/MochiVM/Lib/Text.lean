import Mathlib

/-!
# Text in text

`Contains s needle` is what `grep` and `str::contains` ask. A text does not
contain another that has a character it lacks, and of a number's digits it is
known which characters they can be.
-/

namespace MochiVM.Text

/-- `s` has `needle` in it. -/
def Contains (s needle : String) : Prop := needle.toList <:+: s.toList

instance (s needle : String) : Decidable (Contains s needle) :=
  inferInstanceAs (Decidable (_ <:+: _))

theorem Contains.append {s needle : String} (h : Contains s needle) (before after : String) :
    Contains (before ++ s ++ after) needle := by
  obtain ⟨pre, post, heq⟩ := h
  refine ⟨before.toList ++ pre, post ++ after.toList, ?_⟩
  simp [← heq]

theorem not_contains_of_missing {s needle : String} {c : Char} (hc : c ∈ needle.toList)
    (h : c ∉ s.toList) : ¬ Contains s needle := fun hin => h (hin.subset hc)

/-- Where the first character of a longer text is found at the end at most. -/
theorem not_contains_of_last {s needle : String} {a b : Char} {rest : List Char}
    (hneedle : needle.toList = a :: b :: rest) (h : a ∉ s.toList.dropLast) :
    ¬ Contains s needle := by
  rintro ⟨pre, post, heq⟩
  rw [hneedle] at heq
  refine h ?_
  rw [← heq, List.append_assoc, List.cons_append, List.cons_append,
    List.dropLast_append_of_ne_nil (List.cons_ne_nil _ _), List.dropLast_cons_cons]
  exact List.mem_append_right _ List.mem_cons_self

/-! ## Digits -/

/-- The digits up to base 16. -/
def hexDigits : List Char :=
  ['0', '1', '2', '3', '4', '5', '6', '7', '8', '9', 'a', 'b', 'c', 'd', 'e', 'f']

theorem digitChar_mem {d : Nat} (h : d < 16) : Nat.digitChar d ∈ hexDigits := by
  have hall : ∀ d : Fin 16, Nat.digitChar d ∈ hexDigits := by decide
  exact hall ⟨d, h⟩

/-- The digits of a number. -/
theorem toDigits_mem {b : Nat} (hb : 1 < b) (hb' : b ≤ 16) (n : Nat) :
    ∀ c ∈ Nat.toDigits b n, c ∈ hexDigits := by
  induction n using Nat.strongRecOn with
  | ind n ih =>
    intro c hc
    rw [Nat.toDigits_eq_if hb] at hc
    split at hc
    next hlt =>
      obtain rfl := List.mem_singleton.mp hc
      exact digitChar_mem (Nat.lt_of_lt_of_le hlt hb')
    next hge =>
      rcases List.mem_append.mp hc with hc | hc
      · exact ih (n / b) (Nat.div_lt_self (by omega) hb) c hc
      · obtain rfl := List.mem_singleton.mp hc
        exact digitChar_mem (Nat.lt_of_lt_of_le (Nat.mod_lt n (by omega)) hb')

/-- A number in the text that `format!` makes of it. -/
theorem toString_isDigit (n : Nat) : ∀ c ∈ (toString n).toList, c.isDigit = true := by
  rw [Nat.toString_eq_ofList_toDigits, String.toList_ofList]
  exact fun c hc => Nat.isDigit_of_mem_toDigits (by decide) (by decide) hc

end MochiVM.Text
