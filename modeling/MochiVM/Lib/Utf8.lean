import MochiVM.Lib.Buffer

/-!
# UTF-8

The bytes of a string, character by character.
-/

namespace MochiVM.Utf8

open MochiVM.Buffer

/-- `str::as_bytes`. -/
def utf8 (s : String) : Bytes := s.toList.flatMap String.utf8EncodeChar

@[simp] theorem utf8_empty : utf8 "" = [] := rfl

@[simp] theorem utf8_append (s t : String) : utf8 (s ++ t) = utf8 s ++ utf8 t := by
  rw [utf8, String.toList_append, List.flatMap_append]
  rfl

theorem utf8_join (l : List String) : utf8 (String.join l) = l.flatMap utf8 := by
  induction l with
  | nil => rfl
  | cons s l ih => rw [String.join_cons, utf8_append, ih, List.flatMap_cons]

end MochiVM.Utf8
