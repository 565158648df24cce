import Mathlib

/-!
# Key=value option strings

A string of options is a sequence of `key=value` with a separator between two of
them. A key goes up to the `=`, a value up to a single separator: two separators
in a row stand for one that belongs to the value.

`write` puts the separators between the options and nothing else; what it writes
is read back exactly when no value has a separator (`options_write_iff`). The
argument counts characters: a separator that is read as part of a value was
written as two.
-/

namespace MochiVM.Options

universe u

variable {α : Type u} [DecidableEq α] (sep assign : α)

/-! ## Reading -/

/-- The key that a string begins with, and what follows its `=`. -/
def readKey : List α → Option (List α × List α)
  | [] => none
  | c :: s =>
    if c = assign then some ([], s)
    else if c = sep then none
    else (readKey s).map fun p => (c :: p.1, p.2)

/-- The value that a string begins with, and what follows its separator. -/
def readValue : List α → List α × List α
  | [] => ([], [])
  | [c] => if c = sep then ([], []) else ([c], [])
  | c :: d :: s =>
    if c = sep then
      if d = sep then (sep :: (readValue s).1, (readValue s).2) else ([], d :: s)
    else (c :: (readValue (d :: s)).1, (readValue (d :: s)).2)

/-- Read `fuel` options at most. -/
def optionsFrom : Nat → List α → Option (List (List α × List α))
  | _, [] => some []
  | 0, _ :: _ => none
  | fuel + 1, c :: s =>
    match readKey sep assign (c :: s) with
    | none => none
    | some (k, r) => (optionsFrom fuel (readValue sep r).2).map ((k, (readValue sep r).1) :: ·)

/-- The options of a string; `none` if a piece of it has no `=`. -/
def options (s : List α) : Option (List (List α × List α)) := optionsFrom sep assign s.length s

/-! ## Writing -/

/-- The options with separators between them, as they are. -/
def write : List (List α × List α) → List α
  | [] => []
  | [p] => p.1 ++ assign :: p.2
  | p :: q :: l => p.1 ++ assign :: (p.2 ++ sep :: write (q :: l))

/-- A key without special characters. -/
def CleanKey (k : List α) : Prop := sep ∉ k ∧ assign ∉ k

variable {sep assign}

/-! ## One value -/

theorem readValue_clean {v : List α} (h : sep ∉ v) : readValue sep v = (v, []) := by
  induction v with
  | nil => rfl
  | cons c v ih =>
    have hc : c ≠ sep := fun heq => h (heq ▸ List.mem_cons_self)
    have hv := ih fun hmem => h (List.mem_cons_of_mem c hmem)
    cases v with
    | nil => rw [readValue, if_neg hc]
    | cons d v => rw [readValue, if_neg hc, hv]

theorem readValue_clean_sep {v s : List α} (h : sep ∉ v) (hs : s.head? ≠ some sep) :
    readValue sep (v ++ sep :: s) = (v, s) := by
  induction v with
  | nil =>
    cases s with
    | nil => rw [List.nil_append, readValue, if_pos rfl]
    | cons d s =>
      have hd : d ≠ sep := fun heq => hs (by rw [heq]; rfl)
      rw [List.nil_append, readValue, if_pos rfl, if_neg hd]
  | cons c v ih =>
    have hc : c ≠ sep := fun heq => h (heq ▸ List.mem_cons_self)
    have hv := ih fun hmem => h (List.mem_cons_of_mem c hmem)
    cases v with
    | nil =>
      rw [List.nil_append] at hv
      rw [List.cons_append, List.nil_append, readValue, if_neg hc, hv]
    | cons d v =>
      rw [List.cons_append] at hv
      rw [List.cons_append, List.cons_append, readValue, if_neg hc, hv]

variable (sep) in
/-- Every separator in the value, and the one that ends it, took a character
more. -/
theorem length_readValue (s : List α) :
    (readValue sep s).1.length + (readValue sep s).1.count sep + (readValue sep s).2.length ≤
        s.length ∧
      ((readValue sep s).2 ≠ [] →
        (readValue sep s).1.length + (readValue sep s).1.count sep +
          (readValue sep s).2.length + 1 ≤ s.length) := by
  fun_induction readValue sep s with
  | case1 => simp
  | case2 => simp
  | case3 c hc => simp [hc]
  | case4 s ih =>
    simp only [List.length_cons, List.count_cons_self]
    exact ⟨by omega, fun h => by have := ih.2 h; omega⟩
  | case5 d s hd => simp
  | case6 c d s hc ih =>
    simp only [List.length_cons, List.count_cons_of_ne hc] at ih ⊢
    exact ⟨by omega, fun h => by have := ih.2 h; omega⟩

/-! ## One option -/

theorem readKey_clean {k s : List α} (h : CleanKey sep assign k) :
    readKey sep assign (k ++ assign :: s) = some (k, s) := by
  obtain ⟨hsep, hassign⟩ := h
  induction k with
  | nil => rw [List.nil_append, readKey, if_pos rfl]
  | cons c k ih =>
    rw [List.mem_cons, not_or] at hsep hassign
    rw [List.cons_append, readKey, if_neg (Ne.symm hassign.1), if_neg (Ne.symm hsep.1),
      ih hsep.2 hassign.2]
    rfl

theorem length_readKey {s k r : List α} (h : readKey sep assign s = some (k, r)) :
    k.length + r.length + 1 = s.length := by
  induction s generalizing k with
  | nil => cases h
  | cons c s ih =>
    rw [readKey] at h
    by_cases hassign : c = assign
    · rw [if_pos hassign] at h
      cases h
      rw [List.length_nil, Nat.zero_add, List.length_cons]
    · rw [if_neg hassign] at h
      by_cases hsep : c = sep
      · rw [if_pos hsep] at h
        cases h
      · rw [if_neg hsep] at h
        obtain ⟨p, hk, heq⟩ := Option.map_eq_some_iff.mp h
        injection heq with hkey hrest
        subst hkey hrest
        have := ih hk
        rw [List.length_cons, List.length_cons]
        omega

/-! ## The whole string -/

/-- Fuel for every character is enough. -/
theorem optionsFrom_eq {fuel : Nat} {s : List α} (h : s.length ≤ fuel) :
    optionsFrom sep assign fuel s = options sep assign s := by
  -- any two amounts that are enough agree
  suffices hgen : ∀ n m (s : List α), s.length ≤ n → s.length ≤ m →
      optionsFrom sep assign n s = optionsFrom sep assign m s from
    hgen fuel s.length s h (Nat.le_refl _)
  intro n
  induction n with
  | zero =>
    intro m s hn _
    obtain rfl := List.length_eq_zero_iff.mp (Nat.le_zero.mp hn)
    simp only [optionsFrom]
  | succ n ih =>
    intro m s hn hm
    cases s with
    | nil => simp only [optionsFrom]
    | cons c s =>
      cases m with
      | zero => exact absurd hm (by simp)
      | succ m =>
        rw [optionsFrom, optionsFrom]
        split
        · rfl
        · rename_i k r hkey
          have hr := length_readKey hkey
          have hrest := (length_readValue sep r).1
          rw [List.length_cons] at hn hm hr
          rw [ih m _ (by omega) (by omega)]

/-- The first option of a string, and the others. -/
theorem options_of_readKey {s k r : List α} (h : readKey sep assign s = some (k, r)) :
    options sep assign s =
      (options sep assign (readValue sep r).2).map ((k, (readValue sep r).1) :: ·) := by
  have hr := length_readKey h
  cases s with
  | nil => cases h
  | cons c s =>
    have hrest := (length_readValue sep r).1
    rw [List.length_cons] at hr
    rw [options, List.length_cons, optionsFrom, h]
    show Option.map _ (optionsFrom sep assign s.length (readValue sep r).2) = _
    rw [optionsFrom_eq (by omega)]

theorem options_eq_some {s : List α} {p : List α × List α} {l : List (List α × List α)}
    (h : options sep assign s = some (p :: l)) :
    ∃ r, readKey sep assign s = some (p.1, r) ∧ (readValue sep r).1 = p.2 ∧
      options sep assign (readValue sep r).2 = some l := by
  cases hkey : readKey sep assign s with
  | none =>
    cases s with
    | nil => cases h
    | cons c s =>
      rw [options, List.length_cons, optionsFrom, hkey] at h
      cases h
  | some kr =>
    obtain ⟨k, r⟩ := kr
    rw [options_of_readKey hkey] at h
    obtain ⟨l', hl', heq⟩ := Option.map_eq_some_iff.mp h
    injection heq with hp htail
    subst hp htail
    exact ⟨r, rfl, rfl, hl'⟩

/-! ## Reading what was written -/

/-- What `write` writes an option in, with a separator or the end of the string. -/
def room (p : List α × List α) : Nat := p.1.length + p.2.length + 2

omit [DecidableEq α] in
theorem length_write {l : List (List α × List α)} (h : l ≠ []) :
    (write sep assign l).length + 1 = (l.map room).sum := by
  induction l with
  | nil => exact absurd rfl h
  | cons p l ih =>
    rw [List.map_cons, List.sum_cons, room]
    cases l with
    | nil =>
      rw [write, List.length_append, List.length_cons, List.map_nil, List.sum_nil]
      omega
    | cons q l =>
      have hl := ih (List.cons_ne_nil q l)
      rw [write, List.length_append, List.length_cons, List.length_append, List.length_cons]
      omega

/-- What is read was written in at least its room, and a character more for
every separator in a value. -/
theorem length_options {s : List α} {l : List (List α × List α)}
    (h : options sep assign s = some l) (hl : l ≠ []) :
    (l.map room).sum + (l.map fun p => p.2.count sep).sum ≤ s.length + 1 := by
  induction l generalizing s with
  | nil => exact absurd rfl hl
  | cons p l ih =>
    obtain ⟨r, hkey, hvalue, hrest⟩ := options_eq_some h
    have hk := length_readKey hkey
    obtain ⟨hend, hsep⟩ := length_readValue sep r
    rw [hvalue] at hend hsep
    simp only [List.map_cons, List.sum_cons, room]
    cases l with
    | nil =>
      simp only [List.map_nil, List.sum_nil]
      omega
    | cons q l =>
      -- there are more options, so a separator ended the value
      have hne : (readValue sep r).2 ≠ [] := by
        intro hnil
        rw [hnil] at hrest
        cases hrest
      have htail := ih hrest (List.cons_ne_nil q l)
      have := hsep hne
      simp only [List.map_cons, List.sum_cons, room] at htail ⊢
      omega

omit [DecidableEq α] in
theorem head?_write {l : List (List α × List α)} (hne : assign ≠ sep)
    (hkeys : ∀ p ∈ l, CleanKey sep assign p.1) : (write sep assign l).head? ≠ some sep := by
  have hhead : ∀ (k s : List α), sep ∉ k → (k ++ assign :: s).head? ≠ some sep := by
    intro k s hk heq
    cases k with
    | nil => exact hne (Option.some_inj.mp heq)
    | cons c k => exact hk (Option.some_inj.mp heq ▸ List.mem_cons_self)
  match l with
  | [] => exact fun h => absurd h (by simp [write])
  | [p] => exact hhead p.1 _ (hkeys p List.mem_cons_self).1
  | p :: _ :: _ => exact hhead p.1 _ (hkeys p List.mem_cons_self).1

theorem options_write {l : List (List α × List α)} (hne : assign ≠ sep)
    (hkeys : ∀ p ∈ l, CleanKey sep assign p.1) (hvalues : ∀ p ∈ l, sep ∉ p.2) :
    options sep assign (write sep assign l) = some l := by
  induction l with
  | nil => rfl
  | cons p l ih =>
    have hp := hkeys p List.mem_cons_self
    have hv := hvalues p List.mem_cons_self
    cases l with
    | nil =>
      rw [write, options_of_readKey (readKey_clean hp), readValue_clean hv]
      rfl
    | cons q l =>
      have hkeys' := fun p' hp' => hkeys p' (List.mem_cons_of_mem p hp')
      have hrest := ih hkeys' fun p' hp' => hvalues p' (List.mem_cons_of_mem p hp')
      rw [write, options_of_readKey (readKey_clean hp),
        readValue_clean_sep hv (head?_write hne hkeys'), hrest]
      rfl

/-- **What `write` writes is read back** exactly when no value has a separator. -/
theorem options_write_iff {l : List (List α × List α)} (hne : assign ≠ sep)
    (hkeys : ∀ p ∈ l, CleanKey sep assign p.1) :
    options sep assign (write sep assign l) = some l ↔ ∀ p ∈ l, sep ∉ p.2 := by
  refine ⟨fun h p hp => ?_, options_write hne hkeys⟩
  have hl : l ≠ [] := List.ne_nil_of_mem hp
  have hroom := length_options h hl
  rw [length_write hl] at hroom
  -- the string has no room for a separator in a value
  have hzero : (l.map fun p => p.2.count sep).sum = 0 := by omega
  exact List.count_eq_zero.mp
    (List.sum_eq_zero_iff_forall_eq_nat.mp hzero _ (List.mem_map_of_mem hp))

end MochiVM.Options
