import Mathlib

/-!
# Chains in a successor table

A file allocation table assigns every slot a `Link`: the slot is free, is the
last of its chain, leads on to another slot, or holds a value that is none of
these. `Chain next c l` says that following the links from `c` visits the slots
`l` and ends at a stop.

A table is a function, so the chain from a slot is unique; a finite chain
therefore never visits a slot twice (`Chain.nodup`), and two chains that share a
slot end alike.
-/

namespace MochiVM.Links

/-- What the table says about a slot. -/
inductive Link where
  | free
  | stop
  | to (d : Nat)
  | bad
deriving DecidableEq, Repr

/-- Following `next` from `c` visits the slots `l`, then stops. -/
inductive Chain (next : Nat → Link) : Nat → List Nat → Prop
  | last {c : Nat} : next c = .stop → Chain next c [c]
  | step {c d : Nat} {l : List Nat} : next c = .to d → Chain next d l → Chain next c (c :: l)

namespace Chain

variable {next : Nat → Link} {c d : Nat} {l l' : List Nat}

/-- The chain from a slot is unique. -/
theorem unique (h : Chain next c l) (h' : Chain next c l') : l = l' := by
  induction h generalizing l' with
  | last hc =>
    cases h' with
    | last _ => rfl
    | step hd _ => rw [hc] at hd; cases hd
  | step hd _ ih =>
    cases h' with
    | last hc => rw [hd] at hc; cases hc
    | step hd' ht =>
      rw [hd] at hd'
      cases hd'
      rw [ih ht]

/-- Every slot of a chain starts a chain that is a final part of it. -/
theorem exists_of_mem (h : Chain next c l) (hd : d ∈ l) :
    ∃ l', Chain next d l' ∧ l' <:+ l := by
  induction h with
  | last hc =>
    rw [List.mem_singleton] at hd
    subst hd
    exact ⟨_, .last hc, List.suffix_refl _⟩
  | step hlink ht ih =>
    rcases List.mem_cons.mp hd with rfl | hd
    · exact ⟨_, .step hlink ht, List.suffix_refl _⟩
    · obtain ⟨l', h', hsuf⟩ := ih hd
      exact ⟨l', h', hsuf.trans (List.suffix_cons _ _)⟩

/-- **Chains are acyclic**: a slot that came back would start two chains of
different lengths. -/
theorem nodup (h : Chain next c l) : l.Nodup := by
  induction h with
  | last _ => exact List.nodup_cons.mpr ⟨List.not_mem_nil, List.nodup_nil⟩
  | @step c d l hlink ht ih =>
    refine List.nodup_cons.mpr ⟨fun hc => ?_, ih⟩
    obtain ⟨l', h', hsuf⟩ := ht.exists_of_mem hc
    have heq := h'.unique (.step hlink ht)
    have hle := hsuf.length_le
    rw [heq, List.length_cons] at hle
    omega

/-- In a chain each slot leads to the next. -/
theorem isChain (h : Chain next c l) : l.IsChain fun a b => next a = .to b := by
  induction h with
  | last _ => exact .singleton _
  | step hd ht ih =>
    cases ht with
    | last _ => exact .cons_cons hd ih
    | step _ _ => exact .cons_cons hd ih

/-- The slots `c`, `c + 1`, …, `c + k`, each leading to the next. -/
theorem ascending (k : Nat) (hlink : ∀ i, i < k → next (c + i) = .to (c + i + 1))
    (hstop : next (c + k) = .stop) : Chain next c (List.range' c (k + 1)) := by
  induction k generalizing c with
  | zero => exact .last hstop
  | succ k ih =>
    rw [List.range'_succ]
    refine .step (hlink 0 (Nat.succ_pos k)) (ih (fun i hi => ?_) ?_)
    · have := hlink (i + 1) (by omega)
      rwa [show c + (i + 1) = c + 1 + i by omega] at this
    · rwa [show c + 1 + k = c + (k + 1) by omega]

end Chain

end MochiVM.Links
