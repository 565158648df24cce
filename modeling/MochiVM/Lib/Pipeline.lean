import Mathlib

/-!
# Pipelines from several sources through one queue

Sources take items one at a time, hold each until they can put it into a shared
first-in first-out queue, and one consumer empties the queue. The items are
tagged with their source. Whatever the interleaving, each source's items arrive
exactly once and in order: `Conserved` says where they are at any moment.
-/

namespace MochiVM.Fifo

universe u v

variable {κ : Type u} {α : Type v}

/-- The state of a pipeline, with the history of each end. -/
structure Pipeline (κ : Type u) (α : Type v) where
  /-- All that a source took so far. -/
  taken : κ → List α
  /-- What it took last and did not pass on yet. -/
  held : κ → Option α
  queue : List (κ × α)
  /-- All that the consumer got so far. -/
  out : List (κ × α)

/-- A pipeline nothing has entered. -/
def Pipeline.empty : Pipeline κ α := ⟨fun _ => [], fun _ => none, [], []⟩

section

variable [DecidableEq κ]

/-- The items of one source. -/
def ofSource (k : κ) (l : List (κ × α)) : List α :=
  (l.filter fun x => decide (x.1 = k)).map Prod.snd

@[simp] theorem ofSource_nil (k : κ) : ofSource k ([] : List (κ × α)) = [] := rfl

@[simp] theorem ofSource_append (k : κ) (l l' : List (κ × α)) :
    ofSource k (l ++ l') = ofSource k l ++ ofSource k l' := by
  rw [ofSource, List.filter_append, List.map_append]
  rfl

theorem ofSource_self (k : κ) (a : α) : ofSource k [(k, a)] = [a] := by
  simp [ofSource]

theorem ofSource_other {k j : κ} (h : j ≠ k) (a : α) : ofSource k [(j, a)] = [] := by
  simp [ofSource, h]

/-- What can happen in a pipeline. -/
inductive Step : Pipeline κ α → Pipeline κ α → Prop
  /-- Nothing. -/
  | stutter (p : Pipeline κ α) : Step p p
  /-- A source takes an item. -/
  | take (p : Pipeline κ α) (k : κ) (a : α) : p.held k = none →
      Step p { p with
        taken := Function.update p.taken k (p.taken k ++ [a])
        held := Function.update p.held k (some a) }
  /-- A source puts its item into the queue. -/
  | push (p : Pipeline κ α) (k : κ) (a : α) : p.held k = some a →
      Step p { p with held := Function.update p.held k none, queue := p.queue ++ [(k, a)] }
  /-- The consumer gets the first item of the queue. -/
  | pop (p : Pipeline κ α) (x : κ × α) (q : List (κ × α)) : p.queue = x :: q →
      Step p { p with queue := q, out := p.out ++ [x] }

/-- **Conservation**: what a source took is what the consumer got of it, then
what is queued, then what it holds. -/
def Conserved (p : Pipeline κ α) : Prop :=
  ∀ k, ofSource k p.out ++ ofSource k p.queue ++ (p.held k).toList = p.taken k

theorem conserved_empty : Conserved (Pipeline.empty : Pipeline κ α) := fun _ => rfl

theorem Conserved.step {p q : Pipeline κ α} (h : Conserved p) (hstep : Step p q) :
    Conserved q := by
  intro j
  have hj := h j
  cases hstep with
  | stutter => exact hj
  | take k a hheld =>
    by_cases hk : j = k
    · subst hk
      rw [hheld] at hj
      simp only [Function.update_self, Option.toList_some, ← hj, Option.toList_none,
        List.append_nil]
    · simpa only [Function.update_of_ne hk] using hj
  | push k a hheld =>
    by_cases hk : j = k
    · subst hk
      rw [hheld] at hj
      simp only [Function.update_self, ofSource_append, ofSource_self, Option.toList_none,
        List.append_nil, ← hj, Option.toList_some, List.append_assoc]
    · simp only [Function.update_of_ne hk, ofSource_append, ofSource_other (Ne.symm hk),
        List.append_nil, hj]
  | pop x q hqueue =>
    rw [hqueue, ← List.singleton_append, ofSource_append] at hj
    simp only [ofSource_append, List.append_assoc] at hj ⊢
    exact hj

/-- What the consumer got of a source is a prefix of what the source took. -/
theorem Conserved.isPrefix {p : Pipeline κ α} (h : Conserved p) (k : κ) :
    ofSource k p.out <+: p.taken k :=
  ⟨ofSource k p.queue ++ (p.held k).toList, by rw [← List.append_assoc]; exact h k⟩

/-- Once nothing is under way, it is all of it. -/
theorem Conserved.complete {p : Pipeline κ α} (h : Conserved p) {k : κ} (hheld : p.held k = none)
    (hqueue : p.queue = []) : ofSource k p.out = p.taken k := by
  have hk := h k
  rwa [hheld, hqueue, ofSource_nil, Option.toList_none, List.append_nil, List.append_nil] at hk

end

end MochiVM.Fifo
