import MochiVM.Lib.Runs

/-!
# Fair schedules

A schedule is an endless sequence of labels. A label that cannot happen when its
turn comes is a turn lost, so that every schedule goes on for ever; it is fair to
a process if labels of that process come up again and again.

`fair_reaches` is the progress rule. In every state that is not done one process
is the helper, whose turn lowers a rank; the turns of the others lower the rank
as well, or leave the helper in place. Then a fair schedule gets done.
-/

namespace MochiVM.Runs

universe u v w x

variable {σ : Type u} {ℓ : Type v} {κ : Type w} {α : Type x}

/-- The state after a turn of `l`. -/
def turn (step : σ → ℓ → Option σ) (s : σ) (l : ℓ) : σ := (step s l).getD s

/-- The state after `n` turns of a schedule. -/
def after (step : σ → ℓ → Option σ) (sched : Nat → ℓ) (s : σ) : Nat → σ
  | 0 => s
  | n + 1 => turn step (after step sched s n) (sched n)

/-- Labels of the process `k` come up again and again. -/
def FairTo (proc : ℓ → κ) (sched : Nat → ℓ) (k : κ) : Prop := ∀ n, ∃ m, n ≤ m ∧ proc (sched m) = k

variable {step : σ → ℓ → Option σ} {sched : Nat → ℓ} {s : σ}

/-- What a schedule gets to, a run gets to: the lost turns left out. -/
theorem after_run (step : σ → ℓ → Option σ) (sched : Nat → ℓ) (s : σ) (n : Nat) :
    ∃ ls, run step s ls = some (after step sched s n) := by
  induction n with
  | zero => exact ⟨[], rfl⟩
  | succ n ih =>
    obtain ⟨ls, hls⟩ := ih
    cases hstep : step (after step sched s n) (sched n) with
    | none =>
      refine ⟨ls, hls.trans ?_⟩
      rw [after, turn, hstep, Option.getD_none]
    | some t =>
      refine ⟨ls ++ [sched n], ?_⟩
      rw [run_concat, hls, Option.bind_some, hstep, after, turn, hstep, Option.getD_some]

/-- The invariant rule for schedules. -/
theorem after_inv {I : σ → Prop} (hstep : ∀ s l t, I s → step s l = some t → I t) (hs : I s)
    (n : Nat) : I (after step sched s n) := by
  obtain ⟨ls, hls⟩ := after_run step sched s n
  exact run_inv hstep hs hls

/-- **The progress rule**, with an invariant. -/
theorem fair_reaches [Preorder α] [WellFoundedLT α] {proc : ℓ → κ} {done : σ → Prop}
    (I : σ → Prop) (rank : σ → α) (helper : σ → κ) (hinv : ∀ s l t, I s → step s l = some t → I t)
    (hothers : ∀ s l, I s → ¬ done s →
      rank (turn step s l) < rank s ∨ rank (turn step s l) ≤ rank s ∧
        helper (turn step s l) = helper s)
    (hhelper : ∀ s l, I s → ¬ done s → proc l = helper s → rank (turn step s l) < rank s)
    (hfair : ∀ k, FairTo proc sched k) (hs : I s) : ∃ n, done (after step sched s n) := by
  have hI : ∀ n, I (after step sched s n) := after_inv hinv hs
  suffices hgen : ∀ (r : α) (n : Nat), rank (after step sched s n) = r →
      ∃ m, done (after step sched s m) from hgen _ 0 rfl
  intro r
  induction r using WellFoundedLT.induction with
  | ind r ih =>
  intro n hr
  by_contra hnever
  have hnot : ∀ m, ¬ done (after step sched s m) := fun m hm => hnever ⟨m, hm⟩
  have hlow : ∀ m, ¬ rank (after step sched s m) < r := fun m hm => hnever (ih _ hm m rfl)
  -- until the rank is lower, the helper of the `n`-th state stays the helper
  have hstays : ∀ d, rank (after step sched s (n + d)) ≤ r ∧
      helper (after step sched s (n + d)) = helper (after step sched s n) := by
    intro d
    induction d with
    | zero => exact ⟨hr.le, rfl⟩
    | succ d ihd =>
      obtain ⟨hle, hsame⟩ := ihd
      rcases hothers _ (sched (n + d)) (hI (n + d)) (hnot (n + d)) with hlt | ⟨hle', hsame'⟩
      · exact absurd (lt_of_lt_of_le hlt hle) (hlow (n + d + 1))
      · exact ⟨hle'.trans hle, hsame'.trans hsame⟩
  -- and its turn comes
  obtain ⟨m, hm, hproc⟩ := hfair (helper (after step sched s n)) n
  obtain ⟨d, rfl⟩ := Nat.exists_eq_add_of_le hm
  obtain ⟨hle, hsame⟩ := hstays d
  have hlt := hhelper _ _ (hI (n + d)) (hnot (n + d)) (hproc.trans hsame.symm)
  exact hlow (n + d + 1) (lt_of_lt_of_le hlt hle)

end MochiVM.Runs
