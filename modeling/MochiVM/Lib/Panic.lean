import Mathlib

/-!
# Programs that mutate a state and may panic

`EStateM ε σ` is the semantics of code that works in place on a state `σ` and
may stop with a panic `ε`: unlike `StateT σ (Except ε)` it keeps the state the
code had reached when it panicked, which is what a panic handler gets to see.

- `Returns m s a t` / `Aborts m s e t`: the run of `m` from `s`;
- `Keeps I m`: `m` keeps `I`, whether it returns or panics. It is closed under
  sequencing, so an invariant over every point at which a program can stop
  needs one fact per primitive;
- `Ends m s Q E`: where the run of `m` from `s` ends, as an exact postcondition;
- `Fails I m`: `m` panics in every state of `I`;
- `forRange lo hi body`: the loop `for i in lo..hi`, with its invariant rule.
-/

namespace MochiVM.Panic

universe u

variable {ε σ α β : Type u}

/-- The state a run ends in, by return or by panic. -/
def finalState : EStateM.Result ε σ α → σ
  | .ok _ s => s
  | .error _ s => s

@[simp] theorem finalState_ok (a : α) (s : σ) :
    finalState (.ok a s : EStateM.Result ε σ α) = s := rfl

@[simp] theorem finalState_error (e : ε) (s : σ) :
    finalState (.error e s : EStateM.Result ε σ α) = s := rfl

/-- `m` run from `s` returns `a` with the state `t`. -/
def Returns (m : EStateM ε σ α) (s : σ) (a : α) (t : σ) : Prop := m s = .ok a t

/-- `m` run from `s` panics with `e`, having reached the state `t`. -/
def Aborts (m : EStateM ε σ α) (s : σ) (e : ε) (t : σ) : Prop := m s = .error e t

/-! ## Running a sequence -/

theorem returns_pure (a : α) (s : σ) : Returns (pure a : EStateM ε σ α) s a s := rfl

theorem returns_get (s : σ) : Returns (get : EStateM ε σ σ) s s s := rfl

theorem bind_of_returns {m : EStateM ε σ α} {s t : σ} {a : α} (h : Returns m s a t)
    (f : α → EStateM ε σ β) : (m >>= f) s = f a t := by
  show EStateM.bind m f s = f a t
  rw [EStateM.bind, h]

theorem bind_of_aborts {m : EStateM ε σ α} {s t : σ} {e : ε} (h : Aborts m s e t)
    (f : α → EStateM ε σ β) : (m >>= f) s = .error e t := by
  show EStateM.bind m f s = .error e t
  rw [EStateM.bind, h]

theorem Returns.bind {m : EStateM ε σ α} {f : α → EStateM ε σ β} {s t u : σ} {a : α} {b : β}
    (hm : Returns m s a t) (hf : Returns (f a) t b u) : Returns (m >>= f) s b u :=
  (bind_of_returns hm f).trans hf

theorem Returns.bind_aborts {m : EStateM ε σ α} {f : α → EStateM ε σ β} {s t u : σ} {a : α}
    {e : ε} (hm : Returns m s a t) (hf : Aborts (f a) t e u) : Aborts (m >>= f) s e u :=
  (bind_of_returns hm f).trans hf

theorem Aborts.bind {m : EStateM ε σ α} {s t : σ} {e : ε} (hm : Aborts m s e t)
    (f : α → EStateM ε σ β) : Aborts (m >>= f) s e t :=
  bind_of_aborts hm f

theorem Returns.unique {m : EStateM ε σ α} {s t t' : σ} {a a' : α} (h : Returns m s a t)
    (h' : Returns m s a' t') : a = a' ∧ t = t' := by
  have := h.symm.trans h'
  injection this with ha ht
  exact ⟨ha, ht⟩

theorem Aborts.unique {m : EStateM ε σ α} {s t t' : σ} {e e' : ε} (h : Aborts m s e t)
    (h' : Aborts m s e' t') : e = e' ∧ t = t' := by
  have := h.symm.trans h'
  injection this with he ht
  exact ⟨he, ht⟩

theorem Returns.not_aborts {m : EStateM ε σ α} {s t t' : σ} {a : α} {e : ε}
    (h : Returns m s a t) (h' : Aborts m s e t') : False := by
  have := h.symm.trans h'
  cases this

/-- A returning sequence returned at every step. -/
theorem Returns.of_bind {m : EStateM ε σ α} {f : α → EStateM ε σ β} {s u : σ} {b : β}
    (h : Returns (m >>= f) s b u) : ∃ a t, Returns m s a t ∧ Returns (f a) t b u := by
  cases hm : m s with
  | ok a t => exact ⟨a, t, hm, (bind_of_returns hm f).symm.trans h⟩
  | error e t => exact absurd ((bind_of_aborts hm f).symm.trans h) (by simp)

/-- A sequence that returns `ok`, when it cannot after its first part failed:
the first part returned `ok`. -/
theorem Returns.of_bind_ok {δ δ' : Type u} {m : EStateM ε σ (Except δ' α)}
    {f : Except δ' α → EStateM ε σ (Except δ β)} {s t : σ} {b : β}
    (h : Returns (m >>= f) s (.ok b) t) (herror : ∀ e u, ¬ Returns (f (.error e)) u (.ok b) t) :
    ∃ a u, Returns m s (.ok a) u ∧ Returns (f (.ok a)) u (.ok b) t := by
  obtain ⟨r, u, hm, hf⟩ := h.of_bind
  cases r with
  | ok a => exact ⟨a, u, hm, hf⟩
  | error e => exact absurd hf (herror e u)

/-- A program that ends with an error returns no `ok`. -/
theorem not_returns_error {δ : Type u} {m : EStateM ε σ α} {e : δ} {s t : σ} {b : β} :
    ¬ Returns (m >>= fun _ => pure (Except.error e)) s (Except.ok b) t := by
  intro h
  obtain ⟨_, u, _, hpure⟩ := h.of_bind
  exact absurd ((returns_pure _ u).unique hpure).1 (by simp)

/-! ## Invariants -/

/-- `m` keeps `I`, also when it panics. -/
def Keeps (I : σ → Prop) (m : EStateM ε σ α) : Prop := ∀ s, I s → I (finalState (m s))

theorem Keeps.pure (I : σ → Prop) (a : α) : Keeps I (Pure.pure a : EStateM ε σ α) :=
  fun _ h => h

theorem Keeps.bind {I : σ → Prop} {m : EStateM ε σ α} {f : α → EStateM ε σ β}
    (hm : Keeps I m) (hf : ∀ a, Keeps I (f a)) : Keeps I (m >>= f) := by
  intro s hs
  have hms := hm s hs
  cases h : m s with
  | ok a t =>
    rw [bind_of_returns h]
    exact hf a t (by simpa [h] using hms)
  | error e t =>
    rw [bind_of_aborts h]
    simpa [h] using hms

theorem Keeps.returns {I : σ → Prop} {m : EStateM ε σ α} {s t : σ} {a : α} (hm : Keeps I m)
    (hs : I s) (h : Returns m s a t) : I t := by
  have := hm s hs
  rwa [show m s = .ok a t from h] at this

/-- Two sequences that go on alike from every state their first part leaves. -/
theorem Keeps.bind_congr {I : σ → Prop} {m : EStateM ε σ α} {f g : α → EStateM ε σ β} {s : σ}
    (hm : Keeps I m) (hs : I s) (hfg : ∀ a t, I t → f a t = g a t) : (m >>= f) s = (m >>= g) s := by
  cases h : m s with
  | ok a t =>
    rw [bind_of_returns h, bind_of_returns h]
    exact hfg a t (hm.returns hs h)
  | error e t => rw [bind_of_aborts h, bind_of_aborts h]

/-- Two sequences that go on alike from where their first part gets. -/
theorem Returns.bind_congr {m : EStateM ε σ α} {f g : α → EStateM ε σ β} {s t : σ} {a : α}
    (hm : Returns m s a t) (hfg : f a t = g a t) : (m >>= f) s = (m >>= g) s :=
  (bind_of_returns hm f).trans (hfg.trans (bind_of_returns hm g).symm)

/-- Two sequences whose first parts run alike. -/
theorem bind_congr_left {m m' : EStateM ε σ α} {s : σ} (h : m s = m' s)
    (f : α → EStateM ε σ β) : (m >>= f) s = (m' >>= f) s := by
  show EStateM.bind m f s = EStateM.bind m' f s
  rw [EStateM.bind, EStateM.bind, h]

/-! ## Exact postconditions -/

/-- The run of `m` from `s` ends in `Q` if it returns and in `E` if it panics.
Programs are deterministic, so unfolding a program under `Ends` is an
equivalence: the result is the exact condition under which it ends so. -/
def Ends (m : EStateM ε σ α) (s : σ) (Q : α → σ → Prop) (E : ε → σ → Prop) : Prop :=
  match m s with
  | .ok a t => Q a t
  | .error e t => E e t

section Ends

variable {m : EStateM ε σ α} {s : σ} {Q : α → σ → Prop} {E : ε → σ → Prop}

theorem ends_of_returns {a : α} {t : σ} (h : Returns m s a t) : Ends m s Q E ↔ Q a t := by
  rw [Ends, show m s = .ok a t from h]

theorem ends_of_aborts {e : ε} {t : σ} (h : Aborts m s e t) : Ends m s Q E ↔ E e t := by
  rw [Ends, show m s = .error e t from h]

@[simp] theorem ends_pure (a : α) (s : σ) (Q : α → σ → Prop) (E : ε → σ → Prop) :
    Ends (pure a) s Q E ↔ Q a s := Iff.rfl

@[simp] theorem ends_throw (e : ε) (s : σ) (Q : α → σ → Prop) (E : ε → σ → Prop) :
    Ends (throw e) s Q E ↔ E e s := Iff.rfl

@[simp] theorem ends_get (s : σ) (Q : σ → σ → Prop) (E : ε → σ → Prop) :
    Ends (get : EStateM ε σ σ) s Q E ↔ Q s s := Iff.rfl

@[simp] theorem ends_bind (m : EStateM ε σ α) (f : α → EStateM ε σ β) (s : σ)
    (Q : β → σ → Prop) (E : ε → σ → Prop) :
    Ends (m >>= f) s Q E ↔ Ends m s (fun a t => Ends (f a) t Q E) E := by
  cases h : m s with
  | ok a t =>
    rw [ends_of_returns h, Ends, bind_of_returns h]
    exact Iff.rfl
  | error e t => rw [ends_of_aborts h, ends_of_aborts (Aborts.bind h f)]

/-- What holds of every return. -/
theorem ends_iff_returns :
    Ends m s Q (fun _ _ => True) ↔ ∀ a t, Returns m s a t → Q a t := by
  constructor
  · intro h a t hr
    exact (ends_of_returns hr).mp h
  · intro h
    cases hm : m s with
    | ok a t => exact (ends_of_returns hm).mpr (h a t hm)
    | error e t => exact (ends_of_aborts hm).mpr trivial

theorem Ends.mono {Q' : α → σ → Prop} {E' : ε → σ → Prop} (h : Ends m s Q E)
    (hQ : ∀ a t, Q a t → Q' a t) (hE : ∀ e t, E e t → E' e t) : Ends m s Q' E' := by
  cases hm : m s with
  | ok a t => exact (ends_of_returns hm).mpr (hQ a t ((ends_of_returns hm).mp h))
  | error e t => exact (ends_of_aborts hm).mpr (hE e t ((ends_of_aborts hm).mp h))

theorem Ends.and {Q' : α → σ → Prop} {E' : ε → σ → Prop} (h : Ends m s Q E)
    (h' : Ends m s Q' E') :
    Ends m s (fun a t => Q a t ∧ Q' a t) fun e t => E e t ∧ E' e t := by
  cases hm : m s with
  | ok a t =>
    exact (ends_of_returns hm).mpr ⟨(ends_of_returns hm).mp h, (ends_of_returns hm).mp h'⟩
  | error e t =>
    exact (ends_of_aborts hm).mpr ⟨(ends_of_aborts hm).mp h, (ends_of_aborts hm).mp h'⟩

theorem Ends.cases (h : Ends m s Q E) :
    (∃ a t, Returns m s a t ∧ Q a t) ∨ ∃ e t, Aborts m s e t ∧ E e t := by
  cases hm : m s with
  | ok a t => exact .inl ⟨a, t, hm, (ends_of_returns hm).mp h⟩
  | error e t => exact .inr ⟨e, t, hm, (ends_of_aborts hm).mp h⟩

/-- The same for returns and panics: a fact about the final state. -/
theorem ends_iff_finalState {I : σ → Prop} :
    Ends m s (fun _ t => I t) (fun _ t => I t) ↔ I (finalState (m s)) := by
  cases hm : m s with
  | ok a t => rw [ends_of_returns hm, finalState_ok]
  | error e t => rw [ends_of_aborts hm, finalState_error]

/-- What a program keeps holds wherever it ends. -/
theorem keeps_iff_ends {I : σ → Prop} {m : EStateM ε σ α} :
    Keeps I m ↔ ∀ s, I s → Ends m s (fun _ t => I t) (fun _ t => I t) :=
  forall_congr' fun _ => imp_congr_right fun _ => ends_iff_finalState.symm

end Ends

/-! ## Programs that cannot return -/

/-- `m` panics in every state that satisfies `I`. -/
def Fails (I : σ → Prop) (m : EStateM ε σ α) : Prop := ∀ s, I s → ∃ e t, Aborts m s e t

/-- A sequence whose second part fails fails, wherever its first part stops. -/
theorem Fails.after {I : σ → Prop} {m : EStateM ε σ α} {f : α → EStateM ε σ β}
    (hm : Keeps I m) (hf : ∀ a, Fails I (f a)) : Fails I (m >>= f) := by
  intro s hs
  cases h : m s with
  | ok a t =>
    obtain ⟨e, u, hu⟩ := hf a t (hm.returns hs h)
    exact ⟨e, u, Returns.bind_aborts h hu⟩
  | error e t => exact ⟨e, t, Aborts.bind h f⟩

/-! ## Counted loops -/

/-- `k` runs of `body`, at `i`, `i + 1`, …. -/
def repeatFrom (body : Nat → EStateM ε σ PUnit) : Nat → Nat → EStateM ε σ PUnit
  | _, 0 => pure ⟨⟩
  | i, k + 1 => do
    body i
    repeatFrom body (i + 1) k

/-- `for i in lo..hi { body i }`. -/
def forRange (lo hi : Nat) (body : Nat → EStateM ε σ PUnit) : EStateM ε σ PUnit :=
  repeatFrom body lo (hi - lo)

/-- The invariant rule for counted loops that do not panic: `f i` is the state
before the `i`-th run of the body. -/
theorem repeatFrom_returns {body : Nat → EStateM ε σ PUnit} (f : Nat → σ) :
    ∀ (k i : Nat), (∀ j, i ≤ j → j < i + k → Returns (body j) (f j) ⟨⟩ (f (j + 1))) →
      Returns (repeatFrom body i k) (f i) ⟨⟩ (f (i + k))
  | 0, i, _ => returns_pure _ _
  | k + 1, i, h => by
    have hrest := repeatFrom_returns f k (i + 1) fun j h₁ h₂ => h j (by omega) (by omega)
    rw [show i + 1 + k = i + (k + 1) by omega] at hrest
    exact (h i (Nat.le_refl i) (by omega)).bind hrest

theorem forRange_returns {body : Nat → EStateM ε σ PUnit} (f : Nat → σ) {lo hi : Nat}
    (hle : lo ≤ hi) (h : ∀ j, lo ≤ j → j < hi → Returns (body j) (f j) ⟨⟩ (f (j + 1))) :
    Returns (forRange lo hi body) (f lo) ⟨⟩ (f hi) := by
  have := repeatFrom_returns f (hi - lo) lo fun j h₁ h₂ => h j h₁ (by omega)
  rwa [show lo + (hi - lo) = hi by omega] at this

theorem Keeps.repeatFrom {I : σ → Prop} {body : Nat → EStateM ε σ PUnit}
    (h : ∀ i, Keeps I (body i)) : ∀ (k i : Nat), Keeps I (repeatFrom body i k)
  | 0, _ => Keeps.pure I _
  | k + 1, i => (h i).bind fun _ => Keeps.repeatFrom h k (i + 1)

theorem Keeps.forRange {I : σ → Prop} {body : Nat → EStateM ε σ PUnit}
    (h : ∀ i, Keeps I (body i)) (lo hi : Nat) : Keeps I (forRange lo hi body) :=
  Keeps.repeatFrom h (hi - lo) lo

end MochiVM.Panic
