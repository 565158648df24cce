import Mathlib

/-!
# Runs of a partial step function

A system is a step function `step : σ → ℓ → Option σ`: what a label does in a
state, or `none` where it cannot happen. A run is a sequence of labels that can
happen one after the other, and an invariant of the system is proved step by
step. `Each` states a property of all the steps of a run.
-/

namespace MochiVM.Runs

universe u v u' v'

variable {σ : Type u} {ℓ : Type v}

/-- The state after the labels `ls`, if they can all happen. -/
def run (step : σ → ℓ → Option σ) : σ → List ℓ → Option σ
  | s, [] => some s
  | s, l :: ls => (step s l).bind fun t => run step t ls

section

variable {step : σ → ℓ → Option σ}

@[simp] theorem run_nil (s : σ) : run step s [] = some s := rfl

theorem run_append (s : σ) (ls ls' : List ℓ) :
    run step s (ls ++ ls') = (run step s ls).bind fun t => run step t ls' := by
  induction ls generalizing s with
  | nil => rfl
  | cons l ls ih =>
    rw [List.cons_append, run, run]
    cases step s l with
    | none => rfl
    | some t => exact ih t

theorem run_concat (s : σ) (ls : List ℓ) (l : ℓ) :
    run step s (ls ++ [l]) = (run step s ls).bind fun t => step t l := by
  rw [run_append]
  congr 1
  funext t
  rw [run]
  cases step t l <;> rfl

/-- **The invariant rule**: what holds at the start and is kept by every step
with an allowed label holds after every run of allowed labels. -/
theorem run_inv_on {I : σ → Prop} {P : ℓ → Prop}
    (hstep : ∀ s l t, P l → I s → step s l = some t → I t) :
    ∀ {ls : List ℓ} {s t : σ}, (∀ l ∈ ls, P l) → I s → run step s ls = some t → I t
  | [], _, _, _, hs, h => by
    cases h
    exact hs
  | l :: ls, s, t, hls, hs, h => by
    obtain ⟨u, hu, hrest⟩ := Option.bind_eq_some_iff.mp h
    exact run_inv_on hstep (fun l' hl' => hls l' (List.mem_cons_of_mem l hl'))
      (hstep s l u (hls l List.mem_cons_self) hs hu) hrest

/-- The rule where every label is allowed. -/
theorem run_inv {I : σ → Prop} (hstep : ∀ s l t, I s → step s l = some t → I t)
    {ls : List ℓ} {s t : σ} (hs : I s) (h : run step s ls = some t) : I t :=
  run_inv_on (P := fun _ => True) (fun s l t _ => hstep s l t) (fun _ _ => trivial) hs h

/-- The same for an invariant that also speaks of the labels so far. -/
theorem run_inv_history {I : List ℓ → σ → Prop}
    (hstep : ∀ ls s l t, I ls s → step s l = some t → I (ls ++ [l]) t) {s t : σ} (hs : I [] s)
    {ls : List ℓ} (h : run step s ls = some t) : I ls t := by
  suffices hgen : ∀ (done rest : List ℓ) (u : σ), I done u → run step u rest = some t →
      I (done ++ rest) t from hgen [] ls s hs h
  intro done rest
  induction rest generalizing done with
  | nil =>
    intro u hu hrun
    cases hrun
    rwa [List.append_nil]
  | cons l rest ih =>
    intro u hu hrun
    obtain ⟨v, hv, hrest⟩ := Option.bind_eq_some_iff.mp hrun
    have := ih (done ++ [l]) v (hstep done u l v hu hv) hrest
    rwa [List.append_assoc] at this

/-- The label `l` of the run `ls` from `s`, which comes after `before`, in the
state `c`. -/
structure Occurs (step : σ → ℓ → Option σ) (s : σ) (ls before : List ℓ) (c : σ) (l : ℓ) :
    Prop where
  reached : run step s before = some c
  label : ∃ rest, ls = before ++ l :: rest

theorem Occurs.concat {s c : σ} {ls before : List ℓ} {l : ℓ} (h : Occurs step s ls before c l)
    (l' : ℓ) : Occurs step s (ls ++ [l']) before c l := by
  obtain ⟨rest, rfl⟩ := h.label
  exact ⟨h.reached, rest ++ [l'], by simp⟩

theorem Occurs.of_before {P : ℓ → Prop} {s c : σ} {ls before : List ℓ} {l : ℓ}
    (h : Occurs step s ls before c l) (hls : ∀ l' ∈ ls, P l') : ∀ l' ∈ before, P l' := by
  obtain ⟨rest, rfl⟩ := h.label
  exact fun l' hl' => hls l' (List.mem_append_left _ hl')

/-- **The origin rule**: what does not hold at the start, and after a step only
where the step brings it about or leaves it, comes from a step of the run. `R c l t`
says that the step `l` from `c` brought it about, and what is left of it in `t`. -/
theorem run_origin {I P : σ → Prop} {R : σ → ℓ → σ → Prop}
    (hinv : ∀ s l t, I s → step s l = some t → I t)
    (hstep : ∀ s l t, I s → step s l = some t → P t →
      R s l t ∨ P s ∧ ∀ c l', R c l' s → R c l' t) {ls : List ℓ} {s t : σ} (hs : I s) (hnot : ¬ P s)
    (hrun : run step s ls = some t) (ht : P t) :
    ∃ before c l, Occurs step s ls before c l ∧ R c l t := by
  -- the induction needs the run so far, for the state of the step
  refine (run_inv_history (I := fun ls t => run step s ls = some t ∧ I t ∧
    (P t → ∃ before c l, Occurs step s ls before c l ∧ R c l t)) (fun ls t l u => ?_)
    ⟨rfl, hs, fun hP => absurd hP hnot⟩ hrun).2.2 ht
  rintro ⟨hrun, ht, hfrom⟩ hu
  refine ⟨by rw [run_concat, hrun]; exact hu, hinv t l u ht hu, fun hP => ?_⟩
  rcases hstep t l u ht hu hP with hR | ⟨hPt, hkeep⟩
  · exact ⟨ls, t, l, ⟨hrun, [], rfl⟩, hR⟩
  · obtain ⟨before, c, l', hocc, hR⟩ := hfrom hPt
    exact ⟨before, c, l', hocc.concat l, hkeep c l' hR⟩

/-- A value computed along a run, from the state before each of its steps. -/
def along {γ : Type u'} (step : σ → ℓ → Option σ) (f : σ → ℓ → γ → γ) : σ → List ℓ → γ → γ
  | _, [], x => x
  | s, l :: ls, x =>
    match step s l with
    | some t => along step f t ls (f s l x)
    | none => x

/-- The rule for an invariant that also speaks of such a value. -/
theorem run_inv_along {γ : Type u'} {f : σ → ℓ → γ → γ} {I : σ → γ → Prop} {P : ℓ → Prop}
    (hstep : ∀ s l t x, P l → I s x → step s l = some t → I t (f s l x)) {ls : List ℓ} {s t : σ}
    {x : γ} (hls : ∀ l ∈ ls, P l) (hs : I s x) (hrun : run step s ls = some t) :
    I t (along step f s ls x) := by
  induction ls generalizing s x with
  | nil =>
    cases hrun
    exact hs
  | cons l ls ih =>
    obtain ⟨u, hu, hrest⟩ := Option.bind_eq_some_iff.mp hrun
    rw [along, hu]
    exact ih (fun l' hl' => hls l' (List.mem_cons_of_mem l hl'))
      (hstep s l u x (hls l List.mem_cons_self) hs hu) hrest

/-- A run that can be continued at every point is there in full. -/
theorem run_exists {label : Nat → ℓ} {s : σ} {n : Nat}
    (h : ∀ k < n, ∀ t, run step s ((List.range k).map label) = some t →
      (step t (label k)).isSome = true) :
    ∃ t, run step s ((List.range n).map label) = some t := by
  induction n with
  | zero => exact ⟨s, rfl⟩
  | succ n ih =>
    obtain ⟨t, ht⟩ := ih fun k hk => h k (Nat.lt_succ_of_lt hk)
    obtain ⟨u, hu⟩ := Option.isSome_iff_exists.mp (h n (Nat.lt_succ_self n) t ht)
    refine ⟨u, ?_⟩
    rw [List.range_succ, List.map_append, List.map_singleton, run_concat, ht, Option.bind_some, hu]

/-- **Stuttering simulation**: a system whose every step leaves an image alone,
or is an allowed step of another system on it, runs on its image as that system
does. -/
theorem run_image_on {σ' : Type u'} {ℓ' : Type v'} {step' : σ' → ℓ' → Option σ'} {I : σ → Prop}
    {P : ℓ → Prop} {P' : ℓ' → Prop} (f : σ → σ')
    (hstep : ∀ s l t, P l → I s → step s l = some t → I t)
    (himage : ∀ s l t, P l → I s → step s l = some t →
      f t = f s ∨ ∃ l', P' l' ∧ step' (f s) l' = some (f t)) {ls : List ℓ} {s t : σ}
    (hls : ∀ l ∈ ls, P l) (hs : I s) (hrun : run step s ls = some t) :
    ∃ ls', (∀ l' ∈ ls', P' l') ∧ run step' (f s) ls' = some (f t) := by
  induction ls generalizing s with
  | nil =>
    cases hrun
    exact ⟨[], by simp, rfl⟩
  | cons l ls ih =>
    obtain ⟨u, hu, hrest⟩ := Option.bind_eq_some_iff.mp hrun
    have hl := hls l List.mem_cons_self
    obtain ⟨ls', hallowed, hrun'⟩ :=
      ih (fun l' hl' => hls l' (List.mem_cons_of_mem l hl')) (hstep s l u hl hs hu) hrest
    rcases himage s l u hl hs hu with heq | ⟨l', hl', hstep'⟩
    · exact ⟨ls', hallowed, heq ▸ hrun'⟩
    · refine ⟨l' :: ls', fun l'' hmem => ?_, ?_⟩
      · rcases List.mem_cons.mp hmem with rfl | hmem
        · exact hl'
        · exact hallowed l'' hmem
      · rw [run, hstep']
        exact hrun'

/-! ## Properties of every step -/

/-- Every step of the run of `ls` from `s` is in `R`, as far as it goes. -/
def Each (step : σ → ℓ → Option σ) (R : σ → ℓ → σ → Prop) : σ → List ℓ → Prop
  | _, [] => True
  | s, l :: ls => ∀ t, step s l = some t → R s l t ∧ Each step R t ls

/-- A step of such a run. -/
theorem Each.of_run {R : σ → ℓ → σ → Prop} {ls ls' : List ℓ} {l : ℓ} {s t u : σ}
    (h : Each step R s (ls ++ l :: ls')) (hrun : run step s ls = some t)
    (hstep : step t l = some u) : R t l u := by
  induction ls generalizing s with
  | nil =>
    cases hrun
    exact (h u hstep).1
  | cons l' ls ih =>
    obtain ⟨v, hv, hrest⟩ := Option.bind_eq_some_iff.mp hrun
    exact ih (h v hv).2 hrest

theorem each_true (s : σ) (ls : List ℓ) : Each step (fun _ _ _ => True) s ls := by
  induction ls generalizing s with
  | nil => trivial
  | cons l ls ih => exact fun t _ => ⟨trivial, ih t⟩

/-- **The rule for properties of steps**: one that follows from another, and from
an invariant that the other keeps. -/
theorem Each.imp_on {I : σ → Prop} {P : ℓ → Prop} {R R' : σ → ℓ → σ → Prop}
    (hstep : ∀ s l t, P l → I s → R s l t → step s l = some t → I t ∧ R' s l t) {ls : List ℓ}
    {s : σ} (hls : ∀ l ∈ ls, P l) (hs : I s) (h : Each step R s ls) : Each step R' s ls := by
  induction ls generalizing s with
  | nil => trivial
  | cons l ls ih =>
    intro t ht
    obtain ⟨hR, hrest⟩ := h t ht
    obtain ⟨hinv, hR'⟩ := hstep s l t (hls l List.mem_cons_self) hs hR ht
    exact ⟨hR', ih (fun l' hl' => hls l' (List.mem_cons_of_mem l hl')) hinv hrest⟩

/-- A property of steps that follows from an invariant. -/
theorem each_of_inv_on {I : σ → Prop} {P : ℓ → Prop} {R : σ → ℓ → σ → Prop}
    (hstep : ∀ s l t, P l → I s → step s l = some t → I t ∧ R s l t) {ls : List ℓ} {s : σ}
    (hls : ∀ l ∈ ls, P l) (hs : I s) : Each step R s ls :=
  (each_true s ls).imp_on (fun s l t hl hs _ => hstep s l t hl hs) hls hs

/-- Two properties that agree on steps from states of an invariant. -/
theorem each_congr_on {I : σ → Prop} {P : ℓ → Prop} {R R' : σ → ℓ → σ → Prop}
    (hstep : ∀ s l t, P l → I s → step s l = some t → I t)
    (hR : ∀ s l t, P l → I s → step s l = some t → (R s l t ↔ R' s l t)) {ls : List ℓ} {s : σ}
    (hls : ∀ l ∈ ls, P l) (hs : I s) : Each step R s ls ↔ Each step R' s ls :=
  ⟨fun h => h.imp_on (fun s l t hl hs hRs ht =>
      ⟨hstep s l t hl hs ht, (hR s l t hl hs ht).mp hRs⟩) hls hs,
    fun h => h.imp_on (fun s l t hl hs hRs ht =>
      ⟨hstep s l t hl hs ht, (hR s l t hl hs ht).mpr hRs⟩) hls hs⟩

end

/-! ## Records that grow at their end -/

/-- An entry of a list with one more is an old one or the new one. -/
theorem getElem?_concat_cases {α : Type u} {l : List α} {x y : α} {i : Nat}
    (h : (l ++ [x])[i]? = some y) : i < l.length ∧ l[i]? = some y ∨ i = l.length ∧ y = x := by
  rw [List.getElem?_append] at h
  split at h
  next hlt => exact .inl ⟨hlt, h⟩
  next hge =>
    have hi : i - l.length = 0 := by
      have := (List.getElem?_eq_some_iff.mp h).1
      rw [List.length_singleton] at this
      omega
    rw [hi] at h
    exact .inr ⟨by omega, (Option.some.inj h).symm⟩

end MochiVM.Runs
