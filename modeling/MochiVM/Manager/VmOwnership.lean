import MochiVM.Manager.VmMethods

/-!
# Engine ownership

`Owned` is what every step keeps: the backend's child is the one process that is
not reaped, its channel is the one the backend receives from, and every earlier
engine was killed and waited for before the next was spawned. The main result is
`ownership_run`.
-/

namespace MochiVM.Vm

open MochiVM.Buffer MochiVM.Fat MochiVM.Runs MochiVM.Panic

/-! ## The invariant -/

/-- Engine `g` was spawned, then killed, then waited for. -/
def Settled (g : Nat) (events : List ProcEvent) : Prop :=
  List.Sublist [.spawned g, .killed g, .waited g] events

/-- Whenever an engine was spawned, all spawned before it were settled. -/
def Ordered (events : List ProcEvent) : Prop :=
  ∀ pre g post, events = pre ++ .spawned g :: post → ∀ g', .spawned g' ∈ pre → Settled g' pre

theorem Settled.append {g : Nat} {events : List ProcEvent} (h : Settled g events)
    (more : List ProcEvent) : Settled g (events ++ more) :=
  h.trans (List.sublist_append_left _ _)

theorem ordered_nil : Ordered [] := by
  intro pre g post h
  exact absurd h.symm (by simp)

theorem Ordered.concat {events : List ProcEvent} {ev : ProcEvent} (h : Ordered events)
    (hev : ∀ g, ev = .spawned g → ∀ g', .spawned g' ∈ events → Settled g' events) :
    Ordered (events ++ [ev]) := by
  intro pre g post heq
  rcases List.eq_nil_or_concat post with rfl | ⟨post', last, rfl⟩
  · obtain ⟨rfl, hlast⟩ := List.append_inj' heq rfl
    exact hev g (List.singleton_inj.mp hlast)
  · rw [List.concat_eq_append, ← List.cons_append, ← List.append_assoc] at heq
    obtain ⟨rfl, _⟩ := List.append_inj' heq rfl
    exact h pre g post' rfl

/-- What the backend owns: at most the last engine, and every other one was
killed and waited for in time. -/
structure Owned (s : Sys) : Prop where
  /-- The channel received from is the child's. -/
  sync : s.backend.rx = s.backend.child
  /-- The child is the engine spawned last. -/
  last : ∀ g, s.backend.child = some g → g + 1 = s.engines.length
  /-- Every other process is reaped, -/
  reaped : ∀ (g : Nat) e, s.engines[g]? = some e → s.backend.child = some g ∨ e.proc = .reaped
  /-- by a `kill` and then a `wait`. -/
  settled : ∀ g, .spawned g ∈ s.events → s.backend.child = some g ∨ Settled g s.events
  spawned : ∀ g, .spawned g ∈ s.events ↔ g < s.engines.length
  ordered : Ordered s.events
  dropped : s.dropped → s.backend.child = none

theorem Owned.new (runDir : String) (files : Files) : Owned (Sys.new runDir files) where
  sync := rfl
  last _ h := absurd h (by simp [Sys.new, Backend.new])
  reaped _ _ h := absurd h (by simp [Sys.new])
  settled _ h := absurd h (by simp [Sys.new])
  spawned _ := by simp [Sys.new]
  ordered := ordered_nil
  dropped _ := rfl

/-- Steps that leave the backend, its history and reaped processes alone. -/
theorem Owned.congr {s t : Sys} (h : Owned s) (hbackend : t.backend = s.backend)
    (hevents : t.events = s.events) (hdropped : t.dropped = s.dropped)
    (hlen : t.engines.length = s.engines.length)
    (hproc : ∀ (g : Nat) e', t.engines[g]? = some e' →
      ∃ e, s.engines[g]? = some e ∧ (e.proc = .reaped → e'.proc = .reaped)) : Owned t where
  sync := by rw [hbackend, h.sync]
  last g hg := by rw [hlen, h.last g (by rwa [hbackend] at hg)]
  reaped g e' he' := by
    obtain ⟨e, he, hkeep⟩ := hproc g e' he'
    rw [hbackend]
    exact (h.reaped g e he).imp_right hkeep
  settled g hg := by
    rw [hbackend, hevents]
    exact h.settled g (by rwa [hevents] at hg)
  spawned g := by rw [hevents, hlen, h.spawned g]
  ordered := hevents ▸ h.ordered
  dropped hd := by
    rw [hbackend]
    exact h.dropped (by rwa [hdropped] at hd)

theorem Owned.withFiles {s : Sys} (h : Owned s) (files : Files) : Owned (s.withFiles files) :=
  h.congr rfl rfl rfl rfl fun _ e' he' => ⟨e', he', id⟩

/-- A step of the engines alone, one of which changes. -/
theorem Owned.modify {s : Sys} (h : Owned s) (g : Nat) (f : Engine → Engine)
    (hf : ∀ e, s.engines[g]? = some e → e.proc = .reaped → (f e).proc = .reaped) :
    Owned (s.modifyEngine g f) := by
  refine h.congr rfl rfl rfl (List.length_modify _ _ _) fun g' e' he' => ?_
  obtain ⟨e, he, ⟨rfl, rfl⟩ | ⟨_, rfl⟩⟩ := modifyEngine_eq_some he'
  · exact ⟨e, he, hf e he⟩
  · exact ⟨_, he, id⟩

theorem Owned.stopped {s : Sys} (h : Owned s) : Owned s.stopped := by
  rw [Sys.stopped]
  cases hc : s.backend.child with
  | none => exact h
  | some g =>
    have hevents : ∀ g', .spawned g' ∈ s.events ++ [.killed g, .waited g] ↔
        .spawned g' ∈ s.events := by simp
    have hsettled : Settled g (s.events ++ [.killed g, .waited g]) := by
      have hmem : ProcEvent.spawned g ∈ s.events :=
        (h.spawned g).mpr (by have := h.last g hc; omega)
      exact (List.singleton_sublist.mpr hmem).append (List.Sublist.refl _)
    refine ⟨rfl, fun g' hg' => absurd hg' (by simp), fun g' e' he' => .inr ?_,
      fun g' hg' => .inr ?_,
      fun g' => ?_, ?_, fun _ => rfl⟩
    · obtain ⟨e, he, ⟨rfl, rfl⟩ | ⟨hg, rfl⟩⟩ := modifyEngine_eq_some he'
      · rfl
      · exact (h.reaped g' _ he).resolve_left (by rw [hc]; simpa using hg)
    · rcases h.settled g' ((hevents g').mp hg') with hchild | hold
      · rw [hc] at hchild
        cases hchild
        exact hsettled
      · exact hold.append _
    · exact (hevents g').trans ((h.spawned g').trans (by simp [Sys.modifyEngine]))
    · show Ordered (s.events ++ [.killed g, .waited g])
      rw [List.append_cons]
      have hkilled : Ordered (s.events ++ [.killed g]) :=
        h.ordered.concat fun _ heq => absurd heq (by simp)
      exact hkilled.concat fun _ heq => absurd heq (by simp)

theorem Owned.launched {s : Sys} (h : Owned s) (hchild : s.backend.child = none)
    (hdropped : s.dropped = false) (program : String) (args : List String) :
    Owned (s.launched program args) where
  sync := rfl
  last g hg := by
    cases hg
    simp [Sys.launched]
  reaped g e he := by
    rcases getElem?_concat_cases he with ⟨_, hold⟩ | ⟨rfl, _⟩
    · exact .inr ((h.reaped g e hold).resolve_left (by simp [hchild]))
    · exact .inl rfl
  settled g hg := by
    rcases List.mem_append.mp hg with hold | hnew
    · exact .inr (((h.settled g hold).resolve_left (by simp [hchild])).append _)
    · left
      cases List.mem_singleton.mp hnew
      rfl
  spawned g := by
    show .spawned g ∈ s.events ++ [.spawned s.engines.length] ↔
      g < (s.engines ++ [Engine.fresh program args]).length
    simp only [List.mem_append, h.spawned g, List.mem_singleton, ProcEvent.spawned.injEq,
      List.length_append, List.length_singleton]
    omega
  ordered := h.ordered.concat fun _ _ g' hg' => (h.settled g' hg').resolve_left (by simp [hchild])
  dropped hd := absurd (show s.dropped = true from hd) (by simp [hdropped])

/-! ## Steps -/

/-- A `start` whose child, if there is one, has the handles it was spawned to
have. -/
def Label.piped : Label → Prop
  | .start _ _ _ _ w => ∀ st, w.piped st = true
  | _ => True

theorem Owned.notStarted {s t : Sys} (h : Owned s) (ht : NotStarted s t) :
    Owned t ∧ t.backend.child = none := by
  obtain ⟨files, rfl⟩ := ht
  exact ⟨h.stopped.withFiles files, s.stopped_child⟩

theorem Owned.started {s t : Sys} (h : Owned s) (hdropped : s.dropped = false)
    (ht : Started s t) : Owned t := by
  obtain ⟨files, program, args, rfl⟩ := ht
  exact (h.stopped.withFiles files).launched s.stopped_child (s.stopped_dropped.trans hdropped) _ _

/-- An engine that moves by itself stays reaped. -/
theorem Engine.Moves.reaped {g : Nat} {e e' : Engine} (h : e.Moves g e')
    (hr : e.proc = .reaped) : e'.proc = .reaped := by
  cases h with
  | exit hrunning =>
    rw [hr] at hrunning
    cases hrunning
  | read | send | readerEnd => exact hr

theorem Owned.received {s : Sys} (h : Owned s) (d : Drain) (c : Chunk) :
    Owned (s.received d c) := by
  rw [Sys.received]
  cases hrx : s.backend.rx with
  | none => exact h.congr rfl rfl rfl rfl fun _ e' he' => ⟨e', he', id⟩
  | some g =>
    have hm := h.modify g (fun e => { e with queue := e.queue.tail }) fun _ _ hr => hr
    exact hm.congr rfl rfl rfl rfl fun _ e' he' => ⟨e', he', id⟩

/-- **Every step keeps the ownership.** -/
theorem Owned.step {hst : Host} {s t : Sys} {l : Label} (h : Owned s) (hl : l.piped)
    (hstep : step hst s l = some t) : Owned t := by
  cases Sys.moves_of_step h.sync hstep with
  | notStarted _ ht => exact (h.notStarted ht).1
  | orphaned _ ht => exact absurd hl ht.1
  | started hcall ht => exact h.started (callable_not_dropped hcall) ht
  | stop => exact h.stopped
  | notRunning => exact h
  | reaped g => exact h.modify g Engine.reaped fun _ _ _ => rfl
  | drop =>
    have hs := h.stopped
    exact ⟨hs.sync, hs.last, hs.reaped, hs.settled, hs.spawned, hs.ordered,
      fun _ => s.stopped_child⟩
  | drainBegin => exact h.congr rfl rfl rfl rfl fun _ e' he' => ⟨e', he', id⟩
  | drainRecv d c => exact h.received d c
  | drainEnd => exact h.congr rfl rfl rfl rfl fun _ e' he' => ⟨e', he', id⟩
  | engine g e e' l he he' =>
    refine h.modify g _ fun e₀ he₀ hr => ?_
    rw [he] at he₀
    cases he₀
    exact (Engine.moves_of_step he').reaped hr

/-! ## Whole runs -/

/-- Process `g`, spawned by this backend, has not been reaped. -/
def Unreaped (s : Sys) (g : Nat) : Prop := ∃ e, s.engines[g]? = some e ∧ e.proc ≠ .reaped

theorem Owned.unreaped_child {s : Sys} (h : Owned s) {g : Nat} (hg : Unreaped s g) :
    s.backend.child = some g := by
  obtain ⟨e, he, hproc⟩ := hg
  exact (h.reaped g e he).resolve_right hproc

theorem Owned.not_unreaped {s : Sys} (h : Owned s) (hchild : s.backend.child = none) (g : Nat) :
    ¬ Unreaped s g := by
  intro hg
  have := h.unreaped_child hg
  rw [hchild] at this
  cases this

end MochiVM.Vm
