import MochiVM.Manager.VmMethods
import MochiVM.Lib.Pipeline

/-!
# Delivery of the serial log

An engine's two readers, its channel and the drains that take from it are a
`Fifo.Pipeline`: the readers are the sources, `drain_log` is the consumer. While
the engine is the backend's child its pipeline is `Conserved`; later nothing
more comes out of it, so what did come out stays a prefix of what was read. The
main result is `logDelivery_run`.
-/

namespace MochiVM.Vm

open MochiVM.Fat MochiVM.Runs MochiVM.Panic MochiVM.Fifo

/-! ## An engine as a pipeline -/

/-- A chunk without its ghost engine. -/
def Chunk.item (c : Chunk) : Stream × String := (c.stream, c.text)

/-- The string `drain_log` makes of these chunks. -/
def joined (l : List Chunk) : String := l.foldl (fun out c => out ++ c.text) ""

theorem joined_concat (l : List Chunk) (c : Chunk) : joined (l ++ [c]) = joined l ++ c.text := by
  rw [joined, List.foldl_append]
  rfl

/-- What calls of `drain_log` got while engine `g` was the child. -/
def drainedOf (returned : List Drained) (g : Nat) : List Chunk :=
  (returned.filter fun r => decide (r.engine = some g)).flatMap fun r => r.drain.got

/-- What the call in progress got, while engine `g` is the child. -/
def Sys.gettingOf (s : Sys) (g : Nat) : List Chunk :=
  match s.draining with
  | some d => if s.backend.child = some g then d.got else []
  | none => []

/-- Engine `g`'s chunks that `drain_log` has taken off the channel. -/
def Sys.gotOf (s : Sys) (g : Nat) : List Chunk := drainedOf s.returned g ++ s.gettingOf g

/-- A chunk a reader has read and not sent. -/
def ReaderState.held : ReaderState → Option String
  | .sending text => some text
  | .reading | .ended => none

/-- Engine `g`, with what has come out of it. -/
def Engine.pipeline (e : Engine) (out : List Chunk) : Pipeline Stream String where
  taken st := (e.reader st).reads
  held st := (e.reader st).state.held
  queue := e.queue.map Chunk.item
  out := out.map Chunk.item

theorem drainedOf_append (l l' : List Drained) (g : Nat) :
    drainedOf (l ++ l') g = drainedOf l g ++ drainedOf l' g := by
  rw [drainedOf, List.filter_append, List.flatMap_append]
  rfl

/-! ## A step of an engine -/

theorem Engine.setReader_pipeline (e : Engine) (st : Stream) (r : Reader) (out : List Chunk) :
    (e.setReader st r).pipeline out = { e.pipeline out with
      taken := Function.update (e.pipeline out).taken st r.reads
      held := Function.update (e.pipeline out).held st r.state.held } := by
  simp only [Engine.pipeline, Pipeline.mk.injEq]
  refine ⟨?_, ?_, rfl, trivial⟩
  all_goals
    funext st'
    by_cases h : st' = st
    · subst h
      simp [Engine.setReader]
    · simp [Engine.setReader, h]

/-- While somebody receives, a step of the engine is a step of its pipeline. -/
theorem Engine.Moves.pipeline {g : Nat} {e e' : Engine} (h : e.Moves g e')
    (hrecv : e.receiver = true) (out : List Chunk) :
    Fifo.Step (e.pipeline out) (e'.pipeline out) := by
  -- a reader that changes its state and reads nothing
  have hkeep : ∀ st (r : Reader), r.reads = (e.reader st).reads →
      Function.update (e.pipeline out).taken st r.reads = (e.pipeline out).taken := by
    intro st r hr
    rw [hr]
    exact Function.update_eq_self st _
  cases h with
  | exit => exact .stutter _
  | read st text hread =>
    have hheld : (e.pipeline out).held st = none := by
      simp [Engine.pipeline, hread, ReaderState.held]
    rw [Engine.setReader_pipeline]
    exact .take (e.pipeline out) st text hheld
  | send st text hsending =>
    have hheld : (e.pipeline out).held st = some text := by
      simp [Engine.pipeline, hsending, ReaderState.held]
    have hqueue : (e.queue ++ [(⟨g, st, text⟩ : Chunk)]).map Chunk.item =
        e.queue.map Chunk.item ++ [(st, text)] := List.map_append
    show Fifo.Step _ { (e.setReader st { e.reader st with state := .reading }).pipeline out with
      queue := (e.queue ++ [(⟨g, st, text⟩ : Chunk)]).map Chunk.item }
    rw [Engine.setReader_pipeline, hkeep st _ rfl, hqueue]
    exact .push (e.pipeline out) st text hheld
  | readerEnd st hor =>
    have hread : (e.reader st).state = .reading := hor.resolve_right (by simp [hrecv])
    have hheld : (e.pipeline out).held st = none := by
      simp [Engine.pipeline, hread, ReaderState.held]
    have hsame : Function.update (e.pipeline out).held st none = (e.pipeline out).held := by
      rw [← hheld]
      exact Function.update_eq_self st _
    rw [Engine.setReader_pipeline, hkeep st _ rfl]
    show Fifo.Step _ { e.pipeline out with held := Function.update (e.pipeline out).held st none }
    rw [hsame]
    exact .stutter _

/-- How an engine may change while the backend does nothing. -/
structure Engine.Grows (g : Nat) (e e' : Engine) : Prop where
  receiver : e'.receiver = e.receiver
  flow : e.receiver = true → ∀ out, Fifo.Step (e.pipeline out) (e'.pipeline out)
  reads : ∀ st, (e.reader st).reads <+: (e'.reader st).reads
  queued : ∀ c ∈ e'.queue, c ∈ e.queue ∨ c.engine = g

theorem Engine.setReader_reads {e : Engine} {st : Stream} {r : Reader}
    (h : (e.reader st).reads <+: r.reads) (st' : Stream) :
    (e.reader st').reads <+: ((e.setReader st r).reader st').reads := by
  by_cases hst : st' = st
  · subst hst
    simpa [Engine.setReader] using h
  · simp [Engine.setReader, hst]

theorem Engine.Moves.grows {g : Nat} {e e' : Engine} (h : e.Moves g e') : e.Grows g e' where
  receiver := by cases h <;> rfl
  flow := h.pipeline
  reads := by
    cases h with
    | exit => exact fun _ => List.prefix_rfl
    | read st text => exact Engine.setReader_reads (List.prefix_append _ _)
    | send st text => exact Engine.setReader_reads List.prefix_rfl
    | readerEnd st => exact Engine.setReader_reads List.prefix_rfl
  queued := by
    cases h with
    | exit | read | readerEnd => exact fun _ hc => .inl hc
    | send st text =>
      intro c hc
      rcases List.mem_append.mp hc with hold | hnew
      · exact .inl hold
      · cases List.mem_singleton.mp hnew
        exact .inr rfl

/-! ## The invariant -/

/-- Where the chunks of every engine are. -/
structure Logged (s : Sys) : Prop where
  sync : s.backend.rx = s.backend.child
  last : ∀ g, s.backend.child = some g → g + 1 = s.engines.length
  receiver : ∀ (g : Nat) e, s.backend.child = some g → s.engines[g]? = some e → e.receiver = true
  /-- The child's chunks are all somewhere, in order. -/
  flow : ∀ (g : Nat) e, s.backend.child = some g → s.engines[g]? = some e →
    Conserved (e.pipeline (s.gotOf g))
  /-- What came out of an earlier engine is a prefix of what it wrote. -/
  past : ∀ (g : Nat) e st, s.backend.child ≠ some g → s.engines[g]? = some e →
    ofSource st ((s.gotOf g).map Chunk.item) <+: (e.reader st).reads
  queued : ∀ (g : Nat) e c, s.engines[g]? = some e → c ∈ e.queue → c.engine = g
  returned : ∀ r ∈ s.returned, r.drain.out = joined r.drain.got ∧
    (∀ c ∈ r.drain.got, r.engine = some c.engine) ∧ ∀ g, r.engine = some g → g < s.engines.length
  draining : ∀ d, s.draining = some d → d.out = joined d.got ∧
    ∀ c ∈ d.got, s.backend.child = some c.engine

theorem Logged.new (runDir : String) (files : Files) : Logged (Sys.new runDir files) where
  sync := rfl
  last _ h := absurd h (by simp [Sys.new, Backend.new])
  receiver _ _ h := absurd h (by simp [Sys.new, Backend.new])
  flow _ _ h := absurd h (by simp [Sys.new, Backend.new])
  past _ _ _ _ h := absurd h (by simp [Sys.new])
  queued _ _ _ h := absurd h (by simp [Sys.new])
  returned _ h := absurd h (by simp [Sys.new])
  draining _ h := absurd h (by simp [Sys.new])

theorem Logged.withFiles {s : Sys} (h : Logged s) (files : Files) : Logged (s.withFiles files) :=
  ⟨h.sync, h.last, h.receiver, h.flow, h.past, h.queued, h.returned, h.draining⟩

/-- A step of the engines alone, one of which grows. -/
theorem Logged.modify {s : Sys} (h : Logged s) (g : Nat) (f : Engine → Engine)
    (hf : ∀ e, s.engines[g]? = some e → e.Grows g (f e)) : Logged (s.modifyEngine g f) := by
  have hlen : (s.engines.modify g f).length = s.engines.length := List.length_modify _ _ _
  -- every engine of the new state has grown out of one of the old
  have hgrown : ∀ (g' : Nat) e', (s.modifyEngine g f).engines[g']? = some e' →
      ∃ e, s.engines[g']? = some e ∧ (e' = e ∨ e.Grows g' e') := by
    intro g' e' he'
    obtain ⟨e, he, ⟨rfl, rfl⟩ | ⟨_, rfl⟩⟩ := modifyEngine_eq_some he'
    · exact ⟨e, he, .inr (hf e he)⟩
    · exact ⟨_, he, .inl rfl⟩
  refine ⟨h.sync, fun g' hg' => (h.last g' hg').trans hlen.symm, ?_, ?_, ?_, ?_, ?_, h.draining⟩
  · intro g' e' hg' he'
    obtain ⟨e, he, rfl | hgrows⟩ := hgrown g' e' he'
    · exact h.receiver g' e' hg' he
    · exact hgrows.receiver.trans (h.receiver g' e hg' he)
  · intro g' e' hg' he'
    obtain ⟨e, he, rfl | hgrows⟩ := hgrown g' e' he'
    · exact h.flow g' e' hg' he
    · exact (h.flow g' e hg' he).step (hgrows.flow (h.receiver g' e hg' he) _)
  · intro g' e' st hg' he'
    obtain ⟨e, he, rfl | hgrows⟩ := hgrown g' e' he'
    · exact h.past g' e' st hg' he
    · exact (h.past g' e st hg' he).trans (hgrows.reads st)
  · intro g' e' c he' hc
    obtain ⟨e, he, rfl | hgrows⟩ := hgrown g' e' he'
    · exact h.queued g' e' c he hc
    · exact (hgrows.queued c hc).elim (h.queued g' e c he) id
  · intro r hr
    obtain ⟨hout, htag, hlt⟩ := h.returned r hr
    exact ⟨hout, htag, fun g' hg' => lt_of_lt_of_eq (hlt g' hg') hlen.symm⟩

theorem Sys.gotOf_idle {s : Sys} (h : s.draining = none) (g : Nat) :
    s.gotOf g = drainedOf s.returned g := by
  rw [gotOf, gettingOf, h]
  exact List.append_nil _

theorem Logged.isPrefix {s : Sys} (h : Logged s) {g : Nat} {e : Engine} (st : Stream)
    (he : s.engines[g]? = some e) :
    ofSource st ((s.gotOf g).map Chunk.item) <+: (e.reader st).reads := by
  by_cases hchild : s.backend.child = some g
  · exact (h.flow g e hchild he).isPrefix st
  · exact h.past g e st hchild he

theorem Sys.stopped_draining (s : Sys) : s.stopped.draining = s.draining := by
  rw [Sys.stopped]
  cases s.backend.child <;> rfl

/-- `stop` closes the child's channel; what came out of it so far is a prefix. -/
theorem Logged.stopped {s : Sys} (h : Logged s) (hidle : s.draining = none) :
    Logged s.stopped := by
  rw [Sys.stopped]
  cases hc : s.backend.child with
  | none => exact h
  | some g =>
    have hlen : (s.engines.modify g Engine.settled).length = s.engines.length :=
      List.length_modify _ _ _
    refine ⟨rfl, fun g' hg' => absurd hg' (by simp), fun g' _ hg' => absurd hg' (by simp),
      fun g' _ hg' => absurd hg' (by simp), ?_, ?_, ?_, ?_⟩
    · intro g' e' st _ he'
      rw [Sys.gotOf_idle (by exact hidle)]
      show ofSource st ((drainedOf s.returned g').map Chunk.item) <+: _
      obtain ⟨e, he, hor⟩ := modifyEngine_eq_some he'
      have hprefix := h.isPrefix st he
      rw [Sys.gotOf_idle hidle] at hprefix
      -- settling it takes nothing from what its readers have read
      rcases hor with ⟨_, rfl⟩ | ⟨_, rfl⟩
      · exact hprefix
      · exact hprefix
    · intro g' e' c he' hmem
      obtain ⟨e, he, ⟨_, rfl⟩ | ⟨_, rfl⟩⟩ := modifyEngine_eq_some he'
      · cases hmem
      · exact h.queued g' _ c he hmem
    · intro r hr
      obtain ⟨hout, htag, hlt⟩ := h.returned r hr
      exact ⟨hout, htag, fun g' hg' => lt_of_lt_of_eq (hlt g' hg') hlen.symm⟩
    · intro d hd
      exact absurd (hidle.symm.trans hd) (by simp)

/-- Nothing has come out of an engine that was not spawned yet. -/
theorem Logged.drainedOf_new {s : Sys} (h : Logged s) {g : Nat} (hg : s.engines.length ≤ g) :
    drainedOf s.returned g = [] := by
  have hnone : (s.returned.filter fun r => decide (r.engine = some g)) = [] := by
    rw [List.filter_eq_nil_iff]
    intro r hr heq
    have := (h.returned r hr).2.2 g (of_decide_eq_true heq)
    omega
  rw [drainedOf, hnone]
  rfl

/-- A new engine, which the backend has kept or not. -/
theorem Logged.spawned {s t : Sys} (h : Logged s) (hidle : s.draining = none)
    (hchild : s.backend.child = none) {e : Engine} (hqueue : e.queue = [])
    (hreader : ∀ st, (e.reader st).reads = [] ∧ (e.reader st).state.held = none)
    (hbackend : t.backend.rx = t.backend.child)
    (hkept : ∀ g, t.backend.child = some g → g = s.engines.length ∧ e.receiver = true)
    (hengines : t.engines = s.engines ++ [e]) (hreturned : t.returned = s.returned)
    (hdraining : t.draining = none) : Logged t := by
  have hgot : ∀ g, t.gotOf g = s.gotOf g := by
    intro g
    rw [Sys.gotOf_idle hdraining, Sys.gotOf_idle hidle, hreturned]
  have hold : ∀ (g : Nat) e', t.engines[g]? = some e' →
      s.engines[g]? = some e' ∨ g = s.engines.length ∧ e' = e := by
    intro g e' he'
    rw [hengines] at he'
    exact (getElem?_concat_cases he').imp_left And.right
  have hlen : t.engines.length = s.engines.length + 1 := by simp [hengines]
  -- nothing has come out of it
  have hempty : t.gotOf s.engines.length = [] := by
    rw [hgot, Sys.gotOf_idle hidle, h.drainedOf_new (Nat.le_refl _)]
  refine ⟨hbackend, fun g hg => by rw [hlen, (hkept g hg).1], ?_, ?_, ?_, ?_, ?_, ?_⟩
  · intro g e' hg he'
    obtain ⟨rfl, hrecv⟩ := hkept g hg
    rcases hold _ e' he' with hin | ⟨_, rfl⟩
    · exact absurd hin (by simp)
    · exact hrecv
  · intro g e' hg he'
    obtain ⟨rfl, _⟩ := hkept g hg
    rcases hold _ e' he' with hin | ⟨_, rfl⟩
    · exact absurd hin (by simp)
    · have hnone : e'.pipeline [] = .empty := by
        simp [Engine.pipeline, Pipeline.empty, hqueue, hreader]
      rw [hempty, hnone]
      exact conserved_empty
  · intro g e' st hg he'
    rcases hold g e' he' with hin | ⟨rfl, rfl⟩
    · rw [hgot]
      exact h.past g e' st (by simp [hchild]) hin
    · rw [hempty]
      exact List.nil_prefix
  · intro g e' c he' hc
    rcases hold g e' he' with hin | ⟨rfl, rfl⟩
    · exact h.queued g e' c hin hc
    · simp [hqueue] at hc
  · intro r hr
    obtain ⟨hout, htag, hlt⟩ := h.returned r (hreturned ▸ hr)
    exact ⟨hout, htag, fun g hg => by have := hlt g hg; omega⟩
  · intro d hd
    exact absurd (hdraining.symm.trans hd) (by simp)

/-! ## Steps -/

theorem Logged.notStarted {s t : Sys} (h : Logged s) (hidle : s.draining = none)
    (ht : NotStarted s t) : Logged t := by
  obtain ⟨files, rfl⟩ := ht
  exact (h.stopped hidle).withFiles files

theorem Logged.orphaned {w : World} {s t : Sys} (h : Logged s) (hidle : s.draining = none)
    (ht : Orphaned w s t) : Logged t := by
  obtain ⟨_, files, program, args, rfl⟩ := ht
  have hstopped : s.stopped.draining = none := s.stopped_draining.trans hidle
  have hnone := s.stopped_child
  exact ((h.stopped hidle).withFiles files).spawned hstopped hnone rfl (fun _ => ⟨rfl, rfl⟩)
    (stopped_rx h.sync |>.trans hnone.symm) (fun g hg => absurd (hnone.symm.trans hg) (by simp))
    rfl rfl hstopped

theorem Logged.started {s t : Sys} (h : Logged s) (hidle : s.draining = none)
    (ht : Started s t) : Logged t := by
  obtain ⟨files, program, args, rfl⟩ := ht
  have hstopped : s.stopped.draining = none := s.stopped_draining.trans hidle
  refine ((h.stopped hidle).withFiles files).spawned hstopped s.stopped_child rfl
    (fun _ => ⟨rfl, rfl⟩) rfl (fun g hg => ?_) rfl rfl hstopped
  cases hg
  exact ⟨rfl, rfl⟩

theorem Sys.pending_cons {s : Sys} {c : Chunk} {rest : List Chunk} (h : s.pending = c :: rest) :
    ∃ g e, s.backend.rx = some g ∧ s.engines[g]? = some e ∧ e.queue = c :: rest := by
  rw [pending] at h
  cases hrx : s.backend.rx with
  | none =>
    rw [hrx] at h
    cases h
  | some g =>
    rw [hrx] at h
    cases he : s.engines[g]? with
    | none => simp [he] at h
    | some e => exact ⟨g, e, rfl, he, by simpa [he] using h⟩

theorem Sys.gotOf_draining {s : Sys} {d : Drain} (h : s.draining = some d) (g : Nat) :
    s.gotOf g = drainedOf s.returned g ++ if s.backend.child = some g then d.got else [] := by
  rw [gotOf, gettingOf, h]

/-- A chunk goes from the channel to the drain in progress. -/
theorem Logged.received {s : Sys} (h : Logged s) {d : Drain} {c : Chunk} {rest : List Chunk}
    (hd : s.draining = some d) (hc : s.pending = c :: rest) : Logged (s.received d c) := by
  obtain ⟨g, e, hrx, he, hqueue⟩ := Sys.pending_cons hc
  have hchild : s.backend.child = some g := h.sync.symm.trans hrx
  have hreceived : s.received d c =
      { s.modifyEngine g (fun e => { e with queue := e.queue.tail }) with
        draining := some ⟨d.out ++ c.text, d.got ++ [c]⟩ } := by
    rw [Sys.received, hrx]
    rfl
  have hgot : (s.received d c).gotOf g = s.gotOf g ++ [c] := by
    rw [Sys.gotOf_draining hd, if_pos hchild, hreceived, Sys.gotOf_draining rfl]
    show drainedOf s.returned g ++ (if s.backend.child = some g then d.got ++ [c] else []) = _
    rw [if_pos hchild, List.append_assoc]
  have hother : ∀ g', s.backend.child ≠ some g' → (s.received d c).gotOf g' = s.gotOf g' := by
    intro g' hg'
    rw [Sys.gotOf_draining hd, if_neg hg', hreceived, Sys.gotOf_draining rfl]
    show drainedOf s.returned g' ++ (if s.backend.child = some g' then d.got ++ [c] else []) = _
    rw [if_neg hg']
  have hengines : ∀ (g' : Nat) e', (s.received d c).engines[g']? = some e' →
      ∃ e₀, s.engines[g']? = some e₀ ∧
        e' = if g = g' then { e₀ with queue := e₀.queue.tail } else e₀ := by
    intro g' e' he'
    rw [hreceived] at he'
    obtain ⟨e₀, he₀, ⟨rfl, rfl⟩ | ⟨hg, rfl⟩⟩ := modifyEngine_eq_some he'
    · exact ⟨e₀, he₀, (if_pos rfl).symm⟩
    · exact ⟨_, he₀, (if_neg hg).symm⟩
  have hlen : (s.received d c).engines.length = s.engines.length := by
    rw [hreceived]
    exact List.length_modify _ _ _
  have hbackend : (s.received d c).backend = s.backend := by rw [hreceived]; rfl
  refine ⟨by rw [hbackend, h.sync], fun g' hg' => ?_, ?_, ?_, ?_, ?_, ?_, ?_⟩
  · rw [hlen, h.last g' (by rwa [hbackend] at hg')]
  · intro g' e' hg' he'
    obtain ⟨e₀, he₀, rfl⟩ := hengines g' e' he'
    have := h.receiver g' e₀ (by rwa [hbackend] at hg') he₀
    by_cases hg : g = g' <;> simpa [hg] using this
  · -- of the child, the pipeline pops its head
    intro g' e' hg' he'
    obtain ⟨e₀, he₀, rfl⟩ := hengines g' e' he'
    rw [hbackend, hchild] at hg'
    cases hg'
    rw [he] at he₀
    cases he₀
    rw [if_pos rfl, hgot]
    have hitems : (e.pipeline (s.gotOf g)).queue = c.item :: rest.map Chunk.item := by
      simp [Engine.pipeline, hqueue]
    have hstep := (h.flow g e hchild he).step (.pop _ _ _ hitems)
    convert hstep using 1
    simp [Engine.pipeline, hqueue]
  · -- nothing else comes out of an earlier engine
    intro g' e' st hg' he'
    obtain ⟨e₀, he₀, rfl⟩ := hengines g' e' he'
    rw [hbackend] at hg'
    have hne : g ≠ g' := fun heq => hg' (heq ▸ hchild)
    rw [if_neg hne, hother g' hg']
    exact h.past g' e₀ st hg' he₀
  · intro g' e' c' he' hmem
    obtain ⟨e₀, he₀, rfl⟩ := hengines g' e' he'
    by_cases hg : g = g'
    · rw [if_pos hg] at hmem
      exact h.queued g' e₀ c' he₀ (List.mem_of_mem_tail hmem)
    · rw [if_neg hg] at hmem
      exact h.queued g' e₀ c' he₀ hmem
  · intro r hr
    obtain ⟨hout, htag, hlt⟩ := h.returned r (by rwa [hreceived] at hr)
    exact ⟨hout, htag, fun g' hg' => by rw [hlen]; exact hlt g' hg'⟩
  · -- what was got so far, and this chunk, is the child's
    intro d' hd'
    rw [hreceived] at hd'
    cases hd'
    obtain ⟨hout, htag⟩ := h.draining d hd
    refine ⟨by rw [joined_concat, ← hout], fun c' hc' => ?_⟩
    rw [hbackend]
    rcases List.mem_append.mp hc' with hold | hnew
    · exact htag c' hold
    · cases List.mem_singleton.mp hnew
      rw [hchild, h.queued g e c he (by rw [hqueue]; exact List.mem_cons_self)]

theorem Sys.gotOf_drainedBy {s : Sys} {d : Drain} (hd : s.draining = some d) (g : Nat) :
    (s.drainedBy d).gotOf g = s.gotOf g := by
  rw [Sys.gotOf_idle rfl, Sys.gotOf_draining hd, drainedBy, drainedOf_append]
  congr 1
  by_cases hg : s.backend.child = some g
  · simp [drainedOf, hg]
  · simp [drainedOf, hg]

theorem Logged.drainedBy {s : Sys} (h : Logged s) {d : Drain} (hd : s.draining = some d) :
    Logged (s.drainedBy d) := by
  refine ⟨h.sync, h.last, h.receiver, fun g e hg he => ?_, fun g e st hg he => ?_, h.queued, ?_,
    fun _ hd' => absurd hd' (by simp [Sys.drainedBy])⟩
  · rw [Sys.gotOf_drainedBy hd]
    exact h.flow g e hg he
  · rw [Sys.gotOf_drainedBy hd]
    exact h.past g e st hg he
  · intro r hr
    rcases List.mem_append.mp hr with hold | hnew
    · exact h.returned r hold
    · cases List.mem_singleton.mp hnew
      obtain ⟨hout, htag⟩ := h.draining d hd
      exact ⟨hout, htag, fun g hg => by have := h.last g hg; show g < s.engines.length; omega⟩

/-- **Every step keeps the log in order.** -/
theorem Logged.step {hst : Host} {s t : Sys} {l : Label} (h : Logged s)
    (hstep : step hst s l = some t) : Logged t := by
  cases Sys.moves_of_step h.sync hstep with
  | notStarted hcall ht => exact h.notStarted (callable_idle hcall) ht
  | orphaned hcall ht => exact h.orphaned (callable_idle hcall) ht
  | started hcall ht => exact h.started (callable_idle hcall) ht
  | stop hcall => exact h.stopped (callable_idle hcall)
  | notRunning => exact h
  | reaped g =>
    exact h.modify g Engine.reaped fun e _ =>
      ⟨rfl, fun _ _ => .stutter _, fun _ => List.prefix_rfl, fun _ hc => .inl hc⟩
  | drop hcall =>
    have hs := h.stopped (callable_idle hcall)
    exact ⟨hs.sync, hs.last, hs.receiver, hs.flow, hs.past, hs.queued, hs.returned, hs.draining⟩
  | drainBegin hcall =>
    have hgot : ∀ g, Sys.gotOf { s with draining := some ⟨"", []⟩ } g = s.gotOf g := by
      intro g
      rw [Sys.gotOf_draining rfl, Sys.gotOf_idle (callable_idle hcall)]
      simp
    refine ⟨h.sync, h.last, h.receiver, fun g e hg he => ?_, fun g e st hg he => ?_, h.queued,
      h.returned, fun d hd => ?_⟩
    · rw [hgot]
      exact h.flow g e hg he
    · rw [hgot]
      exact h.past g e st hg he
    · cases hd
      exact ⟨rfl, fun c hc => absurd hc (by simp)⟩
  | drainRecv d c rest hd hc => exact h.received hd hc
  | drainEnd d hd => exact h.drainedBy hd
  | engine g e e' l he he' =>
    refine h.modify g _ fun e₀ he₀ => ?_
    rw [he] at he₀
    cases he₀
    exact (Engine.moves_of_step he').grows

/-! ## Delivery -/

/-- The chunks of one stream in what `drain_log` returned while engine `g` was
the child. -/
def Sys.delivered (s : Sys) (g : Nat) (st : Stream) : List String :=
  ((drainedOf s.returned g).filter fun c => decide (c.stream = st)).map Chunk.text

theorem ofSource_items (l : List Chunk) (st : Stream) :
    ofSource st (l.map Chunk.item) = (l.filter fun c => decide (c.stream = st)).map Chunk.text := by
  rw [ofSource, List.filter_map, List.map_map]
  rfl

theorem Logged.delivered_isPrefix {s : Sys} (h : Logged s) {g : Nat} {e : Engine} (st : Stream)
    (he : s.engines[g]? = some e) : s.delivered g st <+: (e.reader st).reads := by
  have hprefix := h.isPrefix st he
  rw [Sys.gotOf, List.map_append, ofSource_append, ofSource_items] at hprefix
  exact (List.prefix_append _ _).trans hprefix

/-- A drain that ends after both readers have has got everything. -/
theorem Logged.delivered_all {hst : Host} {s t : Sys} (h : Logged s) {g : Nat} {e : Engine}
    (hchild : s.backend.child = some g) (he : s.engines[g]? = some e)
    (hended : ∀ st, (e.reader st).state = .ended) (hstep : Vm.step hst s .drainEnd = some t)
    (st : Stream) : t.delivered g st = (e.reader st).reads := by
  obtain ⟨d, hd, hpending, rfl⟩ := drainEnd_eq_some hstep
  have hqueue : e.queue = [] := by
    rw [Sys.pending, h.sync, hchild] at hpending
    simpa [he] using hpending
  have hall := (h.flow g e hchild he).complete (k := st)
    (by simp [Engine.pipeline, hended st, ReaderState.held]) (by simp [Engine.pipeline, hqueue])
  have hgot : (s.drainedBy d).gotOf g = s.gotOf g := Sys.gotOf_drainedBy hd g
  rw [Sys.gotOf_idle rfl] at hgot
  rw [Sys.delivered, hgot, ← ofSource_items]
  exact hall

/-- What a `try_recv` leaves alone. -/
theorem received_readers {s : Sys} {d : Drain} {c : Chunk} {g : Nat} {e : Engine}
    (he : s.engines[g]? = some e) : ∃ e', (s.received d c).engines[g]? = some e' ∧
      e'.reader = e.reader := by
  rw [Sys.received]
  cases s.backend.rx with
  | none => exact ⟨e, he, rfl⟩
  | some g' =>
    show ∃ e', (s.engines.modify g' fun e => { e with queue := e.queue.tail })[g]? = some e' ∧ _
    rw [List.getElem?_modify, he]
    refine ⟨_, rfl, ?_⟩
    by_cases hg : g' = g <;> simp [hg]

theorem received_pending {s : Sys} {d : Drain} {c : Chunk} {rest : List Chunk}
    (hc : s.pending = c :: rest) : (s.received d c).pending = rest := by
  obtain ⟨g, e, hrx, he, hqueue⟩ := Sys.pending_cons hc
  simp [Sys.pending, Sys.received, hrx, he, hqueue]

/-- A drain gets what is pending, chunk by chunk, and can then return. -/
theorem drain_run (hst : Host) {g : Nat} {e : Engine} : ∀ (n : Nat) {s : Sys} {d : Drain},
    s.draining = some d → s.pending.length = n → s.backend.child = some g →
    s.engines[g]? = some e → ∃ t d' e', run (step hst) s (List.replicate n .drainRecv) = some t ∧
      t.draining = some d' ∧ t.pending = [] ∧ t.backend.child = some g ∧
      t.engines[g]? = some e' ∧ e'.reader = e.reader
  | 0, s, d, hd, hn, hchild, he =>
    ⟨s, d, e, rfl, hd, List.length_eq_zero_iff.mp hn, hchild, he, rfl⟩
  | n + 1, s, d, hd, hn, hchild, he => by
    obtain ⟨c, rest, hc⟩ := List.exists_cons_of_length_eq_add_one hn
    obtain ⟨e₁, he₁, hreader₁⟩ := received_readers (d := d) (c := c) he
    have hstep : step hst s .drainRecv = some (s.received d c) := by rw [step, hd, hc]
    have hlen : (s.received d c).pending.length = n := by
      rw [received_pending hc]
      rw [hc, List.length_cons] at hn
      omega
    obtain ⟨t, d', e', hrun, hd', hpending, hchild', he', hreader⟩ :=
      drain_run hst n (s := s.received d c) rfl hlen hchild he₁
    refine ⟨t, d', e', ?_, hd', hpending, hchild', he', hreader.trans hreader₁⟩
    rw [List.replicate_succ, run, hstep]
    exact hrun

theorem Sys.stopped_returned (s : Sys) : s.stopped.returned = s.returned := by
  rw [Sys.stopped]
  cases s.backend.child <;> rfl

theorem Sys.stopped_length (s : Sys) : s.stopped.engines.length = s.engines.length := by
  rw [Sys.stopped]
  cases s.backend.child with
  | none => rfl
  | some g => exact List.length_modify _ _ _

/-- From `s` to `t` no engine disappears, and what is returned grows by what the
drain in progress got, if at all. -/
def Returned (s t : Sys) : Prop :=
  s.engines.length ≤ t.engines.length ∧
    (t.returned = s.returned ∨
      ∃ d, s.draining = some d ∧ t.returned = s.returned ++ [⟨s.backend.child, d⟩])

theorem Returned.same {s t : Sys} (hlen : s.engines.length ≤ t.engines.length)
    (h : t.returned = s.returned) : Returned s t := ⟨hlen, .inl h⟩

theorem Returned.of_stopped {s t : Sys} (hlen : s.engines.length ≤ t.engines.length)
    (h : t.returned = s.stopped.returned) : Returned s t :=
  .same hlen (h.trans s.stopped_returned)

theorem Logged.step_returned {hst : Host} {s t : Sys} {l : Label} (h : Logged s)
    (hstep : Vm.step hst s l = some t) : Returned s t := by
  have hlen := Nat.le_of_eq s.stopped_length.symm
  cases Sys.moves_of_step h.sync hstep with
  | notStarted _ ht =>
    obtain ⟨files, rfl⟩ := ht
    exact .of_stopped hlen rfl
  | orphaned _ ht =>
    obtain ⟨_, files, program, args, rfl⟩ := ht
    refine .of_stopped ?_ rfl
    simpa [Sys.orphaned, Sys.withFiles] using Nat.le_trans hlen (Nat.le_succ _)
  | started _ ht =>
    obtain ⟨files, program, args, rfl⟩ := ht
    refine .of_stopped ?_ rfl
    simpa [Sys.launched, Sys.withFiles] using Nat.le_trans hlen (Nat.le_succ _)
  | stop => exact .of_stopped hlen rfl
  | notRunning => exact .same (Nat.le_refl _) rfl
  | reaped => exact .same (Nat.le_of_eq (List.length_modify _ _ _).symm) rfl
  | drop => exact .of_stopped hlen rfl
  | drainBegin => exact .same (Nat.le_refl _) rfl
  | drainRecv d c rest hd hc =>
    refine .same ?_ rfl
    rw [Sys.received]
    cases s.backend.rx with
    | none => exact Nat.le_refl _
    | some g => exact Nat.le_of_eq (List.length_modify _ _ _).symm
  | drainEnd d hd => exact ⟨Nat.le_refl _, .inr ⟨d, hd, rfl⟩⟩
  | engine => exact .same (Nat.le_of_eq (List.length_modify _ _ _).symm) rfl

/-! ## What a step records -/

section

variable {h : Host} {s s' : Sys} {l : Label}

/-- `start` spawns one engine at most, and drains nothing. -/
theorem start_history {cfg : VmConfig} {efi code vars : String} {w : World}
    (hsync : s.backend.rx = s.backend.child) :
    Ends (start h cfg efi code vars w) s
      (fun _ u => u.engines.length ≤ s.engines.length + 1 ∧ u.returned = s.returned)
      fun _ u => u.engines.length ≤ s.engines.length + 1 ∧ u.returned = s.returned := by
  have hstopped : ∀ {u : Sys}, NotStarted s u →
      u.engines.length ≤ s.engines.length + 1 ∧ u.returned = s.returned := by
    rintro u ⟨files, rfl⟩
    exact ⟨Nat.le_succ_of_le (Nat.le_of_eq s.stopped_length), s.stopped_returned⟩
  have hone : ∀ e : Engine, (s.stopped.engines ++ [e]).length = s.engines.length + 1 := fun e => by
    rw [List.length_append, s.stopped_length]
    rfl
  refine (start_launches hsync).mono (fun r u hu => ?_) fun _ u hu => hstopped hu
  rcases hu with ⟨-, hu⟩ | ⟨files, ⟨-, -, rfl⟩ | ⟨-, rfl⟩⟩
  · exact hstopped hu
  · exact ⟨Nat.le_of_eq (hone _), s.stopped_returned⟩
  · exact ⟨Nat.le_of_eq (hone _), s.stopped_returned⟩

/-- Only `start` spawns engines, and only a drain that returns is recorded. -/
theorem step_history (hsync : s.backend.rx = s.backend.child) (hstep : step h s l = some s')
    (hstart : ∀ cfg efi code vars w, l ≠ .start cfg efi code vars w) :
    s'.engines.length = s.engines.length ∧ (l ≠ .drainEnd → s'.returned = s.returned) := by
  cases Sys.moves_of_step hsync hstep with
  | notStarted | orphaned | started => exact absurd rfl (hstart _ _ _ _ _)
  | stop | drop => exact ⟨s.stopped_length, fun _ => s.stopped_returned⟩
  | notRunning | drainBegin => exact ⟨rfl, fun _ => rfl⟩
  | reaped | engine => exact ⟨List.length_modify _ _ _, fun _ => rfl⟩
  | drainRecv d c =>
    refine ⟨?_, fun _ => rfl⟩
    rw [Sys.received]
    cases s.backend.rx with
    | none => rfl
    | some g => exact List.length_modify _ _ _
  | drainEnd => exact ⟨rfl, fun hl => absurd rfl hl⟩

end

/-! ## Whole runs -/

/-- What `drain_log` returns on this host, from a state on. -/
structure LogDelivery (h : Host) (s : Sys) : Prop where
  /-- Each string returned is made of chunks, -/
  text : ∀ r ∈ s.returned, r.drain.out = joined r.drain.got
  /-- all of them sent by the readers of the engine that was the child. -/
  own : ∀ r ∈ s.returned, ∀ c ∈ r.drain.got, r.engine = some c.engine
  /-- Of each stream, no chunk is lost, repeated or reordered. -/
  isPrefix : ∀ (g : Nat) e st, s.engines[g]? = some e → s.delivered g st <+: (e.reader st).reads
  /-- A drain that returns once both readers have ended has completed both
  streams. -/
  complete : ∀ (g : Nat) e t, s.backend.child = some g → s.engines[g]? = some e →
    (∀ st, (e.reader st).state = .ended) → step h s .drainEnd = some t →
    ∀ st, t.delivered g st = (e.reader st).reads
  /-- There is such a drain. -/
  completes : ∀ (g : Nat) e, s.callable = true → s.backend.child = some g →
    s.engines[g]? = some e → (∀ st, (e.reader st).state = .ended) →
    ∃ n t, run (step h) s (.drainBegin :: List.replicate n .drainRecv ++ [.drainEnd]) = some t ∧
      ∀ st, t.delivered g st = (e.reader st).reads
  /-- Once engine `g` is the child, nothing more comes from an earlier one. -/
  isolated : ∀ g ls t, s.backend.child = some g → run (step h) s ls = some t →
    ∃ new, t.returned = s.returned ++ new ∧ ∀ r ∈ new, ∀ c ∈ r.drain.got, g ≤ c.engine

/-- What comes after `s`, in which engine `g` was the child. -/
structure After (s : Sys) (g : Nat) (t : Sys) : Prop where
  logged : Logged t
  engines : g < t.engines.length
  returned : ∃ new, t.returned = s.returned ++ new ∧ ∀ r ∈ new, ∀ c ∈ r.drain.got, g ≤ c.engine

theorem After.step {hst : Host} {s t u : Sys} {g : Nat} {l : Label} (h : After s g t)
    (hstep : Vm.step hst t l = some u) : After s g u := by
  obtain ⟨hlen, hreturned⟩ := h.logged.step_returned hstep
  refine ⟨h.logged.step hstep, Nat.lt_of_lt_of_le h.engines hlen, ?_⟩
  obtain ⟨new, hnew, htag⟩ := h.returned
  rcases hreturned with heq | ⟨d, hd, heq⟩
  · exact ⟨new, heq.trans hnew, htag⟩
  · refine ⟨new ++ [⟨t.backend.child, d⟩], by rw [heq, hnew, List.append_assoc],
      fun r hr c hc => ?_⟩
    rcases List.mem_append.mp hr with hold | hlast
    · exact htag r hold c hc
    · cases List.mem_singleton.mp hlast
      -- the child is the engine spawned last, so it is not older than `g`
      have hlast := h.logged.last c.engine ((h.logged.draining d hd).2 c hc)
      have := h.engines
      omega

theorem Logged.delivery {s : Sys} (h : Logged s) (hst : Host) : LogDelivery hst s where
  text r hr := (h.returned r hr).1
  own r hr := (h.returned r hr).2.1
  isPrefix _ _ st he := h.delivered_isPrefix st he
  complete _ _ _ hchild he hended hstep := h.delivered_all hchild he hended hstep
  completes g e hcall hchild he hended := by
    have hbegin : Vm.step hst s .drainBegin = some { s with draining := some ⟨"", []⟩ } := by
      rw [Vm.step, if_pos hcall]
    obtain ⟨t, d, e', hrun, hd, hpending, hchild', he', hreader⟩ :=
      drain_run hst s.pending.length (s := { s with draining := some ⟨"", []⟩ }) rfl rfl hchild he
    have hend : Vm.step hst t .drainEnd = some (t.drainedBy d) := by
      rw [Vm.step, hd, hpending]
      rfl
    have hlogged : Logged t := run_inv (fun _ _ _ h hstep => Logged.step h hstep)
      (h.step hbegin) hrun
    refine ⟨s.pending.length, t.drainedBy d, ?_, fun st => ?_⟩
    · rw [List.cons_append, run, hbegin, Option.bind_some, run_append, hrun, Option.bind_some, run,
        hend]
      rfl
    · rw [← hreader]
      exact hlogged.delivered_all hchild' he' (fun st => by rw [hreader]; exact hended st) hend st
  isolated g ls t hchild hrun := by
    have hafter : After s g s :=
      ⟨h, by have := h.last g hchild; omega, [], by simp, fun _ hr => absurd hr (by simp)⟩
    exact (run_inv (fun _ _ _ h hstep => After.step h hstep) hafter hrun).returned

/-- **The log**: in every state that any interleaving reaches, the serial output
reaches the log exactly once and in order. -/
theorem logDelivery_run (hst : Host) (runDir : String) (files : Files) {ls : List Label} {s : Sys}
    (hrun : run (step hst) (Sys.new runDir files) ls = some s) : LogDelivery hst s :=
  (run_inv (fun _ _ _ h hstep => Logged.step h hstep) (.new runDir files) hrun).delivery hst

/-- A chunk that is read, and sent after its engine has exited. -/
def oneChunk : List Label :=
  [.engine 0 (.read .stdout [0x68, 0x69]), .engine 0 .exit, .engine 0 (.send .stdout),
    .drainBegin, .drainRecv, .drainEnd]

theorem logDelivery_run_oneChunk : ∃ s, run (step bareHost) (Sys.new "runtime" fun _ => none)
    (.start smallConfig "mochivm.efi" "code.fd" "vars.fd" smoothWorld :: oneChunk) = some s ∧
    s.delivered 0 .stdout = ["hi"] ∧ LogDelivery bareHost s := by
  obtain ⟨u, hret, files, program, args, rfl⟩ := @start_started
    (Sys.new "runtime" fun _ => none) bareHost smallConfig "mochivm.efi" "code.fd" "vars.fd" _ rfl
    (smoothWorld_willing "mochivm.efi" "vars.fd")
  have htext : fromUtf8Lossy [0x68, 0x69] = "hi" := by decide
  obtain ⟨s, hlater, hdelivered⟩ : ∃ s, run (step bareHost)
      (((Sys.new "runtime" fun _ => none).stopped.withFiles files).launched program args)
      oneChunk = some s ∧ s.delivered 0 .stdout = ["hi"] :=
    ⟨_, rfl, congrArg (fun text => [text]) htext⟩
  have hrun : run (step bareHost) (Sys.new "runtime" fun _ => none)
      (.start smallConfig "mochivm.efi" "code.fd" "vars.fd" smoothWorld :: oneChunk) = some s := by
    rw [run, step, call_of_returns rfl hret]
    exact hlater
  exact ⟨s, hrun, hdelivered, logDelivery_run bareHost "runtime" (fun _ => none) hrun⟩

end MochiVM.Vm