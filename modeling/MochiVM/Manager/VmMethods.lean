import MochiVM.Manager.Vm
import MochiVM.Manager.FatReader

/-!
# What the methods of the backend do

One lemma for each method of `Backend` says which system it leaves behind;
nothing after this module looks into the methods again. `stop` and `start` are
the ones that touch a process. What `start` leaves depends on where it was cut
short, but in every case the old engine was stopped first (`start_spec`).
`Sys.Moves` collects what a step of the system can do; the invariants are
proved from it.
-/

namespace MochiVM.Vm

open MochiVM.Buffer MochiVM.Fat MochiVM.Runs MochiVM.Panic

/-- An engine after a change of engine `g`. -/
theorem modifyEngine_eq_some {s : Sys} {g i : Nat} {f : Engine → Engine} {e' : Engine}
    (h : (s.modifyEngine g f).engines[i]? = some e') :
    ∃ e, s.engines[i]? = some e ∧ (g = i ∧ e' = f e ∨ g ≠ i ∧ e' = e) := by
  have hget : (s.engines.modify g f)[i]? = some e' := h
  rw [List.getElem?_modify] at hget
  obtain ⟨e, he, rfl⟩ := Option.map_eq_some_iff.mp hget
  refine ⟨e, he, ?_⟩
  by_cases hg : g = i
  · exact .inl ⟨hg, by simp [hg]⟩
  · exact .inr ⟨hg, by simp [hg]⟩

/-! ## What `stop` does -/

/-- An engine that was killed and waited for, its channel closed. -/
def Engine.settled (e : Engine) : Engine :=
  { e with proc := .reaped, receiver := false, queue := [] }

/-- The system after `stop`. -/
def Sys.stopped (s : Sys) : Sys :=
  match s.backend.child with
  | none => s
  | some g =>
    { s.modifyEngine g Engine.settled with
      backend := { s.backend with child := none, rx := none }
      events := s.events ++ [.killed g, .waited g] }

theorem stop_run {s : Sys} (hsync : s.backend.rx = s.backend.child) :
    Returns stop s ⟨⟩ s.stopped := by
  obtain ⟨⟨child, rx, runDir⟩, engines, files, draining, dropped, events, returned⟩ := s
  obtain rfl : rx = child := hsync
  cases rx with
  | none => rfl
  | some g =>
    have hengines :
        ((engines.modify g Engine.killed).modify g Engine.reaped).modify g Engine.closed =
          engines.modify g Engine.settled := by
      rw [List.modify_modify_eq, List.modify_modify_eq]
      rfl
    have hevents : (events ++ [ProcEvent.killed g]) ++ [.waited g] =
        events ++ [.killed g, .waited g] := by rw [List.append_assoc]; rfl
    have hrun : Returns stop ⟨⟨some g, some g, runDir⟩, engines, files, draining, dropped, events,
        returned⟩ ⟨⟩ ⟨⟨none, none, runDir⟩,
          ((engines.modify g Engine.killed).modify g Engine.reaped).modify g Engine.closed, files,
          draining, dropped, (events ++ [ProcEvent.killed g]) ++ [.waited g], returned⟩ := rfl
    rw [hengines, hevents] at hrun
    exact hrun

/-- It never panics. -/
theorem stop_returns (s : Sys) : Returns stop s ⟨⟩ (finalState (stop s)) := by
  obtain ⟨⟨child, rx, runDir⟩, engines, files, draining, dropped, events, returned⟩ := s
  cases child with
  | none => rfl
  | some g => cases rx <;> rfl

/-! ## What `start` does -/

/-- An engine right after a successful `start`. -/
def Engine.fresh (program : String) (args : List String) : Engine :=
  ⟨program, args, .running, true, [], fun _ => ⟨.reading, []⟩⟩

/-- The system after the last part of `start`. -/
def Sys.launched (s : Sys) (program : String) (args : List String) : Sys :=
  { s with
    backend := { s.backend with child := some s.engines.length, rx := some s.engines.length }
    engines := s.engines ++ [.fresh program args]
    events := s.events ++ [.spawned s.engines.length] }

/-- An engine right after `cmd.spawn()`, its readers not yet spawned. -/
def Engine.unread (program : String) (args : List String) : Engine :=
  ⟨program, args, .running, true, [], fun _ => ⟨.ended, []⟩⟩

/-- The system after a `start` that found a handle missing: its engine is nobody's. -/
def Sys.orphaned (s : Sys) (program : String) (args : List String) : Sys :=
  { s with
    engines := s.engines ++ [(Engine.unread program args).closed]
    events := s.events ++ [.spawned s.engines.length] }

/-- The system with other files. -/
def Sys.withFiles (s : Sys) (files : Files) : Sys := { s with files := files }

theorem setReaders_unread (program : String) (args : List String) :
    ((Engine.unread program args).setReader .stdout ⟨.reading, []⟩).setReader .stderr
      ⟨.reading, []⟩ = .fresh program args := by
  simp only [Engine.setReader, Engine.unread, Engine.fresh]
  congr 1
  funext st
  cases st <;> rfl

theorem modify_concat_length {α : Type} (l : List α) (a : α) (f : α → α) :
    (l ++ [a]).modify l.length f = l ++ [f a] := by
  rw [List.modify_eq_set_getElem?]
  simp

theorem launch_started (program : String) (args : List String) {s : Sys} {w : World}
    (hrx : s.backend.rx = none) (hspawn : w.spawn = .ok ⟨⟩) (hpiped : ∀ st, w.piped st = true) :
    Returns (launch program args w) s (.ok ⟨⟩) (s.launched program args) := by
  obtain ⟨⟨child, rx, runDir⟩, engines, files, draining, dropped, events, returned⟩ := s
  obtain rfl : rx = none := hrx
  have hengines : ((engines ++ [Engine.unread program args]).modify engines.length
        (·.setReader .stdout ⟨.reading, []⟩)).modify engines.length
        (·.setReader .stderr ⟨.reading, []⟩) = engines ++ [.fresh program args] := by
    rw [List.modify_modify_eq, modify_concat_length]
    congr 2
    exact setReaders_unread program args
  rw [launch, hspawn]
  simp only [hpiped]
  rw [Sys.launched, ← hengines]
  rfl

theorem launch_orphaned (program : String) (args : List String) {s : Sys} {w : World}
    (hspawn : w.spawn = .ok ⟨⟩) (hpiped : ¬ ∀ st, w.piped st = true) :
    ∃ e, Returns (launch program args w) s (.error e) (s.orphaned program args) := by
  have hengines :
      (s.engines ++ [Engine.unread program args]).modify s.engines.length Engine.closed =
        s.engines ++ [(Engine.unread program args).closed] := modify_concat_length _ _ _
  cases hout : w.piped .stdout with
  | false =>
    refine ⟨"no stdout", ?_⟩
    rw [launch, hspawn, Sys.orphaned, ← hengines]
    simp only [hout]
    rfl
  | true =>
    have herr : w.piped .stderr = false := by
      by_contra h
      exact hpiped fun st => by
        cases st
        · exact hout
        · simpa using h
    refine ⟨"no stderr", ?_⟩
    rw [launch, hspawn, Sys.orphaned, ← hengines]
    simp only [hout, herr]
    rfl

theorem launch_spec (program : String) (args : List String) {s : Sys} {w : World}
    (hrx : s.backend.rx = none) :
    Ends (launch program args w) s
      (fun r t => r.isOk = false ∧ t = s ∨
        r.isOk = false ∧ (¬ ∀ st, w.piped st = true) ∧ t = s.orphaned program args ∨
        r = .ok ⟨⟩ ∧ t = s.launched program args)
      (fun _ _ => False) := by
  cases hspawn : w.spawn with
  | error e =>
    rw [launch, hspawn]
    exact .inl ⟨rfl, rfl⟩
  | ok _ =>
    by_cases hpiped : ∀ st, w.piped st = true
    · exact (ends_of_returns (launch_started program args hrx hspawn hpiped)).mpr
        (.inr (.inr ⟨rfl, rfl⟩))
    · obtain ⟨e, he⟩ := launch_orphaned program args (s := s) hspawn hpiped
      exact (ends_of_returns he).mpr (.inr (.inl ⟨rfl, hpiped, rfl⟩))

/-- How `start` ends when it does not spawn: only files have changed since its
`stop`. -/
def NotStarted (s t : Sys) : Prop := ∃ files, t = s.stopped.withFiles files

/-- How `start` ends when the spawned child lacks a handle. -/
def Orphaned (w : World) (s t : Sys) : Prop :=
  (¬ ∀ st, w.piped st = true) ∧
    ∃ files program args, t = (s.stopped.withFiles files).orphaned program args

/-- How `start` ends when it succeeds. -/
def Started (s t : Sys) : Prop :=
  ∃ files program args, t = (s.stopped.withFiles files).launched program args

theorem Sys.stopped_child (s : Sys) : s.stopped.backend.child = none := by
  rw [Sys.stopped]
  cases hc : s.backend.child with
  | none => exact hc
  | some g => rfl

theorem Sys.stopped_dropped (s : Sys) : s.stopped.dropped = s.dropped := by
  rw [Sys.stopped]
  cases s.backend.child <;> rfl

theorem stopped_rx {s : Sys} (hsync : s.backend.rx = s.backend.child) :
    s.stopped.backend.rx = none := by
  rw [Sys.stopped]
  cases h : s.backend.child with
  | none => exact hsync.trans h
  | some g => rfl

theorem Sys.stopped_runDir (s : Sys) : s.stopped.backend.runDir = s.backend.runDir := by
  rw [Sys.stopped]
  cases s.backend.child <;> rfl

/-- The arguments of an engine that `start` spawns. -/
def startArgs (h : Host) (cfg : VmConfig) (code runDir : String) : List String :=
  qemuArgs cfg code (h.join runDir "vars.fd") (h.join runDir "disk.img")

/-- How `start` ends, with the engine it spawns. -/
theorem start_launches {s : Sys} {h : Host} {cfg : VmConfig} {efi code vars : String} {w : World}
    (hsync : s.backend.rx = s.backend.child) :
    Ends (start h cfg efi code vars w) s
      (fun r t => r.isOk = false ∧ NotStarted s t ∨ ∃ files,
        r.isOk = false ∧ (¬ ∀ st, w.piped st = true) ∧
          t = (s.stopped.withFiles files).orphaned (qemuBin h)
            (startArgs h cfg code s.backend.runDir) ∨
        r = .ok ⟨⟩ ∧ t = (s.stopped.withFiles files).launched (qemuBin h)
            (startArgs h cfg code s.backend.runDir))
      (fun _ t => NotStarted s t) := by
  have hstop : NotStarted s s.stopped := ⟨s.stopped.files, rfl⟩
  rw [start, ends_bind, ends_of_returns (stop_run hsync)]
  cases w.mkdir with
  | error e => exact .inl ⟨rfl, hstop⟩
  | ok _ =>
    refine (ends_bind _ _ _ _ _).mpr ?_
    rw [ends_get, Sys.stopped_runDir]
    cases w.read efi with
    | error e => exact .inl ⟨rfl, hstop⟩
    | ok efiBytes =>
      refine (ends_bind _ _ _ _ _).mpr (ends_writeDisk ?_ fun p files => ⟨files, rfl⟩)
      intro r files
      cases r with
      | error e => exact .inl ⟨rfl, files, rfl⟩
      | ok _ =>
        refine (ends_bind _ _ _ _ _).mpr ?_
        cases w.copy vars with
        | error e => exact .inl ⟨rfl, _, rfl⟩
        | ok bytes =>
          refine (launch_spec (qemuBin h) (startArgs h cfg code s.backend.runDir)
            (s := s.stopped.withFiles (putFile files (h.join s.backend.runDir "vars.fd") bytes))
            (stopped_rx hsync)).mono (fun r t ht => ?_) fun _ _ hfalse => hfalse.elim
          rcases ht with ⟨hr, rfl⟩ | ⟨hr, hpiped, rfl⟩ | ⟨hr, rfl⟩
          · exact .inl ⟨hr, _, rfl⟩
          · exact .inr ⟨_, .inl ⟨hr, hpiped, rfl⟩⟩
          · exact .inr ⟨_, .inr ⟨hr, rfl⟩⟩

/-- **What `start` does**: whatever fails, the old engine was stopped first. -/
theorem start_spec {s : Sys} {h : Host} {cfg : VmConfig} {efi code vars : String} {w : World}
    (hsync : s.backend.rx = s.backend.child) :
    Ends (start h cfg efi code vars w) s
      (fun r t => r.isOk = false ∧ (NotStarted s t ∨ Orphaned w s t) ∨ r = .ok ⟨⟩ ∧ Started s t)
      (fun _ t => NotStarted s t) := by
  refine (start_launches hsync).mono (fun r t ht => ?_) fun _ _ ht => ht
  rcases ht with ⟨hr, ht⟩ | ⟨files, ⟨hr, hpiped, ht⟩ | ⟨hr, ht⟩⟩
  · exact .inl ⟨hr, .inl ht⟩
  · exact .inl ⟨hr, .inr ⟨hpiped, files, _, _, ht⟩⟩
  · exact .inr ⟨hr, files, _, _, ht⟩

/-- A world in which every call of `start` succeeds, its efi of a size that fits
on the disk. -/
structure World.Willing (w : World) (efi vars : String) : Prop where
  mkdir : w.mkdir = .ok ⟨⟩
  read : ∃ bytes, w.read efi = .ok bytes ∧ bytes.length ≤ capacity
  disk : w.disk = .ok
  copy : ∃ bytes, w.copy vars = .ok bytes
  spawn : w.spawn = .ok ⟨⟩
  piped : ∀ st, w.piped st = true

/-- In such a world `start` starts an engine. -/
theorem start_started {s : Sys} {h : Host} {cfg : VmConfig} {efi code vars : String} {w : World}
    (hsync : s.backend.rx = s.backend.child) (hw : w.Willing efi vars) :
    ∃ t, Returns (start h cfg efi code vars w) s (.ok ⟨⟩) t ∧ Started s t := by
  obtain ⟨bytes, hread, hlen⟩ := hw.read
  obtain ⟨copied, hcopy⟩ := hw.copy
  have hends : Ends (start h cfg efi code vars w) s (fun r t => r = .ok ⟨⟩ ∧ Started s t)
      fun _ _ => False := by
    rw [start, ends_bind, ends_of_returns (stop_run hsync), hw.mkdir]
    refine (ends_bind _ _ _ _ _).mpr ?_
    rw [ends_get, hread]
    refine (ends_bind _ _ _ _ _).mpr ?_
    rw [hw.disk]
    refine (ends_of_returns (writeDisk_returns (writeFat32Disk_returns hlen _ _))).mpr ?_
    refine (ends_bind _ _ _ _ _).mpr ?_
    rw [hcopy]
    have hlaunch := fun files program args => launch_started program args
      (s := s.stopped.withFiles files) (stopped_rx hsync) hw.spawn hw.piped
    exact (ends_of_returns (hlaunch _ _ _)).mpr ⟨rfl, _, _, _, rfl⟩
  rcases hends.cases with ⟨r, t, hret, rfl, ht⟩ | ⟨_, _, _, hfalse⟩
  · exact ⟨t, hret, ht⟩
  · exact hfalse.elim

/-- A host with nothing but the engine's program name. -/
def bareHost : Host := ⟨false, none, none, fun _ => false, id⟩

def smallConfig : VmConfig := ⟨512, 1, .tcg⟩

/-- A world with an empty efi, in which nothing fails. -/
def smoothWorld : World :=
  ⟨.ok ⟨⟩, fun _ => .ok [], .ok, fun _ => .ok [], none, .ok ⟨⟩, fun _ => true⟩

theorem smoothWorld_willing (efi vars : String) : smoothWorld.Willing efi vars where
  mkdir := rfl
  read := ⟨[], rfl, Nat.zero_le _⟩
  disk := rfl
  copy := ⟨[], rfl⟩
  spawn := rfl
  piped _ := rfl

/-! ## The other methods -/

/-- `is_running` reaps an exited child, and does nothing else. -/
theorem isRunning_spec (s : Sys) (fails : Bool) :
    finalState (isRunning fails s) = s ∨
      ∃ g, s.backend.child = some g ∧
        finalState (isRunning fails s) = s.modifyEngine g Engine.reaped := by
  have hends : Ends (isRunning fails) s
      (fun _ t => t = s ∨ ∃ g, s.backend.child = some g ∧ t = s.modifyEngine g Engine.reaped)
      (fun _ t => t = s ∨ ∃ g, s.backend.child = some g ∧ t = s.modifyEngine g Engine.reaped) := by
    rw [isRunning, ends_bind, ends_get]
    cases s.backend.child with
    | none => exact .inl rfl
    | some g =>
      cases fails with
      | true => exact .inl rfl
      | false =>
        dsimp only
        rw [if_neg Bool.false_ne_true]
        split
        · exact .inl rfl
        · exact .inr ⟨g, rfl, rfl⟩
  exact ends_iff_finalState.mp hends

/-- Whether the child is running. -/
def Sys.childRuns (s : Sys) : Bool :=
  match s.backend.child with
  | some g => (s.engines[g]?).map Engine.proc == some .running
  | none => false

/-- It says whether the child is running, unless `try_wait` fails. -/
theorem isRunning_returns (s : Sys) (fails : Bool) :
    Returns (isRunning fails) s (s.childRuns && !fails) (finalState (isRunning fails s)) := by
  have hends : Ends (isRunning fails) s (fun r _ => r = (s.childRuns && !fails))
      fun _ _ => False := by
    rw [isRunning, ends_bind, ends_get, Sys.childRuns]
    cases s.backend.child with
    | none => rfl
    | some g =>
      cases fails with
      | true => exact (Bool.and_false _).symm
      | false =>
        dsimp only
        rw [if_neg Bool.false_ne_true]
        split
        · rename_i hproc
          show true = ((s.engines[g]?).map Engine.proc == some .running && !false)
          rw [hproc]
          rfl
        · rename_i hproc
          show false = ((s.engines[g]?).map Engine.proc == some .running && !false)
          rw [beq_eq_false_iff_ne.mpr hproc]
          rfl
  rcases hends.cases with ⟨r, t, hret, rfl⟩ | ⟨_, _, _, hfalse⟩
  · rwa [show isRunning fails s = .ok (s.childRuns && !fails) t from hret, finalState_ok]
  · exact hfalse.elim

theorem dropBackend_run {s : Sys} (hsync : s.backend.rx = s.backend.child) :
    Returns dropBackend s ⟨⟩ { s.stopped with dropped := true } := by
  have hassign : Returns (assignRx none) s.stopped ⟨⟩ s.stopped := by
    have hrx : s.stopped.backend.rx = none := stopped_rx hsync
    generalize s.stopped = u at hrx
    obtain ⟨⟨child, rx, runDir⟩, engines, files, draining, dropped, events, returned⟩ := u
    obtain rfl : rx = none := hrx
    rfl
  exact (stop_run hsync).bind (hassign.bind rfl)

/-! ## Calls -/

theorem call_eq_some {α : Type} {s t : Sys} {m : VmM α} :
    s.call m = some t ↔ s.callable = true ∧ finalState (m s) = t := by
  rw [Sys.call]
  by_cases hc : s.callable = true
  · rw [if_pos hc, Option.some_inj]
    exact ⟨fun h => ⟨hc, h⟩, fun h => h.2⟩
  · rw [if_neg hc]
    exact ⟨fun h => absurd h (by simp), fun h => absurd h.1 hc⟩

theorem call_of_returns {α : Type} {s t : Sys} {m : VmM α} {a : α} (hcall : s.callable = true)
    (h : Returns m s a t) : s.call m = some t :=
  call_eq_some.mpr ⟨hcall, by rw [show m s = .ok a t from h, finalState_ok]⟩

theorem callable_not_dropped {s : Sys} (h : s.callable = true) : s.dropped = false := by
  rw [Sys.callable, Bool.and_eq_true, Bool.not_eq_true'] at h
  exact h.1

theorem callable_idle {s : Sys} (h : s.callable = true) : s.draining = none := by
  rw [Sys.callable, Bool.and_eq_true, Option.isNone_iff_eq_none] at h
  exact h.2

/-! ## What an engine does by itself -/

/-- A step of engine `g`, by what it does to it. -/
inductive Engine.Moves (g : Nat) (e : Engine) : Engine → Prop
  | exit : e.proc = .running → Moves g e { e with proc := .exited }
  | read (st : Stream) (text : String) : (e.reader st).state = .reading →
      Moves g e (e.setReader st ⟨.sending text, (e.reader st).reads ++ [text]⟩)
  | send (st : Stream) (text : String) : (e.reader st).state = .sending text →
      e.receiver = true →
      Moves g e { e.setReader st { e.reader st with state := .reading } with
        queue := e.queue ++ [⟨g, st, text⟩] }
  /-- Its stream is at its end, or nobody receives. -/
  | readerEnd (st : Stream) : ((e.reader st).state = .reading ∨ e.receiver = false) →
      Moves g e (e.setReader st { e.reader st with state := .ended })

theorem Engine.moves_of_step {g : Nat} {e e' : Engine} {l : EngineLabel}
    (h : e.step g l = some e') : e.Moves g e' := by
  cases l with
  | exit =>
    by_cases hproc : e.proc = .running
    · rw [Engine.step, if_pos hproc] at h
      cases h
      exact .exit hproc
    · rw [Engine.step, if_neg hproc] at h
      cases h
  | read st bytes =>
    rw [Engine.step] at h
    split at h
    · rename_i hread
      cases h
      exact .read st _ hread.1
    · cases h
  | send st =>
    rw [Engine.step] at h
    split at h
    · rename_i text hsending
      cases hrecv : e.receiver with
      | true =>
        rw [if_pos hrecv] at h
        cases h
        exact .send st text hsending hrecv
      | false =>
        rw [if_neg (by simp [hrecv])] at h
        cases h
        exact .readerEnd st (.inr hrecv)
    · cases h
    · cases h
  | readEnd st =>
    by_cases hread : (e.reader st).state = .reading
    · rw [Engine.step, if_pos hread] at h
      cases h
      exact .readerEnd st (.inl hread)
    · rw [Engine.step, if_neg hread] at h
      cases h

/-! ## What a step of the system does -/

/-- The system after a drain returns. -/
def Sys.drainedBy (s : Sys) (d : Drain) : Sys :=
  { s with draining := none, returned := s.returned ++ [⟨s.backend.child, d⟩] }

theorem drainRecv_eq_some {h : Host} {s t : Sys} (hstep : step h s .drainRecv = some t) :
    ∃ d c rest, s.draining = some d ∧ s.pending = c :: rest ∧ t = s.received d c := by
  rw [step] at hstep
  split at hstep
  · rename_i d c rest hd hc
    cases hstep
    exact ⟨d, c, rest, hd, hc, rfl⟩
  · cases hstep

theorem drainEnd_eq_some {h : Host} {s t : Sys} (hstep : step h s .drainEnd = some t) :
    ∃ d, s.draining = some d ∧ s.pending = [] ∧ t = s.drainedBy d := by
  rw [step] at hstep
  split at hstep
  · rename_i d hd hc
    cases hstep
    exact ⟨d, hd, hc, rfl⟩
  · cases hstep

/-- A step of the system, by what it does to it. -/
inductive Sys.Moves (s : Sys) : Label → Sys → Prop
  | notStarted {cfg : VmConfig} {efi code vars : String} {w : World} {t : Sys} :
      s.callable = true → NotStarted s t → Moves s (.start cfg efi code vars w) t
  | orphaned {cfg : VmConfig} {efi code vars : String} {w : World} {t : Sys} :
      s.callable = true → Orphaned w s t → Moves s (.start cfg efi code vars w) t
  | started {cfg : VmConfig} {efi code vars : String} {w : World} {t : Sys} :
      s.callable = true → Started s t → Moves s (.start cfg efi code vars w) t
  | stop : s.callable = true → Moves s .stop s.stopped
  | notRunning {fails : Bool} : s.callable = true → Moves s (.isRunning fails) s
  | reaped {fails : Bool} (g : Nat) : s.callable = true → s.backend.child = some g →
      Moves s (.isRunning fails) (s.modifyEngine g Engine.reaped)
  | drop : s.callable = true → Moves s .drop { s.stopped with dropped := true }
  | drainBegin : s.callable = true → Moves s .drainBegin { s with draining := some ⟨"", []⟩ }
  | drainRecv (d : Drain) (c : Chunk) (rest : List Chunk) : s.draining = some d →
      s.pending = c :: rest → Moves s .drainRecv (s.received d c)
  | drainEnd (d : Drain) : s.draining = some d → s.pending = [] →
      Moves s .drainEnd (s.drainedBy d)
  | engine (g : Nat) (e e' : Engine) (l : EngineLabel) : s.engines[g]? = some e →
      e.step g l = some e' → Moves s (.engine g l) (s.modifyEngine g fun _ => e')

/-- **Every step** is one of these, as long as the channel is the child's. -/
theorem Sys.moves_of_step {hst : Host} {s t : Sys} {l : Label}
    (hsync : s.backend.rx = s.backend.child) (h : step hst s l = some t) : s.Moves l t := by
  cases l with
  | start cfg efi code vars w =>
    obtain ⟨hcall, rfl⟩ := call_eq_some.mp h
    refine ends_iff_finalState.mp ((start_spec hsync).mono (fun r u hu => ?_) fun _ u hu => ?_)
    · rcases hu with ⟨_, hu | hu⟩ | ⟨_, hu⟩
      · exact .notStarted hcall hu
      · exact .orphaned hcall hu
      · exact .started hcall hu
    · exact .notStarted hcall hu
  | stop =>
    obtain ⟨hcall, rfl⟩ := call_eq_some.mp h
    exact ends_iff_finalState.mp ((ends_of_returns (stop_run hsync)).mpr (.stop hcall))
  | isRunning fails =>
    obtain ⟨hcall, rfl⟩ := call_eq_some.mp h
    rcases isRunning_spec s fails with heq | ⟨g, hchild, heq⟩
    · rw [heq]
      exact .notRunning hcall
    · rw [heq]
      exact .reaped g hcall hchild
  | drop =>
    obtain ⟨hcall, rfl⟩ := call_eq_some.mp h
    exact ends_iff_finalState.mp ((ends_of_returns (dropBackend_run hsync)).mpr (.drop hcall))
  | drainBegin =>
    rw [step] at h
    split at h
    · rename_i hcall
      cases h
      exact .drainBegin hcall
    · cases h
  | drainRecv =>
    obtain ⟨d, c, rest, hd, hc, rfl⟩ := drainRecv_eq_some h
    exact .drainRecv d c rest hd hc
  | drainEnd =>
    obtain ⟨d, hd, hc, rfl⟩ := drainEnd_eq_some h
    exact .drainEnd d hd hc
  | engine g l =>
    rw [step] at h
    split at h
    · rename_i e he
      obtain ⟨e', he', rfl⟩ := Option.map_eq_some_iff.mp h
      exact .engine g e e' l he he'
    · cases h

/-! ### What every step leaves alone -/

section

variable {hst : Host} {s t : Sys} {l : Label}

theorem stopped_sync (hsync : s.backend.rx = s.backend.child) :
    s.stopped.backend.rx = s.stopped.backend.child :=
  (stopped_rx hsync).trans s.stopped_child.symm

/-- The channel stays the child's. -/
theorem step_sync (hsync : s.backend.rx = s.backend.child) (h : step hst s l = some t) :
    t.backend.rx = t.backend.child := by
  cases Sys.moves_of_step hsync h with
  | notStarted _ ht =>
    obtain ⟨files, rfl⟩ := ht
    exact stopped_sync hsync
  | orphaned _ ht =>
    obtain ⟨_, files, program, args, rfl⟩ := ht
    exact stopped_sync hsync
  | started _ ht =>
    obtain ⟨files, program, args, rfl⟩ := ht
    rfl
  | stop => exact stopped_sync hsync
  | drop => exact stopped_sync hsync
  | notRunning | reaped | drainBegin | drainRecv | drainEnd | engine => exact hsync

/-- What `stop` and `start` leave alone. -/
structure Sys.Kept (s t : Sys) : Prop where
  runDir : t.backend.runDir = s.backend.runDir
  dropped : t.dropped = s.dropped
  draining : t.draining = s.draining

theorem Sys.stopped_kept (s : Sys) : s.Kept s.stopped where
  runDir := s.stopped_runDir
  dropped := s.stopped_dropped
  draining := by
    rw [Sys.stopped]
    cases s.backend.child <;> rfl

theorem start_kept {cfg : VmConfig} {efi code vars : String} {w : World}
    (hsync : s.backend.rx = s.backend.child)
    (h : step hst s (.start cfg efi code vars w) = some t) : s.Kept t := by
  obtain ⟨hdir, hdropped, hdraining⟩ := s.stopped_kept
  cases Sys.moves_of_step hsync h with
  | notStarted _ ht =>
    obtain ⟨files, rfl⟩ := ht
    exact ⟨hdir, hdropped, hdraining⟩
  | orphaned _ ht =>
    obtain ⟨_, files, program, args, rfl⟩ := ht
    exact ⟨hdir, hdropped, hdraining⟩
  | started _ ht =>
    obtain ⟨files, program, args, rfl⟩ := ht
    exact ⟨hdir, hdropped, hdraining⟩

/-- The run directory is the one the backend was made with. -/
theorem step_runDir (hsync : s.backend.rx = s.backend.child) (h : step hst s l = some t) :
    t.backend.runDir = s.backend.runDir := by
  cases Sys.moves_of_step hsync h with
  | notStarted | orphaned | started => exact (start_kept hsync h).runDir
  | stop | drop => exact s.stopped_runDir
  | notRunning | reaped | drainBegin | drainRecv | drainEnd | engine => rfl

/-- Only `drop` drops the backend. -/
theorem step_dropped (hsync : s.backend.rx = s.backend.child) (h : step hst s l = some t)
    (hl : l ≠ .drop) : t.dropped = s.dropped := by
  cases Sys.moves_of_step hsync h with
  | notStarted | orphaned | started => exact (start_kept hsync h).dropped
  | stop => exact s.stopped_dropped
  | drop => exact absurd rfl hl
  | notRunning | reaped | drainBegin | drainRecv | drainEnd | engine => rfl

/-- Outside `drain_log`, only a call of it enters it. -/
theorem step_idle (h : step hst s l = some t) (hsync : s.backend.rx = s.backend.child)
    (hs : s.draining = none) (hl : l ≠ .drainBegin) : t.draining = none := by
  cases Sys.moves_of_step hsync h with
  | notStarted | orphaned | started => exact (start_kept hsync h).draining.trans hs
  | stop | drop => exact s.stopped_kept.draining.trans hs
  | drainBegin => exact absurd rfl hl
  | drainRecv d c rest hd =>
    rw [hs] at hd
    cases hd
  | notRunning | reaped | engine => exact hs
  | drainEnd => rfl

end

end MochiVM.Vm
