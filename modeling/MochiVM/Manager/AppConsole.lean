import MochiVM.Manager.RunningMark
import MochiVM.Manager.BootConsole

/-!
# The serial console (manager/src/main.rs)

`self.log` is what the user reads. Without its cap it would be a list of
`Piece`s: strings that `drain_log` returned and lines of the manager's own, to
which a step of the application adds one, or which it erases (`App.writes`). The
log is the end of that text, in every run (`shown_run`); and the text is a
heading, then the output of the engine started last, of each stream in order and
without a gap, then the errors of later starts.
-/

namespace MochiVM.Gui

open MochiVM.Buffer MochiVM.Fat MochiVM.Vm MochiVM.Panic MochiVM.Runs
open MochiVM.App (logCap update_spec update_long drainTo_aborts TrimOk CharBoundary)
open MochiVM.Text
open MochiVM.Hv (Boot Env Fresh Machine Stage bootMachine_fresh boot_fiveHlts)
open MochiVM.SelfTest (drainedOf_only joined_eq)

/-! ## The console without a cap -/

/-- What is written to the console. -/
inductive Piece where
  | note (text : String)
  /-- What a call of `drain_log` returned. -/
  | output (r : Drained)

def Piece.text : Piece → String
  | .note text => text
  | .output r => r.drain.out

def Piece.chunks : Piece → List Chunk
  | .note _ => []
  | .output r => r.drain.got

def Piece.drained : Piece → List Drained
  | .note _ => []
  | .output r => [r]

/-- The text of the console. -/
def consoleText (ps : List Piece) : String := String.join (ps.map Piece.text)

/-- The engines' output in it. -/
def chunksOf (ps : List Piece) : List Chunk := ps.flatMap Piece.chunks

/-- The calls of `drain_log` that it came from. -/
def drainsIn (ps : List Piece) : List Drained := ps.flatMap Piece.drained

/-- `App::run` (main.rs:188) after a start that went well, -/
def startedNote : String := ">> vm started\n"

/-- and after one that failed. -/
def errorNote (e : String) : String := ">> " ++ e ++ "\n"

/-- What `App::run` makes of the console. -/
def App.runWrites (h : Host) (a : App) (w : World) (ps : List Piece) : List Piece :=
  match a.phase.cfg? with
  | none => ps
  | some cfg =>
    match start h cfg.toVmConfig a.efiPath a.ovmfCode a.ovmfVars w a.backend with
    | .ok (.ok _) _ => [.note startedNote]
    | .ok (.error e) _ => ps ++ [.note (errorNote e)]
    | .error .. => ps

/-- What a step of the application makes of the console. -/
def App.writes (h : Host) (a : App) : Label → List Piece → List Piece
  | .drainEnd, ps =>
    match a.backend.draining with
    | some d => ps ++ [.output ⟨a.backend.backend.child, d⟩]
    | none => ps
  | .part (.start (some w)), ps => a.runWrites h w ps
  | .part (.reset (some w)), ps => a.runWrites h w ps
  -- the "clear" button
  | .part (.console _ true), _ => []
  | _, ps => ps

/-- The console after a run, from an empty one. -/
def written (h : Host) (a : App) (ls : List Label) : List Piece :=
  along (step h) (App.writes h) a ls []

theorem consoleText_concat (ps : List Piece) (p : Piece) :
    consoleText (ps ++ [p]) = consoleText ps ++ p.text := by
  rw [consoleText, List.map_append, String.join_append, List.map_singleton, String.join_cons,
    String.join_nil, String.append_empty]
  rfl

theorem chunksOf_concat (ps : List Piece) (p : Piece) :
    chunksOf (ps ++ [p]) = chunksOf ps ++ p.chunks := by
  simp [chunksOf]

theorem drainsIn_concat (ps : List Piece) (p : Piece) :
    drainsIn (ps ++ [p]) = drainsIn ps ++ p.drained := by
  simp [drainsIn]

/-! ## What a step does to it -/

/-- The log has the end of the text: all of it, or `LOG_CAP` bytes at least. -/
def Tail (text log : String) : Prop :=
  ∃ gone, text = gone ++ log ∧ (gone = "" ∨ logCap ≤ log.utf8ByteSize)

theorem Tail.refl (text : String) : Tail text text := ⟨"", by simp, .inl rfl⟩

theorem Tail.append {text log : String} (h : Tail text log) (s : String) :
    Tail (text ++ s) (log ++ s) := by
  obtain ⟨gone, rfl, hgone⟩ := h
  refine ⟨gone, String.append_assoc, hgone.imp_right fun hcap => ?_⟩
  rw [String.utf8ByteSize_append]
  exact Nat.le_add_right_of_le hcap

theorem Tail.trans {text mid log : String} (h : Tail text mid) (h' : Tail mid log) :
    Tail text log := by
  obtain ⟨gone, rfl, hgone⟩ := h
  obtain ⟨gone', rfl, hgone'⟩ := h'
  refine ⟨gone ++ gone', String.append_assoc.symm, ?_⟩
  rcases hgone' with rfl | hcap
  · rw [String.append_empty, String.empty_append] at *
    exact hgone
  · exact .inr hcap

/-- Trimmed or not, and also if trimming panics. -/
theorem tail_showLog (chunk : String) (a : App) :
    Tail (a.log ++ chunk) (a.exec (showLog chunk)).log := by
  have hreturns : ∀ {r log}, Returns (App.update chunk) a.log r log →
      (a.exec (showLog chunk)).log = log := by
    intro r log hret
    have hrun : Returns (showLog chunk) a ⟨⟩
        { a with log := log, phase := .row 0 a.vms.length none } := by
      have hupdate : Returns (onLog (App.update chunk)) a r { a with log := log } := by
        rw [Returns, onLog, show App.update chunk a.log = .ok r log from hret]
      exact Returns.bind hupdate rfl
    rw [App.exec_of_returns hrun]
  by_cases hok : TrimOk a.log chunk
  · obtain ⟨front, new, hret, heq, hfront⟩ := update_spec hok
    rw [hreturns hret]
    refine ⟨front, heq, ?_⟩
    have hsize : (a.log ++ chunk).utf8ByteSize = front.utf8ByteSize + new.utf8ByteSize := by
      rw [heq, String.utf8ByteSize_append]
    rcases hfront with ⟨-, rfl⟩ | ⟨-, hfront⟩
    · exact .inl rfl
    · by_cases hzero : front.utf8ByteSize = 0
      · exact .inl (String.utf8ByteSize_eq_zero_iff.mp hzero)
      · exact .inr (by omega)
  · rw [TrimOk, Classical.not_imp, Classical.not_imp] at hok
    obtain ⟨hempty, hsize, hcut⟩ := hok
    obtain ⟨e, he⟩ := drainTo_aborts hcut
    have hlog : Aborts (showLog chunk) a e { a with log := a.log ++ chunk } := by
      refine Aborts.bind ?_ _
      rw [Aborts, onLog, update_long hempty hsize,
        show App.drainTo _ (a.log ++ chunk) = .error e (a.log ++ chunk) from he]
    rw [App.exec, show showLog chunk a = .error e _ from hlog]
    exact .refl _

section

variable {h : Host} {a b : App} {l : Label} {ps : List Piece}

/-- A step of the application, by what it does to the console. -/
inductive App.ConsoleMoves (a : App) (l : Label) (b : App) (ps : List Piece) : List Piece → Prop
  | same : b.log = a.log → b.backend.returned = a.backend.returned →
      b.backend.engines.length = a.backend.engines.length →
      (b.backend.backend.child = a.backend.backend.child ∨ b.backend.backend.child = none) →
      ConsoleMoves a l b ps ps
  | drained (d : Drain) : a.backend.draining = some d → b.backend = a.backend.drainedBy d →
      Tail (a.log ++ d.out) b.log →
      ConsoleMoves a l b ps (ps ++ [.output ⟨a.backend.backend.child, d⟩])
  | started : b.log = startedNote → b.backend.returned = a.backend.returned →
      b.backend.engines.length = a.backend.engines.length + 1 →
      ConsoleMoves a l b ps [.note startedNote]
  | failed (e : String) : b.log = a.log ++ errorNote e →
      b.backend.returned = a.backend.returned →
      b.backend.engines.length = a.backend.engines.length → b.backend.backend.child = none →
      ConsoleMoves a l b ps (ps ++ [.note (errorNote e)])
  | cleared {autoScroll : Bool} : l = .part (.console autoScroll true) → b.log = "" →
      b.backend = a.backend → ConsoleMoves a l b ps []

/-- A `start` whose handles are there leaves no orphan. -/
theorem start_piped {s : Sys} {cfg : VmConfig} {efi code vars : String} {w : World}
    (hsync : s.backend.rx = s.backend.child) (hpiped : ∀ st, w.piped st = true) :
    Ends (start h cfg efi code vars w) s
      (fun r t => r.isOk = false ∧ NotStarted s t ∨ r = .ok ⟨⟩ ∧ Started s t)
      fun _ t => NotStarted s t := by
  refine (start_spec hsync).mono (fun r t ht => ?_) fun _ _ ht => ht
  rcases ht with ⟨hr, ht | ⟨hno, -⟩⟩ | ht
  · exact .inl ⟨hr, ht⟩
  · exact absurd hpiped hno
  · exact .inr ht

/-- A start that did not go well leaves the records alone, and no child. -/
theorem notStarted_records {s t : Sys} (ht : NotStarted s t) :
    t.returned = s.returned ∧ t.engines.length = s.engines.length ∧ t.backend.child = none := by
  obtain ⟨files, rfl⟩ := ht
  exact ⟨s.stopped_returned, s.stopped_length, s.stopped_child⟩

theorem started_records {s t : Sys} (ht : Started s t) :
    t.returned = s.returned ∧ t.engines.length = s.engines.length + 1 := by
  obtain ⟨files, program, args, rfl⟩ := ht
  refine ⟨s.stopped_returned, ?_⟩
  show (s.stopped.engines ++ [Engine.fresh program args]).length = _
  rw [List.length_append, s.stopped_length]
  rfl

theorem onBackend_aborts {α : Type} {m : VmM α} {p : Panic} {s : Sys}
    (h : Aborts m a.backend p s) : Aborts (onBackend m) a p { a with backend := s } := by
  rw [Aborts, onBackend, show m a.backend = .error p s from h]

theorem consoleMoves_run {cfg : Entry} {w : World} {next : Phase} (hlinked : Linked a)
    (hcfg : a.phase.cfg? = some cfg) (hpiped : ∀ st, w.piped st = true) :
    a.ConsoleMoves l (a.exec (runButton h cfg (some w) next)) ps (a.runWrites h w ps) := by
  have hends := @start_piped h a.backend cfg.toVmConfig a.efiPath a.ovmfCode a.ovmfVars w
    hlinked.sync hpiped
  obtain ⟨hran, -⟩ := exec_runButton h cfg w next a
  have hbackend := hran.backend
  rw [App.runWrites, hcfg]
  dsimp only
  cases hstart : start h cfg.toVmConfig a.efiPath a.ovmfCode a.ovmfVars w a.backend with
  | ok r s =>
    rw [ends_of_returns hstart] at hends
    rw [hstart, finalState_ok] at hbackend
    cases r with
    | ok _ =>
      have ht := (hends.resolve_left fun hno => absurd hno.1 nofun).2
      obtain ⟨hreturned, hlen⟩ := started_records ht
      rw [← hbackend] at hreturned hlen
      refine .started ?_ hreturned hlen
      rw [exec_runButton_ok hstart]
      rfl
    | error e =>
      have ht := (hends.resolve_right fun hok => absurd hok.1 nofun).2
      obtain ⟨hreturned, hlen, hchild⟩ := notStarted_records ht
      rw [← hbackend] at hreturned hlen hchild
      refine .failed e ?_ hreturned hlen hchild
      have hrun : Returns (runButton h cfg (some w) next) a ⟨⟩ { a with
          backend := s
          startedFrom := Function.update a.startedFrom a.backend.engines.length cfg.id
          status := e
          log := a.log ++ errorNote e
          phase := next } := by
        refine Returns.bind (Returns.bind (returns_get a) (Returns.bind rfl
          (Returns.bind (onBackend_returns hstart) rfl))) rfl
      rw [App.exec_of_returns hrun]
  | error p s =>
    rw [ends_of_aborts hstart] at hends
    rw [hstart, finalState_error] at hbackend
    obtain ⟨hreturned, hlen, hchild⟩ := notStarted_records hends
    rw [← hbackend] at hreturned hlen hchild
    refine .same ?_ hreturned hlen (.inr hchild)
    have hset : Returns (set { a with
        startedFrom := Function.update a.startedFrom a.backend.engines.length cfg.id } : AppM PUnit)
        a ⟨⟩ { a with
          startedFrom := Function.update a.startedFrom a.backend.engines.length cfg.id } := rfl
    have hrun : Aborts (runButton h cfg (some w) next) a p { a with
        backend := s
        startedFrom := Function.update a.startedFrom a.backend.engines.length cfg.id } :=
      Aborts.bind (Returns.bind_aborts (returns_get a) (hset.bind_aborts
        (Aborts.bind (onBackend_aborts (a := { a with
          startedFrom := Function.update a.startedFrom a.backend.engines.length cfg.id })
          hstart) _))) _
    rw [App.exec, show runButton h cfg (some w) next a = .error p _ from hrun]

/-- What a call of the backend other than `start` records, and whose child it leaves. -/
theorem call_records {s t : Sys} {l : Vm.Label} (hsync : s.backend.rx = s.backend.child)
    (hstart : ∀ cfg efi code vars w, l ≠ .start cfg efi code vars w) (hend : l ≠ .drainEnd)
    (hstep : Vm.step h s l = some t) :
    t.returned = s.returned ∧ t.engines.length = s.engines.length ∧
      (t.backend.child = s.backend.child ∨ t.backend.child = none) := by
  obtain ⟨hlen, hreturned⟩ := step_history hsync hstep hstart
  refine ⟨hreturned hend, hlen, ?_⟩
  cases Sys.moves_of_step hsync hstep with
  | notStarted | orphaned | started => exact absurd rfl (hstart _ _ _ _ _)
  | stop | drop => exact .inr s.stopped_child
  | drainEnd => exact absurd rfl hend
  | notRunning | reaped | drainBegin | drainRecv | engine => exact .inl rfl

theorem Settings.paths_log (input : Settings) (a : App) : (input.paths a).log = a.log := by
  rw [Settings.paths]
  split <;> split <;> rfl

/-- The parts of a frame that write to the console, or erase it. -/
def Part.writes : Part → Prop
  | .start clicked => clicked.isSome
  | .reset clicked => clicked.isSome
  | .console _ clear => clear
  | _ => False

/-- The others leave the log alone. -/
theorem log_part {p : Part} {m : AppM PUnit} (ha : Indexed a) (hcode : a.CodeAt h p m)
    (hp : ¬ p.writes) : (a.exec m).log = a.log := by
  have hvm := List.getElem?_eq_getElem ha.selected
  have hfits := ha.fits
  cases hcode with
  | row i n toDelete hphase hi =>
    rw [hphase] at hfits
    rw [exec_drawRow (List.getElem?_eq_getElem (show i < a.vms.length from hfits.1 ▸ hi))]
    rfl
  | @newVm clicked =>
    rw [exec_newVm]
    cases clicked <;> rfl
  | delete toDelete hphase =>
    rw [hphase] at hfits
    rw [exec_deleteVm hfits]
    cases toDelete with
    | none => rfl
    | some i =>
      rw [App.deleted]
      split <;> rfl
  | statusBar =>
    rw [exec_statusBar]
  | central =>
    rw [exec_central hvm]
  | @start clicked cfg =>
    cases clicked with
    | none => rfl
    | some w => exact absurd rfl hp
  | stop =>
    rw [exec_stopButton]
  | @reset clicked cfg =>
    cases clicked with
    | none => rfl
    | some w => exact absurd rfl hp
  | @settings unfolded =>
    cases unfolded with
    | none => rfl
    | some input =>
      rw [exec_settings hvm]
      exact input.paths_log a
  | @console autoScroll clear =>
    cases clear with
    | false => rfl
    | true => exact absurd rfl hp

/-- A step that leaves the log alone, and drains and starts nothing. -/
theorem consoleMoves_plain (hlinked : Linked a) (hmoves : a.BackendMoves h l b)
    (hlog : b.log = a.log) (hend : l ≠ .drainEnd) (hruns : ∀ w, ¬ l.Runs w) :
    a.ConsoleMoves l b ps ps := by
  cases hmoves with
  | same hbackend =>
    exact .same hlog (by rw [hbackend]) (by rw [hbackend]) (.inl (by rw [hbackend]))
  | call l' hcalls hs =>
    have hl' : l' ≠ .drainEnd := by
      rintro rfl
      cases hcalls
      exact hend rfl
    obtain ⟨hreturned, hlen, hchild⟩ := call_records hlinked.sync
      (by rintro _ _ _ _ _ rfl; cases hcalls) hl' hs
    exact .same hlog hreturned hlen hchild
  | run cfg w hw => exact absurd hw (hruns w)

/-- **Every step** does one of these things to the console. -/
theorem consoleMoves_of_step (ha : Good a) (hl : l.piped) (hstep : step h a l = some b) :
    a.ConsoleMoves l b ps (a.writes h l ps) := by
  have hmoves := backendMoves_of_step ha.toIndexed ha.toLinked hstep
  cases App.takes_of_step hstep with
  | frame | drainRecv | engine | close =>
    exact consoleMoves_plain ha.toLinked hmoves rfl nofun (by rintro w (hw | hw) <;> cases hw)
  | drainEnd d s hd hs =>
    obtain ⟨d', hd', -, rfl⟩ := drainEnd_eq_some hs
    rw [hd] at hd'
    cases hd'
    rw [App.writes, hd]
    obtain ⟨⟨-, hbackend, -⟩, -⟩ := exec_showLog d.out { a with backend := a.backend.drainedBy d }
    exact .drained d hd hbackend (tail_showLog d.out { a with backend := a.backend.drainedBy d })
  | part p m hcode =>
    by_cases hp : p.writes
    · cases hcode with
      | row | newVm | delete | statusBar | central | stop | settings => exact hp.elim
      | @start clicked cfg hphase =>
        obtain ⟨w, rfl⟩ := Option.isSome_iff_exists.mp hp
        exact consoleMoves_run ha.toLinked (by rw [hphase]; rfl) hl
      | @reset clicked cfg hphase =>
        obtain ⟨w, rfl⟩ := Option.isSome_iff_exists.mp hp
        exact consoleMoves_run ha.toLinked (by rw [hphase]; rfl) hl
      | @console autoScroll clear =>
        obtain rfl : clear = true := hp
        exact .cleared rfl rfl rfl
    · have hwrites : a.writes h (.part p) ps = ps := by
        cases p with
        | start clicked | reset clicked =>
          cases clicked with
          | none => rfl
          | some w => exact absurd rfl hp
        | console autoScroll clear =>
          cases clear with
          | false => rfl
          | true => exact absurd rfl hp
        | row | newVm | delete | statusBar | central | stop | settings => rfl
      rw [hwrites]
      refine consoleMoves_plain ha.toLinked hmoves (log_part ha.toIndexed hcode hp) nofun ?_
      rintro w (hw | hw) <;> cases hw <;> exact hp rfl

end

/-! ## What is in it -/

theorem joined_append (l l' : List Chunk) : joined (l ++ l') = joined l ++ joined l' := by
  rw [joined_eq, joined_eq, joined_eq, List.map_append, String.join_append]

/-- The errors of starts. -/
def errorText (errs : List String) : String := String.join (errs.map errorNote)

/-- A heading, the engine's output, and errors of starts that left no engine. -/
def Layout (a : App) (ps : List Piece) (heading : String) : Prop :=
  ∃ errs, consoleText ps = heading ++ joined (chunksOf ps) ++ errorText errs ∧
    (errs ≠ [] → a.backend.backend.child = none)

/-- The "clear" button is not clicked. -/
def Label.keepsLog : Label → Prop
  | .part (.console _ clear) => clear = false
  | _ => True

theorem chunksOf_eq (ps : List Piece) :
    chunksOf ps = ((drainsIn ps).map fun r => r.drain.got).flatten := by
  induction ps with
  | nil => rfl
  | cons p ps ih =>
    have hchunks : chunksOf (p :: ps) = p.chunks ++ chunksOf ps := List.flatMap_cons
    have hdrains : drainsIn (p :: ps) = p.drained ++ drainsIn ps := List.flatMap_cons
    rw [hchunks, hdrains, ih]
    cases p <;> rfl

section

variable {h : Host} {a b : App} {l : Label} {ps ps' : List Piece} {heading : String}

theorem layout_nil (a : App) : Layout a [] "" := ⟨[], rfl, fun hne => absurd rfl hne⟩

theorem layout_started (a : App) : Layout a [.note startedNote] startedNote := by
  refine ⟨[], ?_, fun hne => absurd rfl hne⟩
  simp [consoleText, chunksOf, errorText, Piece.text, Piece.chunks, joined]

theorem Layout.step (hlayout : Layout a ps heading) (hlogged : Logged a.backend)
    (hmoves : a.ConsoleMoves l b ps ps') :
    Layout b ps' heading ∨ ps' = [.note startedNote] ∨ ¬ l.keepsLog ∧ ps' = [] := by
  obtain ⟨errs, htext, hchild⟩ := hlayout
  cases hmoves with
  | same hlog hreturned hlen hsame =>
    refine .inl ⟨errs, htext, fun hne => ?_⟩
    rcases hsame with hsame | hnone
    · rw [hsame, hchild hne]
    · exact hnone
  | drained d hd hbackend htail =>
    obtain ⟨hout, hown⟩ := hlogged.draining d hd
    refine .inl ⟨errs, ?_, fun hne => by rw [hbackend]; exact hchild hne⟩
    rw [consoleText_concat, chunksOf_concat, htext, joined_append]
    -- with an error behind it there is no engine to drain from
    by_cases herrs : errs = []
    · subst herrs
      simp only [errorText, List.map_nil, String.join_nil, String.append_empty, Piece.text,
        Piece.chunks, hout, String.append_assoc]
    · have hgot : d.got = [] := List.eq_nil_iff_forall_not_mem.mpr fun c hc => by
        have := hown c hc
        rw [hchild herrs] at this
        cases this
      rw [hgot] at hout
      simp [Piece.text, Piece.chunks, hout, hgot, joined]
  | started => exact .inr (.inl rfl)
  | failed e hlog hreturned hlen hnone =>
    refine .inl ⟨errs ++ [e], ?_, fun _ => hnone⟩
    rw [consoleText_concat, chunksOf_concat, htext, errorText, errorText, List.map_append,
      String.join_append]
    simp [Piece.text, Piece.chunks, String.append_assoc]
  | cleared hl =>
    refine .inr (.inr ⟨fun hkeeps => ?_, rfl⟩)
    subst hl
    cases hkeeps

/-- The console, in any run. -/
structure Written (a : App) (ps : List Piece) : Prop where
  tail : Tail (consoleText ps) a.log
  layout : Layout a ps "" ∨ Layout a ps startedNote
  /-- It has all that was drained since it was erased, -/
  drained : drainsIn ps <:+ a.backend.returned
  /-- which is of the engine started last. -/
  own : ∀ r ∈ drainsIn ps, ∀ g, r.engine = some g → g + 1 = a.backend.engines.length

theorem Written.step (hw : Written a ps) (hlogged : Logged a.backend)
    (hmoves : a.ConsoleMoves l b ps ps') : Written b ps' := by
  have hlayout : Layout b ps' "" ∨ Layout b ps' startedNote := by
    rcases hw.layout with hl | hl <;> rcases hl.step hlogged hmoves with hl | rfl | ⟨-, rfl⟩
    · exact .inl hl
    · exact .inr (layout_started b)
    · exact .inl (layout_nil b)
    · exact .inr hl
    · exact .inr (layout_started b)
    · exact .inl (layout_nil b)
  cases hmoves with
  | same hlog hreturned hlen hsame =>
    exact ⟨hlog ▸ hw.tail, hlayout, hreturned ▸ hw.drained, hlen ▸ hw.own⟩
  | drained d hd hbackend htail =>
    refine ⟨?_, hlayout, ?_, ?_⟩
    · rw [consoleText_concat]
      exact (hw.tail.append d.out).trans htail
    · rw [drainsIn_concat, hbackend]
      obtain ⟨before, hbefore⟩ := hw.drained
      exact ⟨before, by rw [← List.append_assoc, hbefore]; rfl⟩
    · rw [drainsIn_concat, hbackend]
      intro r hr g hg
      rcases List.mem_append.mp hr with hr | hr
      · exact hw.own r hr g hg
      · obtain rfl := List.mem_singleton.mp hr
        exact hlogged.last g hg
  | started hlog =>
    refine ⟨?_, hlayout, List.nil_suffix, fun r hr => absurd hr List.not_mem_nil⟩
    rw [hlog]
    simpa [consoleText, Piece.text] using Tail.refl startedNote
  | failed e hlog hreturned hlen =>
    refine ⟨?_, hlayout, ?_, ?_⟩
    · rw [consoleText_concat, hlog]
      exact hw.tail.append _
    · rw [drainsIn_concat, hreturned]
      simpa [Piece.drained] using hw.drained
    · rw [drainsIn_concat, hlen]
      simpa [Piece.drained] using hw.own
  | cleared _ hlog =>
    refine ⟨?_, hlayout, List.nil_suffix, fun r hr => absurd hr List.not_mem_nil⟩
    rw [hlog]
    exact .refl _

/-- The console in a run without "clear": nothing of the engine's is missing. -/
structure Whole (a : App) (ps : List Piece) : Prop where
  layout : 0 < a.backend.engines.length → Layout a ps startedNote
  drained : ∃ before, a.backend.returned = before ++ drainsIn ps ∧
    ∀ r ∈ before, ∀ g, r.engine = some g → g + 1 < a.backend.engines.length

theorem Whole.step (hw : Whole a ps) (hlogged : Logged a.backend) (hl : l.keepsLog)
    (hmoves : a.ConsoleMoves l b ps ps') : Whole b ps' := by
  obtain ⟨before, hbefore, hold⟩ := hw.drained
  have hlayout : b.backend.engines.length = a.backend.engines.length →
      0 < b.backend.engines.length → Layout b ps' startedNote := by
    intro hlen hpos
    rcases (hw.layout (hlen ▸ hpos)).step hlogged hmoves with hlayout | rfl | ⟨hclears, -⟩
    · exact hlayout
    · exact layout_started b
    · exact absurd hl hclears
  cases hmoves with
  | same hlog hreturned hlen hsame =>
    exact ⟨hlayout hlen, before, hreturned ▸ hbefore, hlen ▸ hold⟩
  | drained d hd hbackend htail =>
    refine ⟨hlayout (by rw [hbackend]; rfl), before, ?_, ?_⟩
    · rw [hbackend, drainsIn_concat, ← List.append_assoc, ← hbefore]
      rfl
    · rw [hbackend]
      exact hold
  | started hlog hreturned hlen =>
    refine ⟨fun _ => layout_started b, a.backend.returned, ?_, fun r hr g hg => ?_⟩
    · rw [hreturned]
      simp [drainsIn, Piece.drained]
    · rw [hlen]
      exact Nat.succ_lt_succ ((hlogged.returned r hr).2.2 g hg)
  | failed e hlog hreturned hlen hnone =>
    refine ⟨hlayout hlen, before, ?_, hlen ▸ hold⟩
    rw [hreturned, drainsIn_concat, hbefore]
    simp [Piece.drained]
  | cleared hlabel =>
    subst hlabel
    cases hl

end

/-! ## Whole runs -/

/-- The texts of one stream. -/
def textsOf (st : Stream) (l : List Chunk) : List String :=
  (l.filter fun c => decide (c.stream = st)).map Chunk.text

theorem textsOf_append (st : Stream) (l l' : List Chunk) :
    textsOf st (l ++ l') = textsOf st l ++ textsOf st l' := by
  rw [textsOf, List.filter_append, List.map_append]
  rfl

/-- What the console shows after the labels `ls`, `ps` having been written. -/
structure Shown (ls : List Label) (a : App) (ps : List Piece) : Prop where
  /-- The log is the end of the console. -/
  tail : Tail (consoleText ps) a.log
  text : ∃ heading errs, (heading = "" ∨ heading = startedNote) ∧
    consoleText ps = heading ++ joined (chunksOf ps) ++ errorText errs
  /-- The output is that of the engine started last, -/
  own : ∀ c ∈ chunksOf ps, c.engine + 1 = a.backend.engines.length
  /-- of each stream in order and without a gap. -/
  isInfix : ∀ (g : Nat) e st, a.backend.engines[g]? = some e → g + 1 = a.backend.engines.length →
    textsOf st (chunksOf ps) <:+: (e.reader st).reads
  /-- Without a "clear", it is all that was drained from that engine. -/
  whole : (∀ l ∈ ls, l.keepsLog) → ∀ g, g + 1 = a.backend.engines.length →
    chunksOf ps = drainedOf a.backend.returned g ∧
      ∃ errs, consoleText ps = startedNote ++ joined (chunksOf ps) ++ errorText errs

section

variable {h : Host} {a b : App} {l : Label} {ps : List Piece}

theorem logged_step (ha : Good a) (hlogged : Logged a.backend)
    (hstep : step h a l = some b) : Logged b.backend := by
  rcases (backendMoves_of_step ha.toIndexed ha.toLinked hstep).backendStep with
    heq | ⟨l', hs, -⟩
  · exact heq ▸ hlogged
  · exact hlogged.step hs

/-- What the console has of an engine is the end of what was drained from it. -/
theorem chunksOf_drained {before : List Drained} {g : Nat} (hlogged : Logged a.backend)
    (hw : Written a ps) (hbefore : a.backend.returned = before ++ drainsIn ps)
    (hg : g + 1 = a.backend.engines.length) :
    drainedOf a.backend.returned g = drainedOf before g ++ chunksOf ps := by
  have honly : ∀ r ∈ drainsIn ps, ∀ c ∈ r.drain.got, r.engine = some g := by
    intro r hr c hc
    have hengine := (hlogged.returned r (hw.drained.mem hr)).2.1 c hc
    have hc : c.engine = g := by
      have := hw.own r hr c.engine hengine
      omega
    rw [hengine, hc]
  rw [hbefore, drainedOf_append, drainedOf_only honly, chunksOf_eq]

/-- Without a "clear", it is all of it. -/
theorem Whole.chunksOf_eq {g : Nat} (hlogged : Logged a.backend) (hw : Written a ps)
    (hwhole : Whole a ps) (hg : g + 1 = a.backend.engines.length) :
    chunksOf ps = drainedOf a.backend.returned g := by
  obtain ⟨before, hbefore, hold⟩ := hwhole.drained
  have hfilter : (before.filter fun r => decide (r.engine = some g)) = [] :=
    List.filter_eq_nil_iff.mpr fun r hr heq => by
      have := hold r hr g (of_decide_eq_true heq)
      omega
  have hnone : drainedOf before g = [] := by
    rw [drainedOf, hfilter]
    rfl
  rw [chunksOf_drained hlogged hw hbefore hg, hnone, List.nil_append]

theorem Written.isInfix {g : Nat} {e : Engine} (hlogged : Logged a.backend) (hw : Written a ps)
    (he : a.backend.engines[g]? = some e) (hg : g + 1 = a.backend.engines.length) (st : Stream) :
    textsOf st (chunksOf ps) <:+: (e.reader st).reads := by
  obtain ⟨before, hbefore⟩ := hw.drained
  have hdelivered : textsOf st (drainedOf a.backend.returned g) <+: (e.reader st).reads :=
    hlogged.delivered_isPrefix st he
  rw [chunksOf_drained hlogged hw hbefore.symm hg, textsOf_append] at hdelivered
  exact (List.suffix_append _ _).isInfix.trans hdelivered.isInfix

theorem Written.own_chunks (hlogged : Logged a.backend) (hw : Written a ps) :
    ∀ c ∈ chunksOf ps, c.engine + 1 = a.backend.engines.length := by
  intro c hc
  rw [chunksOf_eq, List.mem_flatten] at hc
  obtain ⟨l, hl, hc⟩ := hc
  obtain ⟨r, hr, rfl⟩ := List.mem_map.mp hl
  exact hw.own r hr c.engine ((hlogged.returned r (hw.drained.mem hr)).2.1 c hc)

end

/-- What every run keeps, and without a "clear" the rest of it. -/
theorem written_run (h : Host) (exeDir : String) (detected : Option (String × String))
    (files : Files) {ls : List Label} {a : App} (hpiped : ∀ l ∈ ls, l.piped)
    (hrun : Runs.run (step h) (App.new h exeDir detected files) ls = some a) :
    Logged a.backend ∧ Written a (written h (App.new h exeDir detected files) ls) ∧
      ((∀ l ∈ ls, l.keepsLog) → Whole a (written h (App.new h exeDir detected files) ls)) := by
  have hinit : Good (App.new h exeDir detected files) ∧
      Logged (App.new h exeDir detected files).backend ∧
      Written (App.new h exeDir detected files) [] :=
    ⟨.new h exeDir detected files, .new _ files, .refl _, .inl (layout_nil _), List.nil_suffix,
      fun _ hr => absurd hr List.not_mem_nil⟩
  have hstep : ∀ (s : App) (l : Label) (t : App) (ps : List Piece), l.piped →
      Good s ∧ Logged s.backend ∧ Written s ps → step h s l = some t →
      Good t ∧ Logged t.backend ∧ Written t (s.writes h l ps) := by
    rintro s l t ps hl ⟨hs, hlogged, hw⟩ ht
    exact ⟨hs.step ht, logged_step hs hlogged ht, hw.step hlogged (consoleMoves_of_step hs hl ht)⟩
  obtain ⟨-, hlogged, hw⟩ := run_inv_along hstep hpiped hinit hrun
  refine ⟨hlogged, hw, fun hkeeps => ?_⟩
  have hwhole : ∀ (s : App) (l : Label) (t : App) (ps : List Piece), l.piped ∧ l.keepsLog →
      (Good s ∧ Logged s.backend) ∧ Whole s ps → step h s l = some t →
      (Good t ∧ Logged t.backend) ∧ Whole t (s.writes h l ps) := by
    rintro s l t ps ⟨hl, hkeep⟩ ⟨⟨hs, hlogged⟩, hw⟩ ht
    exact ⟨⟨hs.step ht, logged_step hs hlogged ht⟩,
      hw.step hlogged hkeep (consoleMoves_of_step hs hl ht)⟩
  have hstart : Whole (App.new h exeDir detected files) [] :=
    ⟨fun hpos => absurd hpos (Nat.lt_irrefl 0), [], rfl, fun _ hr => absurd hr List.not_mem_nil⟩
  exact (run_inv_along hwhole (fun l hl => ⟨hpiped l hl, hkeeps l hl⟩)
    ⟨⟨hinit.1, hinit.2.1⟩, hstart⟩ hrun).2

/-- **The console**, in every run of the application: the log is the end of what
was written, and what was written is the engine's output in order, with the
manager's own lines before and after it. -/
theorem shown_run (h : Host) (exeDir : String) (detected : Option (String × String))
    (files : Files) {ls : List Label} {a : App} (hpiped : ∀ l ∈ ls, l.piped)
    (hrun : Runs.run (step h) (App.new h exeDir detected files) ls = some a) :
    Shown ls a (written h (App.new h exeDir detected files) ls) := by
  obtain ⟨hlogged, hw, hwhole⟩ := written_run h exeDir detected files hpiped hrun
  refine ⟨hw.tail, ?_, hw.own_chunks hlogged, fun g e st he hg => hw.isInfix hlogged he hg st,
    fun hkeeps g hg => ?_⟩
  · rcases hw.layout with ⟨errs, htext, -⟩ | ⟨errs, htext, -⟩
    · exact ⟨"", errs, .inl rfl, htext⟩
    · exact ⟨startedNote, errs, .inr rfl, htext⟩
  · obtain ⟨errs, htext, -⟩ := (hwhole hkeeps).layout (by omega)
    exact ⟨(hwhole hkeeps).chunksOf_eq hlogged hw hg, errs, htext⟩

/-- **A boot in the console**: what the user of the application reads of an engine
that boots the hypervisor, stderr being silent, whatever else is clicked. The
boot's lines are in it as they were printed, and while the log is below its cap
each of them is a line of it. -/
theorem console_boot {env : Env} {systemTable : BitVec 64} {s m : Machine} {stage : Stage}
    (hs : Fresh s) (hserial : s.serial = []) (hboot : Boot env systemTable s stage m) (h : Host)
    (exeDir : String) (detected : Option (String × String)) (files : Files) {ls : List Label}
    {a : App} (hpiped : ∀ l ∈ ls, l.piped) (hkeeps : ∀ l ∈ ls, l.keepsLog)
    (hrun : Runs.run (step h) (App.new h exeDir detected files) ls = some a) {g : Nat}
    (hg : g + 1 = a.backend.engines.length) (hsilent : a.backend.delivered g .stderr = [])
    {reads : List Bytes} (hstdout : a.backend.delivered g .stdout = reads.map fromUtf8Lossy)
    {p more : Bytes} {n : Nat}
    (hreads : reads.flatten = p ++ Serial.encode (m.serial.take (n + 1)) ++ more) :
    ∃ ps qs errs, ps.flatten = p ∧ qs.flatten = more ∧
      Tail (startedNote ++ (decodedReads ps ++ terminated (m.serial.take (n + 1)) ++
        decodedReads qs) ++ errorText errs) a.log ∧
      ((p = [] ∨ p.getLast? = some 0x0A) → a.log.utf8ByteSize < logCap → ∃ above below,
        Vm.lines a.log = ">> vm started" :: (above ++ m.serial.take (n + 1) ++ below)) := by
  obtain ⟨hlogged, hw, hwhole⟩ := written_run h exeDir detected files hpiped hrun
  have hchunks := (hwhole hkeeps).chunksOf_eq hlogged hw hg
  obtain ⟨errs, htext, -⟩ := (hwhole hkeeps).layout (by omega)
  obtain ⟨htagged, hfirst⟩ := boot_serial hs hserial hboot
  have hls : ∀ l ∈ m.serial.take (n + 1), AsciiLine l := fun l hl =>
    (htagged l (List.mem_of_mem_take hl)).1
  have hne : m.serial.take (n + 1) ≠ [] := by
    obtain ⟨rest, hrest⟩ := List.head?_eq_some_iff.mp hfirst
    rw [hrest]
    exact List.cons_ne_nil _ _
  obtain ⟨ps, qs, rfl, rfl, hdecoded⟩ := decodedReads_encode_between hls hne hreads
  have houtput : joined (chunksOf (written h (App.new h exeDir detected files) ls)) =
      decodedReads reads := by
    rw [hchunks, joined_silent hsilent, hstdout, decodedReads]
  have htail := hw.tail
  rw [htext, houtput, hdecoded] at htail
  refine ⟨ps, qs, errs, rfl, rfl, htail, fun hend hsize => ?_⟩
  obtain ⟨gone, hlog, rfl | hcap⟩ := htail
  · rw [String.empty_append] at hlog
    have hstarted : Vm.lines startedNote = [">> vm started"] := by decide
    rw [← hlog, String.append_assoc, String.append_assoc,
      lines_append (.inr (by decide)), hstarted, lines_append (.inr (terminated_newline hne _)),
      lines_append_terminated hls hend]
    exact ⟨_, _, rfl⟩
  · exact absurd hsize (Nat.not_lt.mpr hcap)

/-! ### A run that shows something -/

/-- The application before its first start. -/
def firstReady : App :=
  { App.new bareHost "app" none fun _ => none with
    backend := { Sys.new (bareHost.join "app" "runtime") fun _ => none with
      returned := [⟨none, ⟨"", []⟩⟩] }
    phase := .start (.default 0)
    sidebar := [⟨0, false, "○ " ++ "mochivm"⟩] }

def startLabels : List Label :=
  sidebarLabels [(false, false)] false ++ [.part .delete, .part (.statusBar false), .part .central]

/-- The banner comes through in one read, and a frame drains it. -/
def bannerFrame : List Label :=
  [.part (.stop false), .part (.reset none), .part (.settings none), .part (.console true false),
    .engine 0 (.read .stdout bannerBytes), .engine 0 (.send .stdout), .frame, .drainRecv]

/-- The application after it, with this backend. -/
def firstStarted (s : Sys) : App :=
  { firstReady with
    backend := s
    startedFrom := Function.update firstReady.startedFrom firstReady.backend.engines.length 0
    status := "running"
    log := startedNote
    phase := .stop (.default 0) }

theorem firstStarted_run : ∃ files program args,
    Runs.run (step bareHost) (App.new bareHost "app" none fun _ => none)
      (startLabels ++ [.part (.start (some smoothWorld))]) = some (firstStarted
        ((firstReady.backend.stopped.withFiles files).launched program args)) := by
  obtain ⟨t, hret, files, program, args, rfl⟩ := @start_started firstReady.backend bareHost
    (Entry.default 0).toVmConfig firstReady.efiPath firstReady.ovmfCode firstReady.ovmfVars
    smoothWorld rfl (smoothWorld_willing _ _)
  have hready : Runs.run (step bareHost) (App.new bareHost "app" none fun _ => none)
      startLabels = some firstReady := rfl
  have hstart : step bareHost firstReady (.part (.start (some smoothWorld))) =
      some (firstReady.exec
        (runButton bareHost (.default 0) (some smoothWorld) (.stop (.default 0)))) := rfl
  rw [exec_runButton_ok hret] at hstart
  refine ⟨files, program, args, ?_⟩
  rw [run_append, hready, Option.bind_some, Runs.run, hstart]
  rfl

/-- The string of the banner's drain. -/
def bannerDrain : Drain :=
  ⟨"" ++ fromUtf8Lossy bannerBytes, [⟨0, .stdout, fromUtf8Lossy bannerBytes⟩]⟩

theorem bannerFrame_run : ∃ a, Runs.run (step bareHost) (App.new bareHost "app" none fun _ => none)
      ((startLabels ++ [.part (.start (some smoothWorld))]) ++ bannerFrame ++ [.drainEnd]) =
        some a ∧
    a.backend.engines.length = 1 ∧
    a.backend.returned = [⟨none, ⟨"", []⟩⟩, ⟨some 0, bannerDrain⟩] := by
  obtain ⟨files, program, args, hstart⟩ := firstStarted_run
  obtain ⟨b, hb, hd, hpending, hchild, hreturned, hlen⟩ : ∃ b, Runs.run (step bareHost)
      (firstStarted ((firstReady.backend.stopped.withFiles files).launched program args))
      bannerFrame = some b ∧ b.backend.draining = some bannerDrain ∧ b.backend.pending = [] ∧
      b.backend.backend.child = some 0 ∧ b.backend.returned = [⟨none, ⟨"", []⟩⟩] ∧
      b.backend.engines.length = 1 := ⟨_, rfl, rfl, rfl, rfl, rfl, rfl⟩
  have hend : Vm.step bareHost b.backend .drainEnd = some (b.backend.drainedBy bannerDrain) := by
    rw [Vm.step, hd, hpending]
    rfl
  have hdrain : step bareHost b .drainEnd = some (App.exec
      { b with backend := b.backend.drainedBy bannerDrain } (showLog bannerDrain.out)) := by
    rw [step, hd]
    dsimp only
    rw [App.backendStep, hend]
    rfl
  obtain ⟨⟨-, hbackend, -⟩, -⟩ :=
    exec_showLog bannerDrain.out { b with backend := b.backend.drainedBy bannerDrain }
  generalize App.exec { b with backend := b.backend.drainedBy bannerDrain }
    (showLog bannerDrain.out) = c at hdrain hbackend
  refine ⟨c, ?_, ?_, ?_⟩
  · rw [run_append, run_append, hstart, Option.bind_some, hb, Option.bind_some, Runs.run, hdrain]
    rfl
  · rw [hbackend]
    exact hlen
  · rw [hbackend]
    show b.backend.returned ++ [⟨b.backend.backend.child, bannerDrain⟩] = _
    rw [hreturned, hchild]
    rfl

theorem bannerFrame_labels : ∀ l ∈ (startLabels ++ [.part (.start (some smoothWorld))]) ++
    bannerFrame ++ [.drainEnd], Label.piped l ∧ Label.keepsLog l := by
  simp [startLabels, bannerFrame, sidebarLabels, Label.piped, Label.keepsLog, smoothWorld]

theorem shown_run_banner : ∃ a ls, Runs.run (step bareHost)
      (App.new bareHost "app" none fun _ => none) ls = some a ∧
    Shown ls a (written bareHost (App.new bareHost "app" none fun _ => none) ls) := by
  obtain ⟨a, hrun, -⟩ := bannerFrame_run
  exact ⟨a, _, hrun, shown_run bareHost "app" none _ (fun l hl => (bannerFrame_labels l hl).1) hrun⟩

/-- Of a boot with five HLTs, the first line comes through. -/
theorem console_boot_banner : ∃ (m : Machine) (a : App) (ls : List Label)
    (ps qs : List Bytes) (errs : List String),
    Runs.run (step bareHost) (App.new bareHost "app" none fun _ => none) ls = some a ∧
      Tail (startedNote ++ (decodedReads ps ++ terminated (m.serial.take 1) ++ decodedReads qs) ++
        errorText errs) a.log ∧
      (([] : Bytes) = [] ∨ ([] : Bytes).getLast? = some 0x0A → a.log.utf8ByteSize < logCap →
        ∃ above below,
          Vm.lines a.log = ">> vm started" :: (above ++ m.serial.take 1 ++ below)) := by
  obtain ⟨mode, m, hboot⟩ := boot_fiveHlts
  obtain ⟨a, hrun, hlen, hreturned⟩ := bannerFrame_run
  have hfirst : m.serial.take 1 = ["[mochivm] mochivm booted"] := by
    obtain ⟨rest, hrest⟩ :=
      List.head?_eq_some_iff.mp (boot_serial bootMachine_fresh rfl hboot).2
    rw [hrest]
    rfl
  have hsilent : a.backend.delivered 0 .stderr = [] := by
    rw [Sys.delivered, hreturned]
    rfl
  have hstdout : a.backend.delivered 0 .stdout = [bannerBytes].map fromUtf8Lossy := by
    rw [Sys.delivered, hreturned]
    rfl
  have hreads : [bannerBytes].flatten = [] ++ Serial.encode (m.serial.take (0 + 1)) ++ [] := by
    rw [hfirst, List.append_nil, List.flatten_cons, List.flatten_nil, List.append_nil]
    rfl
  obtain ⟨ps, qs, errs, -, -, htail, hlines⟩ := console_boot bootMachine_fresh rfl hboot bareHost
    "app" none _ (fun l hl => (bannerFrame_labels l hl).1)
    (fun l hl => (bannerFrame_labels l hl).2) hrun (g := 0) hlen.symm hsilent hstdout hreads
  exact ⟨m, a, _, ps, qs, errs, hrun, htail, hlines⟩

end MochiVM.Gui
