import MochiVM.Manager.AppRuns

/-!
# The running mark (manager/src/main.rs)

One backend serves all entries of the list, and nothing in it says which of them
its engine was started from: the sidebar marks the selected row while the engine
runs. `marksHold_iff` says in which runs that is the truth: those in which
whatever row is drawn while an engine is live is selected exactly if the engine
was started from it. `marksHold_of_steady` says how to stay in them: never
change the selected entry while an engine is live.
-/

namespace MochiVM.Gui

open MochiVM.Buffer MochiVM.Fat MochiVM.Vm MochiVM.Runs MochiVM.Panic

/-! ## The live engine -/

/-- Engine `g` is running. -/
def Live (s : Sys) (g : Nat) : Prop := ∃ e, s.engines[g]? = some e ∧ e.proc = .running

theorem Live.child {s : Sys} {g : Nat} (h : Live s g) (hs : Owned s) :
    s.backend.child = some g := by
  obtain ⟨e, he, hproc⟩ := h
  refine hs.unreaped_child ⟨e, he, ?_⟩
  rw [hproc]
  simp

/-- At most one engine is live, and `is_running` speaks of it. -/
theorem live_iff {s : Sys} (hs : Owned s) (g : Nat) :
    Live s g ↔ s.backend.child = some g ∧ s.childRuns = true := by
  constructor
  · intro h
    have hchild := h.child hs
    obtain ⟨e, he, hproc⟩ := h
    refine ⟨hchild, ?_⟩
    rw [Sys.childRuns, hchild]
    show ((s.engines[g]?).map Engine.proc == some .running) = true
    rw [he, Option.map_some, hproc]
    rfl
  · rintro ⟨hchild, hruns⟩
    rw [Sys.childRuns, hchild] at hruns
    obtain ⟨e, he, hproc⟩ := Option.map_eq_some_iff.mp (beq_iff_eq.mp hruns)
    exact ⟨e, he, hproc⟩

theorem childRuns_iff {s : Sys} (hs : Owned s) : s.childRuns = true ↔ ∃ g, Live s g := by
  constructor
  · intro hruns
    cases hchild : s.backend.child with
    | none =>
      rw [Sys.childRuns, hchild] at hruns
      cases hruns
    | some g => exact ⟨g, (live_iff hs g).mpr ⟨hchild, hruns⟩⟩
  · rintro ⟨g, hg⟩
    exact ((live_iff hs g).mp hg).2

theorem Live.unique {s : Sys} {g g' : Nat} (h : Live s g) (h' : Live s g') (hs : Owned s) :
    g = g' :=
  Option.some_inj.mp ((h.child hs).symm.trans (h'.child hs))

/-! ## One row -/

/-- The row that a step draws is that of the list, and it is marked exactly if a
live engine was started from its entry. -/
def MarkRight (a : App) (l : Label) (b : App) : Prop :=
  ∀ clicked deleteClicked fails i n toDelete,
    l = .part (.row clicked deleteClicked fails) → a.phase = .row i n toDelete →
    ∃ vm row, a.vms[i]? = some vm ∧ b.sidebar = a.sidebar ++ [row] ∧ row.id = vm.id ∧
      row.text = (if row.running then "● " else "○ ") ++ vm.name ∧
      (row.running = true ↔ ∃ g, Live a.backend g ∧ a.startedFrom g = vm.id)

/-- If an engine is live, the row drawn is selected (and the engine's `try_wait`
does not fail) exactly if the engine was started from its entry. -/
def Watched (a : App) (l : Label) (_ : App) : Prop :=
  ∀ clicked deleteClicked fails i n toDelete,
    l = .part (.row clicked deleteClicked fails) → a.phase = .row i n toDelete →
    ∀ vm g, a.vms[i]? = some vm → Live a.backend g →
      ((i = a.selected ∧ fails = false) ↔ a.startedFrom g = vm.id)

theorem marks_iff {a : App} (hs : Owned a.backend) (i : Nat) (fails : Bool) :
    a.marks i fails = true ↔ (i = a.selected ∧ fails = false) ∧ ∃ g, Live a.backend g := by
  rw [← childRuns_iff hs, App.marks]
  simp only [Bool.and_eq_true, decide_eq_true_eq, Bool.not_eq_true']
  constructor
  · rintro ⟨hi, hruns, hfails⟩
    exact ⟨⟨hi, hfails⟩, hruns⟩
  · rintro ⟨⟨hi, hfails⟩, hruns⟩
    exact ⟨hi, hruns, hfails⟩

theorem markTrue_iff {a : App} (hs : Owned a.backend) (i : Nat) (fails : Bool) (id : Nat) :
    (a.marks i fails = true ↔ ∃ g, Live a.backend g ∧ a.startedFrom g = id) ↔
      ∀ g, Live a.backend g → ((i = a.selected ∧ fails = false) ↔ a.startedFrom g = id) := by
  rw [marks_iff hs]
  constructor
  · intro h g hg
    constructor
    · intro hsel
      obtain ⟨g', hg', hfrom⟩ := h.mp ⟨hsel, g, hg⟩
      rwa [hg.unique hg' hs]
    · intro hfrom
      exact (h.mpr ⟨g, hg, hfrom⟩).1
  · intro h
    constructor
    · rintro ⟨hsel, g, hg⟩
      exact ⟨g, hg, (h g hg).mp hsel⟩
    · rintro ⟨g, hg, hfrom⟩
      exact ⟨(h g hg).mpr hfrom, g, hg⟩

/-- **One row** is marked right exactly if it is watched. -/
theorem markRight_iff {h : Host} {a b : App} {l : Label} (ha : Indexed a) (hs : Owned a.backend)
    (hstep : step h a l = some b) : MarkRight a l b ↔ Watched a l b := by
  refine forall_congr' fun clicked => forall_congr' fun deleteClicked => forall_congr' fun fails =>
    forall_congr' fun i => forall_congr' fun n => forall_congr' fun toDelete => ?_
  refine forall₂_congr fun hl hphase => ?_
  subst hl
  cases App.takes_of_step hstep with | part p m hcode =>
  cases hcode with | row i' n' toDelete' hphase' hi =>
  -- the phase names the row
  obtain ⟨rfl, rfl, rfl⟩ := Phase.row.inj (hphase'.symm.trans hphase)
  have hfits := ha.fits
  rw [hphase] at hfits
  obtain ⟨vm, hvm⟩ : ∃ vm, a.vms[i']? = some vm :=
    ⟨_, List.getElem?_eq_getElem (show i' < a.vms.length from hfits.1 ▸ hi)⟩
  rw [exec_drawRow hvm]
  constructor
  · rintro ⟨vm', row, hvm', hrow, _, _, hmark⟩ vm'' g hvm'' hg
    rw [hvm] at hvm' hvm''
    cases hvm'
    cases hvm''
    obtain rfl := List.singleton_inj.mp (List.append_cancel_left hrow)
    exact (markTrue_iff hs i' fails vm.id).mp hmark g hg
  · intro hwatched
    exact ⟨vm, _, hvm, rfl, rfl, rfl, (markTrue_iff hs i' fails vm.id).mpr fun g hg =>
      hwatched vm g hvm hg⟩

/-! ## Whole runs -/

/-- What every state reached has, if the handles are there. -/
structure Managed (a : App) : Prop extends Good a where
  owned : Owned a.backend

theorem Managed.step {h : Host} {a b : App} {l : Label} (ha : Managed a) (hl : l.piped)
    (hstep : step h a l = some b) : Managed b := by
  refine ⟨ha.toGood.step hstep, ?_⟩
  rcases (backendMoves_of_step ha.toIndexed ha.toLinked hstep).backendStep with
    heq | ⟨l', hs, hcalls | ⟨cfg, efi, code, vars, w, hruns, rfl⟩⟩
  · exact heq ▸ ha.owned
  · exact ha.owned.step hcalls.piped hs
  · exact ha.owned.step (l := .start cfg efi code vars w) (hruns.piped hl) hs

theorem Managed.new (h : Host) (exeDir : String) (detected : Option (String × String))
    (files : Files) : Managed (App.new h exeDir detected files) :=
  ⟨.new h exeDir detected files, .new _ files⟩

theorem marksHold_of_managed (h : Host) {a : App} (ha : Managed a) {ls : List Label}
    (hpiped : ∀ l ∈ ls, l.piped) :
    Each (step h) MarkRight a ls ↔ Each (step h) Watched a ls :=
  each_congr_on (fun _ _ _ hl hs hstep => Managed.step hs hl hstep)
    (fun _ _ _ _ hs hstep => markRight_iff hs.toIndexed hs.owned hstep) hpiped ha

/-- **The running mark** is right exactly in the runs whose every drawn row is
watched. -/
theorem marksHold_iff (h : Host) (exeDir : String) (detected : Option (String × String))
    (files : Files) {ls : List Label} (hpiped : ∀ l ∈ ls, l.piped) :
    Each (step h) MarkRight (App.new h exeDir detected files) ls ↔
      Each (step h) Watched (App.new h exeDir detected files) ls :=
  marksHold_of_managed h (.new h exeDir detected files) hpiped

/-! ## Which engines a step leaves live -/

section

variable {hst : Host} {s t : Sys} {g : Nat}

theorem live_of_modify {g' : Nat} {f : Engine → Engine}
    (hf : ∀ e, s.engines[g']? = some e → (f e).proc = .running → e.proc = .running)
    (h : Live (s.modifyEngine g' f) g) : Live s g := by
  obtain ⟨e, he, hproc⟩ := h
  obtain ⟨e₀, he₀, ⟨rfl, rfl⟩ | ⟨_, rfl⟩⟩ := modifyEngine_eq_some he
  · exact ⟨e₀, he₀, hf e₀ he₀ hproc⟩
  · exact ⟨_, he₀, hproc⟩

theorem not_live_stopped (hs : Owned s) : ¬ Live s.stopped g := by
  intro h
  have hchild := h.child hs.stopped
  rw [s.stopped_child] at hchild
  cases hchild

/-- An engine that is running after it moved was running before. -/
theorem running_of_moves {e e' : Engine} (h : e.Moves g e') (hproc : e'.proc = .running) :
    e.proc = .running := by
  cases h with
  | exit => cases hproc
  | read | send | readerEnd => exact hproc

/-- Only `start` makes an engine live. -/
theorem live_of_step (hs : Owned s) {l : Vm.Label}
    (hl : ∀ cfg efi code vars w, l ≠ .start cfg efi code vars w)
    (hstep : Vm.step hst s l = some t) (h : Live t g) : Live s g := by
  cases Sys.moves_of_step hs.sync hstep with
  | notStarted | orphaned | started => exact absurd rfl (hl _ _ _ _ _)
  | stop => exact absurd h (not_live_stopped hs)
  | notRunning | drainBegin | drainEnd => exact h
  | reaped g' =>
    refine live_of_modify (fun _ _ hproc => ?_) h
    cases hproc
  | drop => exact absurd h (not_live_stopped hs)
  | drainRecv d c =>
    rw [Sys.received] at h
    cases hrx : s.backend.rx with
    | none =>
      rw [hrx] at h
      exact h
    | some g' =>
      rw [hrx] at h
      exact live_of_modify (f := fun e => { e with queue := e.queue.tail })
        (fun _ _ hproc => hproc) h
  -- an engine by itself may exit, and starts none
  | engine g' e e' l' he he' =>
    refine live_of_modify (fun e₀ he₀ hproc => ?_) h
    rw [he] at he₀
    cases he₀
    exact running_of_moves (Engine.moves_of_step he') hproc

/-- And only the one it spawns. -/
theorem live_of_start (hs : Owned s) (hdropped : s.dropped = false) {cfg : VmConfig}
    {efi code vars : String} {w : World} (hpiped : ∀ st, w.piped st = true)
    (h : Live (finalState (start hst cfg efi code vars w s)) g) : g = s.engines.length := by
  have hnot : ∀ t, NotStarted s t → ¬ Live t g := by
    intro t ht hlive
    obtain ⟨howned, hchild⟩ := hs.notStarted ht
    rw [hlive.child howned] at hchild
    cases hchild
  have hlen : s.stopped.engines.length = s.engines.length := by
    rw [Sys.stopped]
    cases s.backend.child with
    | none => rfl
    | some g' => exact List.length_modify ..
  refine (ends_iff_finalState (I := fun t => Live t g → g = s.engines.length)).mp
    ((start_launches hs.sync).mono (fun r t ht hlive => ?_) fun _ t ht hlive =>
      absurd hlive (hnot t ht)) h
  rcases ht with ⟨_, ht⟩ | ⟨files, ⟨_, hno, _⟩ | ⟨_, rfl⟩⟩
  · exact absurd hlive (hnot t ht)
  · exact absurd hpiped hno
  · have howned := (hs.stopped.withFiles files).launched s.stopped_child
      (s.stopped_dropped.trans hdropped) (qemuBin hst) (startArgs hst cfg code s.backend.runDir)
    have hchild := hlive.child howned
    exact (Option.some_inj.mp hchild).symm.trans hlen

end

/-! ## Steady runs -/

/-- The entry that is selected. -/
def App.selectedId (a : App) : Option Nat := (a.vms[a.selected]?).map Entry.id

/-- The step keeps the selected entry, or leaves no engine live; and `try_wait`
does not fail. -/
structure Steady (a : App) (l : Label) (b : App) : Prop where
  selected : b.selectedId = a.selectedId ∨ ∀ g, ¬ Live b.backend g
  polled : ∀ clicked deleteClicked fails, l = .part (.row clicked deleteClicked fails) →
    fails = false

/-- A live engine was started from the selected entry. -/
structure Matched (a : App) : Prop extends Managed a where
  origin : ∀ g, Live a.backend g → a.selectedId = some (a.startedFrom g)

theorem Matched.watched {a b : App} {l : Label} (ha : Matched a) (hsteady : Steady a l b) :
    Watched a l b := by
  intro clicked deleteClicked fails i n toDelete hl hphase vm g hvm hg
  have hid := ha.origin g hg
  rw [App.selectedId, Option.map_eq_some_iff] at hid
  obtain ⟨vm', hvm', hid⟩ := hid
  have hlt : i < a.vms.length := (List.getElem?_eq_some_iff.mp hvm).1
  constructor
  · rintro ⟨rfl, _⟩
    rw [hvm] at hvm'
    cases hvm'
    exact hid.symm
  · intro hfrom
    refine ⟨?_, hsteady.polled _ _ _ hl⟩
    -- no two entries have the same number
    have hget : (a.vms.map Entry.id)[i]? = (a.vms.map Entry.id)[a.selected]? := by
      rw [List.getElem?_map, List.getElem?_map, hvm, hvm', Option.map_some, Option.map_some, hid,
        hfrom]
    exact (List.getElem?_inj (by rwa [List.length_map]) ha.distinct).mp hget

theorem Matched.step {h : Host} {a b : App} {l : Label} (ha : Matched a) (hl : l.piped)
    (hsteady : Steady a l b) (hstep : step h a l = some b) : Matched b := by
  refine ⟨ha.toManaged.step hl hstep, fun g hg => ?_⟩
  have hsel : b.selectedId = a.selectedId := hsteady.selected.resolve_right fun h => h g hg
  rw [hsel]
  cases backendMoves_of_step ha.toIndexed ha.toLinked hstep with
  | same heq hfrom =>
    rw [hfrom]
    exact ha.origin g (heq ▸ hg)
  | call l' hcalls hs hfrom =>
    rw [hfrom]
    refine ha.origin g (live_of_step ha.owned ?_ hs hg)
    rintro cfg efi code vars w rfl
    cases hcalls
  -- what is started is the panel's copy of the selected entry
  | run cfg w hruns hcfg hcall hran =>
    rw [hran.backend] at hg
    obtain rfl := live_of_start ha.owned (callable_not_dropped hcall) (hruns.piped hl) hg
    rw [hran.startedFrom, Function.update_self, App.selectedId, ha.copied cfg hcfg]
    rfl

theorem watched_of_steady (h : Host) {a : App} (ha : Matched a) {ls : List Label}
    (hpiped : ∀ l ∈ ls, l.piped) (hsteady : Each (step h) Steady a ls) :
    Each (step h) Watched a ls :=
  hsteady.imp_on (fun _ _ _ hl hs hst hstep => ⟨Matched.step hs hl hst hstep, hs.watched hst⟩)
    hpiped ha

theorem Matched.new (h : Host) (exeDir : String) (detected : Option (String × String))
    (files : Files) : Matched (App.new h exeDir detected files) where
  toManaged := .new h exeDir detected files
  origin g hg := by
    obtain ⟨e, he, _⟩ := hg
    cases he

/-- **Steady runs**: the mark is right as long as the selected entry is kept while
an engine is live. -/
theorem marksHold_of_steady (h : Host) (exeDir : String) (detected : Option (String × String))
    (files : Files) {ls : List Label} (hpiped : ∀ l ∈ ls, l.piped)
    (hsteady : Each (step h) Steady (App.new h exeDir detected files) ls) :
    Each (step h) MarkRight (App.new h exeDir detected files) ls :=
  (marksHold_of_managed h (.new h exeDir detected files) hpiped).mpr
    (watched_of_steady h (.new h exeDir detected files) hpiped hsteady)

/-! ## A single VM -/

/-- A label other than a click on "+ new vm" or a failing `try_wait`. -/
def Label.single : Label → Prop
  | .part (.newVm clicked) => clicked = false
  | .part (.row _ _ fails) => fails = false
  | _ => True

/-- The list is the first entry alone. -/
structure Single (a : App) : Prop extends Indexed a where
  ids : a.vms.map Entry.id = [0]

theorem Single.selectedId {a : App} (ha : Single a) : a.selectedId = some 0 := by
  have hlen : a.vms.length = 1 := by
    rw [← List.length_map (f := Entry.id), ha.ids]
    rfl
  have hzero : a.selected = 0 := by
    have := ha.selected
    omega
  rw [App.selectedId, hzero, ← List.getElem?_map, ha.ids]
  rfl

theorem Single.step {h : Host} {a b : App} {l : Label} (ha : Single a) (hl : l.single)
    (hstep : step h a l = some b) : Single b := by
  have hindexed := ha.toIndexed.step hstep
  refine ⟨hindexed, ?_⟩
  cases App.listMoves_of_step ha.selected ha.fits hstep with
  | other hlist => rw [hlist.vms, ha.ids]
  | row => exact ha.ids
  | newVm => cases hl
  | delete toDelete =>
    -- the last entry is not deleted
    have hlen : ¬ 1 < a.vms.length := by
      rw [← List.length_map (f := Entry.id), ha.ids]
      exact Nat.lt_irrefl 1
    cases toDelete with
    | none => exact ha.ids
    | some i =>
      rw [App.deleted, if_neg hlen]
      exact ha.ids
  | settings input vm hvm hvms => rw [hvms, map_id_set input hvm, ha.ids]

theorem steady_of_single (h : Host) {a : App} (ha : Single a) {ls : List Label}
    (hls : ∀ l ∈ ls, l.single) : Each (step h) Steady a ls := by
  refine each_of_inv_on (fun s l t hl hs hstep => ?_) hls ha
  have ht := Single.step hs hl hstep
  refine ⟨ht, .inl (ht.selectedId.trans hs.selectedId.symm), ?_⟩
  rintro clicked deleteClicked fails rfl
  exact hl

/-- A frame in which the only VM is started, and the sidebar of the next. -/
def startOnly : List Label :=
  sidebarLabels [(false, false)] false ++ panelLabels (some smoothWorld) ++
    sidebarLabels [(false, false)] false

theorem marksHold_startOnly :
    Each (step bareHost) MarkRight (App.new bareHost "app" none fun _ => none) startOnly := by
  have hpiped : ∀ l ∈ startOnly, l.piped := by
    simp [startOnly, sidebarLabels, panelLabels, Label.piped, smoothWorld]
  have hsingle : ∀ l ∈ startOnly, l.single := by
    simp [startOnly, sidebarLabels, panelLabels, Label.single]
  have hnew : Single (App.new bareHost "app" none fun _ => none) := ⟨.new _ _ _ _, rfl⟩
  exact (marksHold_iff bareHost "app" none (fun _ => none) hpiped).mpr
    (watched_of_steady bareHost (.new _ _ _ _) hpiped (steady_of_single bareHost hnew hsingle))

/-! ## Another row selected -/

/-- A frame that adds a second VM and starts it. -/
def startSecond : List Label :=
  sidebarLabels [(false, false)] true ++ [.part .delete, .part (.statusBar false), .part .central]

/-- The rest of it, and the next up to the second row; the first is clicked. -/
def selectFirst : List Label :=
  [.part (.stop false), .part (.reset none), .part (.settings none), .part (.console true false),
    .frame, .drainEnd, .part (.row true false false)]

/-- The application before that start. -/
def secondReady : App :=
  { App.new bareHost "app" none fun _ => none with
    vms := [.default 0, .default 1]
    selected := 1
    backend := { Sys.new (bareHost.join "app" "runtime") fun _ => none with
      returned := [⟨none, ⟨"", []⟩⟩] }
    phase := .start (.default 1)
    created := 2
    sidebar := [⟨0, false, "○ " ++ "mochivm"⟩] }

theorem startSecond_run : Runs.run (step bareHost) (App.new bareHost "app" none fun _ => none)
    startSecond = some secondReady := rfl

theorem selectFirst_run : ∃ a, Runs.run (step bareHost) (App.new bareHost "app" none fun _ => none)
      (startSecond ++ .part (.start (some smoothWorld)) :: selectFirst) = some a ∧
    a.phase = .row 1 2 none ∧ a.selected = 0 ∧ a.vms[1]? = some (.default 1) ∧
    Live a.backend 0 ∧ a.startedFrom 0 = 1 := by
  obtain ⟨t, hret, files, program, args, rfl⟩ := @start_started secondReady.backend bareHost
    (Entry.default 1).toVmConfig secondReady.efiPath secondReady.ovmfCode secondReady.ovmfVars
    smoothWorld rfl (smoothWorld_willing _ _)
  have hstart : step bareHost secondReady (.part (.start (some smoothWorld))) =
      some (secondReady.exec
        (runButton bareHost (.default 1) (some smoothWorld) (.stop (.default 1)))) := rfl
  rw [exec_runButton_ok hret] at hstart
  rw [run_append, startSecond_run, Option.bind_some, Runs.run, hstart, Option.bind_some]
  refine ⟨_, rfl, rfl, rfl, rfl, ⟨_, rfl, rfl⟩, rfl⟩

/-- The second VM runs, the first is selected: the second row is drawn unmarked. -/
theorem not_marksHold_second : ¬ Each (step bareHost) MarkRight
    (App.new bareHost "app" none fun _ => none)
    ((startSecond ++ .part (.start (some smoothWorld)) :: selectFirst) ++
      .part (.row false false false) :: []) := by
  have hpiped : ∀ l ∈ (startSecond ++ .part (.start (some smoothWorld)) :: selectFirst) ++
      [.part (.row false false false)], l.piped := by
    simp [startSecond, selectFirst, sidebarLabels, Label.piped, smoothWorld]
  rw [marksHold_of_managed bareHost (.new _ _ _ _) hpiped]
  intro hwatched
  obtain ⟨a, ha, hphase, hselected, hvm, hlive, hfrom⟩ := selectFirst_run
  have hstep : step bareHost a (.part (.row false false false)) =
      some (a.exec (drawRow 1 2 none false false false)) := by
    rw [step, hphase]
    rfl
  have hrow := hwatched.of_run ha hstep false false false 1 2 none rfl hphase _ 0 hvm hlive
  have hone := (hrow.mpr hfrom).1
  rw [hselected] at hone
  cases hone

end MochiVM.Gui
