import MochiVM.Manager.App

/-!
# Runs of the application

Two invariants of the application. `Indexed`: the list can be indexed wherever
`update` indexes it, and no two of its entries are the same. `Linked`: the
backend can be called wherever `update` calls it. So every step of the
application is at most one step of the backend's system
(`backendMoves_of_step`), and a run of the application is one of the backend
(`backend_run`).
-/

namespace MochiVM.Gui

open MochiVM.Buffer MochiVM.Fat MochiVM.Vm MochiVM.Runs MochiVM.Panic

/-! ## The list -/

/-- The list can be indexed wherever `update` indexes it. -/
structure Indexed (a : App) : Prop where
  selected : a.selected < a.vms.length
  fits : a.phase.Fits a.vms.length
  numbered : ∀ vm ∈ a.vms, vm.id < a.created
  distinct : (a.vms.map Entry.id).Nodup
  /-- The central panel's copy is the selected entry. -/
  copied : ∀ cfg, a.phase.cfg? = some cfg → a.vms[a.selected]? = some cfg

theorem Indexed.new (h : Host) (exeDir : String) (detected : Option (String × String))
    (files : Files) : Indexed (App.new h exeDir detected files) where
  selected := Nat.one_pos
  fits := trivial
  numbered vm hvm := by
    cases List.mem_singleton.mp hvm
    exact Nat.one_pos
  distinct := List.nodup_singleton _
  copied := by rintro _ ⟨⟩

section

variable {h : Host} {a b : App} {l : Label}

/-- An edit keeps the entry's number. -/
theorem map_id_set {vm : Entry} (input : Settings) (hvm : a.vms[a.selected]? = some vm) :
    (a.vms.set a.selected (input.edited vm)).map Entry.id = a.vms.map Entry.id := by
  have hid : (input.edited vm).id = vm.id := rfl
  rw [List.map_set, hid]
  refine List.ext_getElem? fun i => ?_
  rw [List.getElem?_set, List.length_map, List.getElem?_map]
  by_cases hi : a.selected = i
  · subst hi
    rw [if_pos rfl, if_pos (List.getElem?_eq_some_iff.mp hvm).1, hvm]
    rfl
  · rw [if_neg hi]

theorem Indexed.deleted (ha : Indexed a) {toDelete : Option Nat}
    (hphase : a.phase = .delete toDelete) : Indexed (a.deleted toDelete) := by
  have hfits := ha.fits
  rw [hphase] at hfits
  cases toDelete with
  | none => exact ⟨ha.selected, trivial, ha.numbered, ha.distinct, by rintro _ ⟨⟩⟩
  | some i =>
    have hi : i < a.vms.length := hfits i rfl
    have hsel := ha.selected
    rw [App.deleted]
    split
    · refine ⟨?_, trivial, fun vm hvm => ha.numbered vm (List.eraseIdx_subset hvm), ?_,
        by rintro _ ⟨⟩⟩
      · show a.selected - 1 < (a.vms.eraseIdx i).length
        rw [List.length_eraseIdx_of_lt hi]
        omega
      · exact ha.distinct.sublist ((List.eraseIdx_sublist a.vms i).map Entry.id)
    · exact ⟨ha.selected, trivial, ha.numbered, ha.distinct, by rintro _ ⟨⟩⟩

theorem Indexed.drawn (ha : Indexed a) {vm : Entry} {i n : Nat} {toDelete : Option Nat}
    (hphase : a.phase = .row i n toDelete) (hvm : a.vms[i]? = some vm)
    (clicked deleteClicked fails : Bool) :
    Indexed (a.drawn vm i n toDelete clicked deleteClicked fails) := by
  have hfits := ha.fits
  rw [hphase] at hfits
  have hlt : i < a.vms.length := (List.getElem?_eq_some_iff.mp hvm).1
  refine ⟨?_, ⟨hfits.1, ?_⟩, ha.numbered, ha.distinct, by rintro _ ⟨⟩⟩
  · show (if clicked then i else a.selected) < a.vms.length
    cases clicked
    · exact ha.selected
    · exact hlt
  · -- the row asked for is a row of the list
    cases deleteClicked with
    | false => exact hfits.2
    | true =>
      intro d hd
      cases hd
      exact hlt

theorem Indexed.appended (ha : Indexed a) {i n : Nat} {toDelete : Option Nat}
    (hphase : a.phase = .row i n toDelete) : Indexed { a with
      vms := a.vms ++ [.default a.created]
      selected := a.vms.length
      created := a.created + 1
      phase := .delete toDelete } := by
  have hfits := ha.fits
  rw [hphase] at hfits
  have hlen : (a.vms ++ [Entry.default a.created]).length = a.vms.length + 1 := by simp
  refine ⟨?_, ?_, ?_, ?_, by rintro _ ⟨⟩⟩
  · show a.vms.length < (a.vms ++ [Entry.default a.created]).length
    omega
  · show ∀ d ∈ toDelete, d < (a.vms ++ [Entry.default a.created]).length
    intro d hd
    have := hfits.2 d hd
    omega
  · intro vm hvm
    show vm.id < a.created + 1
    rcases List.mem_append.mp hvm with hvm | hvm
    · exact Nat.lt_succ_of_lt (ha.numbered vm hvm)
    · cases List.mem_singleton.mp hvm
      exact Nat.lt_succ_self _
  · -- the new entry's number is past all others
    show ((a.vms ++ [Entry.default a.created]).map Entry.id).Nodup
    rw [List.map_append, List.map_singleton, List.nodup_append]
    refine ⟨ha.distinct, List.nodup_singleton _, fun id hid id' hid' heq => ?_⟩
    obtain ⟨vm, hvm, rfl⟩ := List.mem_map.mp hid
    cases List.mem_singleton.mp hid'
    exact absurd heq (Nat.ne_of_lt (ha.numbered vm hvm))

theorem Indexed.edited (ha : Indexed a) {input : Settings} {vm : Entry}
    (hvm : a.vms[a.selected]? = some vm) (hvms : b.vms = a.vms.set a.selected (input.edited vm))
    (hselected : b.selected = a.selected) (hcreated : b.created = a.created)
    (hphase : b.phase = .console) : Indexed b := by
  refine ⟨?_, ?_, ?_, ?_, fun cfg hb => ?_⟩
  · rw [hselected, hvms, List.length_set]
    exact ha.selected
  · rw [hphase]
    trivial
  · rw [hvms, hcreated]
    intro vm' hvm'
    rcases List.mem_or_eq_of_mem_set hvm' with hvm' | rfl
    · exact ha.numbered vm' hvm'
    · exact ha.numbered vm (List.mem_of_getElem? hvm)
  · rw [hvms, map_id_set input hvm]
    exact ha.distinct
  · rw [hphase] at hb
    cases hb

/-- **Every step keeps it.** -/
theorem Indexed.step (ha : Indexed a) (hstep : step h a l = some b) : Indexed b := by
  cases App.listMoves_of_step ha.selected ha.fits hstep with
  | other hlist hfits hcfg =>
    refine ⟨?_, ?_, ?_, ?_, fun cfg hb => ?_⟩
    · rw [hlist.selected, hlist.vms]
      exact ha.selected
    · rwa [hlist.vms]
    · rw [hlist.vms, hlist.created]
      exact ha.numbered
    · rw [hlist.vms]
      exact ha.distinct
    · rw [hlist.vms, hlist.selected]
      rcases hcfg with hcfg | hcfg | hcfg <;> rw [hcfg] at hb
      · cases hb
      · exact ha.copied cfg hb
      · exact hb
  | row vm i n toDelete hphase _ hvm => exact ha.drawn hphase hvm _ _ _
  | newVm i n toDelete hphase => exact ha.appended hphase
  | delete toDelete hphase => exact ha.deleted hphase
  | settings input vm hvm hvms hselected hcreated hphase =>
    exact ha.edited hvm hvms hselected hcreated hphase

/-! ## The backend -/

/-- Whether the handles of a child are there, where a step spawns one. -/
def Label.piped : Label → Prop
  | .part (.start (some w)) => ∀ st, w.piped st = true
  | .part (.reset (some w)) => ∀ st, w.piped st = true
  | _ => True

/-- The call of the backend that a step may make, `start` apart. -/
inductive Label.Calls : Label → Vm.Label → Prop
  | frame : Calls .frame .drainBegin
  | drainRecv : Calls .drainRecv .drainRecv
  | drainEnd : Calls .drainEnd .drainEnd
  | row {clicked deleteClicked fails : Bool} :
      Calls (.part (.row clicked deleteClicked fails)) (.isRunning fails)
  | statusBar {fails : Bool} : Calls (.part (.statusBar fails)) (.isRunning fails)
  | stop : Calls (.part (.stop true)) .stop
  | engine {g : Nat} {l : EngineLabel} : Calls (.engine g l) (.engine g l)
  | close : Calls .close .drop

/-- The step runs a VM, with these outcomes. -/
def Label.Runs (l : Label) (w : World) : Prop :=
  l = .part (.start (some w)) ∨ l = .part (.reset (some w))

theorem Label.Calls.piped {l : Label} {l' : Vm.Label} (h : l.Calls l') : l'.piped := by
  cases h <;> trivial

theorem Label.Runs.piped {l : Label} {w : World} (h : l.Runs w) (hl : l.piped) :
    ∀ st, w.piped st = true := by
  rcases h with rfl | rfl <;> exact hl

/-- What a step does to the backend. -/
inductive App.BackendMoves (h : Host) (a : App) (l : Label) (b : App) : Prop
  | same : b.backend = a.backend → b.startedFrom = a.startedFrom → BackendMoves h a l b
  | call (l' : Vm.Label) : l.Calls l' → Vm.step h a.backend l' = some b.backend →
      b.startedFrom = a.startedFrom → BackendMoves h a l b
  | run (cfg : Entry) (w : World) : l.Runs w → a.phase.cfg? = some cfg →
      a.backend.callable = true → a.Ran h cfg w b → BackendMoves h a l b

/-- The backend's own step. -/
theorem App.BackendMoves.backendStep {h : Host} {a b : App} {l : Label}
    (hmoves : a.BackendMoves h l b) : b.backend = a.backend ∨
      ∃ l', Vm.step h a.backend l' = some b.backend ∧ (l.Calls l' ∨
        ∃ cfg efi code vars w, l.Runs w ∧ l' = .start cfg efi code vars w) := by
  cases hmoves with
  | same heq => exact .inl heq
  | call l' hcalls hs => exact .inr ⟨l', hs, .inl hcalls⟩
  | run cfg w hruns _ hcall hran =>
    refine .inr ⟨_, ?_, .inr ⟨cfg.toVmConfig, a.efiPath, a.ovmfCode, a.ovmfVars, w, hruns, rfl⟩⟩
    rw [hran.backend]
    exact call_eq_some.mpr ⟨hcall, rfl⟩

/-- The backend can be called wherever `update` calls it. -/
structure Linked (a : App) : Prop where
  sync : a.backend.backend.rx = a.backend.backend.child
  idle : a.phase ≠ .draining → a.backend.draining = none
  alive : a.phase ≠ .closed → a.backend.dropped = false

theorem Linked.new (h : Host) (exeDir : String) (detected : Option (String × String))
    (files : Files) : Linked (App.new h exeDir detected files) where
  sync := rfl
  idle _ := rfl
  alive _ := rfl

theorem App.CodeAt.place {p : Part} {m : AppM PUnit} (hcode : a.CodeAt h p m) :
    a.phase ≠ .draining ∧ a.phase ≠ .closed := by
  cases hcode <;> simp_all

theorem call_of_callable {s : Sys} (hs : s.callable = true) {α : Type} (m : VmM α) :
    s.call m = some (finalState (m s)) :=
  call_eq_some.mpr ⟨hs, rfl⟩

theorem backendMoves_runButton {cfg : Entry} {clicked : Option World} {next : Phase}
    (hcall : a.backend.callable = true) (hcfg : a.phase.cfg? = some cfg)
    (hruns : ∀ w, clicked = some w → l.Runs w) :
    a.BackendMoves h l (a.exec (runButton h cfg clicked next)) := by
  cases clicked with
  | none => exact .same rfl rfl
  | some w => exact .run cfg w (hruns w rfl) hcfg hcall (exec_runButton h cfg w next a).1

/-- A part of a frame makes at most one call of the backend. -/
theorem backendMoves_part {p : Part} {m : AppM PUnit} (ha : Indexed a)
    (hcall : a.backend.callable = true) (hcode : a.CodeAt h p m) :
    a.BackendMoves h (.part p) (a.exec m) := by
  have hvm := List.getElem?_eq_getElem ha.selected
  have hfits := ha.fits
  cases hcode with
  | row i n toDelete hphase hi =>
    rw [hphase] at hfits
    rw [exec_drawRow (List.getElem?_eq_getElem (show i < a.vms.length from hfits.1 ▸ hi))]
    -- only the selected row asks the engine
    by_cases hsel : i = a.selected
    · refine .call _ .row ?_ rfl
      simp only [App.drawn, if_pos hsel]
      exact call_of_callable hcall _
    · exact .same (if_neg hsel) rfl
  | @newVm clicked =>
    rw [exec_newVm]
    cases clicked <;> exact .same rfl rfl
  | delete toDelete hphase =>
    rw [hphase] at hfits
    rw [exec_deleteVm hfits]
    cases toDelete with
    | none => exact .same rfl rfl
    | some i =>
      rw [App.deleted]
      split <;> exact .same rfl rfl
  | statusBar =>
    rw [exec_statusBar]
    exact .call _ .statusBar (call_of_callable hcall _) rfl
  | central =>
    rw [exec_central hvm]
    exact .same rfl rfl
  | start cfg hphase =>
    exact backendMoves_runButton hcall (by rw [hphase]; rfl) fun w hw => .inl (by rw [hw])
  | @stop clicked =>
    rw [exec_stopButton]
    cases clicked with
    | false => exact .same rfl rfl
    | true => exact .call _ .stop (call_of_callable hcall _) rfl
  | reset cfg hphase =>
    exact backendMoves_runButton hcall (by rw [hphase]; rfl) fun w hw => .inr (by rw [hw])
  | @settings unfolded =>
    cases unfolded with
    | none => exact .same rfl rfl
    | some input =>
      rw [exec_settings hvm]
      exact .same (input.paths_backend a).1 (input.paths_backend a).2
  | console => exact .same rfl rfl

/-- **Every step** makes at most one call of the backend. -/
theorem backendMoves_of_step (ha : Indexed a) (hlinked : Linked a)
    (hstep : step h a l = some b) : a.BackendMoves h l b := by
  cases App.takes_of_step hstep with
  | frame s _ hs => exact .call _ .frame hs rfl
  | drainRecv s hs => exact .call _ .drainRecv hs rfl
  | drainEnd d s _ hs =>
    obtain ⟨⟨_, hbackend, hfrom⟩, _⟩ := exec_showLog d.out { a with backend := s }
    exact .call _ .drainEnd (hs.trans (congrArg some hbackend.symm)) hfrom
  | part p m hcode =>
    obtain ⟨hdraining, hclosed⟩ := hcode.place
    have hcall : a.backend.callable = true := by
      rw [Sys.callable, hlinked.idle hdraining, hlinked.alive hclosed]
      rfl
    exact backendMoves_part ha hcall hcode
  | engine g l s hs => exact .call _ .engine hs rfl
  | close s _ hs => exact .call _ .close hs rfl

/-- A call of the backend that neither enters `drain_log` nor drops it. -/
theorem Linked.call (ha : Linked a) {l' : Vm.Label} (hs : Vm.step h a.backend l' = some b.backend)
    (hbegin : l' ≠ .drainBegin) (hdrop : l' ≠ .drop)
    (hdraining : b.phase ≠ .draining → a.phase ≠ .draining)
    (hclosed : b.phase ≠ .closed → a.phase ≠ .closed) : Linked b where
  sync := step_sync ha.sync hs
  idle hb := step_idle hs ha.sync (ha.idle (hdraining hb)) hbegin
  alive hb := (step_dropped ha.sync hs hdrop).trans (ha.alive (hclosed hb))

/-- **Every step keeps the link.** -/
theorem Linked.step (hindexed : Indexed a) (ha : Linked a) (hstep : step h a l = some b) :
    Linked b := by
  have hbackend := (backendMoves_of_step hindexed ha hstep).backendStep
  cases App.takes_of_step hstep with
  | frame s hphase hs =>
    refine ⟨step_sync ha.sync hs, fun hb => absurd rfl hb, fun _ => ?_⟩
    refine (step_dropped ha.sync hs (by simp)).trans (ha.alive ?_)
    rw [hphase]
    simp
  | drainRecv s hs => exact ha.call hs (by simp) (by simp) id id
  | drainEnd d s hd hs =>
    have hshow := (exec_showLog d.out { a with backend := s }).1.2.1
    -- `drain_log` returns where it was entered
    have hdraining : a.phase = .draining := by
      by_contra hne
      rw [ha.idle hne] at hd
      cases hd
    refine ⟨?_, fun _ => ?_, fun _ => ?_⟩ <;> rw [hshow]
    · exact step_sync ha.sync hs
    · obtain ⟨d', _, _, rfl⟩ := drainEnd_eq_some hs
      rfl
    · refine (step_dropped ha.sync hs (by simp)).trans (ha.alive ?_)
      rw [hdraining]
      simp
  | part p m hcode =>
    obtain ⟨hdraining, hclosed⟩ := hcode.place
    rcases hbackend with heq | ⟨l', hs, hcalls | ⟨cfg, efi, code, vars, w, _, rfl⟩⟩
    · exact ⟨heq ▸ ha.sync, fun _ => heq ▸ ha.idle hdraining, fun _ => heq ▸ ha.alive hclosed⟩
    · refine ha.call hs ?_ ?_ (fun _ => hdraining) fun _ => hclosed
      · rintro rfl
        cases hcalls
      · rintro rfl
        cases hcalls
    · exact ha.call hs (by simp) (by simp) (fun _ => hdraining) fun _ => hclosed
  | engine g l s hs => exact ha.call hs (by simp) (by simp) id id
  | close s hphase hs =>
    refine ⟨step_sync ha.sync hs, fun _ => step_idle hs ha.sync (ha.idle ?_) (by simp),
      fun hb => absurd rfl hb⟩
    rw [hphase]
    simp

end

/-! ## Whole runs -/

/-- What every state reached has. -/
structure Good (a : App) : Prop extends Indexed a, Linked a

theorem Good.new (h : Host) (exeDir : String) (detected : Option (String × String))
    (files : Files) : Good (App.new h exeDir detected files) :=
  ⟨.new h exeDir detected files, .new h exeDir detected files⟩

theorem Good.step {h : Host} {a b : App} {l : Label} (ha : Good a) (hstep : step h a l = some b) :
    Good b :=
  ⟨ha.toIndexed.step hstep, ha.toLinked.step ha.toIndexed hstep⟩

/-- **A run of the application** is a run of its backend. -/
theorem backend_run (h : Host) {a b : App} (ha : Good a) {ls : List Label}
    (hpiped : ∀ l ∈ ls, l.piped) (hrun : Runs.run (step h) a ls = some b) :
    ∃ ls' : List Vm.Label, (∀ l' ∈ ls', l'.piped) ∧
      Runs.run (Vm.step h) a.backend ls' = some b.backend := by
  -- a step of the application is one of the backend, or none
  refine run_image_on App.backend (fun _ _ _ _ hs => hs.step) (fun s l t hl hs hstep => ?_) hpiped
    ha hrun
  refine (backendMoves_of_step hs.toIndexed hs.toLinked hstep).backendStep.imp_right ?_
  rintro ⟨l', hs', hcalls | ⟨cfg, efi, code, vars, w, hruns, rfl⟩⟩
  · exact ⟨l', hcalls.piped, hs'⟩
  · exact ⟨.start cfg efi code vars w, hruns.piped hl, hs'⟩

/-! ## Frames as labels -/

/-- A frame up to the "+ new vm" button, with the clicks on the rows and on it. -/
def sidebarLabels (rows : List (Bool × Bool)) (new : Bool) : List Label :=
  [.frame, .drainEnd] ++ (rows.map fun r => .part (.row r.1 r.2 false)) ++ [.part (.newVm new)]

/-- The rest of a frame in which at most "start" is clicked. -/
def panelLabels (start : Option World) : List Label :=
  [.part .delete, .part (.statusBar false), .part .central, .part (.start start),
    .part (.stop false), .part (.reset none), .part (.settings none), .part (.console true false)]

end MochiVM.Gui
