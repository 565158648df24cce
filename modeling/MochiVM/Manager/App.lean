import MochiVM.Manager.AppLog
import MochiVM.Manager.VmOwnership

/-!
# The application (manager/src/main.rs)

`App::update` draws one frame: it drains the log, goes through the rows of the
sidebar, and then through the widgets of the other panels, each of which may
have been clicked. Engines go on meanwhile, so a frame is not one step but a
sequence of them, one for each widget; `Phase` is the place in `update`.

What the user and the host decide is an argument of the step. The entries of the
list are numbered as they are created, `startedFrom` remembers the entry that an
engine was started from, and `sidebar` what the frame has drawn of the list: all
three are ghosts.
-/

namespace MochiVM.Gui

open MochiVM.Buffer MochiVM.Fat MochiVM.Vm MochiVM.Panic

/-- An entry of the VM list: a `VmConfig`, with its name. -/
structure Entry extends VmConfig where
  id : Nat
  name : String

/-- `VmConfig::default()`, as entry number `id`. -/
def Entry.default (id : Nat) : Entry := ⟨⟨512, 1, .tcg⟩, id, "mochivm"⟩

/-- The place in `update` (main.rs:201). -/
inductive Phase where
  /-- Between two frames. -/
  | idle
  /-- In `drain_log`. -/
  | draining
  /-- Before row `i` of `n`, with `to_delete`. -/
  | row (i n : Nat) (toDelete : Option Nat)
  /-- After the "+ new vm" button. -/
  | delete (toDelete : Option Nat)
  | statusBar
  | central
  /-- Before the three buttons, with the `cfg` they use. -/
  | start (cfg : Entry)
  | stop (cfg : Entry)
  | reset (cfg : Entry)
  | settings
  | console
  | closed
  | panicked (p : Panic)

/-- A row of the sidebar as it was drawn. -/
structure Drawn where
  id : Nat
  running : Bool
  text : String

structure App where
  vms : List Entry
  selected : Nat
  backend : Sys
  log : String
  autoScroll : Bool
  efiPath : String
  ovmfCode : String
  ovmfVars : String
  status : String
  phase : Phase
  created : Nat
  startedFrom : Nat → Nat
  sidebar : List Drawn

/-- `App::new` (main.rs:161), given the program's directory and what
`ovmf::detect` found. -/
def App.new (h : Host) (exeDir : String) (detected : Option (String × String)) (files : Files) :
    App :=
  let ovmf := detected.getD (h.join exeDir "ovmf/x64/code.fd", h.join exeDir "ovmf/x64/vars.fd")
  { vms := [.default 0]
    selected := 0
    backend := Sys.new (h.join exeDir "runtime") files
    log := ""
    autoScroll := true
    efiPath := h.join exeDir "mochivm.efi"
    ovmfCode := ovmf.1
    ovmfVars := ovmf.2
    status := "idle"
    phase := .idle
    created := 1
    startedFrom := fun _ => 0
    sidebar := [] }

/-! ## Programs on the application -/

abbrev AppM := EStateM Panic App

/-- A method of `self.backend`. -/
def onBackend {α : Type} (m : VmM α) : AppM α := fun a =>
  match m a.backend with
  | .ok r s => .ok r { a with backend := s }
  | .error p s => .error p { a with backend := s }

/-- Code on `self.log`. -/
def onLog (m : App.LogM PUnit) : AppM PUnit := fun a =>
  match m a.log with
  | .ok r log => .ok r { a with log := log }
  | .error p log => .error p { a with log := log }

/-- `self.vms[i]`. -/
def entryAt (i : Nat) : AppM Entry := fun a =>
  match a.vms[i]? with
  | some vm => .ok vm a
  | none => .error .indexOutOfBounds a

/-- `self.vms[i] = cfg`. -/
def setEntry (i : Nat) (cfg : Entry) : AppM PUnit := fun a =>
  if i < a.vms.length then .ok ⟨⟩ { a with vms := a.vms.set i cfg }
  else .error .indexOutOfBounds a

/-- `self.vms.remove(i)`. -/
def removeEntry (i : Nat) : AppM PUnit := fun a =>
  if i < a.vms.length then .ok ⟨⟩ { a with vms := a.vms.eraseIdx i }
  else .error .indexOutOfBounds a

def goto (phase : Phase) : AppM PUnit := modify fun a => { a with phase := phase }

/-! ## The parts of a frame -/

/-- The string `drain_log` returned goes to the log. -/
def showLog (chunk : String) : AppM PUnit := do
  onLog (App.update chunk)
  modify fun a => { a with phase := .row 0 a.vms.length none }

/-- Row `i` of the sidebar (main.rs:216). -/
def drawRow (i n : Nat) (toDelete : Option Nat) (clicked deleteClicked fails : Bool) :
    AppM PUnit := do
  let a ← get
  -- `&&` asks the engine for the selected row only
  let running ← if i = a.selected then onBackend (isRunning fails) else pure false
  let vm ← entryAt i
  modify fun a => { a with
    sidebar := a.sidebar ++ [⟨vm.id, running, (if running then "● " else "○ ") ++ vm.name⟩]
    selected := if clicked then i else a.selected
    phase := .row (i + 1) n (if deleteClicked then some i else toDelete) }

/-- The "+ new vm" button (main.rs:231). -/
def newVm (toDelete : Option Nat) (clicked : Bool) : AppM PUnit := do
  if clicked then
    modify fun a => { a with
      vms := a.vms ++ [Entry.default a.created]
      created := a.created + 1 }
    modify fun a => { a with selected := a.vms.length - 1 }
  goto (.delete toDelete)

/-- The deletion (main.rs:235). -/
def deleteVm (toDelete : Option Nat) : AppM PUnit := do
  match toDelete with
  | some i =>
    let a ← get
    if 1 < a.vms.length then
      removeEntry i
      -- the same correction, whichever row it was
      modify fun a => { a with selected := a.selected - 1 }
  | none => pure ⟨⟩
  goto .statusBar

/-- The status bar (main.rs:243), which asks whether the engine is running. -/
def statusBar (fails : Bool) : AppM PUnit := do
  let _ ← onBackend (isRunning fails)
  goto .central

/-- The central panel's copy of the selected entry (main.rs:260). -/
def central : AppM PUnit := do
  let a ← get
  let cfg ← entryAt a.selected
  goto (.start cfg)

/-- `App::run` (main.rs:182). -/
def run (h : Host) (cfg : Entry) (w : World) : AppM PUnit := do
  let a ← get
  -- an engine that is spawned is from this entry
  set { a with startedFrom := Function.update a.startedFrom a.backend.engines.length cfg.id }
  match ← onBackend (start h cfg.toVmConfig a.efiPath a.ovmfCode a.ovmfVars w) with
  | .ok _ => modify fun a => { a with status := "running", log := ">> vm started\n" }
  | .error e => modify fun a => { a with status := e, log := a.log ++ (">> " ++ e ++ "\n") }

/-- The "start" and the "reset" button, if clicked. -/
def runButton (h : Host) (cfg : Entry) (clicked : Option World) (next : Phase) : AppM PUnit := do
  match clicked with
  | some w => run h cfg w
  | none => pure ⟨⟩
  goto next

def stopButton (cfg : Entry) (clicked : Bool) : AppM PUnit := do
  if clicked then
    onBackend Vm.stop
    modify fun a => { a with status := "stopped" }
  goto (.reset cfg)

/-- What the user and the widgets make of the settings in a frame. -/
structure Settings where
  name : String
  /-- The numbers, as their widgets leave them. -/
  ramMb : UInt16
  vcpus : UInt8
  accel : Accel
  /-- The files picked. -/
  efi : Option String
  code : Option String
  vars : Option String
  /-- What `ovmf::detect` found, if that button is clicked, -/
  detect : Option (Option (String × String))
  /-- and what `ovmf::download` came back with. -/
  download : Option (Except String (String × String))

/-- The entry as the settings' widgets leave it. -/
def Settings.edited (input : Settings) (cfg : Entry) : Entry :=
  { cfg with
    name := input.name
    ramMb := input.ramMb
    vcpus := input.vcpus
    accel := input.accel }

/-- The file buttons, "auto-detect ovmf" and "download ovmf". -/
def Settings.paths (input : Settings) (a : App) : App :=
  let a := { a with
    efiPath := input.efi.getD a.efiPath
    ovmfCode := input.code.getD a.ovmfCode
    ovmfVars := input.vars.getD a.ovmfVars }
  -- the two buttons, in their order
  let a := match input.detect with
    | some (some (code, vars)) =>
      { a with ovmfCode := code, ovmfVars := vars, status := "ovmf found" }
    | some none => { a with status := "ovmf not found - try download" }
    | none => a
  match input.download with
  | some (.ok (code, vars)) =>
    { a with ovmfCode := code, ovmfVars := vars, status := "ovmf downloaded" }
  | some (.error e) => { a with status := "ovmf download failed: " ++ e }
  | none => a

/-- The settings (main.rs:277), if they are unfolded. -/
def settings (unfolded : Option Settings) : AppM PUnit := do
  match unfolded with
  | some input =>
    let a ← get
    let cfg ← entryAt a.selected
    modify input.paths
    setEntry a.selected (input.edited cfg)
  | none => pure ⟨⟩
  goto .console

/-- The serial console (main.rs:410), the last of a frame. -/
def console (autoScroll clear : Bool) : AppM PUnit :=
  modify fun a => { a with
    autoScroll := autoScroll
    log := if clear then "" else a.log
    phase := .idle }

/-! ## Steps -/

/-- A part of a frame after the log was drained, with what the user and the host
decide there. -/
inductive Part where
  | row (clicked deleteClicked fails : Bool)
  | newVm (clicked : Bool)
  | delete
  | statusBar (fails : Bool)
  | central
  | start (clicked : Option World)
  | stop (clicked : Bool)
  | reset (clicked : Option World)
  | settings (unfolded : Option Settings)
  | console (autoScroll clear : Bool)

/-- The code of a part, at its place. -/
def partCode (h : Host) : Part → Phase → Option (AppM PUnit)
  | .row clicked deleteClicked fails, .row i n toDelete =>
    if i < n then some (drawRow i n toDelete clicked deleteClicked fails) else none
  | .newVm clicked, .row i n toDelete => if i < n then none else some (newVm toDelete clicked)
  | .delete, .delete toDelete => some (deleteVm toDelete)
  | .statusBar fails, .statusBar => some (statusBar fails)
  | .central, .central => some central
  | .start clicked, .start cfg => some (runButton h cfg clicked (.stop cfg))
  | .stop clicked, .stop cfg => some (stopButton cfg clicked)
  | .reset clicked, .reset cfg => some (runButton h cfg clicked .settings)
  | .settings unfolded, .settings => some (settings unfolded)
  | .console autoScroll clear, .console => some (console autoScroll clear)
  | _, _ => none

inductive Label where
  /-- A frame begins: `drain_log` is entered, -/
  | frame
  | drainRecv
  /-- and returns. -/
  | drainEnd
  | part (p : Part)
  | engine (g : Nat) (l : EngineLabel)
  /-- The window is closed. -/
  | close

/-- The application after a part of a frame; a panic ends it. -/
def App.exec (a : App) (m : AppM PUnit) : App :=
  match m a with
  | .ok _ b => b
  | .error p b => { b with phase := .panicked p }

/-- A step of the backend's system. -/
def App.backendStep (h : Host) (a : App) (l : Vm.Label) : Option App :=
  (Vm.step h a.backend l).map fun s => { a with backend := s }

/-- A step of the application. -/
def step (h : Host) (a : App) : Label → Option App
  | .frame =>
    match a.phase with
    | .idle =>
      (a.backendStep h .drainBegin).map fun b => { b with phase := .draining, sidebar := [] }
    | _ => none
  | .drainRecv => a.backendStep h .drainRecv
  | .drainEnd =>
    match a.backend.draining with
    | some d => (a.backendStep h .drainEnd).map fun b => b.exec (showLog d.out)
    | none => none
  | .part p => (partCode h p a.phase).map a.exec
  | .engine g l => a.backendStep h (.engine g l)
  | .close =>
    match a.phase with
    | .idle => (a.backendStep h .drop).map fun b => { b with phase := .closed }
    | _ => none

/-! ## What a step does to the list -/

theorem App.exec_of_returns {a b : App} {m : AppM PUnit} (h : Returns m a ⟨⟩ b) :
    a.exec m = b := by
  rw [App.exec, show m a = .ok ⟨⟩ b from h]

/-- What `exec` leaves, by where the program ends. -/
theorem App.exec_ends {a : App} {m : AppM PUnit} {Q : App → Prop}
    (h : Ends m a (fun _ b => Q b) fun p b => Q { b with phase := .panicked p }) :
    Q (a.exec m) := by
  rw [App.exec]
  rw [Ends] at h
  cases hm : m a with
  | ok r b =>
    rw [hm] at h
    exact h
  | error p b =>
    rw [hm] at h
    exact h

theorem App.backendStep_eq_some {h : Host} {a b : App} {l : Vm.Label}
    (hstep : a.backendStep h l = some b) :
    ∃ s, Vm.step h a.backend l = some s ∧ b = { a with backend := s } := by
  obtain ⟨s, hs, rfl⟩ := Option.map_eq_some_iff.mp hstep
  exact ⟨s, hs, rfl⟩

/-- The code of a part, by the place it is at. -/
inductive App.CodeAt (h : Host) (a : App) : Part → AppM PUnit → Prop
  | row {clicked deleteClicked fails : Bool} (i n : Nat) (toDelete : Option Nat) :
      a.phase = .row i n toDelete → i < n →
      CodeAt h a (.row clicked deleteClicked fails)
        (drawRow i n toDelete clicked deleteClicked fails)
  | newVm {clicked : Bool} (i n : Nat) (toDelete : Option Nat) : a.phase = .row i n toDelete →
      CodeAt h a (.newVm clicked) (Gui.newVm toDelete clicked)
  | delete (toDelete : Option Nat) : a.phase = .delete toDelete →
      CodeAt h a .delete (deleteVm toDelete)
  | statusBar {fails : Bool} : a.phase = .statusBar →
      CodeAt h a (.statusBar fails) (Gui.statusBar fails)
  | central : a.phase = .central → CodeAt h a .central Gui.central
  | start {clicked : Option World} (cfg : Entry) : a.phase = .start cfg →
      CodeAt h a (.start clicked) (runButton h cfg clicked (.stop cfg))
  | stop {clicked : Bool} (cfg : Entry) : a.phase = .stop cfg →
      CodeAt h a (.stop clicked) (stopButton cfg clicked)
  | reset {clicked : Option World} (cfg : Entry) : a.phase = .reset cfg →
      CodeAt h a (.reset clicked) (runButton h cfg clicked .settings)
  | settings {unfolded : Option Settings} : a.phase = .settings →
      CodeAt h a (.settings unfolded) (Gui.settings unfolded)
  | console {autoScroll clear : Bool} : a.phase = .console →
      CodeAt h a (.console autoScroll clear) (Gui.console autoScroll clear)

theorem App.codeAt_of_partCode {h : Host} {a : App} {p : Part} {m : AppM PUnit}
    (hcode : partCode h p a.phase = some m) : a.CodeAt h p m := by
  rw [partCode.eq_def] at hcode
  split at hcode
  case h_1 i n toDelete hphase =>
    split at hcode
    case isTrue hi =>
      cases hcode
      exact .row i n toDelete hphase hi
    case isFalse => cases hcode
  case h_2 i n toDelete hphase =>
    split at hcode
    case isTrue => cases hcode
    case isFalse =>
      cases hcode
      exact .newVm i n toDelete hphase
  case h_3 hphase =>
    cases hcode
    exact .delete _ hphase
  case h_4 hphase =>
    cases hcode
    exact .statusBar hphase
  case h_5 hphase =>
    cases hcode
    exact .central hphase
  case h_6 hphase =>
    cases hcode
    exact .start _ hphase
  case h_7 hphase =>
    cases hcode
    exact .stop _ hphase
  case h_8 hphase =>
    cases hcode
    exact .reset _ hphase
  case h_9 hphase =>
    cases hcode
    exact .settings hphase
  case h_10 hphase =>
    cases hcode
    exact .console hphase
  case h_11 => cases hcode

/-- A step of the application, by what the backend does in it. -/
inductive App.Takes (h : Host) (a : App) : Label → App → Prop
  | frame (s : Sys) : a.phase = .idle → Vm.step h a.backend .drainBegin = some s →
      Takes h a .frame { a with backend := s, phase := .draining, sidebar := [] }
  | drainRecv (s : Sys) : Vm.step h a.backend .drainRecv = some s →
      Takes h a .drainRecv { a with backend := s }
  | drainEnd (d : Drain) (s : Sys) : a.backend.draining = some d →
      Vm.step h a.backend .drainEnd = some s →
      Takes h a .drainEnd (App.exec { a with backend := s } (showLog d.out))
  | part (p : Part) (m : AppM PUnit) : a.CodeAt h p m → Takes h a (.part p) (a.exec m)
  | engine (g : Nat) (l : EngineLabel) (s : Sys) : Vm.step h a.backend (.engine g l) = some s →
      Takes h a (.engine g l) { a with backend := s }
  | close (s : Sys) : a.phase = .idle → Vm.step h a.backend .drop = some s →
      Takes h a .close { a with backend := s, phase := .closed }

theorem App.takes_of_step {h : Host} {a b : App} {l : Label} (hstep : step h a l = some b) :
    a.Takes h l b := by
  cases l with
  | frame =>
    rw [step] at hstep
    split at hstep
    · rename_i hphase
      obtain ⟨b', hb', rfl⟩ := Option.map_eq_some_iff.mp hstep
      obtain ⟨s, hs, rfl⟩ := App.backendStep_eq_some hb'
      exact .frame s hphase hs
    · cases hstep
  | drainRecv =>
    obtain ⟨s, hs, rfl⟩ := App.backendStep_eq_some hstep
    exact .drainRecv s hs
  | drainEnd =>
    rw [step] at hstep
    split at hstep
    · rename_i d hd
      obtain ⟨b', hb', rfl⟩ := Option.map_eq_some_iff.mp hstep
      obtain ⟨s, hs, rfl⟩ := App.backendStep_eq_some hb'
      exact .drainEnd d s hd hs
    · cases hstep
  | part p =>
    obtain ⟨m, hcode, rfl⟩ := Option.map_eq_some_iff.mp hstep
    exact .part p m (App.codeAt_of_partCode hcode)
  | engine g l =>
    obtain ⟨s, hs, rfl⟩ := App.backendStep_eq_some hstep
    exact .engine g l s hs
  | close =>
    rw [step] at hstep
    split at hstep
    · rename_i hphase
      obtain ⟨b', hb', rfl⟩ := Option.map_eq_some_iff.mp hstep
      obtain ⟨s, hs, rfl⟩ := App.backendStep_eq_some hb'
      exact .close s hphase hs
    · cases hstep

/-- Where a method of the backend ends. -/
theorem ends_onBackend {α : Type} {m : VmM α} {a : App} {Q : α → App → Prop}
    {E : Panic → App → Prop}
    (h : Ends m a.backend (fun r s => Q r { a with backend := s })
      fun p s => E p { a with backend := s }) : Ends (onBackend m) a Q E := by
  rw [Ends] at h ⊢
  rw [onBackend]
  cases hm : m a.backend with
  | ok r s =>
    rw [hm] at h
    exact h
  | error p s =>
    rw [hm] at h
    exact h

theorem onBackend_returns {α : Type} {m : VmM α} {a : App} {r : α} {s : Sys}
    (h : Returns m a.backend r s) : Returns (onBackend m) a r { a with backend := s } := by
  rw [Returns, onBackend, show m a.backend = .ok r s from h]

/-! ### Each part of a frame -/

/-- Whether row `i` is marked. -/
def App.marks (a : App) (i : Nat) (fails : Bool) : Bool :=
  decide (i = a.selected) && (a.backend.childRuns && !fails)

/-- The application after row `i`, an entry `vm`, was drawn. -/
def App.drawn (a : App) (vm : Entry) (i n : Nat) (toDelete : Option Nat)
    (clicked deleteClicked fails : Bool) : App :=
  { a with
    backend := if i = a.selected then finalState (isRunning fails a.backend) else a.backend
    sidebar := a.sidebar ++
      [⟨vm.id, a.marks i fails, (if a.marks i fails then "● " else "○ ") ++ vm.name⟩]
    selected := if clicked then i else a.selected
    phase := .row (i + 1) n (if deleteClicked then some i else toDelete) }

theorem exec_drawRow {a : App} {vm : Entry} {i : Nat} (hvm : a.vms[i]? = some vm) (n : Nat)
    (toDelete : Option Nat) (clicked deleteClicked fails : Bool) :
    a.exec (drawRow i n toDelete clicked deleteClicked fails) =
      a.drawn vm i n toDelete clicked deleteClicked fails := by
  apply App.exec_of_returns
  have hentry : ∀ b : App, b.vms = a.vms → Returns (entryAt i) b vm b := by
    intro b hb
    rw [Returns, entryAt, hb, hvm]
  rw [drawRow, App.drawn, App.marks]
  -- the engine is asked for the selected row only
  by_cases hi : i = a.selected
  · rw [if_pos hi, decide_eq_true hi, Bool.true_and]
    have hrun := onBackend_returns (isRunning_returns a.backend fails)
    refine Returns.bind (returns_get a) ?_
    rw [if_pos hi]
    refine hrun.bind (Returns.bind (hentry _ rfl) ?_)
    rfl
  · rw [if_neg hi, decide_eq_false hi, Bool.false_and]
    refine Returns.bind (returns_get a) ?_
    rw [if_neg hi]
    refine (returns_pure false a).bind (Returns.bind (hentry _ rfl) ?_)
    rfl

theorem exec_newVm (a : App) (toDelete : Option Nat) (clicked : Bool) :
    a.exec (newVm toDelete clicked) =
      if clicked then
        { a with
          vms := a.vms ++ [.default a.created]
          selected := a.vms.length
          created := a.created + 1
          phase := .delete toDelete }
      else { a with phase := .delete toDelete } := by
  apply App.exec_of_returns
  cases clicked with
  | true =>
    have hlen : (a.vms ++ [Entry.default a.created]).length - 1 = a.vms.length := by
      rw [List.length_append, List.length_singleton, Nat.add_sub_cancel]
    have hrun : Returns (newVm toDelete true) a ⟨⟩ { a with
        vms := a.vms ++ [.default a.created]
        selected := (a.vms ++ [Entry.default a.created]).length - 1
        created := a.created + 1
        phase := .delete toDelete } := rfl
    rw [hlen] at hrun
    exact hrun
  | false => rfl

/-- The application after the deletion. -/
def App.deleted (a : App) : Option Nat → App
  | some i =>
    if 1 < a.vms.length then
      { a with vms := a.vms.eraseIdx i, selected := a.selected - 1, phase := .statusBar }
    else { a with phase := .statusBar }
  | none => { a with phase := .statusBar }

theorem exec_deleteVm {a : App} {toDelete : Option Nat}
    (hfits : ∀ d ∈ toDelete, d < a.vms.length) :
    a.exec (deleteVm toDelete) = a.deleted toDelete := by
  apply App.exec_of_returns
  cases toDelete with
  | none => rfl
  | some i =>
    have hi : i < a.vms.length := hfits i rfl
    have hremove : Returns (removeEntry i) a ⟨⟩ { a with vms := a.vms.eraseIdx i } := by
      rw [Returns, removeEntry, if_pos hi]
    rw [deleteVm, App.deleted]
    refine Returns.bind (returns_get a) ?_
    by_cases hlen : 1 < a.vms.length
    · simp only [if_pos hlen]
      refine Returns.bind hremove ?_
      rfl
    · simp only [if_neg hlen]
      rfl

theorem exec_statusBar (a : App) (fails : Bool) :
    a.exec (statusBar fails) =
      { a with backend := finalState (isRunning fails a.backend), phase := .central } := by
  apply App.exec_of_returns
  refine Returns.bind (onBackend_returns (isRunning_returns a.backend fails)) ?_
  rfl

theorem exec_central {a : App} {vm : Entry} (hvm : a.vms[a.selected]? = some vm) :
    a.exec central = { a with phase := .start vm } := by
  apply App.exec_of_returns
  have hentry : Returns (entryAt a.selected) a vm a := by
    rw [Returns, entryAt, hvm]
  refine Returns.bind (returns_get a) (Returns.bind hentry ?_)
  rfl

/-- The list of VMs and the selection are the same. -/
structure App.SameList (a b : App) : Prop where
  vms : b.vms = a.vms
  selected : b.selected = a.selected
  created : b.created = a.created

/-- What `run` does to the application: the list stays, and the backend is where
`start` leaves it. -/
structure App.Ran (h : Host) (cfg : Entry) (w : World) (a b : App) : Prop where
  list : a.SameList b
  backend : b.backend =
    finalState (start h cfg.toVmConfig a.efiPath a.ovmfCode a.ovmfVars w a.backend)
  startedFrom : b.startedFrom =
    Function.update a.startedFrom a.backend.engines.length cfg.id

theorem run_ends (h : Host) (cfg : Entry) (w : World) (a : App) :
    Ends (run h cfg w) a (fun _ b => a.Ran h cfg w b) fun _ b => a.Ran h cfg w b := by
  rw [run, ends_bind, ends_get]
  refine (ends_bind _ _ _ _ _).mpr ?_
  refine (ends_bind _ _ _ _ _).mpr (ends_onBackend ?_)
  show Ends (start h cfg.toVmConfig a.efiPath a.ovmfCode a.ovmfVars w) a.backend _ _
  -- `start` may panic, for a file too large
  cases hstart : start h cfg.toVmConfig a.efiPath a.ovmfCode a.ovmfVars w a.backend with
  | ok r s =>
    rw [ends_of_returns hstart]
    cases r with
    | ok _ => exact ⟨⟨rfl, rfl, rfl⟩, by rw [hstart]; rfl, rfl⟩
    | error e => exact ⟨⟨rfl, rfl, rfl⟩, by rw [hstart]; rfl, rfl⟩
  | error p s =>
    rw [ends_of_aborts hstart]
    exact ⟨⟨rfl, rfl, rfl⟩, by rw [hstart]; rfl, rfl⟩

/-- A clicked button that runs the selected VM. -/
theorem exec_runButton (h : Host) (cfg : Entry) (w : World) (next : Phase) (a : App) :
    a.Ran h cfg w (a.exec (runButton h cfg (some w) next)) ∧
      ((a.exec (runButton h cfg (some w) next)).phase = next ∨
        ∃ p, (a.exec (runButton h cfg (some w) next)).phase = .panicked p) := by
  refine App.exec_ends
    (Q := fun b => a.Ran h cfg w b ∧ (b.phase = next ∨ ∃ p, b.phase = .panicked p)) ?_
  refine (ends_bind _ _ _ _ _).mpr ((run_ends h cfg w a).mono (fun _ b hb => ?_) fun p b hb => ?_)
  · exact ⟨⟨⟨hb.list.vms, hb.list.selected, hb.list.created⟩, hb.backend, hb.startedFrom⟩, .inl rfl⟩
  · exact ⟨⟨⟨hb.list.vms, hb.list.selected, hb.list.created⟩, hb.backend, hb.startedFrom⟩,
      .inr ⟨p, rfl⟩⟩

/-- What a successful start leaves. -/
theorem exec_runButton_ok {h : Host} {cfg : Entry} {w : World} {a : App} {s : Sys}
    (hstart : Returns (start h cfg.toVmConfig a.efiPath a.ovmfCode a.ovmfVars w) a.backend
      (.ok ⟨⟩) s) (next : Phase) :
    a.exec (runButton h cfg (some w) next) = { a with
      backend := s
      startedFrom := Function.update a.startedFrom a.backend.engines.length cfg.id
      status := "running"
      log := ">> vm started\n"
      phase := next } := by
  apply App.exec_of_returns
  have hrun : Returns (run h cfg w) a ⟨⟩ { a with
      backend := s
      startedFrom := Function.update a.startedFrom a.backend.engines.length cfg.id
      status := "running"
      log := ">> vm started\n" } := by
    refine Returns.bind (returns_get a) ?_
    have hset : Returns (set { a with
        startedFrom := Function.update a.startedFrom a.backend.engines.length cfg.id } : AppM PUnit)
        a ⟨⟩ { a with
          startedFrom := Function.update a.startedFrom a.backend.engines.length cfg.id } := rfl
    refine Returns.bind hset ?_
    refine Returns.bind (onBackend_returns hstart) ?_
    rfl
  refine Returns.bind hrun ?_
  rfl

theorem exec_stopButton (cfg : Entry) (clicked : Bool) (a : App) :
    a.exec (stopButton cfg clicked) = { a with
      backend := if clicked then finalState (Vm.stop a.backend) else a.backend
      status := if clicked then "stopped" else a.status
      phase := .reset cfg } := by
  apply App.exec_of_returns
  cases clicked with
  | false => rfl
  | true =>
    refine Returns.bind (onBackend_returns (stop_returns a.backend)) ?_
    rfl

theorem Settings.paths_list (input : Settings) (a : App) : a.SameList (input.paths a) := by
  rw [Settings.paths]
  constructor <;> split <;> split <;> rfl

theorem Settings.paths_backend (input : Settings) (a : App) :
    (input.paths a).backend = a.backend ∧ (input.paths a).startedFrom = a.startedFrom := by
  rw [Settings.paths]
  constructor <;> split <;> split <;> rfl

theorem exec_settings {a : App} {vm : Entry} (hvm : a.vms[a.selected]? = some vm)
    (input : Settings) :
    a.exec (settings (some input)) = { input.paths a with
      vms := a.vms.set a.selected (input.edited vm)
      phase := .console } := by
  apply App.exec_of_returns
  have hlt : a.selected < a.vms.length := (List.getElem?_eq_some_iff.mp hvm).1
  have hentry : Returns (entryAt a.selected) a vm a := by
    rw [Returns, entryAt, hvm]
  have hlist := input.paths_list a
  have hset : Returns (setEntry a.selected (input.edited vm)) (input.paths a) ⟨⟩
      { input.paths a with vms := a.vms.set a.selected (input.edited vm) } := by
    rw [Returns, setEntry, hlist.vms, if_pos hlt]
  refine Returns.bind (returns_get a) (Returns.bind hentry ?_)
  exact Returns.bind (show Returns (modify input.paths) a ⟨⟩ (input.paths a) from rfl)
    (Returns.bind hset rfl)

theorem exec_showLog (chunk : String) (a : App) :
    (a.SameList (a.exec (showLog chunk)) ∧ (a.exec (showLog chunk)).backend = a.backend ∧
      (a.exec (showLog chunk)).startedFrom = a.startedFrom) ∧
      ((a.exec (showLog chunk)).phase = .row 0 a.vms.length none ∨
        (∃ p, (a.exec (showLog chunk)).phase = .panicked p) ∧
          ∃ p log, Aborts (App.update chunk) a.log p log) := by
  cases hlog : App.update chunk a.log with
  | ok r log =>
    have hrun : Returns (showLog chunk) a ⟨⟩
        { a with log := log, phase := .row 0 a.vms.length none } := by
      have hupdate : Returns (onLog (App.update chunk)) a r { a with log := log } := by
        rw [Returns, onLog, hlog]
      refine Returns.bind hupdate ?_
      rfl
    rw [App.exec_of_returns hrun]
    exact ⟨⟨⟨rfl, rfl, rfl⟩, rfl, rfl⟩, .inl rfl⟩
  | error p log =>
    have hrun : Aborts (showLog chunk) a p { a with log := log } := by
      refine Aborts.bind ?_ _
      rw [Aborts, onLog, hlog]
    rw [App.exec, show showLog chunk a = .error p _ from hrun]
    exact ⟨⟨⟨rfl, rfl, rfl⟩, rfl, rfl⟩, .inr ⟨⟨p, rfl⟩, p, log, hlog⟩⟩

/-! ### Any step -/

/-- The place in `update` fits a list of `n` entries. -/
def Phase.Fits (n : Nat) : Phase → Prop
  | .row _ m toDelete => m = n ∧ ∀ d ∈ toDelete, d < n
  | .delete toDelete => ∀ d ∈ toDelete, d < n
  | _ => True

/-- The central panel's `cfg`, where `update` has it. -/
def Phase.cfg? : Phase → Option Entry
  | .start cfg => some cfg
  | .stop cfg => some cfg
  | .reset cfg => some cfg
  | _ => none

/-- The steps that run more than the interface's own code. -/
def Label.leavesGui : Label → Prop
  | .drainEnd => True
  | .part (.start clicked) => clicked.isSome
  | .part (.reset clicked) => clicked.isSome
  | _ => False

/-- A step of the application, by what it does to the list and the selection. -/
inductive App.ListMoves (a : App) : Label → App → Prop
  | other {l : Label} {b : App} : a.SameList b → b.phase.Fits a.vms.length →
      (b.phase.cfg? = none ∨ b.phase.cfg? = a.phase.cfg? ∨ b.phase.cfg? = a.vms[a.selected]?) →
      (∀ p, b.phase = .panicked p → l.leavesGui ∨ a.phase = .panicked p) → ListMoves a l b
  | row {clicked deleteClicked fails : Bool} (vm : Entry) (i n : Nat) (toDelete : Option Nat) :
      a.phase = .row i n toDelete → i < n → a.vms[i]? = some vm →
      ListMoves a (.part (.row clicked deleteClicked fails))
        (a.drawn vm i n toDelete clicked deleteClicked fails)
  | newVm (i n : Nat) (toDelete : Option Nat) : a.phase = .row i n toDelete →
      ListMoves a (.part (.newVm true)) { a with
        vms := a.vms ++ [.default a.created]
        selected := a.vms.length
        created := a.created + 1
        phase := .delete toDelete }
  | delete (toDelete : Option Nat) : a.phase = .delete toDelete →
      ListMoves a (.part .delete) (a.deleted toDelete)
  | settings {b : App} (input : Settings) (vm : Entry) : a.vms[a.selected]? = some vm →
      b.vms = a.vms.set a.selected (input.edited vm) → b.selected = a.selected →
      b.created = a.created → b.phase = .console → ListMoves a (.part (.settings (some input))) b

theorem listMoves_runButton (h : Host) (cfg : Entry) (clicked : Option World) {next : Phase}
    {a : App} {l : Label} (hl : clicked.isSome → l.leavesGui) (hfits : next.Fits a.vms.length)
    (hcfg : next.cfg? = none ∨ next.cfg? = a.phase.cfg?) (hnext : ∀ p, next ≠ .panicked p) :
    a.ListMoves l (a.exec (runButton h cfg clicked next)) := by
  have hcfg' : next.cfg? = none ∨ next.cfg? = a.phase.cfg? ∨ next.cfg? = a.vms[a.selected]? :=
    hcfg.imp_right .inl
  cases clicked with
  | none =>
    have hrun : Returns (runButton h cfg none next) a ⟨⟩ { a with phase := next } := rfl
    rw [App.exec_of_returns hrun]
    exact .other ⟨rfl, rfl, rfl⟩ hfits hcfg' fun p hp => absurd hp (hnext p)
  | some w =>
    obtain ⟨hran, hphase⟩ := exec_runButton h cfg w next a
    rcases hphase with hphase | ⟨p, hphase⟩
    · refine .other hran.list ?_ ?_ fun p hp => .inl (hl rfl) <;> rwa [hphase]
    · refine .other hran.list ?_ (.inl ?_) fun p hp => .inl (hl rfl) <;> rw [hphase]
      · trivial
      · rfl

section

variable {h : Host} {a b : App}

theorem listMoves_part {p : Part} {m : AppM PUnit} (hsel : a.selected < a.vms.length)
    (hfits : a.phase.Fits a.vms.length) (hcode : a.CodeAt h p m) :
    a.ListMoves (.part p) (a.exec m) := by
  obtain ⟨vm, hvm⟩ : ∃ vm, a.vms[a.selected]? = some vm := ⟨_, List.getElem?_eq_getElem hsel⟩
  cases hcode with
  | row i n toDelete hphase hi =>
    rw [hphase] at hfits
    -- the row is one of the list, whose length the loop has fixed
    have hvmi := List.getElem?_eq_getElem (show i < a.vms.length from hfits.1 ▸ hi)
    rw [exec_drawRow hvmi]
    exact .row _ i n toDelete hphase hi hvmi
  | @newVm clicked i n toDelete hphase =>
    rw [exec_newVm]
    cases clicked with
    | true => exact .newVm i n toDelete hphase
    | false =>
      rw [hphase] at hfits
      exact .other ⟨rfl, rfl, rfl⟩ hfits.2 (.inl rfl) (by rintro _ ⟨⟩)
  | delete toDelete hphase =>
    rw [hphase] at hfits
    rw [exec_deleteVm hfits]
    exact .delete toDelete hphase
  | statusBar =>
    rw [exec_statusBar]
    exact .other ⟨rfl, rfl, rfl⟩ trivial (.inl rfl) (by rintro _ ⟨⟩)
  | central =>
    rw [exec_central hvm]
    exact .other ⟨rfl, rfl, rfl⟩ trivial (.inr (.inr hvm.symm)) (by rintro _ ⟨⟩)
  | start cfg hphase =>
    refine listMoves_runButton h _ _ id trivial (.inr ?_) (by rintro _ ⟨⟩)
    rw [hphase]
    rfl
  | stop cfg hphase =>
    rw [exec_stopButton]
    refine .other ⟨rfl, rfl, rfl⟩ trivial (.inr (.inl ?_)) (by rintro _ ⟨⟩)
    rw [hphase]
    rfl
  | reset cfg hphase => exact listMoves_runButton h _ _ id trivial (.inl rfl) (by rintro _ ⟨⟩)
  | @settings unfolded hphase =>
    cases unfolded with
    | none => exact .other ⟨rfl, rfl, rfl⟩ trivial (.inl rfl) (by rintro _ ⟨⟩)
    | some input =>
      rw [exec_settings hvm]
      have hlist := input.paths_list a
      exact .settings input _ hvm rfl hlist.selected hlist.created rfl
  | console => exact .other ⟨rfl, rfl, rfl⟩ trivial (.inl rfl) (by rintro _ ⟨⟩)

/-- **Every step** is one of these, in a state that can index its list. -/
theorem App.listMoves_of_step {l : Label} (hsel : a.selected < a.vms.length)
    (hfits : a.phase.Fits a.vms.length) (hstep : step h a l = some b) : a.ListMoves l b := by
  cases App.takes_of_step hstep with
  | frame => exact .other ⟨rfl, rfl, rfl⟩ trivial (.inl rfl) (by rintro _ ⟨⟩)
  | drainRecv | engine =>
    exact .other ⟨rfl, rfl, rfl⟩ hfits (.inr (.inl rfl)) fun p hp => .inr hp
  | drainEnd d s =>
    -- trimming the log may panic
    obtain ⟨⟨hlist, _, _⟩, hphase⟩ := exec_showLog d.out { a with backend := s }
    refine .other ⟨hlist.vms, hlist.selected, hlist.created⟩ ?_ (.inl ?_) fun p hp => .inl trivial
      <;> rcases hphase with hphase | ⟨⟨p, hphase⟩, _⟩ <;> rw [hphase]
    · exact ⟨rfl, by rintro _ ⟨⟩⟩
    · trivial
    · rfl
    · rfl
  | part p m hcode => exact listMoves_part hsel hfits hcode
  | close => exact .other ⟨rfl, rfl, rfl⟩ trivial (.inl rfl) (by rintro _ ⟨⟩)

end

end MochiVM.Gui
