import MochiVM.Manager.AppEngines

/-!
# The firmware of the engines (manager/src/main.rs, ovmf.rs)

The firmware comes in pairs, the code and the variables it starts from, and
`App` has them in two fields. `App::new`, "auto-detect ovmf" and "download ovmf"
set both, the two file buttons one of them. So as long as no file is picked, an
engine runs the code of one of those pairs with the variables of the same one
(`firmware_run`).
-/

namespace MochiVM.Gui

open MochiVM.Buffer MochiVM.Fat MochiVM.Vm MochiVM.Runs MochiVM.Panic

/-! ## Where the pairs come from -/

/-- Next to the program. -/
def besideProgram (h : Host) (dir : String) : String × String :=
  (h.join dir "ovmf/x64/code.fd", h.join dir "ovmf/x64/vars.fd")

/-- The pairs that `detect` looks for. -/
def candidates (h : Host) (dir : String) : List (String × String) :=
  if h.windows then [besideProgram h dir]
  else
    [("/usr/share/OVMF/OVMF_CODE_4M.fd", "/usr/share/OVMF/OVMF_VARS_4M.fd"),
      ("/usr/share/OVMF/OVMF_CODE.fd", "/usr/share/OVMF/OVMF_VARS.fd")]

/-- `ovmf::detect` (ovmf.rs:9). -/
def detect (h : Host) : Option (String × String) :=
  h.exeDir.bind fun dir => (candidates h dir).find? fun p => h.present p.1 && h.present p.2

/-- Both files are there. -/
theorem detect_present {h : Host} {p : String × String} (hp : detect h = some p) :
    h.present p.1 = true ∧ h.present p.2 = true := by
  obtain ⟨dir, -, hfind⟩ := Option.bind_eq_some_iff.mp hp
  have hboth := List.find?_some hfind
  simpa using hboth

def App.firmware (a : App) : String × String := (a.ovmfCode, a.ovmfVars)

/-- Neither file of the firmware is picked by hand. -/
def Label.picksNone : Label → Prop
  | .part (.settings (some input)) => input.code = none ∧ input.vars = none
  | _ => True

/-- One of the two ovmf buttons comes back with this pair. -/
def Label.Offers (l : Label) (p : String × String) : Prop :=
  ∃ input, l = .part (.settings (some input)) ∧
    (input.detect = some (some p) ∨ input.download = some (.ok p))

/-- The pairs there are after the labels `ls`. -/
inductive Paired (h : Host) (exeDir : String) (ls : List Label) (p : String × String) : Prop
  /-- `App::new` detects one whose files are there, -/
  | detected : detect h = some p → h.present p.1 = true → h.present p.2 = true →
      Paired h exeDir ls p
  /-- or falls back. -/
  | beside : detect h = none → p = besideProgram h exeDir → Paired h exeDir ls p
  | offered (l : Label) : l ∈ ls → l.Offers p → Paired h exeDir ls p

theorem Paired.mono {h : Host} {exeDir : String} {ls : List Label} {p : String × String}
    (hp : Paired h exeDir ls p) (l : Label) : Paired h exeDir (ls ++ [l]) p := by
  cases hp with
  | detected hdetect hcode hvars => exact .detected hdetect hcode hvars
  | beside hdetect heq => exact .beside hdetect heq
  | offered l' hl' hoffers => exact .offered l' (List.mem_append_left _ hl') hoffers

theorem paired_new (h : Host) (exeDir : String) (files : Files) :
    Paired h exeDir [] (App.new h exeDir (detect h) files).firmware := by
  cases hdetect : detect h with
  | none => exact .beside hdetect rfl
  | some p =>
    obtain ⟨hcode, hvars⟩ := detect_present hdetect
    exact .detected hdetect hcode hvars

/-! ## What a step does to the pair -/

section

variable {h : Host} {a b : App} {l : Label}

theorem firmware_showLog (chunk : String) (a : App) :
    (a.exec (showLog chunk)).firmware = a.firmware := by
  refine App.exec_ends (Q := fun b => b.firmware = a.firmware) ?_
  refine (ends_bind _ _ _ _ _).mpr ?_
  rw [Ends, onLog]
  cases App.update chunk a.log <;> rfl

theorem firmware_runButton (h : Host) (cfg : Entry) (clicked : Option World) (next : Phase)
    (a : App) : (a.exec (runButton h cfg clicked next)).firmware = a.firmware := by
  cases clicked with
  | none => rfl
  | some w =>
    refine App.exec_ends (Q := fun b => b.firmware = a.firmware) ?_
    have hrun : Ends (run h cfg w) a (fun _ b => b.firmware = a.firmware)
        fun _ b => b.firmware = a.firmware := by
      rw [run, ends_bind, ends_get]
      refine (ends_bind _ _ _ _ _).mpr ?_
      refine (ends_bind _ _ _ _ _).mpr (ends_onBackend ?_)
      show Ends (start h cfg.toVmConfig a.efiPath a.ovmfCode a.ovmfVars w) a.backend _ _
      cases hstart : start h cfg.toVmConfig a.efiPath a.ovmfCode a.ovmfVars w a.backend with
      | ok r s =>
        rw [ends_of_returns hstart]
        cases r <;> rfl
      | error p s =>
        rw [ends_of_aborts hstart]
        rfl
    exact (ends_bind _ _ _ _ _).mpr (hrun.mono (fun _ _ hb => hb) fun _ _ hb => hb)

/-- The two buttons set both files. -/
theorem Settings.firmware_paths (input : Settings) (a : App) (hcode : input.code = none)
    (hvars : input.vars = none) : (input.paths a).firmware = a.firmware ∨
      input.detect = some (some (input.paths a).firmware) ∨
      input.download = some (.ok (input.paths a).firmware) := by
  rw [Settings.paths, hcode, hvars]
  -- the download is the later of the two
  cases hdownload : input.download with
  | some r =>
    cases r with
    | ok p => exact .inr (.inr rfl)
    | error e =>
      cases hdetect : input.detect with
      | none => exact .inl rfl
      | some found =>
        cases found with
        | none => exact .inl rfl
        | some p => exact .inr (.inl rfl)
  | none =>
    cases hdetect : input.detect with
    | none => exact .inl rfl
    | some found =>
      cases found with
      | none => exact .inl rfl
      | some p => exact .inr (.inl rfl)

/-- **Every step** keeps the pair, or has a whole one for it. -/
theorem firmware_of_step (ha : Indexed a) (hl : l.picksNone) (hstep : step h a l = some b) :
    b.firmware = a.firmware ∨ l.Offers b.firmware := by
  have hvm := List.getElem?_eq_getElem ha.selected
  have hfits := ha.fits
  cases App.takes_of_step hstep with
  | frame | drainRecv | engine | close => exact .inl rfl
  | drainEnd d s => exact .inl (firmware_showLog d.out { a with backend := s })
  | part p m hcode =>
    cases hcode with
    | row i n toDelete hphase hi =>
      rw [hphase] at hfits
      rw [exec_drawRow (List.getElem?_eq_getElem (show i < a.vms.length from hfits.1 ▸ hi))]
      exact .inl rfl
    | @newVm clicked =>
      rw [exec_newVm]
      cases clicked <;> exact .inl rfl
    | delete toDelete hphase =>
      rw [hphase] at hfits
      rw [exec_deleteVm hfits]
      cases toDelete with
      | none => exact .inl rfl
      | some i =>
        rw [App.deleted]
        split <;> exact .inl rfl
    | statusBar =>
      rw [exec_statusBar]
      exact .inl rfl
    | central =>
      rw [exec_central hvm]
      exact .inl rfl
    | start | reset => exact .inl (firmware_runButton _ _ _ _ _)
    | stop =>
      rw [exec_stopButton]
      exact .inl rfl
    | @settings unfolded =>
      cases unfolded with
      | none => exact .inl rfl
      | some input =>
        rw [exec_settings hvm]
        refine (input.firmware_paths a hl.1 hl.2).imp_right fun hoffers => ?_
        exact ⟨input, rfl, hoffers⟩
    | console => exact .inl rfl

end

/-! ## Whole runs -/

/-- In every run in which none is picked by hand the two files are a pair. -/
theorem paired_run {h : Host} {exeDir : String} {files : Files} {ls : List Label} {a : App}
    (hpicks : ∀ l ∈ ls, l.picksNone)
    (hrun : Runs.run (step h) (App.new h exeDir (detect h) files) ls = some a) :
    Paired h exeDir ls a.firmware := by
  refine (run_inv_history (I := fun ls a =>
    (∀ l ∈ ls, l.picksNone) → Indexed a ∧ Paired h exeDir ls a.firmware)
    (fun ls a l b ha hstep hls => ?_)
    (fun _ => ⟨(Good.new h exeDir (detect h) files).toIndexed, paired_new h exeDir files⟩)
    hrun hpicks).2
  obtain ⟨hindexed, hpaired⟩ := ha fun l hl => hls l (List.mem_append_left _ hl)
  refine ⟨hindexed.step hstep, ?_⟩
  rcases firmware_of_step hindexed (hls l (by simp)) hstep with heq | hoffers
  · exact heq ▸ hpaired.mono l
  · exact .offered l (List.mem_append_right _ (List.mem_singleton_self _)) hoffers

/-- The firmware after the labels `ls`. -/
structure Firmware (h : Host) (exeDir : String) (init : App) (ls : List Label) (a : App) :
    Prop where
  chosen : Paired h exeDir ls a.firmware
  /-- The child is from a click at which the two files were a pair, so it has the
  code of that pair and a copy of its variables. -/
  child : ∀ g, a.backend.backend.child = some g → ∃ before c l,
    Occurs (step h) init ls before c l ∧ Paired h exeDir before c.firmware ∧
      ClickedBy h (h.join exeDir "runtime") g c l a.backend

/-- **The firmware of the application**, in every run in which no file of it is
picked by hand: the code and the variables of an engine are of one pair. -/
theorem firmware_run (h : Host) (exeDir : String) (files : Files) {ls : List Label} {a : App}
    (hpicks : ∀ l ∈ ls, l.picksNone)
    (hrun : Runs.run (step h) (App.new h exeDir (detect h) files) ls = some a) :
    Firmware h exeDir (App.new h exeDir (detect h) files) ls a := by
  refine ⟨paired_run hpicks hrun, fun g hg => ?_⟩
  obtain ⟨before, c, l, hocc, hclicked⟩ := child_run hrun hg
  exact ⟨before, c, l, hocc, paired_run (hocc.of_before hpicks) hocc.reached, hclicked⟩

theorem firmware_run_first : ∃ a, Runs.run (step bareHost)
      (App.new bareHost "app" (detect bareHost) fun _ => none)
      (startLabels ++ [.part (.start (some smoothWorld))]) = some a ∧
    a.backend.backend.child = some 0 ∧
    Firmware bareHost "app" (App.new bareHost "app" (detect bareHost) fun _ => none)
      (startLabels ++ [.part (.start (some smoothWorld))]) a := by
  obtain ⟨files, program, args, hrun⟩ := firstStarted_run
  refine ⟨_, hrun, rfl, firmware_run bareHost "app" (fun _ => none) ?_ hrun⟩
  simp [startLabels, sidebarLabels, Label.picksNone]

end MochiVM.Gui
