import MochiVM.Manager.AppRuns

/-!
# The selected VM (manager/src/main.rs)

The selection is an index into the list, and a row can be deleted while another
one is selected. The entry at index `j` is then at `newIndex i j`, but `update`
moves the selection up whatever row went. `selectionHolds_iff` says in which
runs that does no harm: in those that delete no row behind the selected one,
unless that is the first.
-/

namespace MochiVM.Gui

open MochiVM.Buffer MochiVM.Fat MochiVM.Vm MochiVM.Runs MochiVM.Panic

/-! ## Deleting a row -/

/-- Where the entry at index `j` is after that at index `i` is removed. -/
def newIndex (i j : Nat) : Nat := if i < j then j - 1 else j

theorem getElem?_eraseIdx_newIndex {α : Type} {l : List α} {i j : Nat} (hne : i ≠ j) :
    (l.eraseIdx i)[newIndex i j]? = l[j]? := by
  rw [newIndex]
  by_cases hij : i < j
  · rw [if_pos hij, List.getElem?_eraseIdx_of_ge (by omega)]
    congr 1
    omega
  · rw [if_neg hij, List.getElem?_eraseIdx_of_lt (by omega)]

/-- Two indices with the same entry are the same. -/
theorem Indexed.index_unique {a : App} (ha : Indexed a) {i j : Nat} (hi : i < a.vms.length)
    (h : a.vms[i]? = a.vms[j]?) : i = j := by
  have hi' : i < (a.vms.map Entry.id).length := by rwa [List.length_map]
  refine (List.getElem?_inj hi' ha.distinct).mp ?_
  rw [List.getElem?_map, List.getElem?_map, h]

/-- Moving the selection up is right exactly if no row behind it went, or it was
the first. -/
theorem Indexed.kept_iff {a : App} (ha : Indexed a) {i : Nat} (hne : i ≠ a.selected) :
    (a.vms.eraseIdx i)[a.selected - 1]? = a.vms[a.selected]? ↔
      ¬ (0 < a.selected ∧ a.selected < i) := by
  have hmoved := getElem?_eraseIdx_newIndex (l := a.vms) hne
  constructor
  · -- else the row before the selected one would be the same entry
    intro h hbehind
    rw [List.getElem?_eraseIdx_of_lt (by omega)] at h
    have := ha.index_unique (i := a.selected) ha.selected h.symm
    omega
  · intro h
    rw [← hmoved, newIndex]
    congr 1
    split <;> omega

/-! ## One step -/

/-- What a step should do to the list and the selection. -/
structure StepRight (h : Host) (a : App) (l : Label) (b : App) : Prop where
  nonempty : b.vms ≠ []
  inRange : b.selected < b.vms.length
  /-- The interface's own code does not panic. -/
  noPanic : ∀ p, b.phase = .panicked p → l.leavesGui ∨ a.phase = .panicked p
  /-- Deleting row `i` leaves the others, and of them the one selected. -/
  deleted : ∀ i, l = .part .delete → a.phase = .delete (some i) → i ≠ a.selected →
    b.vms = a.vms.eraseIdx i ∧ b.vms[b.selected]? = a.vms[a.selected]?
  /-- The VM that is started is the selected one. -/
  started : ∀ w, l.Runs w → ∃ cfg, a.vms[a.selected]? = some cfg ∧ a.Ran h cfg w b
  /-- The settings are the selected VM's. -/
  edited : ∀ unfolded, l = .part (.settings unfolded) →
    ∀ j, j ≠ a.selected → b.vms[j]? = a.vms[j]?

/-- The step deletes no row behind the selected one, unless that is the first. -/
def NotBehind (a : App) (l : Label) (_ : App) : Prop :=
  ∀ i, l = .part .delete → a.phase = .delete (some i) → ¬ (0 < a.selected ∧ a.selected < i)

section

variable {h : Host} {a b : App} {l : Label}

theorem noPanic_of_step (ha : Indexed a) (hstep : step h a l = some b) :
    ∀ p, b.phase = .panicked p → l.leavesGui ∨ a.phase = .panicked p := by
  cases App.listMoves_of_step ha.selected ha.fits hstep with
  | other _ _ _ hpanic => exact hpanic
  | row | newVm => rintro _ ⟨⟩
  | delete toDelete =>
    intro p hp
    cases toDelete with
    | none => cases hp
    | some i =>
      rw [App.deleted] at hp
      split at hp <;> cases hp
  | settings _ _ _ _ _ _ hphase =>
    intro p hp
    rw [hphase] at hp
    cases hp

theorem deleted_of_step (ha : Indexed a) {i : Nat} (hphase : a.phase = .delete (some i))
    (hstep : step h a (.part .delete) = some b) (hne : i ≠ a.selected) :
    b.vms = a.vms.eraseIdx i ∧ b.selected = a.selected - 1 := by
  have hfits := ha.fits
  rw [hphase] at hfits
  have hi : i < a.vms.length := hfits i rfl
  -- with two different rows the list has more than one
  have hlen : 1 < a.vms.length := by
    have := ha.selected
    omega
  rw [step, hphase] at hstep
  obtain rfl : a.exec (deleteVm (some i)) = b := Option.some_inj.mp hstep
  rw [exec_deleteVm hfits, App.deleted, if_pos hlen]
  exact ⟨rfl, rfl⟩

theorem started_of_step (ha : Indexed a) {w : World} (hl : l.Runs w)
    (hstep : step h a l = some b) : ∃ cfg, a.vms[a.selected]? = some cfg ∧ a.Ran h cfg w b := by
  -- the button's `cfg` is the copy made for the panel
  rcases hl with rfl | rfl <;> obtain ⟨m, hcode, rfl⟩ := Option.map_eq_some_iff.mp hstep
    <;> cases hphase : a.phase <;> rw [hphase] at hcode <;> cases hcode
  · exact ⟨_, ha.copied _ (by rw [hphase]; rfl), (exec_runButton h _ w _ a).1⟩
  · exact ⟨_, ha.copied _ (by rw [hphase]; rfl), (exec_runButton h _ w _ a).1⟩

theorem edited_of_step (ha : Indexed a) {unfolded : Option Settings}
    (hstep : step h a (.part (.settings unfolded)) = some b) :
    ∀ j, j ≠ a.selected → b.vms[j]? = a.vms[j]? := by
  intro j hj
  cases App.listMoves_of_step ha.selected ha.fits hstep with
  | other hlist => rw [hlist.vms]
  | settings input vm _ hvms =>
    rw [hvms, List.getElem?_set_ne (Ne.symm hj)]

/-- **One step** is right exactly if it deletes no row behind the selected one. -/
theorem stepRight_iff (ha : Good a) (hstep : step h a l = some b) :
    StepRight h a l b ↔ NotBehind a l b := by
  have hb := ha.step hstep
  constructor
  · rintro hright i rfl hphase
    by_cases hne : i = a.selected
    · omega
    · obtain ⟨hvms, hkept⟩ := hright.deleted i rfl hphase hne
      rw [(deleted_of_step ha.toIndexed hphase hstep hne).2, hvms] at hkept
      exact (ha.kept_iff hne).mp hkept
  · intro hnot
    refine ⟨List.ne_nil_of_length_pos (Nat.zero_lt_of_lt hb.selected), hb.selected,
      noPanic_of_step ha.toIndexed hstep, ?_, fun w hl => started_of_step ha.toIndexed hl hstep, ?_⟩
    · rintro i rfl hphase hne
      obtain ⟨hvms, hsel⟩ := deleted_of_step ha.toIndexed hphase hstep hne
      refine ⟨hvms, ?_⟩
      rw [hvms, hsel]
      exact (ha.kept_iff hne).mpr (hnot i rfl hphase)
    · rintro unfolded rfl
      exact edited_of_step ha.toIndexed hstep

end

/-! ## Frames without a start -/

/-- A label other than a clicked "start" or "reset". -/
def Label.plain (l : Label) : Prop := l.leavesGui → l = .drainEnd

/-- A system that never had an engine. -/
structure Quiet (s : Sys) : Prop where
  child : s.backend.child = none
  rx : s.backend.rx = none
  engines : s.engines = []
  drained : ∀ d, s.draining = some d → d.out = ""

theorem Quiet.stopped {s : Sys} (hs : Quiet s) : s.stopped = s := by
  rw [Sys.stopped, hs.child]

theorem Quiet.step {hst : Host} {s t : Sys} {l : Vm.Label} (hs : Quiet s)
    (hl : ∀ cfg efi code vars w, l ≠ .start cfg efi code vars w)
    (hstep : Vm.step hst s l = some t) : Quiet t := by
  have hsync : s.backend.rx = s.backend.child := hs.rx.trans hs.child.symm
  cases Sys.moves_of_step hsync hstep with
  | notStarted | orphaned | started => exact absurd rfl (hl _ _ _ _ _)
  | stop => rwa [hs.stopped]
  | notRunning => exact hs
  | reaped g _ hg =>
    rw [hs.child] at hg
    cases hg
  | drop =>
    rw [hs.stopped]
    exact ⟨hs.child, hs.rx, hs.engines, hs.drained⟩
  | drainBegin =>
    refine ⟨hs.child, hs.rx, hs.engines, fun d hd => ?_⟩
    cases hd
    rfl
  | drainRecv d c rest _ hpending =>
    rw [Sys.pending, hs.rx] at hpending
    cases hpending
  | drainEnd => exact ⟨hs.child, hs.rx, hs.engines, fun d hd => nomatch hd⟩
  | engine g e _ _ he =>
    rw [hs.engines] at he
    cases he

/-- An application that no frame has started an engine of, and that has not
panicked. -/
structure Plain (a : App) : Prop extends Good a where
  quiet : Quiet a.backend
  calm : ∀ p, a.phase ≠ .panicked p

theorem Plain.step {h : Host} {a b : App} {l : Label} (ha : Plain a) (hl : l.plain)
    (hstep : step h a l = some b) : Plain b := by
  have hgood := ha.toGood.step hstep
  have hquiet : Quiet b.backend := by
    cases backendMoves_of_step ha.toIndexed ha.toLinked hstep with
    | same heq => exact heq ▸ ha.quiet
    | call l' hcalls hs =>
      refine ha.quiet.step ?_ hs
      rintro cfg efi code vars w rfl
      cases hcalls
    | run cfg w hruns =>
      rcases hruns with rfl | rfl <;> cases hl rfl
  refine ⟨hgood, hquiet, fun p hp => ?_⟩
  rcases noPanic_of_step ha.toIndexed hstep p hp with hleaves | hpanicked
  · obtain rfl := hl hleaves
    cases App.takes_of_step hstep with | drainEnd d s hd hs =>
    -- no engine, no output: `drain_log` returned the empty string
    rw [ha.quiet.drained d hd] at hp
    rcases (exec_showLog "" { a with backend := s }).2 with hphase | ⟨_, p', log, habort⟩
    · rw [hphase] at hp
      cases hp
    · exact (App.update_empty _).not_aborts habort
  · exact ha.calm p hpanicked

/-! ## Whole runs -/

/-- What every run should do to the list and the selection. -/
structure SelectionHolds (h : Host) (a : App) (ls : List Label) : Prop where
  steps : Each (step h) (StepRight h) a ls
  /-- Frames that start no engine do not panic at all. -/
  calm : (∀ l ∈ ls, l.plain) → Each (step h) (fun _ _ b => ∀ p, b.phase ≠ .panicked p) a ls

theorem selectionHolds_of_plain (h : Host) {a : App} (ha : Plain a) (ls : List Label) :
    SelectionHolds h a ls ↔ Each (step h) NotBehind a ls := by
  have hsteps : Each (step h) (StepRight h) a ls ↔ Each (step h) NotBehind a ls :=
    each_congr_on (P := fun _ => True) (fun _ _ _ _ hs hstep => Good.step hs hstep)
      (fun _ _ _ _ hs hstep => stepRight_iff hs hstep) (fun _ _ => trivial) ha.toGood
  refine ⟨fun hholds => hsteps.mp hholds.steps, fun hnot => ⟨hsteps.mpr hnot, fun hplain => ?_⟩⟩
  refine each_of_inv_on (fun s l t hl hs hstep => ?_) hplain ha
  have ht := Plain.step hs hl hstep
  exact ⟨ht, ht.calm⟩

theorem Plain.new (h : Host) (exeDir : String) (detected : Option (String × String))
    (files : Files) : Plain (App.new h exeDir detected files) where
  toGood := .new h exeDir detected files
  quiet := ⟨rfl, rfl, rfl, fun _ hd => nomatch hd⟩
  calm _ hp := nomatch hp

/-- **The selection** survives exactly the runs that delete no row behind the
selected one, unless that is the first. -/
theorem selectionHolds_iff (h : Host) (exeDir : String) (detected : Option (String × String))
    (files : Files) (ls : List Label) :
    SelectionHolds h (App.new h exeDir detected files) ls ↔
      Each (step h) NotBehind (App.new h exeDir detected files) ls :=
  selectionHolds_of_plain h (.new h exeDir detected files) ls

/-- Two frames that add a VM each. -/
def threeVms : List Label :=
  sidebarLabels [(false, false)] true ++ panelLabels none ++
    (sidebarLabels [(false, false), (false, false)] true ++ panelLabels none)

/-- Then the second of the three is selected, and the third deleted: the first
is selected after it. -/
theorem not_selectionHolds_third : ¬ SelectionHolds bareHost
    (App.new bareHost "app" none fun _ => none)
    (threeVms ++ sidebarLabels [(false, false), (true, false), (false, true)] false ++
      .part .delete :: []) := by
  rw [selectionHolds_of_plain bareHost (.new _ _ _ _)]
  intro hnot
  have hrun : (Runs.run (step bareHost) (App.new bareHost "app" none fun _ => none)
      (threeVms ++ sidebarLabels [(false, false), (true, false), (false, true)] false)).map
      (fun a => (a.phase, a.selected)) = some (.delete (some 2), 1) := rfl
  obtain ⟨a, ha, heq⟩ := Option.map_eq_some_iff.mp hrun
  injection heq with hphase hselected
  have hstep : step bareHost a (.part .delete) = some (a.exec (deleteVm (some 2))) := by
    rw [step, hphase]
    rfl
  refine hnot.of_run ha hstep 2 rfl hphase ?_
  rw [hselected]
  omega

end MochiVM.Gui
