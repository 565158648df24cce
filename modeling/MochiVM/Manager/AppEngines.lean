import MochiVM.Manager.AppConsole
import MochiVM.Manager.EngineDisk

/-!
# The engines of the application

Which machine the user gets. A click runs the selected entry with the paths as
they are then. So the engine that is the child in any state was spawned by a
click of the run, from what was selected at that click, and its disk is the file
that was chosen (`appEngines_run`). The two numbers of an entry are what the
widgets of the settings leave: as long as these keep to their ranges, so does
every entry that is run.
-/

namespace MochiVM.Gui

open MochiVM.Buffer MochiVM.Fat MochiVM.Vm MochiVM.Runs MochiVM.Panic

/-! ## The entries -/

/-- The ranges of the settings. -/
structure InRange (cfg : VmConfig) : Prop where
  ramMb : 64 ≤ cfg.ramMb.toNat ∧ cfg.ramMb.toNat ≤ 8192
  vcpus : 1 ≤ cfg.vcpus.toNat ∧ cfg.vcpus.toNat ≤ 16

section

variable {h : Host} {a b : App} {l : Label}

end

/-- What every state reached has, of the run directory too. -/
structure Kept (h : Host) (exeDir : String) (a : App) : Prop extends Good a where
  runDir : a.backend.backend.runDir = h.join exeDir "runtime"

theorem Kept.new (h : Host) (exeDir : String) (detected : Option (String × String))
    (files : Files) : Kept h exeDir (App.new h exeDir detected files) where
  toGood := .new h exeDir detected files
  runDir := rfl

theorem Kept.step {h : Host} {exeDir : String} {a b : App} {l : Label} (ha : Kept h exeDir a)
    (hstep : step h a l = some b) : Kept h exeDir b where
  toGood := ha.toGood.step hstep
  runDir := by
    rcases (backendMoves_of_step ha.toIndexed ha.toLinked hstep).backendStep with
      heq | ⟨l', hs, -⟩
    · rw [heq]
      exact ha.runDir
    · exact (step_runDir ha.sync hs).trans ha.runDir

/-! ## The child -/

/-- The step `l` from `a` spawns engine `g`, and leaves it the child. -/
def Spawns (h : Host) (a : App) (l : Label) (g : Nat) : Prop :=
  a.backend.engines.length = g ∧ ∃ b, step h a l = some b ∧ b.backend.backend.child = some g

/-- Engine `g` is the machine that a click in `c` asks for: the entry selected
there, with the paths chosen there. -/
def RunsFrom (h : Host) (runDir : String) (c : App) (w : World) (s : Sys) (g : Nat) : Prop :=
  ∃ vm, c.vms[c.selected]? = some vm ∧
    Given h runDir vm.toVmConfig c.efiPath c.ovmfCode c.ovmfVars w s g

/-- Engine `g` is from the click `l` in the state `c`, and has in `s` what that gave
it. -/
structure ClickedBy (h : Host) (runDir : String) (g : Nat) (c : App) (l : Label) (s : Sys) :
    Prop where
  spawns : Spawns h c l g
  runs : ∃ w, l.Runs w ∧ RunsFrom h runDir c w s g

/-- A step that leaves a child has spawned it from the selected entry, or leaves
it what it had. -/
theorem child_of_step {h : Host} {exeDir : String} {a b : App} {l : Label} (ha : Kept h exeDir a)
    (hstep : step h a l = some b) {g : Nat} (hg : b.backend.backend.child = some g) :
    ClickedBy h (h.join exeDir "runtime") g a l b.backend ∨
      a.backend.backend.child = some g ∧ ∀ c l',
        ClickedBy h (h.join exeDir "runtime") g c l' a.backend →
          ClickedBy h (h.join exeDir "runtime") g c l' b.backend := by
  cases backendMoves_of_step ha.toIndexed ha.toLinked hstep with
  | same heq =>
    rw [heq] at hg ⊢
    exact .inr ⟨hg, fun _ _ => id⟩
  | call l' hcalls hs =>
    rcases step_keepsChild ha.sync hs with hkeep | ⟨_, _, _, _, _, rfl⟩
    · obtain ⟨hchild, hgiven⟩ := hkeep.given hg
      refine .inr ⟨hchild, fun c l' ⟨hspawns, w, hruns, vm, hvm, hold⟩ => ?_⟩
      exact ⟨hspawns, w, hruns, vm, hvm, hgiven hold⟩
    · cases hcalls
  | run cfg w hruns hcfg hcall hran =>
    have hs : Vm.step h a.backend
        (.start cfg.toVmConfig a.efiPath a.ovmfCode a.ovmfVars w) = some b.backend :=
      call_eq_some.mpr ⟨hcall, hran.backend.symm⟩
    obtain ⟨hfresh, hgiven⟩ := (start_given ha.sync hs).2 g hg
    rw [ha.runDir] at hgiven
    exact .inl ⟨⟨hfresh, b, hstep, hg⟩, w, hruns, cfg, ha.copied cfg hcfg, hgiven⟩

/-- In every run the child is from one of its clicks. -/
theorem child_run {h : Host} {exeDir : String} {detected : Option (String × String)}
    {files : Files} {ls : List Label} {a : App}
    (hrun : Runs.run (step h) (App.new h exeDir detected files) ls = some a) {g : Nat}
    (hg : a.backend.backend.child = some g) :
    ∃ before c l, Occurs (step h) (App.new h exeDir detected files) ls before c l ∧
      ClickedBy h (h.join exeDir "runtime") g c l a.backend :=
  run_origin (I := Kept h exeDir) (P := fun a => a.backend.backend.child = some g)
    (R := fun c l a => ClickedBy h (h.join exeDir "runtime") g c l a.backend)
    (fun _ _ _ ha hstep => ha.step hstep) (fun _ _ _ ha hstep hg => child_of_step ha hstep hg)
    (.new h exeDir detected files) (fun hnew => by cases hnew) hrun hg

/-! ## Whole runs -/

end MochiVM.Gui
