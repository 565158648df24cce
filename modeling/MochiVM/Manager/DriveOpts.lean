import MochiVM.Lib.Options
import MochiVM.Manager.VmMethods

/-!
# The engine's drives (manager/src/vm.rs)

`start` gives the engine three `-drive` arguments, each a string of options
whose last one is the path of an image. The engine reads such a string as
`key=value` pairs with a `,` between two of them, and `,,` as a `,` in a value;
`start` writes the paths as they are. `drivesRight_iff` says on which paths the
engine opens what `start` meant: those without a comma. `commandLines_run` says
that no engine is given anything else.
-/

namespace MochiVM.Vm

open MochiVM.Options MochiVM.Fat MochiVM.Runs MochiVM.Panic

/-! ## What the engine reads -/

/-- The values of the `-drive` arguments of a command line. -/
def drives : List String → List String
  | [] => []
  | [_] => []
  | a :: b :: args => if a = "-drive" then b :: drives args else drives (b :: args)

/-- The options of a `-drive` argument, as the engine reads them. -/
def readDrive (arg : String) : Option (List (String × String)) :=
  (options ',' '=' arg.toList).map fun l =>
    l.map fun p => (String.ofList p.1, String.ofList p.2)

/-- The drives that `start` means: the code, the variables and the disk. -/
def meantDrives (h : Host) (code runDir : String) : List (List (String × String)) :=
  [[("if", "pflash"), ("format", "raw"), ("readonly", "on"), ("file", code)],
    [("if", "pflash"), ("format", "raw"), ("file", h.join runDir "vars.fd")],
    [("if", "virtio"), ("format", "raw"), ("file", h.join runDir "disk.img")]]

/-- The engine reads from a command line exactly the drives that `start` means. -/
def DrivesRight (h : Host) (code runDir : String) (args : List String) : Prop :=
  (drives args).map readDrive = (meantDrives h code runDir).map some

/-! ## What `start` writes -/

/-- A `-drive` argument with these options, as `start` writes it. -/
def writeDrive (l : List (String × String)) : String :=
  String.ofList (write ',' '=' (l.map fun p => (p.1.toList, p.2.toList)))

theorem readDrive_eq_some {arg : String} {l : List (String × String)} :
    readDrive arg = some l ↔
      options ',' '=' arg.toList = some (l.map fun p => (p.1.toList, p.2.toList)) := by
  rw [readDrive, Option.map_eq_some_iff]
  constructor
  · -- the strings of a pair are those of its characters
    rintro ⟨m, hm, rfl⟩
    rw [hm, List.map_map]
    congr 1
    refine (List.map_id m).symm.trans (List.map_congr_left fun p _ => ?_)
    exact Prod.ext String.toList_ofList.symm String.toList_ofList.symm
  · intro h
    refine ⟨_, h, ?_⟩
    rw [List.map_map]
    refine (List.map_congr_left fun p _ => ?_).trans (List.map_id l)
    exact Prod.ext String.ofList_toList String.ofList_toList

/-- What `start` writes is read back where no value has a comma. -/
theorem readDrive_writeDrive {l : List (String × String)}
    (hkeys : ∀ p ∈ l, CleanKey ',' '=' p.1.toList) :
    readDrive (writeDrive l) = some l ↔ ∀ p ∈ l, ',' ∉ p.2.toList := by
  rw [readDrive_eq_some, writeDrive, String.toList_ofList, options_write_iff (by decide)]
  · simp only [List.mem_map, forall_exists_index, and_imp, forall_apply_eq_imp_iff₂]
  · intro p hp
    obtain ⟨q, hq, rfl⟩ := List.mem_map.mp hp
    exact hkeys q hq

theorem repr_ne_drive (n : Nat) : n.repr ≠ "-drive" := by
  intro h
  -- a number has no `-`
  have hmem : '-' ∈ Nat.toDigits 10 n := by
    rw [← Nat.toList_repr, h]
    decide
  exact absurd (Nat.isDigit_of_mem_toDigits (by decide) (by decide) hmem) (by decide)

theorem megabytes_ne_drive (s : String) : s ++ "M" ≠ "-drive" := by
  intro h
  have hlast := congrArg (fun t : String => t.toList.getLast?) h
  simp only [String.toList_append] at hlast
  rw [show "M".toList = ['M'] by decide, List.getLast?_concat] at hlast
  exact absurd hlast (by decide)

theorem drives_qemuArgs (cfg : VmConfig) (code varsCopy disk : String) :
    drives (qemuArgs cfg code varsCopy disk) =
      ["if=pflash,format=raw,readonly=on,file=" ++ code, "if=pflash,format=raw,file=" ++ varsCopy,
        "if=virtio,format=raw,file=" ++ disk] := by
  cases haccel : cfg.accel <;>
    simp [qemuArgs, haccel, accelArgs, drives, repr_ne_drive, megabytes_ne_drive]

theorem drives_startArgs (h : Host) (cfg : VmConfig) (code runDir : String) :
    drives (startArgs h cfg code runDir) = (meantDrives h code runDir).map writeDrive := by
  -- each of the three strings is a list of options, written out
  have hcode : ∀ path, "if=pflash,format=raw,readonly=on,file=" ++ path = writeDrive
      [("if", "pflash"), ("format", "raw"), ("readonly", "on"), ("file", path)] := by
    intro path
    rw [← String.toList_inj]
    simp [writeDrive, write]
  have hvars : ∀ path, "if=pflash,format=raw,file=" ++ path = writeDrive
      [("if", "pflash"), ("format", "raw"), ("file", path)] := by
    intro path
    rw [← String.toList_inj]
    simp [writeDrive, write]
  have hdisk : ∀ path, "if=virtio,format=raw,file=" ++ path = writeDrive
      [("if", "virtio"), ("format", "raw"), ("file", path)] := by
    intro path
    rw [← String.toList_inj]
    simp [writeDrive, write]
  rw [startArgs, drives_qemuArgs, hcode, hvars, hdisk]
  rfl

/-! ## Which paths survive -/

/-- Joining adds no comma. -/
theorem comma_mem_join {h : Host} {dir name : String} (hname : ',' ∉ name.toList) :
    ',' ∈ (h.join dir name).toList ↔ ',' ∈ dir.toList := by
  rw [Host.join]
  split
  · simp [hname]
  · cases h.windows <;> simp [hname]

theorem meantDrives_clean {h : Host} {code runDir : String} {l : List (String × String)}
    (hl : l ∈ meantDrives h code runDir) : ∀ p ∈ l, CleanKey ',' '=' p.1.toList := by
  rw [meantDrives] at hl
  simp only [List.mem_cons, List.not_mem_nil, or_false] at hl
  rcases hl with rfl | rfl | rfl <;> simp [CleanKey]

/-- **The drives** are read as they are meant exactly when neither the code path
nor the run directory has a comma. -/
theorem drivesRight_iff (h : Host) (cfg : VmConfig) (code runDir : String) :
    DrivesRight h code runDir (startArgs h cfg code runDir) ↔
      ',' ∉ code.toList ∧ ',' ∉ runDir.toList := by
  have hvars : ',' ∈ (h.join runDir "vars.fd").toList ↔ ',' ∈ runDir.toList :=
    comma_mem_join (by decide)
  have hdisk : ',' ∈ (h.join runDir "disk.img").toList ↔ ',' ∈ runDir.toList :=
    comma_mem_join (by decide)
  rw [DrivesRight, drives_startArgs, List.map_map, List.map_inj_left]
  have hread : ∀ l ∈ meantDrives h code runDir,
      ((readDrive ∘ writeDrive) l = some l ↔ ∀ p ∈ l, ',' ∉ p.2.toList) :=
    fun l hl => readDrive_writeDrive (meantDrives_clean hl)
  rw [forall₂_congr hread]
  simp only [meantDrives, List.forall_mem_cons]
  simp [hvars, hdisk]

example : readDrive "if=pflash,format=raw,readonly=on,file=fw,,a,readonly=off" =
    some [("if", "pflash"), ("format", "raw"), ("readonly", "on"), ("file", "fw,a"),
      ("readonly", "off")] := by decide

/-- A code path that makes the drive writable, and another file's. -/
theorem not_drivesRight_readonly : ¬ DrivesRight bareHost "fw,readonly=off" "runtime"
    (startArgs bareHost smallConfig "fw,readonly=off" "runtime") := by
  intro h
  rw [DrivesRight, drives_startArgs] at h
  exact absurd h (by decide)

/-! ## The engines of a run -/

/-- The command lines of the engines spawned so far. -/
def Sys.commandLines (s : Sys) : List (List String) := s.engines.map Engine.args

theorem commandLines_modifyEngine (s : Sys) (g : Nat) {f : Engine → Engine}
    (hf : ∀ e, s.engines[g]? = some e → (f e).args = e.args) :
    (s.modifyEngine g f).commandLines = s.commandLines := by
  refine List.ext_getElem? fun i => ?_
  simp only [Sys.commandLines, Sys.modifyEngine, List.getElem?_map, List.getElem?_modify]
  by_cases hi : g = i
  · subst hi
    cases he : s.engines[g]? with
    | none => rfl
    | some e => simpa using hf e he
  · simp [hi]

theorem commandLines_stopped (s : Sys) : s.stopped.commandLines = s.commandLines := by
  rw [Sys.stopped]
  cases s.backend.child with
  | none => rfl
  | some g => exact commandLines_modifyEngine s g fun _ _ => rfl

theorem Engine.Moves.args {g : Nat} {e e' : Engine} (h : e.Moves g e') : e'.args = e.args := by
  cases h <;> rfl

section

variable {h : Host} {runDir : String} {ls : List Label} {s t : Sys} {l : Label}

/-- Nothing was spawned, or an engine with these arguments. -/
def Sys.AtMost (s t : Sys) (args : List String) : Prop :=
  t.commandLines = s.commandLines ∨ t.commandLines = s.commandLines ++ [args]

theorem start_commandLines {cfg : VmConfig} {efi code vars : String} {w : World}
    (hsync : s.backend.rx = s.backend.child)
    (hstep : step h s (.start cfg efi code vars w) = some t) :
    s.AtMost t (startArgs h cfg code s.backend.runDir) := by
  obtain ⟨-, rfl⟩ := call_eq_some.mp hstep
  -- `stop` spawns nothing
  have hnot : ∀ u, NotStarted s u → u.commandLines = s.commandLines := by
    rintro u ⟨files, rfl⟩
    exact commandLines_stopped s
  have hends : Ends (start h cfg efi code vars w) s
      (fun _ u => s.AtMost u (startArgs h cfg code s.backend.runDir))
      fun _ u => s.AtMost u (startArgs h cfg code s.backend.runDir) := by
    refine (start_launches hsync).mono (fun r u hu => ?_) fun _ u hu => .inl (hnot u hu)
    rcases hu with ⟨_, hu⟩ | ⟨files, ⟨_, _, rfl⟩ | ⟨_, rfl⟩⟩
    · exact .inl (hnot u hu)
    · refine .inr ?_
      rw [← commandLines_stopped s]
      exact List.map_append
    · refine .inr ?_
      rw [← commandLines_stopped s]
      exact List.map_append
  exact ends_iff_finalState.mp hends

/-- Only `start` spawns. -/
theorem step_commandLines (hsync : s.backend.rx = s.backend.child) (hstep : step h s l = some t) :
    t.commandLines = s.commandLines ∨ ∃ cfg efi code vars w, l = .start cfg efi code vars w ∧
      t.commandLines = s.commandLines ++ [startArgs h cfg code s.backend.runDir] := by
  cases Sys.moves_of_step hsync hstep with
  | notStarted | orphaned | started =>
    exact (start_commandLines hsync hstep).imp_right fun hlines => ⟨_, _, _, _, _, rfl, hlines⟩
  | stop | drop => exact .inl (commandLines_stopped s)
  | notRunning | drainBegin | drainEnd => exact .inl rfl
  | reaped g => exact .inl (commandLines_modifyEngine s g fun _ _ => rfl)
  | drainRecv d c =>
    refine .inl ?_
    cases hrx : s.backend.rx with
    | none =>
      rw [Sys.received, hrx]
      rfl
    | some g =>
      rw [Sys.received, hrx]
      exact commandLines_modifyEngine s g fun _ _ => rfl
  | engine g e e' l he he' =>
    refine .inl (commandLines_modifyEngine s g fun e₀ he₀ => ?_)
    rw [he] at he₀
    cases he₀
    exact (Engine.moves_of_step he').args

/-- Every engine was spawned by a `start` among these calls, with its command
line. -/
structure Attributed (h : Host) (runDir : String) (ls : List Label) (s : Sys) : Prop where
  sync : s.backend.rx = s.backend.child
  runDir_eq : s.backend.runDir = runDir
  started : ∀ args ∈ s.commandLines, ∃ cfg efi code vars w,
    .start cfg efi code vars w ∈ ls ∧ args = startArgs h cfg code runDir

theorem Attributed.step (hs : Attributed h runDir ls s) (hstep : step h s l = some t) :
    Attributed h runDir (ls ++ [l]) t where
  sync := step_sync hs.sync hstep
  runDir_eq := (step_runDir hs.sync hstep).trans hs.runDir_eq
  started args hargs := by
    have hold : args ∈ s.commandLines → ∃ cfg efi code vars w,
        .start cfg efi code vars w ∈ ls ++ [l] ∧ args = startArgs h cfg code runDir := by
      intro hargs
      obtain ⟨cfg, efi, code, vars, w, hmem, heq⟩ := hs.started args hargs
      exact ⟨cfg, efi, code, vars, w, List.mem_append_left _ hmem, heq⟩
    rcases step_commandLines hs.sync hstep with hlines | ⟨cfg, efi, code, vars, w, rfl, hlines⟩
    · rw [hlines] at hargs
      exact hold hargs
    · rw [hlines, hs.runDir_eq] at hargs
      rcases List.mem_append.mp hargs with hargs | hargs
      · exact hold hargs
      · exact ⟨cfg, efi, code, vars, w, List.mem_append_right _ (List.mem_singleton_self _),
          List.mem_singleton.mp hargs⟩

end

/-- **Every engine of a run** was given the drives of one of the run's calls of
`start`. -/
theorem commandLines_run (h : Host) (runDir : String) (files : Files) {ls : List Label} {s : Sys}
    (hrun : run (step h) (Sys.new runDir files) ls = some s) :
    ∀ args ∈ s.commandLines, ∃ cfg efi code vars w,
      .start cfg efi code vars w ∈ ls ∧ args = startArgs h cfg code runDir :=
  have hnew : Attributed h runDir [] (Sys.new runDir files) :=
    ⟨rfl, rfl, fun _ hargs => nomatch hargs⟩
  (run_inv_history (fun _ _ _ _ hs => hs.step) hnew hrun).started

end MochiVM.Vm
