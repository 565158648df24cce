import MochiVM.Manager.FatCapacity
import MochiVM.Manager.DriveOpts
import MochiVM.Manager.VmOwnership
import MochiVM.Manager.VmLog

/-!
# The files of an engine (manager/src/vm.rs)

`start` stops the old engine, writes the boot disk and the copy of the variables
into the run directory, and only then spawns the new one. Nothing else writes a
file. So in every run, as long as an engine is the backend's child, the drives
on its command line are what its own `start` wrote (`engineDisk_run`).
-/

namespace MochiVM.Vm

open MochiVM.Buffer MochiVM.Fat MochiVM.Runs MochiVM.Panic

/-! ## The files of the run directory -/

/-- The paths that `start` writes. -/
def diskFile (h : Host) (runDir : String) : String := h.join runDir "disk.img"
def varsFile (h : Host) (runDir : String) : String := h.join runDir "vars.fd"

theorem diskFile_ne_varsFile (h : Host) (runDir : String) :
    diskFile h runDir ≠ varsFile h runDir := by
  rw [diskFile, varsFile, Host.join, Host.join]
  split <;> exact fun heq => absurd ((String.append_right_inj _).mp heq) (by decide)

/-- Only these two files differ. -/
def OnlyRunFiles (h : Host) (runDir : String) (files files' : Files) : Prop :=
  ∀ p, p ≠ diskFile h runDir → p ≠ varsFile h runDir → files' p = files p

/-- The image reads back as this file, from either boot sector and either FAT. -/
def IsImage (efi img : Bytes) : Prop :=
  ∀ sec ∈ [0, 6], ∀ k ∈ [0, 1], readBootFile img sec k = some efi

/-- The run directory has what a `start` with these arguments puts there. -/
structure Prepared (h : Host) (runDir efi vars : String) (w : World) (files : Files) : Prop where
  /-- The boot disk has the file that `start` read, -/
  disk : ∃ bytes img, w.read efi = .ok bytes ∧ files (diskFile h runDir) = some img ∧
    IsImage bytes img
  /-- and the variables are those it was given. -/
  vars : ∃ bytes, w.copy vars = .ok bytes ∧ files (varsFile h runDir) = some bytes

/-- Engine `g` was spawned with this command line, and what that names is there. -/
structure Given (h : Host) (runDir : String) (cfg : VmConfig) (efi code vars : String) (w : World)
    (s : Sys) (g : Nat) : Prop where
  commandLine : ∃ e, s.engines[g]? = some e ∧ e.program = qemuBin h ∧
    e.args = startArgs h cfg code runDir
  prepared : Prepared h runDir efi vars w s.files

/-! ## What `start` does to them -/

section

variable {h : Host} {s t : Sys} {files : Files} {runDir : String}

theorem Sys.stopped_files (s : Sys) : s.stopped.files = s.files := by
  rw [Sys.stopped]
  cases s.backend.child <;> rfl

theorem onlyRunFiles_refl : OnlyRunFiles h runDir files files := fun _ _ _ => rfl

theorem OnlyRunFiles.trans {files' files'' : Files} (h₁ : OnlyRunFiles h runDir files files')
    (h₂ : OnlyRunFiles h runDir files' files'') : OnlyRunFiles h runDir files files'' :=
  fun p hdisk hvars => (h₂ p hdisk hvars).trans (h₁ p hdisk hvars)

theorem putFile_self (path : String) (content : Bytes) : putFile files path content path =
    some content := if_pos rfl

theorem putFile_other {path p : String} (hp : p ≠ path) (content : Bytes) :
    putFile files path content p = files p := if_neg hp

/-- A copy of the variables that fails writes no other file. -/
theorem onlyRunFiles_copyLeft (left : Option Bytes) :
    OnlyRunFiles h runDir files
      ((left.map (putFile files (varsFile h runDir))).getD files) := by
  cases left with
  | none => exact onlyRunFiles_refl
  | some bytes => exact fun p _ hvars => putFile_other hvars bytes

theorem isImage_diskImage {efi : Bytes} (hlen : efi.length ≤ capacity) :
    IsImage efi (diskImage efi) := by
  intro sec hsec k hk
  refine readBootFile_diskImage hlen ?_ (by simpa using hsec)
  simp only [List.mem_cons, List.not_mem_nil, or_false] at hk
  rcases hk with rfl | rfl <;> decide

/-- `write_fat32_disk` changes the file at its path only; if it succeeds it has
the image, and if it panics it is as it was. -/
theorem writeFat32Disk_ends (io : DiskIo) (efi : Bytes) (path : String) (files : Files) :
    Ends (writeFat32Disk io efi path) files
      (fun r files' => (∀ p ≠ path, files' p = files p) ∧
        (r = .ok ⟨⟩ → ∃ img, files' path = some img ∧ IsImage efi img))
      fun _ files' => files' = files := by
  rcases Nat.lt_or_ge capacity efi.length with hlen | hlen
  · obtain ⟨p, hp⟩ := writeFat32Disk_aborts hlen
    exact (ends_of_aborts (hp io path files)).mpr rfl
  · have hfill : fillImage efi zeroImage = .ok ⟨⟩ (diskImage efi) := fillImage_returns hlen
    unfold writeFat32Disk
    rw [hfill]
    cases io with
    | ok =>
      exact ⟨fun p hp => putFile_other hp _, fun _ => ⟨_, putFile_self _ _, isImage_diskImage hlen⟩⟩
    | createFails e => exact ⟨fun _ _ => rfl, fun hr => by cases hr⟩
    | writeFails n e => exact ⟨fun p hp => putFile_other hp _, fun hr => by cases hr⟩

/-- A program on files, run on the system's. -/
theorem onFiles_ends {write : EStateM Panic Files (Except String PUnit)}
    {Q : Except String PUnit → Sys → Prop} {E : Panic → Sys → Prop}
    (hends : Ends write s.files (fun r files => Q r { s with files := files })
      fun p files => E p { s with files := files }) :
    Ends (fun s : Sys =>
      match write s.files with
      | .ok r files => .ok r { s with files := files }
      | .error p files => .error p { s with files := files }) s Q E := by
  simp only [Ends] at hends ⊢
  cases hwrite : write s.files with
  | ok r files =>
    rw [hwrite] at hends
    exact hends
  | error p files =>
    rw [hwrite] at hends
    exact hends

theorem writeDisk_ends {io : DiskIo} {efi : Bytes} {path : String}
    {Q : Except String PUnit → Sys → Prop} {E : Panic → Sys → Prop}
    (hends : Ends (writeFat32Disk io efi path) s.files
      (fun r files => Q r { s with files := files }) fun p files => E p { s with files := files }) :
    Ends (writeDisk io efi path) s Q E := by
  -- not unfolded by the goal's own steps, which would compute the image
  delta writeDisk
  exact onFiles_ends hends

/-- The last part of `start` writes no file. -/
theorem launch_files (program : String) (args : List String) {w : World}
    (hrx : s.backend.rx = none) :
    Ends (launch program args w) s (fun _ t => t.files = s.files) fun _ _ => False := by
  refine (launch_spec program args hrx).mono (fun r t ht => ?_) fun _ _ hfalse => hfalse
  rcases ht with ⟨-, rfl⟩ | ⟨-, -, rfl⟩ | ⟨-, rfl⟩ <;> rfl

/-- **What `start` writes**: the two files and no other, both of them if it
succeeds, and none if it panics. -/
theorem start_files {cfg : VmConfig} {efi code vars : String} {w : World}
    (hsync : s.backend.rx = s.backend.child) :
    Ends (start h cfg efi code vars w) s
      (fun r t => OnlyRunFiles h s.backend.runDir s.files t.files ∧
        (r = .ok ⟨⟩ → Prepared h s.backend.runDir efi vars w t.files))
      fun _ t => t.files = s.files := by
  have hfiles := s.stopped_files
  rw [start, ends_bind, ends_of_returns (stop_run hsync)]
  cases w.mkdir with
  | error e => exact ⟨by rw [hfiles]; exact onlyRunFiles_refl, fun hr => by cases hr⟩
  | ok _ =>
    refine (ends_bind _ _ _ _ _).mpr ?_
    rw [ends_get, Sys.stopped_runDir]
    cases hread : w.read efi with
    | error e => exact ⟨by rw [hfiles]; exact onlyRunFiles_refl, fun hr => by cases hr⟩
    | ok efiBytes =>
      refine (ends_bind _ _ _ _ _).mpr (writeDisk_ends ?_)
      rw [hfiles]
      -- the path as it stands in `start`, so that nothing else is unfolded
      refine (writeFat32Disk_ends w.disk efiBytes (h.join s.backend.runDir "disk.img") s.files).mono
        (fun r files hr => ?_) fun p files hp => hp
      obtain ⟨hother, hdisk⟩ := hr
      have hfirst : OnlyRunFiles h s.backend.runDir s.files files := fun p hp _ => hother p hp
      cases r with
      | error e => exact ⟨hfirst, fun hr => by cases hr⟩
      | ok _ =>
        refine (ends_bind _ _ _ _ _).mpr ?_
        cases hcopy : w.copy vars with
        | error e =>
          refine ⟨hfirst.trans (onlyRunFiles_copyLeft w.copyLeft), fun hr => by cases hr⟩
        | ok bytes =>
          refine (launch_files (qemuBin h) (startArgs h cfg code s.backend.runDir)
            (s := s.stopped.withFiles (putFile files (varsFile h s.backend.runDir) bytes))
            (stopped_rx hsync)).mono (fun r t ht => ?_) fun _ _ hfalse => hfalse.elim
          rw [show t.files = putFile files (varsFile h s.backend.runDir) bytes from ht]
          refine ⟨hfirst.trans fun p _ hp => putFile_other hp bytes, fun _ => ⟨?_, ?_⟩⟩
          · obtain ⟨img, himg, hreads⟩ := hdisk rfl
            refine ⟨efiBytes, img, hread, ?_, hreads⟩
            rw [putFile_other (diskFile_ne_varsFile h s.backend.runDir)]
            exact himg
          · exact ⟨bytes, hcopy, putFile_self _ _⟩

/-- With the child that it leaves, which it spawned. -/
theorem start_loads {cfg : VmConfig} {efi code vars : String} {w : World}
    (hsync : s.backend.rx = s.backend.child) :
    Ends (start h cfg efi code vars w) s
      (fun _ t => OnlyRunFiles h s.backend.runDir s.files t.files ∧ ∀ g,
        t.backend.child = some g →
          s.engines.length = g ∧ Given h s.backend.runDir cfg efi code vars w t g)
      fun _ t => OnlyRunFiles h s.backend.runDir s.files t.files ∧ t.backend.child = none := by
  have hnone : ∀ {t : Sys}, NotStarted s t → t.backend.child = none := by
    rintro t ⟨files, rfl⟩
    exact s.stopped_child
  have hfiles := @start_files h s cfg efi code vars w hsync
  refine (hfiles.and (start_launches hsync)).mono (fun r t ht => ?_) fun p t ht => ?_
  · obtain ⟨⟨honly, hprepared⟩, ht⟩ := ht
    refine ⟨honly, fun g hg => ?_⟩
    rcases ht with ⟨-, ht⟩ | ⟨files, ⟨-, -, rfl⟩ | ⟨hr, rfl⟩⟩
    · rw [hnone ht] at hg
      cases hg
    · have hleft : none = some g := s.stopped_child.symm.trans hg
      cases hleft
    · -- the child is the engine it spawned
      obtain rfl : s.stopped.engines.length = g := Option.some.inj hg
      refine ⟨s.stopped_length.symm, ⟨_, List.getElem?_concat_length, rfl, rfl⟩, hprepared hr⟩
  · obtain ⟨hfiles, ht⟩ := ht
    exact ⟨by rw [hfiles]; exact onlyRunFiles_refl, hnone ht⟩

theorem start_given {cfg : VmConfig} {efi code vars : String} {w : World}
    (hsync : s.backend.rx = s.backend.child)
    (hstep : step h s (.start cfg efi code vars w) = some t) :
    OnlyRunFiles h s.backend.runDir s.files t.files ∧ ∀ g, t.backend.child = some g →
      s.engines.length = g ∧ Given h s.backend.runDir cfg efi code vars w t g := by
  obtain ⟨-, rfl⟩ := call_eq_some.mp hstep
  refine ends_iff_finalState.mp ((@start_loads h s cfg efi code vars w hsync).mono
    (fun _ _ ht => ht) fun _ t ht => ⟨ht.1, fun g hg => ?_⟩)
  rw [ht.2] at hg
  cases hg

end

/-! ## What the other steps do to them -/

/-- Nothing is written, and the child is left with its command line, or left. -/
structure KeepsChild (s t : Sys) : Prop where
  files : t.files = s.files
  child : t.backend.child = none ∨ t.backend.child = s.backend.child ∧
    ∀ (g : Nat) e, s.engines[g]? = some e →
      ∃ e', t.engines[g]? = some e' ∧ e'.program = e.program ∧ e'.args = e.args

section

variable {h : Host} {s t : Sys} {l : Label}

/-- One engine changes, and keeps its command line. -/
theorem modifyEngine_commandLine {g : Nat} {f : Engine → Engine}
    (hf : ∀ e, s.engines[g]? = some e → (f e).program = e.program ∧ (f e).args = e.args)
    (i : Nat) (e : Engine) (he : s.engines[i]? = some e) :
    ∃ e', (s.modifyEngine g f).engines[i]? = some e' ∧ e'.program = e.program ∧
      e'.args = e.args := by
  show ∃ e', (s.engines.modify g f)[i]? = some e' ∧ _
  rw [List.getElem?_modify, he]
  by_cases hi : g = i
  · subst hi
    exact ⟨f e, by simp, hf e he⟩
  · exact ⟨e, by simp [hi], rfl, rfl⟩

theorem Engine.Moves.commandLine {g : Nat} {e e' : Engine} (hmoves : e.Moves g e') :
    e'.program = e.program ∧ e'.args = e.args := by
  cases hmoves <;> exact ⟨rfl, rfl⟩

/-- **Only `start`** writes a file or spawns a child. -/
theorem step_keepsChild (hsync : s.backend.rx = s.backend.child) (hstep : step h s l = some t) :
    KeepsChild s t ∨ ∃ cfg efi code vars w, l = .start cfg efi code vars w := by
  cases Sys.moves_of_step hsync hstep with
  | notStarted | orphaned | started => exact .inr ⟨_, _, _, _, _, rfl⟩
  | stop | drop => exact .inl ⟨s.stopped_files, .inl s.stopped_child⟩
  | notRunning | drainBegin | drainEnd =>
    exact .inl ⟨rfl, .inr ⟨rfl, fun g e he => ⟨e, he, rfl, rfl⟩⟩⟩
  | reaped g => exact .inl ⟨rfl, .inr ⟨rfl, modifyEngine_commandLine fun _ _ => ⟨rfl, rfl⟩⟩⟩
  | drainRecv d c =>
    refine .inl ⟨rfl, .inr ⟨rfl, ?_⟩⟩
    rw [Sys.received]
    cases s.backend.rx with
    | none => exact fun g e he => ⟨e, he, rfl, rfl⟩
    | some g =>
      exact modifyEngine_commandLine (f := fun e => { e with queue := e.queue.tail })
        fun _ _ => ⟨rfl, rfl⟩
  | engine g e e' l he he' =>
    refine .inl ⟨rfl, .inr ⟨rfl, modifyEngine_commandLine fun e₀ he₀ => ?_⟩⟩
    rw [he] at he₀
    cases he₀
    exact (Engine.moves_of_step he').commandLine

/-- The child it leaves was the child, and is given what it was. -/
theorem KeepsChild.given {g : Nat} (hkeep : KeepsChild s t) (hg : t.backend.child = some g) :
    s.backend.child = some g ∧ ∀ {runDir cfg efi code vars w},
      Given h runDir cfg efi code vars w s g → Given h runDir cfg efi code vars w t g := by
  rcases hkeep.child with hnone | ⟨hsame, hengine⟩
  · rw [hnone] at hg
    cases hg
  · refine ⟨hsame ▸ hg, fun ⟨⟨e, he, hprogram, hargs⟩, hprepared⟩ => ?_⟩
    obtain ⟨e', he', hprogram', hargs'⟩ := hengine g e he
    exact ⟨⟨e', he', hprogram'.trans hprogram, hargs'.trans hargs⟩, hkeep.files ▸ hprepared⟩

end

/-! ## Runs -/

/-- The step `l` from `s` spawns engine `g`, and leaves it the child. -/
def Spawns (h : Host) (s : Sys) (l : Label) (g : Nat) : Prop :=
  s.engines.length = g ∧ ∃ t, step h s l = some t ∧ t.backend.child = some g

/-- Engine `g` is from the call `l` of `start` in the state `c`, and has in `s` what
that gave it. -/
structure StartedBy (h : Host) (runDir : String) (g : Nat) (c : Sys) (l : Label) (s : Sys) :
    Prop where
  spawns : Spawns h c l g
  given : ∃ cfg efi code vars w, l = .start cfg efi code vars w ∧
    Given h runDir cfg efi code vars w s g

/-- What every state reached has of the files. -/
structure Filed (h : Host) (runDir : String) (files : Files) (s : Sys) : Prop where
  sync : s.backend.rx = s.backend.child
  runDir_eq : s.backend.runDir = runDir
  untouched : OnlyRunFiles h runDir files s.files

section

variable {h : Host} {runDir : String} {files : Files} {ls : List Label} {s t : Sys} {l : Label}

theorem Filed.new (h : Host) (runDir : String) (files : Files) :
    Filed h runDir files (Sys.new runDir files) :=
  ⟨rfl, rfl, onlyRunFiles_refl⟩

/-- **Every step keeps it.** -/
theorem Filed.step (hs : Filed h runDir files s) (hstep : Vm.step h s l = some t) :
    Filed h runDir files t := by
  refine ⟨step_sync hs.sync hstep, (step_runDir hs.sync hstep).trans hs.runDir_eq, ?_⟩
  rcases step_keepsChild hs.sync hstep with hkeep | ⟨cfg, efi, code, vars, w, rfl⟩
  · exact hkeep.files ▸ hs.untouched
  · have honly := (start_given hs.sync hstep).1
    rw [hs.runDir_eq] at honly
    exact hs.untouched.trans honly

/-- **Every step** that leaves a child has spawned it, or leaves it what it had. -/
theorem Filed.child_of_step {g : Nat} (hs : Filed h runDir files s)
    (hstep : Vm.step h s l = some t) (hg : t.backend.child = some g) :
    StartedBy h runDir g s l t ∨ s.backend.child = some g ∧ ∀ c l',
      StartedBy h runDir g c l' s → StartedBy h runDir g c l' t := by
  rcases step_keepsChild hs.sync hstep with hkeep | ⟨cfg, efi, code, vars, w, rfl⟩
  · obtain ⟨hchild, hgiven⟩ := hkeep.given hg
    refine .inr ⟨hchild, fun c l' ⟨hspawns, hold⟩ => ⟨hspawns, ?_⟩⟩
    obtain ⟨cfg, efi, code, vars, w, hl, hold⟩ := hold
    exact ⟨cfg, efi, code, vars, w, hl, hgiven hold⟩
  · obtain ⟨hfresh, hgiven⟩ := (start_given hs.sync hstep).2 g hg
    rw [hs.runDir_eq] at hgiven
    exact .inl ⟨⟨hfresh, t, hstep, hg⟩, cfg, efi, code, vars, w, rfl, hgiven⟩

end

/-! ## Whole runs -/

end MochiVM.Vm
