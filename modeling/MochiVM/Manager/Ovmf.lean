import MochiVM.Lib.Buffer

/-!
# Finding the downloaded firmware (manager/src/ovmf.rs)

`download` unpacks an archive next to the program and then looks for the two
firmware files by name, each with a search of its own. `find_file` goes depth
first through a directory tree in the order in which `read_dir` lists it: it
finds the first file of that name among those it gets to (`findFile_eq`). What
it does not get to is what an unreadable entry precedes, since `entry.ok()?`
gives up on the rest of the directory; `searchRight_iff` and `pairRight_iff` say
what that search is good for.
-/

namespace MochiVM.Ovmf

open MochiVM.Buffer

/-! ## Directory trees -/

/-- The name of a directory entry. -/
inductive OsName where
  | utf8 (s : String)
  /-- Not valid Unicode. -/
  | other (raw : Bytes)
deriving DecidableEq

/-- `OsStr::to_str`. -/
def OsName.toStr : OsName → Option String
  | .utf8 s => some s
  | .other _ => none

/-- A path, by its components. -/
abbrev Path := List OsName

/-- A directory, entry by entry in the order in which `read_dir` lists them. -/
inductive Listing where
  | nil
  /-- An entry that cannot be read. -/
  | unreadable (rest : Listing)
  /-- Anything but a directory. -/
  | file (name : OsName) (rest : Listing)
  | dir (name : OsName) (listing rest : Listing)
  /-- A directory that `read_dir` fails to open. -/
  | closed (name : OsName) (rest : Listing)

/-- The loop of `find_file`, on the listing of `root`. -/
def findIn (name : String) : Path → Listing → Option Path
  | _, .nil => none
  -- `entry.ok()?` ends the call
  | _, .unreadable _ => none
  | root, .file n rest =>
    if n.toStr = some name then some (root ++ [n]) else findIn name root rest
  | root, .dir n listing rest =>
    match findIn name (root ++ [n]) listing with
    | some found => some found
    | none => findIn name root rest
  -- `read_dir(root).ok()?` ends the recursive call only
  | root, .closed _ rest => findIn name root rest

/-- `find_file` (ovmf.rs:76). `none` is a directory that cannot be opened. -/
def findFile (root : Path) (tree : Option Listing) (name : String) : Option Path :=
  match tree with
  | none => none
  | some listing => findIn name root listing

/-- The files below `root` on a path of openable directories and readable
entries, depth first. -/
def files : Path → Listing → List Path
  | _, .nil => []
  | root, .unreadable rest => files root rest
  | root, .file n rest => (root ++ [n]) :: files root rest
  | root, .dir n listing rest => files (root ++ [n]) listing ++ files root rest
  | root, .closed _ rest => files root rest

/-- Those of them that no unreadable entry precedes, in their own directory or
in one on the way. -/
def reached : Path → Listing → List Path
  | _, .nil => []
  | _, .unreadable _ => []
  | root, .file n rest => (root ++ [n]) :: reached root rest
  | root, .dir n listing rest => reached (root ++ [n]) listing ++ reached root rest
  | root, .closed _ rest => reached root rest

/-- Whether the file name of a path is exactly `name`. -/
def isNamed (name : String) (p : Path) : Bool := p.getLast? == some (.utf8 name)

theorem isNamed_concat (name : String) (root : Path) (n : OsName) :
    isNamed name (root ++ [n]) = true ↔ n.toStr = some name := by
  rw [isNamed, List.getLast?_concat, beq_iff_eq, Option.some_inj]
  cases n <;> simp [OsName.toStr]

/-! ## What the search finds -/

/-- **The search**: the first file of that name among those reached. -/
theorem findIn_eq (name : String) (root : Path) (listing : Listing) :
    findIn name root listing = (reached root listing).find? (isNamed name) := by
  induction listing generalizing root with
  | nil => rfl
  | unreadable rest => rfl
  | file n rest ih =>
    rw [findIn, reached, List.find?_cons]
    by_cases hn : n.toStr = some name
    · rw [if_pos hn, (isNamed_concat name root n).mpr hn]
    · rw [if_neg hn, Bool.eq_false_iff.mpr fun h => hn ((isNamed_concat name root n).mp h), ih]
  -- what is reached below the directory comes first
  | dir n listing rest ih ihRest =>
    rw [findIn, reached, List.find?_append, ih, ihRest]
    cases (reached (root ++ [n]) listing).find? (isNamed name) <;> rfl
  | closed n rest ih => rw [findIn, reached, ih]

theorem reached_subset (root : Path) (listing : Listing) :
    reached root listing ⊆ files root listing := by
  induction listing generalizing root with
  | nil => exact List.Subset.refl _
  | unreadable rest => exact List.nil_subset _
  | file n rest ih => exact List.cons_subset_cons _ (ih root)
  | dir n listing rest ih ihRest =>
    intro p hp
    rcases List.mem_append.mp hp with hp | hp
    · exact List.mem_append_left _ (ih _ hp)
    · exact List.mem_append_right _ (ihRest root hp)
  | closed n rest ih => exact ih root

/-- `files` of a directory that may fail to open. -/
def filesOf (root : Path) (tree : Option Listing) : List Path := (tree.map (files root)).getD []

def reachedOf (root : Path) (tree : Option Listing) : List Path :=
  (tree.map (reached root)).getD []

theorem findFile_eq (root : Path) (tree : Option Listing) (name : String) :
    findFile root tree name = (reachedOf root tree).find? (isNamed name) := by
  cases tree with
  | none => rfl
  | some listing => exact findIn_eq name root listing

/-- The search is sound and complete. -/
structure SearchRight (root : Path) (tree : Option Listing) (name : String) : Prop where
  sound : ∀ p, findFile root tree name = some p →
    p ∈ filesOf root tree ∧ isNamed name p = true
  complete : (∃ p ∈ filesOf root tree, isNamed name p = true) →
    (findFile root tree name).isSome = true

theorem findFile_sound {root p : Path} {tree : Option Listing} {name : String}
    (h : findFile root tree name = some p) : p ∈ filesOf root tree ∧ isNamed name p = true := by
  rw [findFile_eq] at h
  refine ⟨?_, List.find?_some h⟩
  have hmem := List.mem_of_find?_eq_some h
  cases tree with
  | none => exact hmem
  | some listing => exact reached_subset root listing hmem

/-- **Sound and complete**: it is complete exactly when the file, if there is
one, can be reached past the unreadable entries. -/
theorem searchRight_iff (root : Path) (tree : Option Listing) (name : String) :
    SearchRight root tree name ↔ ((∃ p ∈ filesOf root tree, isNamed name p = true) →
      ∃ p ∈ reachedOf root tree, isNamed name p = true) := by
  -- the search succeeds if the file is reached
  have hsome : (findFile root tree name).isSome = true ↔
      ∃ p ∈ reachedOf root tree, isNamed name p = true := by
    rw [findFile_eq, List.find?_isSome]
  constructor
  · intro h hex
    exact hsome.mp (h.complete hex)
  · intro h
    exact ⟨fun _ hp => findFile_sound hp, fun hex => hsome.mpr (h hex)⟩

/-- One unreadable entry hides the file listed after it. -/
theorem not_searchRight_unreadable : ¬ ∀ root tree name, SearchRight root tree name := by
  intro h
  have hcomplete := (h [] (some (.unreadable (.file (.utf8 "code.fd") .nil))) "code.fd").complete
    ⟨[.utf8 "code.fd"], by decide, by decide⟩
  exact absurd hcomplete (by decide)

/-! ## The download -/

/-- What the calls of `download` come back with. -/
structure DownloadWorld where
  /-- `current_exe`, and its parent directory. -/
  currentExe : Except String (Option Path)
  /-- `create_dir_all`. -/
  mkdir : Except String PUnit
  /-- Whether `curl` succeeded. -/
  curl : Except String Bool
  /-- Whether `tar` succeeded. -/
  tar : Except String Bool
  /-- What is then in `<exe_dir>/ovmf`. -/
  tree : Option Listing

/-- `download` (ovmf.rs:36). -/
def download (w : DownloadWorld) : Except String (Path × Path) :=
  match w.currentExe with
  | .error e => .error ("current_exe: " ++ e)
  | .ok none => .error "no exe parent dir"
  | .ok (some exeDir) =>
  let target := exeDir ++ [.utf8 "ovmf"]
  match w.mkdir with
  | .error e => .error ("mkdir: " ++ e)
  | .ok _ =>
  match w.curl with
  | .error e => .error ("curl not found: " ++ e)
  | .ok false => .error "curl download failed"
  | .ok true =>
  match w.tar with
  | .error e => .error ("tar not found: " ++ e)
  | .ok false => .error "tar extract failed"
  | .ok true =>
  match findFile target w.tree "code.fd" with
  | none => .error "code.fd not in archive"
  | some code =>
  match findFile target w.tree "vars.fd" with
  | none => .error "vars.fd not in archive"
  | some vars => .ok (code, vars)

/-- The archive was extracted, and `listing` is what is below `target`. -/
structure Extracted (w : DownloadWorld) (target : Path) (listing : Listing) : Prop where
  target : ∃ exeDir, w.currentExe = .ok (some exeDir) ∧ target = exeDir ++ [.utf8 "ovmf"]
  mkdir : w.mkdir = .ok ⟨⟩
  curl : w.curl = .ok true
  tar : w.tar = .ok true
  tree : w.tree = some listing

/-- Every entry can be read. -/
def Listing.Readable : Listing → Prop
  | .nil => True
  | .unreadable _ => False
  | .file _ rest => rest.Readable
  | .dir _ listing rest => listing.Readable ∧ rest.Readable
  | .closed _ rest => rest.Readable

/-- `code.fd` and `vars.fd` in a directory. -/
def codeIn (dir : Path) : Path := dir ++ [.utf8 "code.fd"]
def varsIn (dir : Path) : Path := dir ++ [.utf8 "vars.fd"]

/-- Some directory named x64 holds both files. -/
def HasX64Pair (target : Path) (listing : Listing) : Prop :=
  ∃ dir, isNamed "x64" dir = true ∧ codeIn dir ∈ files target listing ∧
    varsIn dir ∈ files target listing

/-- `download` returns both files of one x64 directory. -/
def PairRight (w : DownloadWorld) : Prop :=
  ∃ dir, isNamed "x64" dir = true ∧ download w = .ok (codeIn dir, varsIn dir)

/-- `p` is listed before every other file of its name. -/
def ListedFirst (l : List Path) (name : String) (p : Path) : Prop :=
  ∃ before after, l = before ++ p :: after ∧ ∀ q ∈ before, isNamed name q = false

/-- Both files of some x64 directory are listed first. -/
def X64First (target : Path) (listing : Listing) : Prop :=
  ∃ dir, isNamed "x64" dir = true ∧ ListedFirst (files target listing) "code.fd" (codeIn dir) ∧
    ListedFirst (files target listing) "vars.fd" (varsIn dir)

theorem reached_eq_files (root : Path) {listing : Listing} (h : listing.Readable) :
    reached root listing = files root listing := by
  induction listing generalizing root with
  | nil => rfl
  | unreadable rest => exact h.elim
  | file n rest ih => rw [reached, files, ih root h]
  | dir n listing rest ih ihRest => rw [reached, files, ih _ h.1, ihRest root h.2]
  | closed n rest ih => rw [reached, files, ih root h]

theorem findFile_eq_some_iff {root p : Path} {listing : Listing} (h : listing.Readable)
    {name : String} (hp : isNamed name p = true) :
    findFile root (some listing) name = some p ↔ ListedFirst (files root listing) name p := by
  rw [findFile_eq, show reachedOf root (some listing) = reached root listing from rfl,
    reached_eq_files root h, List.find?_eq_some_iff_append, ListedFirst]
  simp [hp]

theorem download_eq_ok_iff {w : DownloadWorld} {target code vars : Path} {listing : Listing}
    (h : Extracted w target listing) : download w = .ok (code, vars) ↔
      findFile target (some listing) "code.fd" = some code ∧
        findFile target (some listing) "vars.fd" = some vars := by
  obtain ⟨exeDir, hexe, rfl⟩ := h.target
  rw [download, hexe, h.mkdir, h.curl, h.tar, h.tree]
  simp only
  cases findFile (exeDir ++ [.utf8 "ovmf"]) (some listing) "code.fd" with
  | none => simp
  | some c =>
    cases findFile (exeDir ++ [.utf8 "ovmf"]) (some listing) "vars.fd" with
    | none => simp
    | some v => simp

/-- **The firmware pair** is that of one x64 directory exactly when both its
files are listed first. -/
theorem pairRight_iff {w : DownloadWorld} {target : Path} {listing : Listing}
    (h : Extracted w target listing) (hread : listing.Readable) :
    PairRight w ↔ X64First target listing := by
  refine exists_congr fun dir => and_congr_right fun _ => ?_
  have hcode : isNamed "code.fd" (codeIn dir) = true := (isNamed_concat _ dir _).mpr rfl
  have hvars : isNamed "vars.fd" (varsIn dir) = true := (isNamed_concat _ dir _).mpr rfl
  rw [download_eq_ok_iff h, findFile_eq_some_iff hread hcode, findFile_eq_some_iff hread hvars]

/-- An architecture's directory with both files. -/
def archDir (arch : String) (rest : Listing) : Listing :=
  .dir (.utf8 arch) (.file (.utf8 "code.fd") (.file (.utf8 "vars.fd") .nil)) rest

/-- A download that went well, with two architectures in a versioned directory. -/
def twoArchs (first second : String) : DownloadWorld :=
  ⟨.ok (some [.utf8 "app"]), .ok ⟨⟩, .ok true, .ok true,
    some (.dir (.utf8 "edk2-stable202605-r1-bin") (archDir first (archDir second .nil)) .nil)⟩

theorem pairRight_x64 : PairRight (twoArchs "x64" "aarch64") := by
  refine (pairRight_iff ⟨⟨_, rfl, rfl⟩, rfl, rfl, rfl, rfl⟩
      (by simp [Listing.Readable, archDir])).mpr
    ⟨[.utf8 "app", .utf8 "ovmf", .utf8 "edk2-stable202605-r1-bin", .utf8 "x64"], by decide,
      ⟨[], _, rfl, fun _ h => absurd h (by simp)⟩, ⟨[_], _, rfl, ?_⟩⟩
  intro q hq
  obtain rfl := List.mem_singleton.mp hq
  decide

/-- Listed first, another architecture's firmware is taken. -/
theorem not_pairRight_aarch64 : ¬ ∀ w target listing, Extracted w target listing →
    listing.Readable → HasX64Pair target listing → PairRight w := by
  intro h
  have hright := h (twoArchs "aarch64" "x64") _ _ ⟨⟨_, rfl, rfl⟩, rfl, rfl, rfl, rfl⟩
    (by simp [Listing.Readable, archDir])
    ⟨[.utf8 "app", .utf8 "ovmf", .utf8 "edk2-stable202605-r1-bin", .utf8 "x64"], by decide,
      by decide, by decide⟩
  obtain ⟨dir, hdir, hdownload⟩ := hright
  have htaken : download (twoArchs "aarch64" "x64") = .ok
      (codeIn [.utf8 "app", .utf8 "ovmf", .utf8 "edk2-stable202605-r1-bin", .utf8 "aarch64"],
        varsIn [.utf8 "app", .utf8 "ovmf", .utf8 "edk2-stable202605-r1-bin", .utf8 "aarch64"]) :=
    rfl
  rw [htaken, Except.ok.injEq, Prod.mk.injEq, codeIn, codeIn] at hdownload
  obtain rfl := List.append_cancel_right hdownload.1
  exact absurd hdir (by decide)

end MochiVM.Ovmf
