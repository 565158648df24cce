import MochiVM.Manager.FatReader

/-!
# Allocation integrity of the boot disk

What a file-system check verifies, stated over the image bytes through the
reader of `FatReader`: `ReachDir` and `Reachable` are the clusters that the root
directory, its subdirectories, their files and the chains of all of these reach
on a volume, and `AllocIntegrity` says that the FAT allocates exactly these,
that the chains are acyclic, disjoint and in range, that the redundant copies
agree, and that every byte outside the writers' regions is zero.

The two directions of "allocated iff reachable" are `reachable_lt` (an induction
over reachability: nothing leaves the first `5 + n` slots) and
`reachable_of_lt` (an induction along the file's chain).
-/

namespace MochiVM.Fat

open MochiVM.Slice MochiVM.Panic MochiVM.Buffer MochiVM.Layout MochiVM.Links

/-- The `.` and `..` entries. -/
def DirEnt.isDot (e : DirEnt) : Bool :=
  e.name == ascii ".          " || e.name == ascii "..         "

namespace Volume

variable (v : Volume)

/-- The live entries of the directory cluster `c`, without `.` and `..`. -/
def liveEnts (c : Nat) : List DirEnt :=
  match v.clusterData c with
  | none => []
  | some d => (dirEnts d).filter fun e => !e.isDeleted && !e.isLabel && !e.isDot

/-- The clusters of the directory tree. -/
inductive ReachDir : Nat → Prop
  | root : ReachDir v.bpb.rootClus
  | next {c d : Nat} : ReachDir c → v.link c = .to d → ReachDir d
  | sub {c : Nat} {e : DirEnt} :
      ReachDir c → e ∈ v.liveEnts c → e.isDir = true → ReachDir e.firstClus

/-- The clusters of the directory tree and of the files in it. -/
inductive Reachable : Nat → Prop
  | dir {c : Nat} : v.ReachDir c → Reachable c
  | file {c : Nat} {e : DirEnt} :
      v.ReachDir c → e ∈ v.liveEnts c → e.isDir = false → Reachable e.firstClus
  | next {c d : Nat} : Reachable c → v.link c = .to d → Reachable d

end Volume

/-- The bytes some writer is entitled to: boot sector and FSInfo, their backups,
the FATs, the three directory sectors and the `len` bytes of the file. -/
def InUse (p : Bpb) (len i : Nat) : Prop :=
  i < 2 * bs ∨ (6 * bs ≤ i ∧ i < 8 * bs) ∨
    (p.fatOffset 0 ≤ i ∧ i < p.fatOffset p.numFats) ∨
    (p.clusterOffset rootClus ≤ i ∧ i < p.clusterOffset fileStartClus + len)

/-- Allocation integrity of an image with geometry `p` holding a file of `len`
bytes. -/
structure AllocIntegrity (img : Bytes) (p : Bpb) (len : Nat) : Prop where
  /-- `p` is what the boot sector declares. -/
  geometry : parseBpb (slice img 0 bs) = some p ∧ p.numFats = 2 ∧
    ∀ c, p.InRange c ↔ 2 ≤ c ∧ c ≤ 67553
  /-- Allocated is reachable: no lost cluster, and no chain into a free one. -/
  allocated : ∀ k < p.numFats, ∀ c, 2 ≤ c → 4 * c < p.fatSz32 * p.bytsPerSec →
    ((Volume.mk img p k).fatEntry c ≠ some 0 ↔ (Volume.mk img p k).Reachable c)
  /-- Every entry in use is an end mark or a cluster of the volume. -/
  links : ∀ k < p.numFats, ∀ c x, 2 ≤ c → 4 * c < p.fatSz32 * p.bytsPerSec →
    (Volume.mk img p k).fatEntry c = some x → x ≠ 0 → 0x0FFFFFF8 ≤ x ∨ p.InRange x
  /-- The chains of root, EFI, BOOT and the file, found through the directories. -/
  chains : ∀ k < p.numFats, ∃ efiDir boot file : DirEnt,
    (Volume.mk img p k).lookup p.rootClus (ascii "EFI        ") = some efiDir ∧
    (Volume.mk img p k).lookup efiDir.firstClus (ascii "BOOT       ") = some boot ∧
    (Volume.mk img p k).lookup boot.firstClus (ascii "BOOTX64 EFI") = some file ∧
    ∃ ls : List (List Nat),
      List.Forall₂ (Chain (Volume.mk img p k).link)
        [p.rootClus, efiDir.firstClus, boot.firstClus, file.firstClus] ls ∧
      (∀ l ∈ ls, l.Nodup ∧ ∀ c ∈ l, p.InRange c) ∧ ls.Pairwise List.Disjoint
  /-- The redundant copies agree. -/
  fatCopies : slice img (p.fatOffset 0) (p.fatSz32 * p.bytsPerSec) =
    slice img (p.fatOffset 1) (p.fatSz32 * p.bytsPerSec)
  bootBackup : slice img 0 bs = slice img (6 * bs) bs
  fsinfoBackup : slice img (1 * bs) bs = slice img (7 * bs) bs
  /-- No writer touches a byte outside its region. -/
  zero : ∀ i < img.length, ¬ InUse p len i → img[i]? = some 0

/-- The clusters before the file's are the directories'. -/
theorem dirClus_cases {c : Nat} (hc : 2 ≤ c ∧ c ≤ 4) :
    c = rootClus ∨ c = efiDirClus ∨ c = bootDirClus := by
  simp only [rootClus, efiDirClus, bootDirClus]
  omega

/-- The FAT entry of a cluster lies in the FAT. -/
theorem fatOffset_fits {c : Nat} (hc : 4 * c < diskBpb.fatSz32 * diskBpb.bytsPerSec) :
    4 * c + 4 ≤ fatLen := by
  rw [show diskBpb.fatSz32 * diskBpb.bytsPerSec = fatLen from rfl] at hc
  simp only [fatLen, fatSec, bs] at *
  omega

section Disk

variable {efi : Bytes} (h : efi.length ≤ capacity)
include h

/-! ## The directories -/

theorem liveEnts_root (k : Nat) : (diskVolume efi k).liveEnts rootClus =
    [efiEnt] := by
  rw [Volume.liveEnts, clusterData_of_slice h (by decide) (slice_rootSector h)]
  simp only [(Volume.dirEnts_dirSector length_rootEntry (by decide) (by decide)).1]
  rw [decode_rootEntries]
  decide

theorem liveEnts_efiDir (k : Nat) : (diskVolume efi k).liveEnts efiDirClus =
    [bootEnt] := by
  rw [Volume.liveEnts, clusterData_of_slice h (by decide) (slice_efiDirSector h)]
  simp only [(Volume.dirEnts_dirSector length_efiDirEntry (by decide) (by decide)).1]
  rw [decode_efiDirEntries]
  decide

theorem liveEnts_bootDir (k : Nat) : (diskVolume efi k).liveEnts bootDirClus =
    [fileEnt efi.length] := by
  have hsize : efi.length < 2 ^ 32 := by
    simp only [capacity] at h
    omega
  rw [Volume.liveEnts, clusterData_of_slice h (by decide) (slice_bootDirSector h)]
  simp only [(Volume.dirEnts_dirSector (length_bootDirEntry _) (by simp [bootDirEntries])
    (bootDirEntries_not_end _)).1]
  have hdot : (fileEnt efi.length).isDot = false := by
    show (ascii "BOOTX64 EFI" == ascii ".          " ||
      ascii "BOOTX64 EFI" == ascii "..         ") = false
    decide
  rw [decode_bootDirEntries hsize, bootDirEnts, List.filter_cons_of_neg (by decide),
    List.filter_cons_of_neg (by decide),
    List.filter_cons_of_pos (by rw [fileEnt_isDeleted, fileEnt_isLabel, hdot]; rfl),
    List.filter_nil]

/-! ## Reachability -/

variable {k : Nat} (hk : k < numFats)
include hk

/-- The directory tree is the three directory clusters. -/
theorem reachDir_iff (c : Nat) : (diskVolume efi k).ReachDir c ↔ 2 ≤ c ∧ c ≤ 4 := by
  constructor
  · intro hc
    induction hc with
    | root =>
      show 2 ≤ rootClus ∧ rootClus ≤ 4
      decide
    | next _ hlink ih =>
      rw [link_dir h hk ih.1 ih.2] at hlink
      cases hlink
    | @sub c e _ he hdir ih =>
      obtain rfl | rfl | rfl := dirClus_cases ih
      · rw [liveEnts_root h, List.mem_singleton] at he
        rw [he]
        exact ⟨by decide, by decide⟩
      · rw [liveEnts_efiDir h, List.mem_singleton] at he
        rw [he]
        exact ⟨by decide, by decide⟩
      · rw [liveEnts_bootDir h, List.mem_singleton] at he
        rw [he, fileEnt_isDir] at hdir
        cases hdir
  · rintro ⟨h₁, h₂⟩
    have hroot : (diskVolume efi k).ReachDir rootClus := .root
    have hefi : (diskVolume efi k).ReachDir efiDirClus :=
      .sub (e := efiEnt) hroot
        (by rw [liveEnts_root h]; exact List.mem_singleton_self _) (by decide)
    have hboot : (diskVolume efi k).ReachDir bootDirClus :=
      .sub (e := bootEnt) hefi
        (by rw [liveEnts_efiDir h]; exact List.mem_singleton_self _) (by decide)
    obtain rfl | rfl | rfl := dirClus_cases ⟨h₁, h₂⟩
    · exact hroot
    · exact hefi
    · exact hboot

/-- Nothing reachable lies past the file's last cluster. -/
theorem reachable_lt (hpos : 1 ≤ efi.length) {c : Nat} (hc : (diskVolume efi k).Reachable c) :
    2 ≤ c ∧ c < 5 + fileClusters efi := by
  have hn : 1 ≤ fileClusters efi := by
    simp only [fileClusters, divCeil, bs]
    omega
  induction hc with
  | dir hd =>
    have := (reachDir_iff h hk _).mp hd
    omega
  | @file c e hd he hdir =>
    obtain rfl | rfl | rfl := dirClus_cases ((reachDir_iff h hk _).mp hd)
    · rw [liveEnts_root h, List.mem_singleton] at he
      rw [he] at hdir
      cases hdir
    · rw [liveEnts_efiDir h, List.mem_singleton] at he
      rw [he] at hdir
      cases hdir
    · rw [liveEnts_bootDir h, List.mem_singleton] at he
      rw [he, show (fileEnt efi.length).firstClus = 5 from rfl]
      omega
  | @next c d _ hlink ih =>
    by_cases hdir : c ≤ 4
    · rw [link_dir h hk ih.1 hdir] at hlink
      cases hlink
    · obtain ⟨j, rfl⟩ : ∃ j, c = fileStartClus + j := ⟨c - 5, by rw [fileStartClus]; omega⟩
      rw [fileStartClus] at ih
      rw [link_file h hk (by omega)] at hlink
      by_cases hlast : j + 1 = fileClusters efi
      · rw [if_pos hlast] at hlink
        cases hlink
      · rw [if_neg hlast] at hlink
        cases hlink
        rw [fileStartClus]
        omega

/-- Every cluster of the file is reachable, by induction along its chain. -/
theorem reachable_file {j : Nat} (hj : j < fileClusters efi) :
    (diskVolume efi k).Reachable (fileStartClus + j) := by
  induction j with
  | zero =>
    have hboot := (reachDir_iff h hk bootDirClus).mpr ⟨by decide, by decide⟩
    exact .file (e := fileEnt efi.length) hboot
      (by rw [liveEnts_bootDir h]; exact List.mem_singleton_self _) (fileEnt_isDir _)
  | succ j ih =>
    refine .next (ih (by omega)) ?_
    rw [link_file h hk (by omega), if_neg (by omega), Nat.add_assoc]

theorem reachable_of_lt {c : Nat} (hc : 2 ≤ c) (hc' : c < 5 + fileClusters efi) :
    (diskVolume efi k).Reachable c := by
  by_cases hdir : c ≤ 4
  · exact .dir ((reachDir_iff h hk c).mpr ⟨hc, hdir⟩)
  · have := reachable_file h hk (j := c - 5) (by omega)
    rwa [fileStartClus, show 5 + (c - 5) = c by omega] at this

/-- The entries in use are those of the directories and the file. -/
theorem fatEntry_ne_zero_iff {c : Nat} (hc : 2 ≤ c) (hc' : 4 * c + 4 ≤ fatLen) :
    (diskVolume efi k).fatEntry c ≠ some 0 ↔ c < 5 + fileClusters efi := by
  constructor
  · intro hne
    by_contra hge
    exact hne (fatEntry_unused h hk (by omega) hc')
  · intro hlt
    by_cases hdir : c ≤ 4
    · rw [fatEntry_dir h hk hc hdir]
      decide
    · obtain ⟨j, rfl⟩ : ∃ j, c = fileStartClus + j := ⟨c - 5, by rw [fileStartClus]; omega⟩
      rw [fatEntry_file h hk (by rw [fileStartClus] at hlt; omega), chainEntry]
      split
      · decide
      · rw [fileStartClus]
        simp

/-- The file's chain is its `n` clusters in ascending order. -/
theorem file_chain (hpos : 1 ≤ efi.length) : Chain (diskVolume efi k).link fileStartClus
    (List.range' fileStartClus (fileClusters efi)) := by
  obtain ⟨m, hm⟩ : ∃ m, fileClusters efi = m + 1 := by
    refine ⟨fileClusters efi - 1, ?_⟩
    simp only [fileClusters, divCeil, bs]
    omega
  rw [hm]
  refine Chain.ascending m (fun i hi => ?_) ?_
  · rw [link_file h hk (by omega), if_neg (by omega)]
  · rw [link_file h hk (by omega), if_pos (by omega)]

/-- The four chains, found through the directories. -/
theorem disk_chains (hpos : 1 ≤ efi.length) : ∃ ls : List (List Nat),
    List.Forall₂ (Chain (diskVolume efi k).link)
      [rootClus, efiDirClus, bootDirClus, fileStartClus] ls ∧
    (∀ l ∈ ls, l.Nodup ∧ ∀ c ∈ l, diskBpb.InRange c) ∧ ls.Pairwise List.Disjoint := by
  have hn := fileClusters_le h
  have hdir : ∀ c, 2 ≤ c → c ≤ 4 → Chain (diskVolume efi k).link c [c] :=
    fun c h₁ h₂ => .last (link_dir h hk h₁ h₂)
  have hroot := hdir rootClus (by decide) (by decide)
  have hefi := hdir efiDirClus (by decide) (by decide)
  have hboot := hdir bootDirClus (by decide) (by decide)
  have hfile := file_chain h hk hpos
  refine ⟨[[rootClus], [efiDirClus], [bootDirClus],
    List.range' fileStartClus (fileClusters efi)],
    .cons hroot (.cons hefi (.cons hboot (.cons hfile .nil))), ?_, ?_⟩
  · intro l hl
    simp only [List.mem_cons, List.not_mem_nil, or_false] at hl
    rcases hl with rfl | rfl | rfl | rfl
    · exact ⟨hroot.nodup, by simp only [List.mem_singleton, forall_eq]; decide⟩
    · exact ⟨hefi.nodup, by simp only [List.mem_singleton, forall_eq]; decide⟩
    · exact ⟨hboot.nodup, by simp only [List.mem_singleton, forall_eq]; decide⟩
    · refine ⟨hfile.nodup, fun c hc => (inRange_iff c).mpr ?_⟩
      rw [List.mem_range'_1, fileStartClus] at hc
      omega
  · simp [List.disjoint_left, rootClus, efiDirClus, bootDirClus, fileStartClus]

omit hk in
/-- Outside the regions the image is zero. -/
theorem disk_zero {i : Nat} (hi : i < imgLen) (hout : ¬ InUse diskBpb efi.length i) :
    (diskImage efi)[i]? = some 0 := by
  have hn := fileClusters_le h
  have hgap := getElem?_render_gap (z := (0 : UInt8)) (i := i) (diskRegions_placed h)
    (Nat.zero_le i) hi
  rw [Nat.sub_zero] at hgap
  refine hgap ?_
  simp only [InUse, fatOffset_diskBpb, clusterOffset_diskBpb,
    show diskBpb.numFats = numFats from rfl] at hout
  simp only [diskRegions, List.mem_cons, List.not_mem_nil, or_false, Region.stop]
  rintro r (rfl | rfl | rfl | rfl | rfl | rfl | rfl | rfl | rfl | rfl) <;>
    simp only [length_bootSector, length_fsinfoSector, length_fatTable, length_rootSector,
      length_efiDirSector, length_bootDirSector] <;>
    simp only [fatOff, clusOff, dataStart, rsvdSec, numFats, fatSec, rootClus,
      efiDirClus, bootDirClus, fileStartClus, bs] at * <;>
    omega

omit hk in
theorem diskImage_integrity (hpos : 1 ≤ efi.length) :
    AllocIntegrity (diskImage efi) diskBpb efi.length where
  geometry := ⟨parseBpb_disk h, rfl, inRange_iff⟩
  allocated := by
    intro k hk c hc hc'
    have hiff := fatEntry_ne_zero_iff h hk hc (fatOffset_fits hc')
    exact hiff.trans ⟨reachable_of_lt h hk hc, fun hr => (reachable_lt h hk hpos hr).2⟩
  links := by
    intro k hk c x hc hc' hx hne
    have hn := fileClusters_le h
    have hlt : c < 5 + fileClusters efi :=
      (fatEntry_ne_zero_iff h hk hc (fatOffset_fits hc')).mp (by
        rw [show (diskVolume efi k).fatEntry c = some x from hx]
        simpa using hne)
    by_cases hdir : c ≤ 4
    · have := (fatEntry_dir h hk hc hdir).symm.trans hx
      rw [Option.some.injEq] at this
      exact Or.inl (by rw [← this, eoc]; omega)
    · obtain ⟨j, rfl⟩ : ∃ j, c = fileStartClus + j := ⟨c - 5, by rw [fileStartClus]; omega⟩
      rw [fileStartClus] at hlt
      have := (fatEntry_file h hk (j := j) (by omega)).symm.trans hx
      rw [Option.some.injEq, chainEntry] at this
      by_cases hlast : j + 1 = fileClusters efi
      · rw [if_pos hlast, eoc] at this
        exact Or.inl (by omega)
      · rw [if_neg hlast, fileStartClus] at this
        exact Or.inr ((inRange_iff x).mpr (by omega))
  chains := fun k hk => ⟨efiEnt, bootEnt, fileEnt efi.length, lookup_efi h, lookup_boot h,
    lookup_file h, disk_chains h hk hpos⟩
  fatCopies := (slice_fat h (by decide)).trans (slice_fat h (by decide)).symm
  bootBackup := by
    have h₀ := slice_bootSector h (Or.inl rfl)
    have h₆ := slice_bootSector h (Or.inr rfl)
    rw [Nat.zero_mul] at h₀
    exact h₀.trans h₆.symm
  fsinfoBackup := (slice_fsinfoSector h (Or.inl rfl)).trans (slice_fsinfoSector h (Or.inr rfl)).symm
  zero := fun i hi => disk_zero h (by rwa [length_diskImage h] at hi)

end Disk

/-- **Allocation integrity of the boot disk**: for every non-empty file that
fits, the image that `write_fat32_disk` leaves at `path` has it. -/
theorem writeFat32Disk_integrity (efi : Bytes) (hpos : 1 ≤ efi.length)
    (h : efi.length ≤ 67549 * 512) (path : String) (files : Files) :
    ∃ img p, Returns (writeFat32Disk .ok efi path) files (.ok ⟨⟩) (putFile files path img) ∧
      AllocIntegrity img p efi.length :=
  ⟨diskImage efi, diskBpb, writeFat32Disk_returns h path files, diskImage_integrity h hpos⟩

theorem writeFat32Disk_integrity_bytes : ∃ img p,
    Returns (writeFat32Disk .ok [0x4D, 0x5A] "disk.img") (fun _ => none) (.ok ⟨⟩)
      (putFile (fun _ => none) "disk.img" img) ∧
    AllocIntegrity img p ([0x4D, 0x5A] : Bytes).length := by
  have hpos : 1 ≤ ([0x4D, 0x5A] : Bytes).length := by simp
  have hlen : ([0x4D, 0x5A] : Bytes).length ≤ 67549 * 512 := by simp
  exact writeFat32Disk_integrity [0x4D, 0x5A] hpos hlen "disk.img" fun _ => none

end MochiVM.Fat
