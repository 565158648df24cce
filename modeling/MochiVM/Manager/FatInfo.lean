import MochiVM.Manager.FatAlloc

/-!
# FSInfo against the FAT

The FSInfo sector summarises the FAT: how many clusters are free, and one of
them to start looking from. `write_fsinfo` writes constants, before the FAT and
without the file's length: as many free clusters as the volume has, and the
first cluster of the file. `FsinfoAgrees` says what a reader takes the two
fields to mean; no image has it, since the three directories alone take up
three clusters (`fsinfo_never_agrees`).
-/

namespace MochiVM.Fat

open MochiVM.Slice MochiVM.Panic MochiVM.Buffer

/-! ## The two fields -/

/-- The free-cluster count of the FSInfo in sector `sec`. -/
def fsinfoFreeCount (img : Bytes) (sec : Nat) : Nat := fromLE (slice img (sec * bs + 488) 4)

/-- The next-free field of the FSInfo in sector `sec`. -/
def fsinfoNextFree (img : Bytes) (sec : Nat) : Nat := fromLE (slice img (sec * bs + 492) 4)

/-- How many data clusters the FAT says are free. -/
def Volume.freeClusters (v : Volume) : Nat :=
  (List.range' 2 v.bpb.clusterCount).countP fun c => v.fatEntry c == some 0

/-- The next-free field names a free cluster, if there is one. -/
def Volume.NextFreeOk (v : Volume) (next : Nat) : Prop :=
  (∃ c, v.bpb.InRange c ∧ v.fatEntry c = some 0) → v.bpb.InRange next ∧ v.fatEntry next = some 0

/-- The image `write_fat32_disk` builds for this file has FSInfo sectors, the
backup included, that agree with both its FATs. -/
def FsinfoAgrees (efi : Bytes) : Prop :=
  ∀ path files files', Returns (writeFat32Disk .ok efi path) files (.ok ⟨⟩) files' →
    ∃ img p, files' path = some img ∧ parseBpb (slice img 0 bs) = some p ∧
      ∀ k < p.numFats, ∀ sec, sec = 1 ∨ sec = 7 →
        fsinfoFreeCount img sec = (Volume.mk img p k).freeClusters ∧
          (Volume.mk img p k).NextFreeOk (fsinfoNextFree img sec)

/-! ## What is written -/

theorem fromLE_fsinfo_free : fromLE (slice fsinfoSector 488 4) = 67552 := by decide +kernel

theorem fromLE_fsinfo_next : fromLE (slice fsinfoSector 492 4) = fileStartClus := by decide +kernel

section Disk

variable {efi : Bytes} (h : efi.length ≤ capacity)
include h

theorem slice_fsinfo {sec : Nat} (hsec : sec = 1 ∨ sec = 7) {off : Nat} (hoff : off + 4 ≤ bs) :
    slice (diskImage efi) (sec * bs + off) 4 = slice fsinfoSector off 4 := by
  rw [← slice_fsinfoSector h hsec, slice_slice _ hoff]

theorem fsinfoFreeCount_disk {sec : Nat} (hsec : sec = 1 ∨ sec = 7) :
    fsinfoFreeCount (diskImage efi) sec = 67552 := by
  rw [fsinfoFreeCount, slice_fsinfo h hsec (by decide), fromLE_fsinfo_free]

theorem fsinfoNextFree_disk {sec : Nat} (hsec : sec = 1 ∨ sec = 7) :
    fsinfoNextFree (diskImage efi) sec = fileStartClus := by
  rw [fsinfoNextFree, slice_fsinfo h hsec (by decide), fromLE_fsinfo_next]

/-! ## What is free -/

theorem fatEntry_eq_zero_iff {k : Nat} (hk : k < numFats) {c : Nat} (hc : diskBpb.InRange c) :
    (diskVolume efi k).fatEntry c = some 0 ↔ 5 + fileClusters efi ≤ c := by
  obtain ⟨hlo, hhi⟩ := (inRange_iff c).mp hc
  have hfat : 4 * c + 4 ≤ fatLen := by
    rw [show fatLen = 524288 by decide]
    omega
  rw [← Nat.not_lt, ← fatEntry_ne_zero_iff h hk hlo hfat, not_not]

/-- **What is free**: every data cluster but the directories' and the file's. -/
theorem freeClusters_disk {k : Nat} (hk : k < numFats) :
    (diskVolume efi k).freeClusters = 67549 - fileClusters efi := by
  have hcap := fileClusters_le h
  have hrange : List.range' 2 diskBpb.clusterCount =
      List.range' 2 (3 + fileClusters efi) ++
        List.range' (5 + fileClusters efi) (67549 - fileClusters efi) := by
    rw [show diskBpb.clusterCount = (3 + fileClusters efi) + (67549 - fileClusters efi) by
      rw [show diskBpb.clusterCount = 67552 by decide]; omega,
      show 5 + fileClusters efi = 2 + 1 * (3 + fileClusters efi) by omega, List.range'_append]
  have hin : ∀ {c}, 2 ≤ c → c < 2 + 67552 → diskBpb.InRange c := fun h₁ h₂ =>
    (inRange_iff _).mpr ⟨h₁, by omega⟩
  have hused : (List.range' 2 (3 + fileClusters efi)).countP
      (fun c => (diskVolume efi k).fatEntry c == some 0) = 0 := by
    rw [List.countP_eq_zero]
    intro c hc hzero
    have := List.mem_range'_1.mp hc
    have hrange : diskBpb.InRange c := hin (by omega) (by omega)
    have := (fatEntry_eq_zero_iff h hk hrange).mp (by simpa using hzero)
    omega
  have hfree : (List.range' (5 + fileClusters efi) (67549 - fileClusters efi)).countP
      (fun c => (diskVolume efi k).fatEntry c == some 0) = 67549 - fileClusters efi := by
    have hall : ∀ c ∈ List.range' (5 + fileClusters efi) (67549 - fileClusters efi),
        ((diskVolume efi k).fatEntry c == some 0) = true := by
      intro c hc
      have := List.mem_range'_1.mp hc
      have hrange : diskBpb.InRange c := hin (by omega) (by omega)
      simpa using (fatEntry_eq_zero_iff h hk hrange).mpr (by omega)
    rw [List.countP_eq_length.mpr hall, List.length_range']
  rw [Volume.freeClusters, show (diskVolume efi k).bpb = diskBpb from rfl, hrange,
    List.countP_append, hused, hfree, Nat.zero_add]

/-- The next-free field is right only for an empty file, or on a full volume. -/
theorem nextFreeOk_disk {k : Nat} (hk : k < numFats) {sec : Nat} (hsec : sec = 1 ∨ sec = 7) :
    (diskVolume efi k).NextFreeOk (fsinfoNextFree (diskImage efi) sec) ↔
      fileClusters efi = 0 ∨ fileClusters efi = 67549 := by
  have hcap := fileClusters_le h
  rw [fsinfoNextFree_disk h hsec]
  have hstart : diskBpb.InRange fileStartClus := by decide
  have hnext : (diskVolume efi k).fatEntry fileStartClus = some 0 ↔ fileClusters efi = 0 := by
    rw [fatEntry_eq_zero_iff h hk hstart, fileStartClus]
    omega
  constructor
  · intro hok
    by_cases hfull : fileClusters efi = 67549
    · exact .inr hfull
    · have hlast : diskBpb.InRange 67553 := by decide
      have hfree := (fatEntry_eq_zero_iff h hk hlast).mpr (by omega)
      exact .inl (hnext.mp (hok ⟨67553, hlast, hfree⟩).2)
  · rintro (hempty | hfull)
    · exact fun _ => ⟨hstart, hnext.mpr hempty⟩
    · rintro ⟨c, hc, hfree⟩
      have := (fatEntry_eq_zero_iff h hk hc).mp hfree
      have := ((inRange_iff c).mp hc).2
      omega

end Disk

/-! ## They never agree -/

theorem not_fsinfoAgrees {efi : Bytes} (h : efi.length ≤ capacity) : ¬ FsinfoAgrees efi := by
  intro hagrees
  obtain ⟨img, p, himg, hp, hsec⟩ := hagrees "disk.img" (fun _ => none) _
    (writeFat32Disk_returns h "disk.img" fun _ => none)
  rw [putFile, if_pos rfl] at himg
  obtain rfl := Option.some.inj himg
  rw [parseBpb_disk h] at hp
  obtain rfl := Option.some.inj hp
  have hcount := (hsec 0 (by decide) 1 (.inl rfl)).1
  rw [fsinfoFreeCount_disk h (.inl rfl), show Volume.mk (diskImage efi) diskBpb 0 = diskVolume efi 0
    from rfl, freeClusters_disk h (by decide)] at hcount
  omega

/-- **FSInfo against the FAT**: whatever the file, the image reports more free
clusters than it has. -/
theorem fsinfo_never_agrees (efi : Bytes) (h : efi.length ≤ 67549 * 512) : ¬ FsinfoAgrees efi :=
  not_fsinfoAgrees h

theorem fsinfo_never_agrees_bytes : ¬ FsinfoAgrees [0x4D] :=
  fsinfo_never_agrees [0x4D] (by simp)

/-- A two-byte file: 67552 clusters are reported free, 67548 are. -/
theorem fsinfo_two_bytes : ¬ FsinfoAgrees [0x4D, 0x5A] :=
  not_fsinfoAgrees (by simp [capacity])

end MochiVM.Fat
