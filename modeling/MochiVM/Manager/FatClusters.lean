import MochiVM.Manager.FatInfo

/-!
# The file's clusters, in three places

Which clusters hold the file is decided three times: `write_fat` counts them by
a ceiling division, `write_file_chain` runs a loop that ends after the first
cluster at the earliest, and the directory entry names a constant start. The
loop's clusters are `visitedClusters`. For a file of at least one byte the three
agree; for an empty one the entry and the loop take a cluster that the FAT calls
free (`clustersAgree_iff`).
-/

namespace MochiVM.Fat

open MochiVM.Slice MochiVM.Panic MochiVM.Buffer MochiVM.Links

/-! ## The clusters of the loop -/

/-- The rounds of the loop of `write_file_chain` for a file of `len` bytes, from
a given `offset` and `clus` on: both, at the start of each round. -/
def chainRounds (len offset clus : Nat) : List (Nat × Nat) :=
  (offset, clus) :: if _h : len ≤ offset + bs then [] else
    chainRounds len (offset + bs) (u32 (clus + 1))
termination_by len - offset
decreasing_by simp only [bs] at *; omega

/-- The body of the loop, up to its test. -/
def writeChunk (data : Bytes) (round : Nat × Nat) : BufM PUnit := do
  let start := sectorOf round.2 * bs
  let chunk ← subSlice data round.1 (min (round.1 + bs) data.length)
  copyFromSlice start (start + chunk.length) chunk

/-- The loop is its rounds. -/
theorem writeFileChainFrom_eq (data : Bytes) (offset clus : Nat) :
    writeFileChainFrom data offset clus =
      forM (chainRounds data.length offset clus) (writeChunk data) := by
  rw [writeFileChainFrom, chainRounds, List.forM_cons]
  by_cases hlast : data.length ≤ offset + bs
  · simp only [dif_pos hlast, writeChunk, bind_assoc, List.forM_nil]
  · simp only [dif_neg hlast, writeChunk, bind_assoc,
      ← writeFileChainFrom_eq data (offset + bs)]
termination_by data.length - offset
decreasing_by simp only [bs] at *; omega

/-- The clusters that `write_file_chain` visits, in order. -/
def visitedClusters (efi : Bytes) : List Nat :=
  (chainRounds efi.length 0 fileStartClus).map Prod.snd

theorem chainRounds_clusters {len k : Nat} (hlen : len ≤ capacity) (hk : k * bs < len) :
    (chainRounds len (k * bs) (fileStartClus + k)).map Prod.snd =
      List.range' (fileStartClus + k) (divCeil len bs - k) := by
  have hsucc : k * bs + bs = (k + 1) * bs := (Nat.succ_mul k bs).symm
  have hclus : u32 (fileStartClus + k + 1) = fileStartClus + (k + 1) := by
    refine u32_of_lt ?_
    simp only [fileStartClus, capacity, bs] at *
    omega
  rw [chainRounds, hsucc, hclus]
  by_cases hlast : len ≤ (k + 1) * bs
  · -- the last round
    have hone : divCeil len bs - k = 1 := by
      simp only [divCeil, bs] at *
      omega
    rw [dif_pos hlast, hone]
    rfl
  · have hmore : divCeil len bs - k = divCeil len bs - (k + 1) + 1 := by
      simp only [divCeil, bs] at *
      omega
    rw [dif_neg hlast, List.map_cons, chainRounds_clusters hlen (Nat.lt_of_not_le hlast), hmore,
      List.range'_succ]
    rfl
termination_by len - k * bs
decreasing_by simp only [bs] at *; omega

/-! ## Agreement -/

/-- The entry `file`, the FAT and the clusters `visited` agree on a volume. -/
structure ClustersMatch (v : Volume) (file : DirEnt) (visited : List Nat) : Prop where
  /-- An empty file has no first cluster; -/
  empty : file.size = 0 → file.firstClus = 0
  /-- another heads a chain as long as its size asks for. -/
  chain : file.size ≠ 0 →
    ∃ l, Chain v.link file.firstClus l ∧ l.length = (file.size + 511) / 512
  /-- The entry never points at a free cluster. -/
  allocated : file.firstClus ≠ 0 → v.fatEntry file.firstClus ≠ some 0
  /-- Behind the directories, the FAT allocates the clusters visited, -/
  marked : ∀ c, bootDirClus < c → v.bpb.InRange c → (v.fatEntry c ≠ some 0 ↔ c ∈ visited)
  /-- each once, -/
  nodup : visited.Nodup
  /-- and links them in the order of the visits. -/
  order : visited.IsChain fun c d => v.link c = .to d

/-- In the image `write_fat32_disk` builds for this file, the entry of the file,
both FATs and the loop of `write_file_chain` agree on its clusters. -/
def ClustersAgree (efi : Bytes) : Prop :=
  ∃ img p, (∀ path files, Returns (writeFat32Disk .ok efi path) files (.ok ⟨⟩)
      (putFile files path img)) ∧ parseBpb (slice img 0 bs) = some p ∧
    ∀ k < p.numFats, ∃ efiDir boot file : DirEnt,
      (Volume.mk img p k).lookup p.rootClus (ascii "EFI        ") = some efiDir ∧
      (Volume.mk img p k).lookup efiDir.firstClus (ascii "BOOT       ") = some boot ∧
      (Volume.mk img p k).lookup boot.firstClus (ascii "BOOTX64 EFI") = some file ∧
      file.size = efi.length ∧ ClustersMatch (Volume.mk img p k) file (visitedClusters efi)

section Disk

variable {efi : Bytes} (h : efi.length ≤ capacity)
include h

/-- The loop visits the file's clusters in ascending order. -/
theorem visitedClusters_eq (hpos : 1 ≤ efi.length) :
    visitedClusters efi = List.range' fileStartClus (fileClusters efi) := by
  have hrounds := chainRounds_clusters (k := 0) h (by omega)
  rwa [Nat.zero_mul, Nat.sub_zero] at hrounds

theorem clustersMatch_disk {k : Nat} (hk : k < numFats) (hpos : 1 ≤ efi.length) :
    ClustersMatch (diskVolume efi k) (fileEnt efi.length) (visitedClusters efi) where
  empty hzero := absurd (show efi.length = 0 from hzero) (by omega)
  chain _ := ⟨_, file_chain h hk hpos, List.length_range'⟩
  allocated _ := by
    have hstart : diskBpb.InRange fileStartClus := by decide
    rw [show (fileEnt efi.length).firstClus = fileStartClus from rfl, Ne,
      fatEntry_eq_zero_iff h hk hstart]
    have hn : 1 ≤ fileClusters efi := by
      simp only [fileClusters, divCeil, bs]
      omega
    rw [fileStartClus]
    omega
  marked c hdir hc := by
    rw [visitedClusters_eq h hpos, List.mem_range'_1, Ne, fatEntry_eq_zero_iff h hk hc]
    simp only [bootDirClus, fileStartClus] at *
    omega
  nodup := by
    rw [visitedClusters_eq h hpos]
    exact List.nodup_range'
  order := by
    rw [visitedClusters_eq h hpos]
    exact (file_chain h hk hpos).isChain

/-- **Three places**: they agree for every file but the empty one. -/
theorem clustersAgree_disk : ClustersAgree efi ↔ efi ≠ [] := by
  constructor
  · rintro ⟨img, p, hret, hp, hagree⟩ hempty
    have hputs := ((hret "disk.img" fun _ => none).unique
      (writeFat32Disk_returns h "disk.img" fun _ => none)).2
    -- the image is the one that was written
    have himg : img = diskImage efi := by
      have := congrFun hputs "disk.img"
      rw [putFile, putFile, if_pos rfl, if_pos rfl] at this
      exact Option.some.inj this
    rw [himg, parseBpb_disk h] at hp
    obtain rfl := Option.some.inj hp
    rw [himg] at hagree
    obtain ⟨efiDir, boot, file, hefi, hboot, hfile, -, hmatch⟩ := hagree 0 (by decide)
    obtain rfl := Option.some.inj (hefi.symm.trans (lookup_efi h))
    obtain rfl := Option.some.inj (hboot.symm.trans (lookup_boot h))
    obtain rfl := Option.some.inj (hfile.symm.trans (lookup_file h))
    -- an empty file, whose entry names cluster 5
    have hzero : (fileEnt efi.length).size = 0 := List.length_eq_zero_iff.mpr hempty
    have hfirst : fileStartClus = 0 := hmatch.empty hzero
    exact absurd hfirst (by decide)
  · intro hne
    have hpos : 1 ≤ efi.length := List.length_pos_iff.mpr hne
    exact ⟨diskImage efi, diskBpb, writeFat32Disk_returns h, parseBpb_disk h, fun k hk =>
      ⟨efiEnt, bootEnt, fileEnt efi.length, lookup_efi h, lookup_boot h, lookup_file h, rfl,
        clustersMatch_disk h hk hpos⟩⟩

end Disk

/-- **The file's clusters** are the same in the entry, the FAT and the loop
exactly when the file is not empty. -/
theorem clustersAgree_iff (efi : Bytes) (h : efi.length ≤ 67549 * 512) :
    ClustersAgree efi ↔ efi ≠ [] := clustersAgree_disk h

theorem clustersAgree_iff_byte : ClustersAgree [0x4D] ↔ ([0x4D] : Bytes) ≠ [] :=
  clustersAgree_iff [0x4D] (by simp)

/-- The entry of an empty file names cluster 5, which is free. -/
theorem not_clustersAgree_empty :
    ¬ ∀ efi : Bytes, efi.length ≤ 67549 * 512 → ClustersAgree efi := by
  intro hall
  have hempty : ClustersAgree [] := hall [] (Nat.zero_le _)
  exact (clustersAgree_disk (Nat.zero_le _)).mp hempty rfl

end MochiVM.Fat
