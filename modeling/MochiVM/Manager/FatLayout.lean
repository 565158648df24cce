import MochiVM.Manager.Fat
import MochiVM.Lib.Layout

/-!
# The layout of the boot disk

The writers of `fillImage` touch the image at increasing offsets, each past
everything written before it:

    boot sector | FSInfo | boot sector | FSInfo | FAT | FAT
      | root dir | EFI dir | BOOT dir | the file

Each writer has one spec lemma (a write of known bytes at a known offset), and
`fillImage_returns` assembles them: the image is the rendering of these ten
placed regions (`diskRegions`), zero elsewhere. `capacity` is the bound on the
file's length under which they fit.
-/

namespace MochiVM.Fat

open MochiVM.Slice MochiVM.Panic MochiVM.Buffer MochiVM.Layout

theorem u32_of_lt {n : Nat} (h : n < 2 ^ 32) : u32 n = n := Nat.mod_eq_of_lt h

/-! ## One FAT -/

/-- The file-chain entry of the `i`-th of `n` clusters. -/
def chainEntry (n i : Nat) : Nat := if i + 1 = n then eoc else fileStartClus + i + 1

/-- The entries in use at the start of a FAT whose file has `n` clusters, of
which the first `i` are entered. -/
def fatEntries (n i : Nat) : List Nat :=
  [0x0FFFFFF8, eoc, eoc, eoc, eoc] ++ (List.range i).map (chainEntry n)

/-- The bytes of `fatEntries`. -/
def fatBytes (n i : Nat) : Bytes := ((fatEntries n i).map (toLE 4)).flatten

theorem length_fatRow {n i : Nat} : ∀ r ∈ (fatEntries n i).map (toLE 4), r.length = 4 := by
  intro r hr
  obtain ⟨v, -, rfl⟩ := List.mem_map.mp hr
  exact length_toLE 4 v

@[simp] theorem length_fatEntries (n i : Nat) : (fatEntries n i).length = 5 + i := by
  rw [fatEntries, List.length_append, List.length_map, List.length_range]
  rfl

@[simp] theorem length_fatBytes (n i : Nat) : (fatBytes n i).length = 4 * (5 + i) := by
  rw [fatBytes, length_flatten_const length_fatRow, List.length_map, length_fatEntries]

theorem fatBytes_succ (n i : Nat) :
    fatBytes n (i + 1) = fatBytes n i ++ toLE 4 (chainEntry n i) := by
  simp [fatBytes, fatEntries, List.range_succ]

/-- Bytes of one FAT. -/
def fatLen : Nat := fatSec * bs

/-- One round of the chain loop appends one entry. -/
theorem writeChainEntry_returns {fat : Bytes} {n i : Nat} (hlen : fat.length = fatLen)
    (hi : i < n) (hn : 4 * (5 + n) ≤ fatLen) :
    Returns (writeChainEntry n i) (splice fat 0 (fatBytes n i)) ⟨⟩
      (splice fat 0 (fatBytes n (i + 1))) := by
  simp only [fatLen, fatSec, bs] at hlen hn
  have hclus : u32 (fileStartClus + i) = 5 + i := u32_of_lt (by simp only [fileStartClus]; omega)
  have hnext : u32 (5 + i + 1) = fileStartClus + i + 1 := u32_of_lt (by omega)
  have hoff : u32 ((5 + i) * 4) = (fatBytes n i).length := by
    rw [u32_of_lt (by omega), length_fatBytes, Nat.mul_comm]
  have hfit : 0 + (fatBytes n i ++ toLE 4 (chainEntry n i)).length ≤ fat.length := by
    rw [List.length_append, length_fatBytes, length_toLE]
    omega
  have hlen' : (splice fat 0 (fatBytes n i)).length = fat.length :=
    length_splice (by rw [List.length_append] at hfit; omega)
  unfold writeChainEntry
  simp only [hclus, hnext, hoff]
  rw [show (if i + 1 = n then eoc else fileStartClus + i + 1) = chainEntry n i from rfl,
    fatBytes_succ, ← splice_splice_adjacent hfit, Nat.zero_add]
  refine copyFromSlice_returns (by rw [length_toLE]) ?_
  rw [hlen', length_fatBytes]
  omega

/-- **Writing one FAT**: on a table of any content it is one write of the
entries in use, at the start. -/
theorem writeFatCopy_returns {fat : Bytes} {n : Nat} (hlen : fat.length = fatLen)
    (hn : 4 * (5 + n) ≤ fatLen) :
    Returns (writeFatCopy n) fat ⟨⟩ (splice fat 0 (fatBytes n n)) := by
  have hlen' := hlen
  simp only [fatLen, fatSec, bs] at hlen'
  -- one 4-byte write right after the bytes `s` already written
  have hstep : ∀ (s : Bytes) (v off : Nat), s.length = off → off + 4 ≤ 20 →
      Returns (copyFromSlice off (off + 4) (toLE 4 v)) (splice fat 0 s) ⟨⟩
        (splice fat 0 (s ++ toLE 4 v)) := by
    intro s v off hs hoff
    have hfit : 0 + (s ++ toLE 4 v).length ≤ fat.length := by
      rw [List.length_append, length_toLE]
      omega
    rw [← splice_splice_adjacent hfit, hs, Nat.zero_add]
    refine copyFromSlice_returns (by rw [length_toLE]) ?_
    rw [length_splice (by rw [hs]; omega)]
    omega
  have h₀ := hstep [] 0x0FFFFFF8 0 rfl (by omega)
  have h₁ := hstep (toLE 4 0x0FFFFFF8) eoc 4 rfl (by omega)
  have h₂ := hstep (toLE 4 0x0FFFFFF8 ++ toLE 4 eoc) eoc 8 rfl (by omega)
  have h₃ := hstep (toLE 4 0x0FFFFFF8 ++ toLE 4 eoc ++ toLE 4 eoc) eoc 12 rfl (by omega)
  have h₄ := hstep (toLE 4 0x0FFFFFF8 ++ toLE 4 eoc ++ toLE 4 eoc ++ toLE 4 eoc) eoc 16 rfl
    (by omega)
  have hloop := forRange_returns (fun i => splice fat 0 (fatBytes n i)) (Nat.zero_le n)
    fun j _ hj => writeChainEntry_returns hlen hj hn
  rw [splice_nil] at h₀
  exact h₀.bind (h₁.bind (h₂.bind (h₃.bind (h₄.bind hloop))))

/-- Offset of the `k`-th FAT in the image. -/
def fatOff (k : Nat) : Nat := (rsvdSec + k * fatSec) * bs

theorem u32_fatOff {k : Nat} (hk : k < numFats) :
    u32 ((rsvdSec + k * fatSec) * bs) = fatOff k := by
  refine u32_of_lt ?_
  simp only [numFats, rsvdSec, fatSec, bs] at *
  omega

/-- **Writing both FATs** (any image content): two writes of the same bytes. -/
theorem writeFat_returns {img : Bytes} {fileLen : Nat} (hlen : img.length = imgLen)
    (hn : 4 * (5 + u32 (divCeil fileLen bs)) ≤ fatLen) :
    Returns (writeFat fileLen) img ⟨⟩
      (splice (splice img (fatOff 0) (fatBytes (u32 (divCeil fileLen bs))
        (u32 (divCeil fileLen bs)))) (fatOff 1)
        (fatBytes (u32 (divCeil fileLen bs)) (u32 (divCeil fileLen bs)))) := by
  unfold writeFat
  generalize u32 (divCeil fileLen bs) = n at hn ⊢
  have hbytes : (fatBytes n n).length ≤ fatLen := by rw [length_fatBytes]; exact hn
  -- one FAT, in an image `b` of the right size
  have hone : ∀ (b : Bytes) (k : Nat), b.length = imgLen → k < numFats →
      Returns (withSlice (u32 ((rsvdSec + k * fatSec) * bs))
          (u32 ((rsvdSec + k * fatSec) * bs) + u32 (fatSec * bs)) (writeFatCopy n)) b ⟨⟩
        (splice b (fatOff k) (fatBytes n n)) := by
    intro b k hb hk
    have hfit : fatOff k + fatLen ≤ b.length := by
      rw [hb]
      simp only [fatOff, fatLen, imgLen, totalSec, numFats, rsvdSec, fatSec, bs] at hk ⊢
      omega
    have hsl : (slice b (fatOff k) fatLen).length = fatLen := length_slice hfit
    rw [u32_fatOff hk, show u32 (fatSec * bs) = fatLen from rfl]
    have hw : splice b (fatOff k) (splice (slice b (fatOff k) fatLen) 0 (fatBytes n n)) =
        splice b (fatOff k + 0) (fatBytes n n) := splice_slice_splice hfit (by omega)
    rw [Nat.add_zero] at hw
    rw [← hw]
    refine withSlice_returns (Nat.le_add_right _ _) hfit ?_
    rw [Nat.add_sub_cancel_left]
    exact writeFatCopy_returns hsl hn
  have hlen₁ : (splice img (fatOff 0) (fatBytes n n)).length = imgLen := by
    rw [length_splice ?_, hlen]
    rw [hlen]
    simp only [fatOff, fatLen, imgLen, totalSec, rsvdSec, fatSec, bs] at hbytes ⊢
    omega
  exact (hone img 0 hlen (by decide)).bind
    ((hone _ 1 hlen₁ (by decide)).bind (returns_pure _ _))

/-! ## The clusters -/

/-- Offset of cluster `c` in the image. -/
def clusOff (c : Nat) : Nat := (dataStart + (c - rootClus)) * bs

theorem sectorOf_mul_bs {c : Nat} (hc : c < 2 ^ 31) : sectorOf c * bs = clusOff c := by
  rw [sectorOf, clusOff, Nat.mul_one, u32_of_lt]
  simp only [dataStart, rsvdSec, numFats, fatSec, rootClus]
  omega

/-- `write_dir` lays its entries out one after the other. -/
theorem fillDir_returns {b : Bytes} : ∀ (es : List Bytes) (i : Nat), (∀ e ∈ es, e.length = 32) →
    (i + es.length) * 32 ≤ b.length →
    Returns (fillDir i es) b ⟨⟩ (splice b (i * 32) es.flatten)
  | [], i, _, _ => by
    rw [List.flatten_nil, splice_nil]
    exact returns_pure _ _
  | e :: es, i, he, hfit => by
    have hlen : e.length = 32 := he e List.mem_cons_self
    have hrest : es.flatten.length = 32 * es.length :=
      length_flatten_const fun r hr => he r (List.mem_cons_of_mem _ hr)
    rw [List.length_cons] at hfit
    have hcopy : Returns (copyFromSlice (i * 32) ((i + 1) * 32) e) b ⟨⟩ (splice b (i * 32) e) :=
      copyFromSlice_returns (by omega) (by omega)
    have htail := fillDir_returns (b := splice b (i * 32) e) es (i + 1)
      (fun r hr => he r (List.mem_cons_of_mem _ hr))
      (by rw [length_splice (by omega)]; omega)
    rw [show (i + 1) * 32 = i * 32 + e.length by omega,
      splice_splice_adjacent (by rw [List.length_append]; omega), ← List.flatten_cons] at htail
    exact hcopy.bind htail

/-- The sector `write_dir` builds from its entries. -/
def dirSector (es : List Bytes) : Bytes :=
  es.flatten ++ List.replicate (bs - 32 * es.length) 0

theorem length_dirSector {es : List Bytes} (he : ∀ e ∈ es, e.length = 32)
    (hle : es.length ≤ 16) : (dirSector es).length = bs := by
  rw [dirSector, List.length_append, List.length_replicate, length_flatten_const he]
  simp only [bs]
  omega

/-- **Writing a directory** (any image content) is one write of its sector. -/
theorem writeDir_returns {img : Bytes} {c : Nat} {es : List Bytes}
    (he : ∀ e ∈ es, e.length = 32) (hle : es.length ≤ 16) (hc : c < 2 ^ 31)
    (hfit : clusOff c + bs ≤ img.length) :
    Returns (writeDir c es) img ⟨⟩ (splice img (clusOff c) (dirSector es)) := by
  have hflat := length_flatten_const he
  have hfill := fillDir_returns (b := List.replicate bs 0) es 0 he
    (by rw [List.length_replicate, bs]; omega)
  have hsec : splice (List.replicate bs 0) (0 * 32) es.flatten = dirSector es := by
    rw [splice, Nat.zero_mul, List.take_zero, List.nil_append, Nat.zero_add,
      List.drop_replicate, hflat, dirSector]
  show writeDir c es img = _
  rw [writeDir, show fillDir 0 es (List.replicate bs 0) = .ok ⟨⟩ _ from hfill, hsec]
  show writeCluster c (dirSector es) img = _
  rw [writeCluster, sectorOf_mul_bs hc]
  exact copyFromSlice_returns rfl (by rw [length_dirSector he hle]; exact hfit)

theorem clusOff_succ (k : Nat) : clusOff (fileStartClus + k) = clusOff fileStartClus + k * bs := by
  simp only [clusOff, fileStartClus, rootClus]
  rw [← Nat.add_mul]
  congr 1
  omega

/-- The chunk the loop takes at `off`: up to a sector of what is left. -/
theorem slice_min_sub (data : Bytes) (off : Nat) (h : off ≤ data.length) :
    slice data off (min (off + bs) data.length - off) = slice data off bs := by
  by_cases hb : off + bs ≤ data.length
  · rw [Nat.min_eq_left hb, Nat.add_sub_cancel_left]
  · have hlen : (data.drop off).length = data.length - off := List.length_drop
    rw [Nat.min_eq_right (by omega), slice, slice, List.take_of_length_le (by omega),
      List.take_of_length_le (by omega)]

/-- One round of the file loop, at cluster `5 + k`, when its chunk fits. -/
theorem writeFileChainFrom_step {data img : Bytes} {k : Nat} (hk : k * bs ≤ data.length)
    (hc : k < 2 ^ 30)
    (hfit : clusOff (fileStartClus + k) + (slice data (k * bs) bs).length ≤ img.length) :
    writeFileChainFrom data (k * bs) (fileStartClus + k) img =
      if data.length ≤ (k + 1) * bs then
        .ok ⟨⟩ (splice img (clusOff (fileStartClus + k)) (slice data (k * bs) bs))
      else
        writeFileChainFrom data ((k + 1) * bs) (fileStartClus + (k + 1))
          (splice img (clusOff (fileStartClus + k)) (slice data (k * bs) bs)) := by
  have hlo : k * bs ≤ min (k * bs + bs) data.length := by omega
  have hsub := subSlice_returns img hlo (Nat.min_le_right _ _)
  rw [slice_min_sub data _ hk] at hsub
  have hsucc : k * bs + bs = (k + 1) * bs := (Nat.succ_mul k bs).symm
  have hclus : u32 (fileStartClus + k + 1) = fileStartClus + (k + 1) :=
    u32_of_lt (by simp only [fileStartClus]; omega)
  rw [writeFileChainFrom, sectorOf_mul_bs (by simp only [fileStartClus]; omega),
    bind_of_returns hsub, bind_of_returns (copyFromSlice_returns rfl hfit), hsucc, hclus]
  by_cases hlast : data.length ≤ (k + 1) * bs
  · rw [dif_pos hlast, if_pos hlast]
    rfl
  · rw [dif_neg hlast, if_neg hlast]

/-- **Writing the file** (any image content): when it fits, the loop is one
write at the first data cluster of the file. `k` rounds are already done. -/
theorem writeFileChainFrom_returns {data img : Bytes}
    (hfit : clusOff fileStartClus + data.length ≤ img.length) (hlen : img.length ≤ imgLen)
    (k : Nat) (hk : k * bs ≤ data.length) :
    Returns (writeFileChainFrom data (k * bs) (fileStartClus + k))
      (splice img (clusOff fileStartClus) (data.take (k * bs))) ⟨⟩
      (splice img (clusOff fileStartClus) data) := by
  have hsum : data.take (k * bs) ++ slice data (k * bs) bs = data.take ((k + 1) * bs) := by
    rw [Nat.succ_mul, List.take_add]
    rfl
  have htk : (data.take (k * bs)).length = k * bs := by rw [List.length_take]; omega
  have hle : k * bs + (slice data (k * bs) bs).length ≤ data.length := by
    rw [slice, List.length_take, List.length_drop]
    omega
  have hlen' : (splice img (clusOff fileStartClus) (data.take (k * bs))).length = img.length :=
    length_splice (by omega)
  have hmerge : splice (splice img (clusOff fileStartClus) (data.take (k * bs)))
      (clusOff (fileStartClus + k)) (slice data (k * bs) bs) =
      splice img (clusOff fileStartClus) (data.take ((k + 1) * bs)) := by
    rw [← hsum, ← splice_splice_adjacent (by rw [List.length_append]; omega), htk, clusOff_succ]
  have hbound : k < 2 ^ 30 := by
    simp only [clusOff, imgLen, totalSec, bs] at hfit hlen hk
    omega
  show writeFileChainFrom _ _ _ _ = _
  rw [writeFileChainFrom_step hk hbound (by rw [clusOff_succ, hlen']; omega), hmerge]
  by_cases hlast : data.length ≤ (k + 1) * bs
  · rw [if_pos hlast, List.take_of_length_le hlast]
  · rw [if_neg hlast]
    exact writeFileChainFrom_returns hfit hlen (k + 1) (by omega)
termination_by data.length - k * bs
decreasing_by simp only [bs] at *; omega

theorem writeFileChain_returns {data img : Bytes}
    (hfit : clusOff fileStartClus + data.length ≤ img.length) (hlen : img.length ≤ imgLen) :
    Returns (writeFileChain data) img ⟨⟩ (splice img (clusOff fileStartClus) data) := by
  have := writeFileChainFrom_returns hfit hlen 0 (by omega)
  rwa [Nat.zero_mul, List.take_zero, splice_nil] at this

/-! ## The whole image -/

/-- The bytes that fit from the first file cluster to the end of the volume:
67549 clusters of one sector. -/
def capacity : Nat := 67549 * 512

/-- The boot sector, as `write_boot_sector` leaves it on a zeroed sector. -/
def bootSector : Bytes := finalState (writeBootSector (List.replicate bs 0))

/-- The FSInfo sector, as `write_fsinfo` leaves it on a zeroed sector. -/
def fsinfoSector : Bytes := finalState (writeFsinfo (List.replicate bs 0))

/-- A directory entry, byte by byte. -/
def entryBytes (name : Bytes) (attr : UInt8) (firstClus size : Nat) : Bytes :=
  name ++ [attr] ++ List.replicate 8 0 ++ toLE 2 (u16 (firstClus / 2 ^ 16)) ++
    List.replicate 4 0 ++ toLE 2 (u16 firstClus) ++ toLE 4 size

/-- The entries of the root directory. -/
def rootEntries : List Bytes :=
  [entryBytes (ascii ".          ") 0x10 rootClus 0,
   entryBytes (ascii "..         ") 0x10 rootClus 0,
   entryBytes (ascii "EFI        ") 0x10 efiDirClus 0]

/-- The entries of the EFI directory. -/
def efiDirEntries : List Bytes :=
  [entryBytes (ascii ".          ") 0x10 efiDirClus 0,
   entryBytes (ascii "..         ") 0x10 rootClus 0,
   entryBytes (ascii "BOOT       ") 0x10 bootDirClus 0]

/-- The entries of the BOOT directory, for a file of `size` bytes. -/
def bootDirEntries (size : Nat) : List Bytes :=
  [entryBytes (ascii ".          ") 0x10 bootDirClus 0,
   entryBytes (ascii "..         ") 0x10 efiDirClus 0,
   entryBytes (ascii "BOOTX64 EFI") 0x20 fileStartClus size]

/-- The clusters a file of `efi`'s length takes. -/
def fileClusters (efi : Bytes) : Nat := divCeil efi.length bs

/-- The bytes in use at the start of each FAT. -/
def fatTable (efi : Bytes) : Bytes := fatBytes (fileClusters efi) (fileClusters efi)

/-- The regions of the boot disk, in the order they are written. -/
def diskRegions (efi : Bytes) : List (Region UInt8) :=
  [⟨0, bootSector⟩, ⟨1 * bs, fsinfoSector⟩, ⟨6 * bs, bootSector⟩, ⟨7 * bs, fsinfoSector⟩,
   ⟨fatOff 0, fatTable efi⟩, ⟨fatOff 1, fatTable efi⟩,
   ⟨clusOff rootClus, dirSector rootEntries⟩, ⟨clusOff efiDirClus, dirSector efiDirEntries⟩,
   ⟨clusOff bootDirClus, dirSector (bootDirEntries efi.length)⟩,
   ⟨clusOff fileStartClus, efi⟩]

/-- The boot disk image. -/
def diskImage (efi : Bytes) : Bytes := render 0 imgLen 0 (diskRegions efi)

section Closed

set_option maxRecDepth 10000

theorem writeBootSector_returns :
    Returns writeBootSector (List.replicate bs 0) ⟨⟩ bootSector := rfl

theorem writeFsinfo_returns :
    Returns writeFsinfo (List.replicate bs 0) ⟨⟩ fsinfoSector := rfl

theorem length_bootSector : bootSector.length = bs := by decide +kernel

theorem length_fsinfoSector : fsinfoSector.length = bs := by decide +kernel

theorem rootEntries_returns (img : Bytes) :
    Returns (entries [shortEntry "." 0x10 rootClus 0, shortEntry ".." 0x10 rootClus 0,
      shortEntry "EFI" 0x10 efiDirClus 0]) img rootEntries img := rfl

theorem efiDirEntries_returns (img : Bytes) :
    Returns (entries [shortEntry "." 0x10 efiDirClus 0, shortEntry ".." 0x10 rootClus 0,
      shortEntry "BOOT" 0x10 bootDirClus 0]) img efiDirEntries img := rfl

theorem bootDirEntries_returns (size : Nat) (img : Bytes) :
    Returns (entries [shortEntry "." 0x10 bootDirClus 0, shortEntry ".." 0x10 efiDirClus 0,
      dirEntry (fat83 (ascii "BOOTX64 ") (ascii "EFI")) 0x20 fileStartClus size])
      img (bootDirEntries size) img := rfl

end Closed

theorem length_entryBytes {name : Bytes} (h : name.length = 11) (attr : UInt8)
    (firstClus size : Nat) : (entryBytes name attr firstClus size).length = 32 := by
  simp [entryBytes, h]

theorem length_rootEntry : ∀ e ∈ rootEntries, e.length = 32 := by decide

theorem length_efiDirEntry : ∀ e ∈ efiDirEntries, e.length = 32 := by decide

theorem length_bootDirEntry (size : Nat) : ∀ e ∈ bootDirEntries size, e.length = 32 := by
  intro e he
  simp only [bootDirEntries, List.mem_cons, List.not_mem_nil, or_false] at he
  rcases he with rfl | rfl | rfl <;> exact length_entryBytes rfl _ _ _

theorem length_rootSector : (dirSector rootEntries).length = bs :=
  length_dirSector length_rootEntry (by decide)

theorem length_efiDirSector : (dirSector efiDirEntries).length = bs :=
  length_dirSector length_efiDirEntry (by decide)

theorem length_bootDirSector (size : Nat) : (dirSector (bootDirEntries size)).length = bs :=
  length_dirSector (length_bootDirEntry size) (by simp [bootDirEntries])

theorem fileClusters_le {efi : Bytes} (h : efi.length ≤ capacity) :
    fileClusters efi ≤ 67549 := by
  simp only [fileClusters, divCeil, bs, capacity] at *
  omega

theorem length_fatTable (efi : Bytes) : (fatTable efi).length = 4 * (5 + fileClusters efi) :=
  length_fatBytes _ _

/-- The ten regions fit, in ascending order: this is where the capacity bound
comes from. -/
theorem diskRegions_placed {efi : Bytes} (h : efi.length ≤ capacity) :
    Placed imgLen 0 (diskRegions efi) := by
  have hn := fileClusters_le h
  simp only [diskRegions, Placed, Region.stop, length_bootSector, length_fsinfoSector,
    length_fatTable, length_rootSector, length_efiDirSector, length_bootDirSector]
  simp only [capacity] at h
  simp only [fatOff, clusOff, imgLen, totalSec, dataStart, rsvdSec, numFats, fatSec, rootClus,
    efiDirClus, bootDirClus, fileStartClus, bs]
  omega

theorem length_diskImage {efi : Bytes} (h : efi.length ≤ capacity) :
    (diskImage efi).length = imgLen := by
  rw [diskImage, length_render (diskRegions_placed h), Nat.sub_zero]

/-- A sector writer run on a sector no region has reached yet adds a region. -/
theorem withSlice_render (rs : List (Region UInt8)) {m : BufM PUnit} {s : Bytes} {lo hi : Nat}
    (hlo : lo + bs = hi) (hs : s.length = bs) (hm : Returns m (List.replicate bs 0) ⟨⟩ s)
    (h : Placed imgLen 0 (rs ++ [⟨lo, s⟩])) :
    Returns (withSlice lo hi m) (render 0 imgLen 0 rs) ⟨⟩
      (render 0 imgLen 0 (rs ++ [⟨lo, s⟩])) := by
  have hbound := (h.mem (List.mem_append_right rs (List.mem_singleton_self _))).2
  rw [Region.stop, hs] at hbound
  have hlen : (render 0 imgLen 0 rs).length = imgLen := by
    rw [length_render h.of_append, Nat.sub_zero]
  have hzero : slice (render (0 : UInt8) imgLen 0 rs) lo (hi - lo) = List.replicate bs 0 := by
    rw [show hi - lo = bs by omega]
    exact slice_render_gap h.of_append hbound fun r hr => Or.inr (h.stop_le hr)
  rw [← splice_render h, Nat.sub_zero]
  refine withSlice_returns (by omega) (by simp only at hbound; omega) ?_
  rw [hzero]
  exact hm

/-- A writer whose effect is one write after all regions adds a region. -/
theorem returns_render (rs : List (Region UInt8)) {m : BufM PUnit} {off : Nat} {s : Bytes}
    (h : Placed imgLen 0 (rs ++ [⟨off, s⟩]))
    (hm : ∀ img : Bytes, img.length = imgLen → Returns m img ⟨⟩ (splice img off s)) :
    Returns m (render 0 imgLen 0 rs) ⟨⟩ (render 0 imgLen 0 (rs ++ [⟨off, s⟩])) := by
  rw [← splice_render h, Nat.sub_zero]
  exact hm _ (by rw [length_render h.of_append, Nat.sub_zero])

theorem writeFat_render (rs : List (Region UInt8)) {efi : Bytes} (hcap : efi.length ≤ capacity)
    (h : Placed imgLen 0 (rs ++ [⟨fatOff 0, fatTable efi⟩] ++ [⟨fatOff 1, fatTable efi⟩])) :
    Returns (writeFat efi.length) (render 0 imgLen 0 rs) ⟨⟩
      (render 0 imgLen 0 (rs ++ [⟨fatOff 0, fatTable efi⟩] ++ [⟨fatOff 1, fatTable efi⟩])) := by
  have hn := fileClusters_le hcap
  have hu : u32 (divCeil efi.length bs) = fileClusters efi := u32_of_lt (by
    rw [show divCeil efi.length bs = fileClusters efi from rfl]; omega)
  have hlen : (render (0 : UInt8) imgLen 0 rs).length = imgLen := by
    rw [length_render h.of_append.of_append, Nat.sub_zero]
  have hfit : 4 * (5 + u32 (divCeil efi.length bs)) ≤ fatLen := by
    rw [hu]
    simp only [fatLen, fatSec, bs]
    omega
  have hw := writeFat_returns hlen hfit
  rw [hu] at hw
  have h₀ := splice_render (z := 0) h.of_append
  have h₁ := splice_render (z := 0) h
  rw [Nat.sub_zero] at h₀ h₁
  rw [← h₁, ← h₀]
  exact hw

theorem zeroImage_eq : zeroImage = render 0 imgLen 0 [] := by
  unfold zeroImage
  rfl

/-- **The image `write_fat32_disk` builds**, for every file that fits. -/
theorem fillImage_returns {efi : Bytes} (h : efi.length ≤ capacity) :
    Returns (fillImage efi) zeroImage ⟨⟩ (diskImage efi) := by
  have hplaced := diskRegions_placed h
  -- the first `k` regions
  have htake : ∀ k, Placed imgLen 0 ((diskRegions efi).take k) := by
    intro k
    rw [← List.take_append_drop k (diskRegions efi)] at hplaced
    exact hplaced.of_append
  have hsize : u32 efi.length = efi.length := u32_of_lt (by simp only [capacity] at h; omega)
  have hclus : ∀ c, 2 ≤ c → c ≤ 4 → ∀ img : Bytes, img.length = imgLen →
      clusOff c + bs ≤ img.length := by
    intro c _ hc img himg
    rw [himg]
    simp only [clusOff, dataStart, rsvdSec, numFats, fatSec, rootClus, bs, imgLen, totalSec]
    omega
  have hboot := withSlice_render [] rfl length_bootSector writeBootSector_returns (htake 1)
  have hfsinfo := withSlice_render ((diskRegions efi).take 1) rfl length_fsinfoSector
    writeFsinfo_returns (htake 2)
  have hboot' := withSlice_render ((diskRegions efi).take 2) rfl length_bootSector
    writeBootSector_returns (htake 3)
  have hfsinfo' := withSlice_render ((diskRegions efi).take 3) rfl length_fsinfoSector
    writeFsinfo_returns (htake 4)
  have hfat := writeFat_render ((diskRegions efi).take 4) h (htake 6)
  have hroot := returns_render ((diskRegions efi).take 6) (htake 7) fun img himg =>
    writeDir_returns length_rootEntry (by decide) (by decide)
      (hclus rootClus (by decide) (by decide) img himg)
  have hefi := returns_render ((diskRegions efi).take 7) (htake 8) fun img himg =>
    writeDir_returns length_efiDirEntry (by decide) (by decide)
      (hclus efiDirClus (by decide) (by decide) img himg)
  have hbootDir := returns_render ((diskRegions efi).take 8) (htake 9) fun img himg =>
    writeDir_returns (length_bootDirEntry efi.length) (by simp [bootDirEntries]) (by decide)
      (hclus bootDirClus (by decide) (by decide) img himg)
  have hfile := returns_render ((diskRegions efi).take 9) (htake 10) fun img himg =>
    writeFileChain_returns
    (by
      rw [himg]
      simp only [capacity] at h
      simp only [clusOff, fileStartClus, dataStart, rsvdSec, numFats, fatSec, rootClus, bs,
        imgLen, totalSec]
      omega)
    (Nat.le_of_eq himg)
  unfold fillImage
  rw [hsize, zeroImage_eq]
  exact hboot.bind <| hfsinfo.bind <| hboot'.bind <| hfsinfo'.bind <| hfat.bind <|
    (rootEntries_returns _).bind <| hroot.bind <| (efiDirEntries_returns _).bind <| hefi.bind <|
    (bootDirEntries_returns _ _).bind <| hbootDir.bind hfile

end MochiVM.Fat
