import MochiVM.Manager.FatLayout
import MochiVM.Lib.Chain

/-!
# An independent FAT32 reader, and the round trip of the boot disk

`Volume` reads a FAT32 image the way a driver does: everything it knows comes
from the image bytes. `parseBpb` decodes a boot sector into a `Bpb` (which
carries the facts that make sector arithmetic meaningful), `link` classifies a
FAT entry, `lookup` searches a directory along its chain, and `readFrom` follows
a file's chain while bytes of its size remain.

`readBootFile img sec k` finds `EFI/BOOT/BOOTX64.EFI` from the boot sector at
`sec`, through the `k`-th FAT. The main result is `writeFat32Disk_roundTrip`.
-/

namespace MochiVM.Fat

open MochiVM.Slice MochiVM.Panic MochiVM.Buffer MochiVM.Layout MochiVM.Links

/-! ## The reader -/

/-- The fields of a FAT32 boot sector that locate the FATs and the data area. -/
structure Bpb where
  bytsPerSec : Nat
  secPerClus : Nat
  rsvdSecCnt : Nat
  numFats : Nat
  totSec32 : Nat
  fatSz32 : Nat
  rootClus : Nat
  bytsPerSec_pos : 0 < bytsPerSec
  secPerClus_pos : 0 < secPerClus
deriving DecidableEq

namespace Bpb

variable (p : Bpb)

def clusterBytes : Nat := p.secPerClus * p.bytsPerSec

theorem clusterBytes_pos : 0 < p.clusterBytes := Nat.mul_pos p.secPerClus_pos p.bytsPerSec_pos

/-- First sector of the data area. -/
def firstDataSector : Nat := p.rsvdSecCnt + p.numFats * p.fatSz32

/-- Number of data clusters; they are numbered from 2 on. -/
def clusterCount : Nat := (p.totSec32 - p.firstDataSector) / p.secPerClus

def InRange (c : Nat) : Prop := 2 ≤ c ∧ c < p.clusterCount + 2

instance (c : Nat) : Decidable (p.InRange c) := inferInstanceAs (Decidable (_ ∧ _))

/-- Byte offset of the `k`-th FAT. -/
def fatOffset (k : Nat) : Nat := (p.rsvdSecCnt + k * p.fatSz32) * p.bytsPerSec

/-- Byte offset of cluster `c`. -/
def clusterOffset (c : Nat) : Nat :=
  (p.firstDataSector + (c - 2) * p.secPerClus) * p.bytsPerSec

end Bpb

/-- Decode a boot sector: signature, then the fields; a volume with fewer than
65525 clusters is not FAT32. -/
def parseBpb (sec : Bytes) : Option Bpb :=
  if sec.length = 512 ∧ slice sec 510 2 = [0x55, 0xAA] then
    let bytsPerSec := fromLE (slice sec 11 2)
    let secPerClus := fromLE (slice sec 13 1)
    if h : 0 < bytsPerSec ∧ 0 < secPerClus then
      let p : Bpb :=
        { bytsPerSec, secPerClus
          rsvdSecCnt := fromLE (slice sec 14 2)
          numFats := fromLE (slice sec 16 1)
          totSec32 := fromLE (slice sec 32 4)
          fatSz32 := fromLE (slice sec 36 4)
          rootClus := fromLE (slice sec 44 4)
          bytsPerSec_pos := h.1
          secPerClus_pos := h.2 }
      if 65525 ≤ p.clusterCount then some p else none
    else none
  else none

/-- A decoded directory entry. -/
structure DirEnt where
  name : Bytes
  attr : UInt8
  firstClus : Nat
  size : Nat
deriving DecidableEq

/-- Decode a 32-byte directory entry. -/
def decodeEntry (e : Bytes) : DirEnt where
  name := slice e 0 11
  attr := (slice e 11 1).headD 0
  firstClus := fromLE (slice e 20 2) * 2 ^ 16 + fromLE (slice e 26 2)
  size := fromLE (slice e 28 4)

def DirEnt.isDir (e : DirEnt) : Bool := e.attr &&& 0x10 != 0

/-- Volume label or part of a long name. -/
def DirEnt.isLabel (e : DirEnt) : Bool := e.attr &&& 0x08 != 0

/-- A deleted entry, marked in the first byte of its name. -/
def DirEnt.isDeleted (e : DirEnt) : Bool := e.name.headD 0 == 0xE5

/-- An image with its decoded geometry, read through one of its FATs. -/
structure Volume where
  img : Bytes
  bpb : Bpb
  fatNo : Nat

namespace Volume

variable (v : Volume)

/-- The 28-bit entry of cluster `c`; `none` past the end of the image. -/
def fatEntry (c : Nat) : Option Nat :=
  let w := slice v.img (v.bpb.fatOffset v.fatNo + 4 * c) 4
  if w.length = 4 then some (fromLE w % 2 ^ 28) else none

/-- What the FAT says about cluster `c`. -/
def link (c : Nat) : Link :=
  match v.fatEntry c with
  | none => .bad
  | some x =>
    if x = 0 then .free
    else if 0x0FFFFFF8 ≤ x then .stop
    else if v.bpb.InRange x then .to x
    else .bad

/-- The bytes of cluster `c`; `none` out of range or past the end of the image. -/
def clusterData (c : Nat) : Option Bytes :=
  let d := slice v.img (v.bpb.clusterOffset c) v.bpb.clusterBytes
  if v.bpb.InRange c ∧ d.length = v.bpb.clusterBytes then some d else none

/-- The 32-byte entries of a directory cluster. -/
def rows (d : Bytes) : List Bytes := (List.range (d.length / 32)).map fun i => slice d (32 * i) 32

/-- An entry whose name starts with 0 ends the directory. -/
def isEnd (e : Bytes) : Bool := e.headD 0 == 0

/-- The entries of one directory cluster, up to the end mark. -/
def dirEnts (d : Bytes) : List DirEnt := ((rows d).takeWhile fun e => !isEnd e).map decodeEntry

/-- The entries of the directory at cluster `c`, along its chain up to the end
mark. `fuel` bounds the clusters followed. -/
def readDir : Nat → Nat → Option (List DirEnt)
  | 0, _ => none
  | fuel + 1, c => do
    let d ← v.clusterData c
    if (rows d).any isEnd then some (dirEnts d)
    else
      match v.link c with
      | .stop => some (dirEnts d)
      | .to next => (dirEnts d ++ ·) <$> readDir fuel next
      | _ => none

/-- The first entry of that name in the directory at cluster `c`. -/
def lookup (c : Nat) (name : Bytes) : Option DirEnt := do
  let es ← v.readDir (v.bpb.clusterCount + 1) c
  es.find? fun e => e.name == name && !e.isDeleted && !e.isLabel

/-- The file content from cluster `c` on, with `remaining` bytes to go: fails on
a free, reserved or out-of-range cluster, on an end mark before the last needed
cluster, and on a last needed cluster without one. -/
def readFrom (remaining c : Nat) : Option Bytes :=
  if _h : remaining = 0 then some []
  else do
    let d ← v.clusterData c
    if remaining ≤ v.bpb.clusterBytes then
      if v.link c = .stop then some (d.take remaining) else none
    else
      match v.link c with
      | .to next => (d ++ ·) <$> readFrom (remaining - v.bpb.clusterBytes) next
      | _ => none
termination_by remaining
decreasing_by
  have := v.bpb.clusterBytes_pos
  omega

end Volume

/-- Read `EFI/BOOT/BOOTX64.EFI` from an image, starting at the boot sector in
sector `bootSec`, through FAT number `fatNo`. -/
def readBootFile (img : Bytes) (bootSec fatNo : Nat) : Option Bytes := do
  let bpb ← parseBpb (slice img (bootSec * 512) 512)
  guard (fatNo < bpb.numFats)
  let v : Volume := { img, bpb, fatNo }
  let efi ← v.lookup bpb.rootClus (ascii "EFI        ")
  guard efi.isDir
  let boot ← v.lookup efi.firstClus (ascii "BOOT       ")
  guard boot.isDir
  let file ← v.lookup boot.firstClus (ascii "BOOTX64 EFI")
  guard (!file.isDir)
  v.readFrom file.size file.firstClus

/-- What the reader returns, where it finds the three entries. -/
theorem readBootFile_eq {img : Bytes} {bootSec fatNo : Nat} {bpb : Bpb} {efi boot file : DirEnt}
    (hbpb : parseBpb (slice img (bootSec * 512) 512) = some bpb) (hfat : fatNo < bpb.numFats)
    (hefi : (Volume.mk img bpb fatNo).lookup bpb.rootClus (ascii "EFI        ") = some efi)
    (hefiDir : efi.isDir = true)
    (hboot : (Volume.mk img bpb fatNo).lookup efi.firstClus (ascii "BOOT       ") = some boot)
    (hbootDir : boot.isDir = true)
    (hfile : (Volume.mk img bpb fatNo).lookup boot.firstClus (ascii "BOOTX64 EFI") = some file)
    (hfileDir : file.isDir = false) :
    readBootFile img bootSec fatNo =
      (Volume.mk img bpb fatNo).readFrom file.size file.firstClus := by
  rw [readBootFile, hbpb]
  simp [guard, hfat, hefi, hefiDir, hboot, hbootDir, hfile, hfileDir]

/-! ## What the reader sees on the boot disk -/

/-- The geometry every boot disk declares. -/
def diskBpb : Bpb where
  bytsPerSec := bs
  secPerClus := 1
  rsvdSecCnt := rsvdSec
  numFats := numFats
  totSec32 := totalSec
  fatSz32 := fatSec
  rootClus := rootClus
  bytsPerSec_pos := by decide
  secPerClus_pos := by decide

theorem parseBpb_bootSector : parseBpb bootSector = some diskBpb := by decide +kernel

/-- The BPB admits exactly the clusters 2 to 67553. -/
theorem inRange_iff (c : Nat) : diskBpb.InRange c ↔ 2 ≤ c ∧ c ≤ 67553 := by
  have : diskBpb.clusterCount = 67552 := by decide
  rw [Bpb.InRange, this]
  omega

theorem fatOffset_diskBpb (k : Nat) : diskBpb.fatOffset k = fatOff k := rfl

theorem clusterOffset_diskBpb (c : Nat) : diskBpb.clusterOffset c = clusOff c := by
  show (dataStart + (c - rootClus) * 1) * bs = clusOff c
  rw [Nat.mul_one, clusOff]

theorem clusterBytes_diskBpb : diskBpb.clusterBytes = bs := rfl

theorem fatRegion_mem (efi : Bytes) {k : Nat} (hk : k < numFats) :
    ⟨fatOff k, fatTable efi⟩ ∈ diskRegions efi := by
  obtain rfl | rfl : k = 0 ∨ k = 1 := by
    rw [numFats] at hk
    omega
  · simp only [diskRegions, List.mem_cons, true_or, or_true]
  · simp only [diskRegions, List.mem_cons, true_or, or_true]

section Disk

variable {efi : Bytes} (h : efi.length ≤ capacity)
include h

/-- A region of the boot disk reads back. -/
theorem slice_diskImage {off : Nat} {s : Bytes} (hr : ⟨off, s⟩ ∈ diskRegions efi) :
    slice (diskImage efi) off s.length = s := by
  have := slice_render (z := 0) (diskRegions_placed h) hr
  rwa [Nat.sub_zero] at this

/-- A part of a region reads back. -/
theorem slice_diskImage_part {off : Nat} {s : Bytes} (hr : ⟨off, s⟩ ∈ diskRegions efi)
    {i n : Nat} (hn : i + n ≤ s.length) :
    slice (diskImage efi) (off + i) n = slice s i n := by
  rw [← slice_slice _ hn, slice_diskImage h hr]

theorem slice_bootSector {sec : Nat} (hsec : sec = 0 ∨ sec = 6) :
    slice (diskImage efi) (sec * bs) bs = bootSector := by
  have hmem : (⟨sec * bs, bootSector⟩ : Region UInt8) ∈ diskRegions efi := by
    rcases hsec with rfl | rfl
    · rw [Nat.zero_mul]
      exact List.mem_cons_self
    · exact List.mem_cons_of_mem _ (List.mem_cons_of_mem _ List.mem_cons_self)
  have hread := slice_diskImage h hmem
  rwa [length_bootSector] at hread

theorem parseBpb_disk : parseBpb (slice (diskImage efi) 0 bs) = some diskBpb := by
  have hboot := slice_bootSector h (.inl rfl)
  rw [Nat.zero_mul] at hboot
  rw [hboot, parseBpb_bootSector]

theorem slice_fsinfoSector {sec : Nat} (hsec : sec = 1 ∨ sec = 7) :
    slice (diskImage efi) (sec * bs) bs = fsinfoSector := by
  have hmem : (⟨sec * bs, fsinfoSector⟩ : Region UInt8) ∈ diskRegions efi := by
    rcases hsec with rfl | rfl
    · simp only [diskRegions, List.mem_cons, true_or, or_true]
    · simp only [diskRegions, List.mem_cons, true_or, or_true]
  have hread := slice_diskImage h hmem
  rwa [length_fsinfoSector] at hread

theorem slice_rootSector : slice (diskImage efi) (clusOff rootClus) bs = dirSector rootEntries := by
  have hmem : (⟨clusOff rootClus, dirSector rootEntries⟩ : Region UInt8) ∈ diskRegions efi := by
    simp only [diskRegions, List.mem_cons, true_or, or_true]
  have hread := slice_diskImage h hmem
  rwa [length_rootSector] at hread

theorem slice_efiDirSector :
    slice (diskImage efi) (clusOff efiDirClus) bs = dirSector efiDirEntries := by
  have hmem : (⟨clusOff efiDirClus, dirSector efiDirEntries⟩ : Region UInt8) ∈
      diskRegions efi := by
    simp only [diskRegions, List.mem_cons, true_or, or_true]
  have hread := slice_diskImage h hmem
  rwa [length_efiDirSector] at hread

theorem slice_bootDirSector : slice (diskImage efi) (clusOff bootDirClus) bs =
    dirSector (bootDirEntries efi.length) := by
  have hmem : (⟨clusOff bootDirClus, dirSector (bootDirEntries efi.length)⟩ : Region UInt8) ∈
      diskRegions efi := by
    simp only [diskRegions, List.mem_cons, true_or, or_true]
  have hread := slice_diskImage h hmem
  rwa [length_bootDirSector] at hread

/-- Part of the file. -/
theorem slice_file {i n : Nat} (hn : i + n ≤ efi.length) :
    slice (diskImage efi) (clusOff fileStartClus + i) n = slice efi i n := by
  have hmem : (⟨clusOff fileStartClus, efi⟩ : Region UInt8) ∈ diskRegions efi := by
    simp only [diskRegions, List.mem_cons, true_or, or_true]
  exact slice_diskImage_part h hmem hn

/-- A FAT entry in use, in either FAT. -/
theorem slice_fat_used {k c x : Nat} (hk : k < numFats)
    (hx : (fatEntries (fileClusters efi) (fileClusters efi))[c]? = some x) :
    slice (diskImage efi) (fatOff k + 4 * c) 4 = toLE 4 x := by
  have hc : c < 5 + fileClusters efi := by
    have := (List.getElem?_eq_some_iff.mp hx).1
    rwa [length_fatEntries] at this
  rw [slice_diskImage_part h (fatRegion_mem efi hk) (by rw [length_fatTable]; omega)]
  exact slice_flatten length_fatRow (by rw [List.getElem?_map, hx]; rfl)

/-- Past the entries in use, either FAT is zero. -/
theorem slice_fat_tail {k : Nat} (hk : k < numFats) :
    slice (diskImage efi) (fatOff k + 4 * (5 + fileClusters efi))
      (fatLen - 4 * (5 + fileClusters efi)) =
      List.replicate (fatLen - 4 * (5 + fileClusters efi)) 0 := by
  have hn := fileClusters_le h
  have hk' : k = 0 ∨ k = 1 := by
    rw [numFats] at hk
    omega
  refine slice_render_gap (diskRegions_placed h) ?_ ?_
  · simp only [fatOff, fatLen, imgLen, totalSec, rsvdSec, fatSec, bs] at *
    omega
  · simp only [diskRegions, List.mem_cons, List.not_mem_nil, or_false, Region.stop]
    rintro r (rfl | rfl | rfl | rfl | rfl | rfl | rfl | rfl | rfl | rfl) <;>
      simp only [length_bootSector, length_fsinfoSector, length_fatTable, length_rootSector,
        length_efiDirSector, length_bootDirSector] <;>
      simp only [fatOff, fatLen, clusOff, dataStart, rsvdSec, numFats, fatSec, rootClus,
        efiDirClus, bootDirClus, fileStartClus, bs] at * <;>
      omega

/-- A FAT entry past those in use is zero, in either FAT. -/
theorem slice_fat_unused {k c : Nat} (hk : k < numFats) (hc : 5 + fileClusters efi ≤ c)
    (hc' : 4 * c + 4 ≤ fatLen) :
    slice (diskImage efi) (fatOff k + 4 * c) 4 = List.replicate 4 0 := by
  have hfit : 4 * c - 4 * (5 + fileClusters efi) + 4 ≤ fatLen - 4 * (5 + fileClusters efi) := by
    omega
  have hoff : fatOff k + 4 * c =
      fatOff k + 4 * (5 + fileClusters efi) + (4 * c - 4 * (5 + fileClusters efi)) := by
    omega
  rw [hoff, ← slice_slice _ hfit, slice_fat_tail h hk, slice_replicate 0 hfit]

/-- **The two FATs are the same bytes.** -/
theorem slice_fat {k : Nat} (hk : k < numFats) : slice (diskImage efi) (fatOff k) fatLen =
    fatTable efi ++ List.replicate (fatLen - 4 * (5 + fileClusters efi)) 0 := by
  have hn := fileClusters_le h
  have hsplit : fatLen = 4 * (5 + fileClusters efi) + (fatLen - 4 * (5 + fileClusters efi)) := by
    simp only [fatLen, fatSec, bs]
    omega
  have hused := slice_diskImage h (fatRegion_mem efi hk)
  rw [length_fatTable] at hused
  conv_lhs => rw [hsplit]
  rw [slice_add, slice_fat_tail h hk, hused]

end Disk

/-! ## Directories -/

/-- A directory sector as a table of 16 rows. -/
theorem dirSector_eq_flatten {es : List Bytes} (hle : es.length ≤ 16) :
    dirSector es = (es ++ List.replicate (16 - es.length) (List.replicate 32 0)).flatten := by
  rw [List.flatten_append, List.flatten_replicate_replicate, dirSector]
  congr 2
  simp only [bs]
  omega

theorem rows_dirSector {es : List Bytes} (he : ∀ e ∈ es, e.length = 32) (hle : es.length ≤ 16) :
    Volume.rows (dirSector es) = es ++ List.replicate (16 - es.length) (List.replicate 32 0) := by
  have hrow : ∀ r ∈ es ++ List.replicate (16 - es.length) (List.replicate 32 (0 : UInt8)),
      r.length = 32 := by
    intro r hr
    rcases List.mem_append.mp hr with hr | hr
    · exact he r hr
    · rw [List.eq_of_mem_replicate hr, List.length_replicate]
  have hcount : (es ++ List.replicate (16 - es.length)
      (List.replicate 32 (0 : UInt8))).length = 16 := by
    rw [List.length_append, List.length_replicate]
    omega
  rw [Volume.rows, length_dirSector he hle, dirSector_eq_flatten hle]
  refine List.ext_getElem? fun i => ?_
  rw [List.getElem?_map]
  by_cases hi : i < 16
  · rw [List.getElem?_range (by simpa [bs] using hi), Option.map_some]
    obtain ⟨r, hr⟩ : ∃ r, (es ++ List.replicate (16 - es.length)
        (List.replicate 32 (0 : UInt8)))[i]? = some r :=
      ⟨_, List.getElem?_eq_getElem (by omega)⟩
    rw [hr, slice_flatten hrow hr]
  · rw [List.getElem?_eq_none (by simpa [bs] using hi), List.getElem?_eq_none (by omega)]
    rfl

/-- What was laid out by `dir_entry` decodes to its arguments. -/
theorem decodeEntry_entryBytes {name : Bytes} {attr : UInt8} {firstClus size : Nat}
    (hname : name.length = 11) (hc : firstClus < 2 ^ 32) (hs : size < 2 ^ 32) :
    decodeEntry (entryBytes name attr firstClus size) = ⟨name, attr, firstClus, size⟩ := by
  have h16 : ∀ x, fromLE (toLE 2 (u16 x)) = x % 2 ^ 16 := by
    intro x
    rw [fromLE_toLE, u16]
    omega
  have hslices : slice (entryBytes name attr firstClus size) 0 11 = name ∧
      slice (entryBytes name attr firstClus size) 11 1 = [attr] ∧
      slice (entryBytes name attr firstClus size) 20 2 = toLE 2 (u16 (firstClus / 2 ^ 16)) ∧
      slice (entryBytes name attr firstClus size) 26 2 = toLE 2 (u16 firstClus) ∧
      slice (entryBytes name attr firstClus size) 28 4 = toLE 4 size := by
    simp [slice, entryBytes, List.drop_append, List.drop_of_length_le, List.take_of_length_le,
      hname]
  obtain ⟨h₁, h₂, h₃, h₄, h₅⟩ := hslices
  rw [decodeEntry, h₁, h₂, h₃, h₄, h₅, h16, h16, fromLE_toLE_of_lt (by simpa using hs)]
  simp only [DirEnt.mk.injEq, List.headD_cons, true_and, and_true]
  omega

/-- The entry of the EFI directory. -/
def efiEnt : DirEnt := ⟨ascii "EFI        ", 0x10, efiDirClus, 0⟩

/-- The entry of the BOOT directory. -/
def bootEnt : DirEnt := ⟨ascii "BOOT       ", 0x10, bootDirClus, 0⟩

/-- The entry of the file. -/
def fileEnt (size : Nat) : DirEnt := ⟨ascii "BOOTX64 EFI", 0x20, fileStartClus, size⟩

/-- The entries of the three directories, decoded. -/
def rootEnts : List DirEnt :=
  [⟨ascii ".          ", 0x10, rootClus, 0⟩, ⟨ascii "..         ", 0x10, rootClus, 0⟩, efiEnt]

def efiDirEnts : List DirEnt :=
  [⟨ascii ".          ", 0x10, efiDirClus, 0⟩, ⟨ascii "..         ", 0x10, rootClus, 0⟩, bootEnt]

def bootDirEnts (size : Nat) : List DirEnt :=
  [⟨ascii ".          ", 0x10, bootDirClus, 0⟩, ⟨ascii "..         ", 0x10, efiDirClus, 0⟩,
   fileEnt size]

theorem fileEnt_isDir (size : Nat) : (fileEnt size).isDir = false := by
  show ((0x20 : UInt8) &&& 0x10 != 0) = false
  decide

theorem fileEnt_isLabel (size : Nat) : (fileEnt size).isLabel = false := by
  show ((0x20 : UInt8) &&& 0x08 != 0) = false
  decide

theorem fileEnt_isDeleted (size : Nat) : (fileEnt size).isDeleted = false := by
  show ((ascii "BOOTX64 EFI").headD 0 == 0xE5) = false
  decide

theorem decode_rootEntries : rootEntries.map decodeEntry = rootEnts := by decide

theorem decode_efiDirEntries : efiDirEntries.map decodeEntry = efiDirEnts := by decide

theorem decode_bootDirEntries {size : Nat} (hs : size < 2 ^ 32) :
    (bootDirEntries size).map decodeEntry = bootDirEnts size := by
  simp only [bootDirEntries, bootDirEnts, fileEnt, List.map_cons, List.map_nil]
  rw [decodeEntry_entryBytes rfl (by decide) (by decide),
    decodeEntry_entryBytes rfl (by decide) (by decide), decodeEntry_entryBytes rfl (by decide) hs]

theorem bootDirEntries_not_end (size : Nat) :
    ∀ e ∈ bootDirEntries size, Volume.isEnd e = false := by
  intro e he
  simp only [bootDirEntries, List.mem_cons, List.not_mem_nil, or_false] at he
  rcases he with rfl | rfl | rfl <;> rfl

/-- The entries of a directory sector with room left. -/
theorem Volume.dirEnts_dirSector {es : List Bytes} (he : ∀ e ∈ es, e.length = 32)
    (hlt : es.length < 16) (hend : ∀ e ∈ es, Volume.isEnd e = false) :
    Volume.dirEnts (dirSector es) = es.map decodeEntry ∧
      (Volume.rows (dirSector es)).any Volume.isEnd = true := by
  have hzero : Volume.isEnd (List.replicate 32 0) = true := rfl
  have hpad : 16 - es.length = (15 - es.length) + 1 := by omega
  rw [Volume.dirEnts, rows_dirSector he (by omega), hpad, List.replicate_succ]
  constructor
  · rw [List.takeWhile_append_of_pos fun e h => by rw [hend e h]; rfl, List.takeWhile_cons, hzero]
    simp
  · rw [List.any_append, List.any_cons, hzero, Bool.true_or, Bool.or_true]

/-- Reading a directory that is one sector with room left. -/
theorem Volume.readDir_dirSector {v : Volume} {c fuel : Nat} {es : List Bytes}
    (he : ∀ e ∈ es, e.length = 32) (hlt : es.length < 16)
    (hend : ∀ e ∈ es, Volume.isEnd e = false) (hd : v.clusterData c = some (dirSector es)) :
    v.readDir (fuel + 1) c = some (es.map decodeEntry) := by
  obtain ⟨hents, hany⟩ := Volume.dirEnts_dirSector he hlt hend
  rw [Volume.readDir, hd]
  simp only [Option.bind_eq_bind, Option.bind_some]
  rw [hany, hents]
  rfl

/-! ## The volume of the boot disk -/

/-- The boot disk, read through FAT `k`. -/
def diskVolume (efi : Bytes) (k : Nat) : Volume := ⟨diskImage efi, diskBpb, k⟩

/-- The entries in use fit in 28 bits. -/
theorem fatEntries_lt {n i x : Nat} (hn : n ≤ 67549) (hi : i ≤ n) (hx : x ∈ fatEntries n i) :
    x < 2 ^ 28 := by
  rcases List.mem_append.mp hx with hx | hx
  · simp only [List.mem_cons, List.not_mem_nil, or_false, eoc] at hx
    omega
  · obtain ⟨j, hj, rfl⟩ := List.mem_map.mp hx
    rw [List.mem_range] at hj
    rw [chainEntry]
    split
    · decide
    · rw [fileStartClus]
      omega

theorem getElem?_fatEntries_file {n j : Nat} (hj : j < n) :
    (fatEntries n n)[fileStartClus + j]? = some (chainEntry n j) := by
  rw [fatEntries, List.getElem?_append_right (by simp [fileStartClus]), List.getElem?_map,
    List.getElem?_range (by simpa [fileStartClus] using hj)]
  simp [fileStartClus]

section Volume

variable {efi : Bytes} (h : efi.length ≤ capacity) {k : Nat} (hk : k < numFats)
include h hk

theorem fatEntry_used {c x : Nat}
    (hx : (fatEntries (fileClusters efi) (fileClusters efi))[c]? = some x) :
    (diskVolume efi k).fatEntry c = some x := by
  have hlt := fatEntries_lt (fileClusters_le h) (Nat.le_refl _) (List.mem_of_getElem? hx)
  have hread := slice_fat_used h hk hx
  show (if _ then _ else _) = _
  rw [show (diskVolume efi k).bpb.fatOffset (diskVolume efi k).fatNo = fatOff k from rfl,
    show (diskVolume efi k).img = diskImage efi from rfl, hread, if_pos (length_toLE 4 x),
    fromLE_toLE_of_lt (by omega), Nat.mod_eq_of_lt hlt]

theorem fatEntry_unused {c : Nat} (hc : 5 + fileClusters efi ≤ c) (hc' : 4 * c + 4 ≤ fatLen) :
    (diskVolume efi k).fatEntry c = some 0 := by
  have hread := slice_fat_unused h hk hc hc'
  show (if _ then _ else _) = _
  rw [show (diskVolume efi k).bpb.fatOffset (diskVolume efi k).fatNo = fatOff k from rfl,
    show (diskVolume efi k).img = diskImage efi from rfl, hread, if_pos List.length_replicate,
    fromLE_replicate_zero, Nat.zero_mod]

theorem fatEntry_dir {c : Nat} (hc : 2 ≤ c) (hc' : c ≤ 4) :
    (diskVolume efi k).fatEntry c = some eoc := by
  refine fatEntry_used h hk ?_
  rw [fatEntries, List.getElem?_append_left (by simp; omega)]
  obtain rfl | rfl | rfl : c = 2 ∨ c = 3 ∨ c = 4 := by omega
  all_goals rfl

theorem fatEntry_file {j : Nat} (hj : j < fileClusters efi) :
    (diskVolume efi k).fatEntry (fileStartClus + j) = some (chainEntry (fileClusters efi) j) :=
  fatEntry_used h hk (getElem?_fatEntries_file hj)

theorem link_dir {c : Nat} (hc : 2 ≤ c) (hc' : c ≤ 4) : (diskVolume efi k).link c = .stop := by
  rw [Volume.link, fatEntry_dir h hk hc hc']
  rfl

/-- The file's clusters form one ascending chain. -/
theorem link_file {j : Nat} (hj : j < fileClusters efi) :
    (diskVolume efi k).link (fileStartClus + j) =
      if j + 1 = fileClusters efi then .stop else .to (fileStartClus + j + 1) := by
  have hn := fileClusters_le h
  rw [Volume.link, fatEntry_file h hk hj, chainEntry]
  by_cases hlast : j + 1 = fileClusters efi
  · rw [if_pos hlast, if_pos hlast]
    rfl
  · have hrange : diskBpb.InRange (fileStartClus + j + 1) :=
      (inRange_iff _).mpr (by rw [fileStartClus]; omega)
    simp only [if_neg hlast]
    rw [if_neg (by omega), if_neg (by rw [fileStartClus]; omega),
      show (diskVolume efi k).bpb = diskBpb from rfl, if_pos hrange]

omit hk in
theorem clusterData_of_slice {c : Nat} {d : Bytes} (hc : diskBpb.InRange c)
    (hd : slice (diskImage efi) (clusOff c) bs = d) :
    (diskVolume efi k).clusterData c = some d := by
  have hc' := (inRange_iff c).mp hc
  have hlen : d.length = bs := by
    rw [← hd]
    refine length_slice ?_
    rw [length_diskImage h]
    simp only [clusOff, dataStart, rsvdSec, numFats, fatSec, rootClus, bs, imgLen, totalSec]
    omega
  show (if _ then _ else _) = _
  rw [show (diskVolume efi k).bpb = diskBpb from rfl, clusterOffset_diskBpb,
    clusterBytes_diskBpb, show (diskVolume efi k).img = diskImage efi from rfl, hd,
    if_pos ⟨hc, hlen⟩]

omit hk in
theorem lookup_efi : (diskVolume efi k).lookup rootClus (ascii "EFI        ") =
    some efiEnt := by
  have hd := clusterData_of_slice h (k := k) (by decide) (slice_rootSector h)
  rw [Volume.lookup, Volume.readDir_dirSector length_rootEntry (by decide) (by decide) hd,
    decode_rootEntries]
  rfl

omit hk in
theorem lookup_boot : (diskVolume efi k).lookup efiDirClus (ascii "BOOT       ") =
    some bootEnt := by
  have hd := clusterData_of_slice h (k := k) (by decide) (slice_efiDirSector h)
  rw [Volume.lookup, Volume.readDir_dirSector length_efiDirEntry (by decide) (by decide) hd,
    decode_efiDirEntries]
  rfl

omit hk in
theorem lookup_file : (diskVolume efi k).lookup bootDirClus (ascii "BOOTX64 EFI") =
    some (fileEnt efi.length) := by
  have hd := clusterData_of_slice h (k := k) (by decide) (slice_bootDirSector h)
  have hsize : efi.length < 2 ^ 32 := by
    simp only [capacity] at h
    omega
  rw [Volume.lookup, Volume.readDir_dirSector (length_bootDirEntry _)
    (by simp [bootDirEntries]) (bootDirEntries_not_end _) hd, decode_bootDirEntries hsize]
  have hhit : ((fileEnt efi.length).name == ascii "BOOTX64 EFI") = true := by
    show (ascii "BOOTX64 EFI" == ascii "BOOTX64 EFI") = true
    decide
  have hdot : (ascii ".          " == ascii "BOOTX64 EFI") = false := by decide
  have hdotdot : (ascii "..         " == ascii "BOOTX64 EFI") = false := by decide
  simp only [Option.bind_eq_bind, Option.bind_some, bootDirEnts, List.find?, hdot, hdotdot, hhit,
    fileEnt_isDeleted, fileEnt_isLabel, Bool.false_and, Bool.true_and, Bool.not_false]

/-- Following the file's chain from its `j`-th cluster reads the rest of the
file: by induction on what is left, one cluster a round. -/
theorem readFrom_file (j : Nat) (hj : j * bs < efi.length) :
    (diskVolume efi k).readFrom (efi.length - j * bs) (fileStartClus + j) =
      some (efi.drop (j * bs)) := by
  have hn := fileClusters_le h
  have hjn : j < fileClusters efi := by
    simp only [fileClusters, divCeil, bs] at *
    omega
  have hlast : j + 1 = fileClusters efi ↔ efi.length - j * bs ≤ bs := by
    simp only [fileClusters, divCeil, bs] at *
    omega
  have hdata := clusterData_of_slice h (k := k)
    ((inRange_iff (fileStartClus + j)).mpr (by rw [fileStartClus]; omega)) rfl
  rw [Volume.readFrom, dif_neg (by omega), hdata]
  simp only [Option.bind_eq_bind, Option.bind_some]
  rw [show (diskVolume efi k).bpb = diskBpb from rfl, clusterBytes_diskBpb, link_file h hk hjn,
    clusOff_succ]
  by_cases hl : efi.length - j * bs ≤ bs
  · -- the last cluster: its slack is cut off
    rw [if_pos hl, if_pos (hlast.mpr hl), if_pos rfl]
    congr 1
    have hcut : (slice (diskImage efi) (clusOff fileStartClus + j * bs) bs).take
        (efi.length - j * bs) =
        slice (diskImage efi) (clusOff fileStartClus + j * bs) (efi.length - j * bs) := by
      rw [slice, slice, List.take_take, Nat.min_eq_left hl]
    rw [hcut, slice_file h (by omega), slice,
      List.take_of_length_le (Nat.le_of_eq List.length_drop)]
  · rw [if_neg hl, if_neg (fun he => hl (hlast.mp he)), slice_file h (by omega)]
    have ih := readFrom_file (j + 1) (by rw [Nat.succ_mul]; omega)
    rw [Nat.succ_mul, ← Nat.sub_sub, ← Nat.add_assoc] at ih
    simp only
    rw [ih, slice, ← List.drop_drop]
    exact congrArg some (List.take_append_drop bs (efi.drop (j * bs)))
termination_by efi.length - j * bs
decreasing_by simp only [bs] at *; omega

/-- **The reader gets the file back**, from either boot sector and either FAT. -/
theorem readBootFile_diskImage {sec : Nat} (hsec : sec = 0 ∨ sec = 6) :
    readBootFile (diskImage efi) sec k = some efi := by
  -- an empty file is read without its cluster
  have hfile : (diskVolume efi k).readFrom efi.length fileStartClus = some efi := by
    by_cases hempty : efi.length = 0
    · rw [Volume.readFrom, dif_pos hempty, List.eq_nil_of_length_eq_zero hempty]
    · have := readFrom_file h hk 0 (by omega)
      simpa using this
  have hbpb : parseBpb (slice (diskImage efi) (sec * 512) 512) = some diskBpb := by
    rw [show slice (diskImage efi) (sec * 512) 512 = bootSector from slice_bootSector h hsec,
      parseBpb_bootSector]
  rw [readBootFile_eq hbpb hk (lookup_efi h) (by decide) (lookup_boot h) (by decide)
    (lookup_file h) (fileEnt_isDir _)]
  exact hfile

end Volume

/-- With a file system that cooperates, a file that fits is written out as
`diskImage`. -/
theorem writeFat32Disk_returns {efi : Bytes} (h : efi.length ≤ capacity) (path : String)
    (files : Files) :
    Returns (writeFat32Disk .ok efi path) files (.ok ⟨⟩) (putFile files path (diskImage efi)) := by
  have hfill : fillImage efi zeroImage = .ok ⟨⟩ (diskImage efi) := fillImage_returns h
  unfold writeFat32Disk
  rw [hfill]
  exact rfl

/-- **Round trip of the boot disk**: for every file that fits, the image that
`write_fat32_disk` leaves at `path` reads back as the file, whichever of the two
boot sectors and FATs the reader uses. -/
theorem writeFat32Disk_roundTrip (efi : Bytes) (h : efi.length ≤ 67549 * 512) (path : String)
    (files : Files) :
    ∃ img, Returns (writeFat32Disk .ok efi path) files (.ok ⟨⟩) (putFile files path img) ∧
      ∀ sec ∈ [0, 6], ∀ k ∈ [0, 1], readBootFile img sec k = some efi := by
  refine ⟨diskImage efi, writeFat32Disk_returns h path files, fun sec hsec k hk => ?_⟩
  · refine readBootFile_diskImage h ?_ (by simpa using hsec)
    simp only [List.mem_cons, List.not_mem_nil, or_false] at hk
    rcases hk with rfl | rfl <;> decide

/-- The round trip of a three-byte file. -/
theorem writeFat32Disk_roundTrip_bytes :
    ∃ img, Returns (writeFat32Disk .ok [0x4D, 0x5A, 0x90] "disk.img") (fun _ => none) (.ok ⟨⟩)
        (putFile (fun _ => none) "disk.img" img) ∧
      ∀ sec ∈ [0, 6], ∀ k ∈ [0, 1], readBootFile img sec k = some [0x4D, 0x5A, 0x90] := by
  have hlen : ([0x4D, 0x5A, 0x90] : Bytes).length ≤ 67549 * 512 := by simp
  exact writeFat32Disk_roundTrip [0x4D, 0x5A, 0x90] hlen "disk.img" fun _ => none

end MochiVM.Fat
