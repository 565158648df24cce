import MochiVM.Lib.Buffer

/-!
# The FAT32 image builder (manager/src/fat.rs)

`write_fat32_disk` allocates a zeroed image, fills it through seven writers and
writes it to a file. Each writer is a `BufM` program: it works in place on the
buffer it is handed and stops with a `Panic` where Rust's slice indexing would,
keeping what was written up to then.

Arithmetic is that of the release profile: `u32` results wrap (`u32`), `usize`
is not exhausted by any buffer length.
-/

namespace MochiVM.Fat

open MochiVM.Slice MochiVM.Panic MochiVM.Buffer

/-- Truncation to `u32` (`as u32`, and wrapping `u32` arithmetic). -/
def u32 (n : Nat) : Nat := n % 2 ^ 32

/-- Truncation to `u16` (`as u16`). -/
def u16 (n : Nat) : Nat := n % 2 ^ 16

/-! ## Geometry (fat.rs:8–21) -/

/-- `BS`: bytes per sector. -/
def bs : Nat := 512

/-- `TOTAL_SEC`: 34MB, sized so that the data clusters reach the FAT32 minimum
with 1-sector clusters. -/
def totalSec : Nat := 69632

def rsvdSec : Nat := 32
def numFats : Nat := 2
def fatSec : Nat := 1024

/-- `DATA_START`: first sector of the data area. -/
def dataStart : Nat := rsvdSec + numFats * fatSec

def rootClus : Nat := 2
def efiDirClus : Nat := 3
def bootDirClus : Nat := 4
def fileStartClus : Nat := 5

/-- `EOC`: the end-of-chain mark. -/
def eoc : Nat := 0x0FFFFFFF

/-- Bytes of the whole image. -/
def imgLen : Nat := totalSec * bs

/-- `vec![0u8; TOTAL_SEC as usize * BS]`; irreducible, so that no proof unrolls
34MB of zeros. -/
@[irreducible] def zeroImage : Bytes := List.replicate imgLen 0

/-! ## Names and directory entries -/

/-- The bytes of an ASCII string literal. -/
def ascii (s : String) : Bytes := s.toList.map fun c => UInt8.ofNat c.toNat

/-- A name padded to 11 bytes; the assertion guards the array bound. -/
def shortName (s : String) : Except Panic Bytes :=
  if (ascii s).length ≤ 11 then .ok (splice (List.replicate 11 (0x20 : UInt8)) 0 (ascii s))
  else .error (.assertFailed s!"short name too long: {s}")

/-- An 8.3 directory-entry name: `NAME[8] + EXT[3]`, no dot. -/
def fat83 (name ext : Bytes) : Bytes :=
  splice (splice (List.replicate 11 (0x20 : UInt8)) 0 name) 8 ext

def put16 (off v : Nat) : BufM PUnit := copyFromSlice off (off + 2) (toLE 2 v)

def put32 (off v : Nat) : BufM PUnit := copyFromSlice off (off + 4) (toLE 4 v)

/-- The body of `dir_entry`, on its zeroed 32-byte array. -/
def fillDirEntry (name : Bytes) (attr : UInt8) (firstClus size : Nat) : BufM PUnit := do
  copyFromSlice 0 11 name
  setByte 11 attr
  put16 20 (u16 (firstClus / 2 ^ 16)) -- FstClusHI
  put16 26 (u16 firstClus) -- FstClusLO
  put32 28 size -- FileSize

/-- `dir_entry` (fat.rs:147). -/
def dirEntry (name : Bytes) (attr : UInt8) (firstClus size : Nat) : Except Panic Bytes :=
  match fillDirEntry name attr firstClus size (List.replicate 32 0) with
  | .ok _ e => .ok e
  | .error p _ => .error p

/-- `dir_entry(short_name(s), attr, first_clus, size)`. -/
def shortEntry (s : String) (attr : UInt8) (firstClus size : Nat) : Except Panic Bytes := do
  dirEntry (← shortName s) attr firstClus size

/-! ## The writers -/

/-- `write_boot_sector` (fat.rs:86), on one sector. -/
def writeBootSector : BufM PUnit := do
  setByte 0 0xEB
  setByte 1 0x3C
  setByte 2 0x90
  copyFromSlice 3 11 (ascii "MOCHIVM ")
  put16 11 512 -- BytsPerSec
  setByte 13 1 -- SecPerClus
  put16 14 (u16 rsvdSec) -- RsvdSecCnt
  setByte 16 2 -- NumFATs
  put16 17 0 -- RootEntCnt (0 for FAT32)
  put16 19 0 -- TotSec16
  setByte 21 0xF8 -- Media
  put16 22 0 -- FATSz16
  put16 24 0x20 -- SecPerTrk
  put16 26 0x02 -- NumHeads
  put32 28 0 -- HiddSec
  put32 32 totalSec -- TotSec32
  put32 36 fatSec -- FATSz32
  put16 40 0 -- ExtFlags
  put16 42 0 -- FSVer
  put32 44 rootClus -- RootClus
  put16 48 1 -- FSInfo
  put16 50 6 -- BkBootSec
  setByte 64 0x80 -- DrvNum
  setByte 66 0x29 -- BootSig
  put32 67 0x12345678 -- VolID
  copyFromSlice 71 82 (ascii "MOCHIVM    ") -- VolLab
  copyFromSlice 82 90 (ascii "FAT32   ") -- FilSysType
  setByte 510 0x55
  setByte 511 0xAA

/-- `write_fsinfo` (fat.rs:118), on one sector. -/
def writeFsinfo : BufM PUnit := do
  put32 0 0x41615252 -- "RRaA"
  put32 484 0x61417272 -- "rrAa"
  put32 488 (totalSec - dataStart) -- free cluster count
  put32 492 fileStartClus -- next free
  put32 508 0xAA550000

/-- One round of the file-chain loop (fat.rs:138–143), on one FAT. -/
def writeChainEntry (nclusters i : Nat) : BufM PUnit :=
  let clus := u32 (fileStartClus + i)
  let next := if i + 1 = nclusters then eoc else u32 (clus + 1)
  let off := u32 (clus * 4)
  copyFromSlice off (off + 4) (toLE 4 next)

/-- The writes of `write_fat` to one FAT (fat.rs:131–143). -/
def writeFatCopy (nclusters : Nat) : BufM PUnit := do
  copyFromSlice 0 4 (toLE 4 0x0FFFFFF8)
  copyFromSlice 4 8 (toLE 4 eoc)
  copyFromSlice 8 12 (toLE 4 eoc) -- clus 2
  copyFromSlice 12 16 (toLE 4 eoc) -- clus 3
  copyFromSlice 16 20 (toLE 4 eoc) -- clus 4
  forRange 0 nclusters (writeChainEntry nclusters)

/-- `usize::div_ceil`. -/
def divCeil (a b : Nat) : Nat := (a + b - 1) / b

/-- `write_fat` (fat.rs:126). -/
def writeFat (fileLen : Nat) : BufM PUnit :=
  let nclusters := u32 (divCeil fileLen bs)
  forRange 0 numFats fun fatIdx =>
    let fatStart := u32 ((rsvdSec + fatIdx * fatSec) * bs)
    withSlice fatStart (fatStart + u32 (fatSec * bs)) (writeFatCopy nclusters)

/-- `sector_of` (fat.rs:186). -/
def sectorOf (clus : Nat) : Nat := u32 (dataStart + (clus - rootClus) * 1)

/-- `write_cluster` (fat.rs:181). -/
def writeCluster (clus : Nat) (data : Bytes) : BufM PUnit :=
  let start := sectorOf clus * bs
  copyFromSlice start (start + data.length) data

/-- The loop of `write_dir` that lays the entries out from the `i`-th on. -/
def fillDir : Nat → List Bytes → BufM PUnit
  | _, [] => pure ⟨⟩
  | i, e :: es => do
    copyFromSlice (i * 32) ((i + 1) * 32) e
    fillDir (i + 1) es

/-- `write_dir` (fat.rs:157). -/
def writeDir (clus : Nat) (entries : List Bytes) : BufM PUnit := fun img =>
  match fillDir 0 entries (List.replicate bs 0) with
  | .ok _ buf => writeCluster clus buf img
  | .error p _ => .error p img

/-- The loop of `write_file_chain` from a given `offset` and `clus` on. -/
def writeFileChainFrom (data : Bytes) (offset clus : Nat) : BufM PUnit := do
  let sec := sectorOf clus
  let start := sec * bs
  let chunk ← subSlice data offset (min (offset + bs) data.length)
  copyFromSlice start (start + chunk.length) chunk
  if _h : data.length ≤ offset + bs then
    pure ⟨⟩
  else
    writeFileChainFrom data (offset + bs) (u32 (clus + 1))
termination_by data.length - offset
decreasing_by simp only [bs] at *; omega

/-- `write_file_chain` (fat.rs:165). -/
def writeFileChain (data : Bytes) : BufM PUnit := writeFileChainFrom data 0 fileStartClus

/-- An array of directory entries built before the call that uses it; a panic in
one of them comes before the callee touches the image. -/
def entries (es : List (Except Panic Bytes)) : BufM (List Bytes) := fun img =>
  match es.mapM id with
  | .ok l => .ok l img
  | .error p => .error p img

/-- The in-memory part of `write_fat32_disk` (fat.rs:41–79). -/
def fillImage (efi : Bytes) : BufM PUnit := do
  withSlice 0 bs writeBootSector
  withSlice (1 * bs) (2 * bs) writeFsinfo
  withSlice (6 * bs) (7 * bs) writeBootSector -- backup boot sector
  withSlice (7 * bs) (8 * bs) writeFsinfo -- backup FSInfo
  writeFat efi.length
  let root ← entries [
    shortEntry "." 0x10 rootClus 0,
    shortEntry ".." 0x10 rootClus 0,
    shortEntry "EFI" 0x10 efiDirClus 0]
  writeDir rootClus root
  let efiDir ← entries [
    shortEntry "." 0x10 efiDirClus 0,
    shortEntry ".." 0x10 rootClus 0,
    shortEntry "BOOT" 0x10 bootDirClus 0]
  writeDir efiDirClus efiDir
  let boot ← entries [
    shortEntry "." 0x10 bootDirClus 0,
    shortEntry ".." 0x10 efiDirClus 0,
    dirEntry (fat83 (ascii "BOOTX64 ") (ascii "EFI")) 0x20 fileStartClus (u32 efi.length)]
  writeDir bootDirClus boot
  writeFileChain efi

/-! ## Writing the file -/

/-- The files of the host, by path. -/
abbrev Files := String → Option Bytes

/-- What the file system answers to `File::create` and `write_all`. -/
inductive DiskIo where
  /-- Both succeed. -/
  | ok
  /-- `File::create` fails with this error; nothing is created or truncated. -/
  | createFails (e : String)
  /-- `write_all` fails with this error after `n` bytes. -/
  | writeFails (n : Nat) (e : String)

/-- The file system with the file at `path` replaced. -/
def putFile (files : Files) (path : String) (content : Bytes) : Files :=
  fun p => if p = path then some content else files p

/-- The end of `write_fat32_disk` (fat.rs:81–83), given how filling the image
went. The image is a local of the function: a panic while filling it leaves the
file system as it was. -/
def commitImage (io : DiskIo) (path : String) (filled : EStateM.Result Panic Bytes PUnit) :
    EStateM Panic Files (Except String PUnit) := fun files =>
  match filled, io with
  | .error p _, _ => .error p files
  | .ok _ img, .ok => .ok (.ok ⟨⟩) (putFile files path img)
  | .ok _ _, .createFails e => .ok (.error s!"failed to write disk image: {e}") files
  | .ok _ img, .writeFails n e =>
    .ok (.error s!"failed to write disk image: {e}") (putFile files path (img.take n))

/-- `write_fat32_disk` (fat.rs:38). -/
def writeFat32Disk (io : DiskIo) (efi : Bytes) (path : String) :
    EStateM Panic Files (Except String PUnit) :=
  commitImage io path (fillImage efi zeroImage)

end MochiVM.Fat
