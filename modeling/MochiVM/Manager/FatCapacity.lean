import MochiVM.Manager.FatLayout

/-!
# What happens at the capacity of the boot disk

Nothing in fat.rs compares the file's length with the room on the volume. Up to
`capacity` bytes every slice is in range and the FAT writer stays within the
entries of the volume's clusters; one byte more and the last round of the file
loop slices past the end of the image. `writeFat32Disk` then panics where its
caller expects an error, and leaves no file behind.

The FAT bound is a footprint, proved writer by writer: it holds of every image
content and of the runs that panic.
-/

namespace MochiVM.Fat

open MochiVM.Slice MochiVM.Panic MochiVM.Buffer MochiVM.Layout

/-- The last cluster that has a sector in the volume. -/
def lastClus : Nat := rootClus + (totalSec - dataStart) - 1

/-- The bytes of the FAT entries, in either copy, of clusters the volume does
not have. -/
def BeyondVolume (i : Nat) : Prop :=
  ∃ k < numFats, fatOff k + 4 * (lastClus + 1) ≤ i ∧ i < fatOff k + fatLen

/-- Failing cleanly: `write_fat32_disk` returns whatever the file system does, a
file that does not fit gives an error and changes no file, and no FAT entry
beyond the last cluster is written. -/
structure FitsCleanly (efi : Bytes) : Prop where
  returns : ∀ io path files, ∃ r files', Returns (writeFat32Disk io efi path) files r files'
  tooLarge : 67549 * 512 < efi.length → ∀ io path files,
    ∃ e, Returns (writeFat32Disk io efi path) files (.error e) files
  fatBound : ∀ img : Bytes, img.length = imgLen → ∀ i, BeyondVolume i →
    (finalState (fillImage efi img))[i]? = img[i]?

/-! ## Footprints of the writers -/

section Footprints

variable {S : Nat → Prop}

theorem put16_within {off : Nat} (v : Nat) (hS : ∀ i, off ≤ i → i < off + 2 → S i) :
    Within S (put16 off v) :=
  copyFromSlice_within _ hS

theorem put32_within {off : Nat} (v : Nat) (hS : ∀ i, off ≤ i → i < off + 4 → S i) :
    Within S (put32 off v) :=
  copyFromSlice_within _ hS

theorem writeBootSector_within : Within (fun _ => True) writeBootSector := by
  unfold writeBootSector
  repeat' first
    | exact setByte_within _ trivial
    | exact put16_within _ fun _ _ _ => trivial
    | exact put32_within _ fun _ _ _ => trivial
    | exact copyFromSlice_within _ fun _ _ _ => trivial
    | refine Within.bind ?_ fun _ => ?_

theorem writeFsinfo_within : Within (fun _ => True) writeFsinfo := by
  unfold writeFsinfo
  repeat' first
    | exact put32_within _ fun _ _ _ => trivial
    | refine Within.bind ?_ fun _ => ?_

/-- The chain loop writes the four bytes of each entry it reaches; `u32` is what
the offsets wrap to. -/
theorem writeFatCopy_within {n : Nat} (hfirst : ∀ i < 20, S i)
    (hloop : ∀ j < n, ∀ i, u32 (u32 (fileStartClus + j) * 4) ≤ i →
      i < u32 (u32 (fileStartClus + j) * 4) + 4 → S i) :
    Within S (writeFatCopy n) := by
  have hhead : ∀ off v, off + 4 ≤ 20 → Within S (copyFromSlice off (off + 4) (toLE 4 v)) :=
    fun off v h => copyFromSlice_within _ fun i _ hi => hfirst i (by omega)
  refine (hhead 0 _ (by omega)).bind fun _ => (hhead 4 _ (by omega)).bind fun _ =>
    (hhead 8 _ (by omega)).bind fun _ => (hhead 12 _ (by omega)).bind fun _ =>
    (hhead 16 _ (by omega)).bind fun _ => Within.forRange fun j _ hj => ?_
  exact copyFromSlice_within _ (hloop j hj)

theorem writeFat_within {fileLen : Nat} {T : Nat → Prop}
    (hcopy : Within T (writeFatCopy (u32 (divCeil fileLen bs))))
    (hS : ∀ k < numFats, ∀ i, T i → S (fatOff k + i)) : Within S (writeFat fileLen) := by
  refine Within.forRange fun k _ hk => ?_
  refine hcopy.withSlice _ _ fun i _ hT => ?_
  rw [u32_fatOff hk]
  exact hS k hk i hT

theorem entries_within (es : List (Except Panic Bytes)) : Within S (entries es) := by
  intro b
  rw [entries]
  split <;> exact AgreesOutside.refl b

theorem fillDir_within : ∀ (es : List Bytes) (i : Nat), Within (fun _ => True) (fillDir i es)
  | [], _ => Within.pure _
  | _ :: es, i =>
    (copyFromSlice_within _ fun _ _ _ => trivial).bind fun _ => fillDir_within es (i + 1)

/-- A directory writer touches the sector of its cluster, whatever its entries. -/
theorem writeDir_within {c : Nat} (hc : c < 2 ^ 31) (es : List Bytes)
    (hS : ∀ i, clusOff c ≤ i → i < clusOff c + bs → S i) : Within S (writeDir c es) := by
  intro b
  have hbuf : (finalState (fillDir 0 es (List.replicate bs 0))).length = bs :=
    (fillDir_within es 0).keeps bs _ List.length_replicate
  rw [writeDir]
  cases h : fillDir 0 es (List.replicate bs 0) with
  | error p t => exact AgreesOutside.refl b
  | ok a buf =>
    rw [h] at hbuf
    show AgreesOutside S b (finalState (writeCluster c buf b))
    rw [writeCluster, sectorOf_mul_bs hc]
    refine copyFromSlice_within _ ?_ b
    rw [show buf.length = bs from hbuf]
    exact hS

/-- The file loop, `k` rounds in, stays in the data area while cluster numbers
do not wrap. -/
theorem writeFileChainFrom_within {data : Bytes} (hlen : data.length ≤ capacity)
    (hS : ∀ i, clusOff fileStartClus ≤ i → S i) (k : Nat) (hk : k * bs ≤ data.length) :
    Within S (writeFileChainFrom data (k * bs) (fileStartClus + k)) := by
  have hbound : k < 2 ^ 30 := by
    simp only [capacity, bs] at hlen hk
    omega
  have hclus : u32 (fileStartClus + k + 1) = fileStartClus + (k + 1) :=
    u32_of_lt (by simp only [fileStartClus]; omega)
  have hsucc : k * bs + bs = (k + 1) * bs := (Nat.succ_mul k bs).symm
  rw [writeFileChainFrom, sectorOf_mul_bs (by simp only [fileStartClus]; omega), hclus, hsucc]
  refine (subSlice_within _ _ _).bind fun chunk => Within.bind ?_ fun _ => ?_
  · refine copyFromSlice_within _ fun i hi _ => hS i ?_
    rw [clusOff_succ] at hi
    omega
  · split
    case isTrue => exact Within.pure _
    case isFalse hmore => exact writeFileChainFrom_within hlen hS (k + 1) (by omega)
termination_by data.length - k * bs
decreasing_by simp only [bs] at *; omega

end Footprints

/-- **No entry beyond the volume**: with a file that fits, filling the image
leaves every FAT entry past the last cluster as it found it. -/
theorem fillImage_within {efi : Bytes} (h : efi.length ≤ capacity) :
    Within (fun i => ¬ BeyondVolume i) (fillImage efi) := by
  have hn := fileClusters_le h
  have hu : u32 (divCeil efi.length bs) = fileClusters efi := u32_of_lt (by
    rw [show divCeil efi.length bs = fileClusters efi from rfl]; omega)
  -- the reserved sectors lie before both FATs, the data area after them
  have hbefore : ∀ i, i < fatOff 0 → ¬ BeyondVolume i := by
    rintro i hi ⟨k, -, hlo, -⟩
    simp only [fatOff, rsvdSec, fatSec, bs] at hi hlo
    omega
  have hafter : ∀ i, clusOff rootClus ≤ i → ¬ BeyondVolume i := by
    rintro i hi ⟨k, hk, -, hhi⟩
    simp only [clusOff, dataStart, fatOff, fatLen, rsvdSec, numFats, fatSec, rootClus, bs] at *
    omega
  have hsector : ∀ lo hi (m : BufM PUnit), hi ≤ fatOff 0 → Within (fun _ => True) m →
      Within (fun i => ¬ BeyondVolume i) (withSlice lo hi m) := fun lo hi m hhi hm =>
    hm.withSlice lo hi fun i hi' _ => hbefore _ (by omega)
  have hdir : ∀ c es, rootClus ≤ c → c < 2 ^ 31 →
      Within (fun i => ¬ BeyondVolume i) (writeDir c es) := fun c es hc hc' =>
    writeDir_within hc' es fun i hi _ => hafter i (by
      have : clusOff rootClus ≤ clusOff c := Nat.mul_le_mul_right bs (by omega)
      omega)
  -- one FAT is written up to the entry of the last cluster
  have hcopy : Within (fun i => i < 4 * (lastClus + 1)) (writeFatCopy (fileClusters efi)) := by
    refine writeFatCopy_within (fun i hi => ?_) fun j hj i _ hi => ?_
    · show i < 4 * (lastClus + 1)
      simp only [lastClus, rootClus, totalSec, dataStart, rsvdSec, numFats, fatSec]
      omega
    · have hclus : u32 (fileStartClus + j) = 5 + j := u32_of_lt (by
        simp only [fileStartClus]; omega)
      rw [hclus, u32_of_lt (by omega)] at hi
      show i < 4 * (lastClus + 1)
      simp only [lastClus, rootClus, totalSec, dataStart, rsvdSec, numFats, fatSec]
      omega
  have hfat : Within (fun i => ¬ BeyondVolume i) (writeFat efi.length) := by
    refine writeFat_within (by rw [hu]; exact hcopy) ?_
    rintro k hk i hi ⟨k', hk', hlo, hhi⟩
    simp only [lastClus, fatOff, fatLen, rootClus, totalSec, dataStart, rsvdSec, numFats, fatSec,
      bs] at *
    omega
  have hfile : Within (fun i => ¬ BeyondVolume i) (writeFileChain efi) := by
    have hS : ∀ i, clusOff fileStartClus ≤ i → ¬ BeyondVolume i := fun i hi =>
      hafter i (Nat.le_trans (by decide) hi)
    have := writeFileChainFrom_within h hS 0 (by omega)
    rwa [Nat.zero_mul] at this
  unfold fillImage
  exact (hsector _ _ _ (by decide) writeBootSector_within).bind fun _ =>
    (hsector _ _ _ (by decide) writeFsinfo_within).bind fun _ =>
    (hsector _ _ _ (by decide) writeBootSector_within).bind fun _ =>
    (hsector _ _ _ (by decide) writeFsinfo_within).bind fun _ =>
    hfat.bind fun _ => (entries_within _).bind fun _ =>
    (hdir _ _ (by decide) (by decide)).bind fun _ => (entries_within _).bind fun _ =>
    (hdir _ _ (by decide) (by decide)).bind fun _ => (entries_within _).bind fun _ =>
    (hdir _ _ (by decide) (by decide)).bind fun _ => hfile

/-! ## Past the capacity -/

/-- The round at the end of the volume slices past the image; `m` rounds are
left before it. -/
theorem writeFileChainFrom_fails {data : Bytes} (h : capacity < data.length) :
    ∀ m k, k + m = 67549 → Fails (fun img => img.length = imgLen)
      (writeFileChainFrom data (k * bs) (fileStartClus + k)) := by
  intro m
  induction m with
  | zero =>
    intro k hk img himg
    obtain rfl : k = 67549 := hk
    simp only [capacity] at h
    have hle : 67549 * bs ≤ data.length := by simp only [bs]; omega
    have hsub := subSlice_returns img (by omega : 67549 * bs ≤ min (67549 * bs + bs) data.length)
      (Nat.min_le_right _ _)
    rw [slice_min_sub data _ hle] at hsub
    -- cluster 67554 starts at the end of the image, and there is a byte left to write
    have hpos : 0 < (slice data (67549 * bs) bs).length := by
      rw [slice, List.length_take, List.length_drop]
      simp only [bs]
      omega
    have hout : img.length < clusOff (fileStartClus + 67549) +
        (slice data (67549 * bs) bs).length := by
      have : clusOff (fileStartClus + 67549) = imgLen := by decide
      omega
    refine ⟨.rangeOutOfBounds, img, ?_⟩
    show writeFileChainFrom _ _ _ _ = _
    rw [writeFileChainFrom, sectorOf_mul_bs (by decide), bind_of_returns hsub]
    exact (copyFromSlice_aborts _ hout).bind _
  | succ m ih =>
    intro k hk img himg
    simp only [capacity] at h
    have hfull : (k + 1) * bs ≤ 67549 * bs := Nat.mul_le_mul_right bs (by omega)
    have hcap : 67549 * bs < data.length := by simp only [bs]; omega
    have hle : k * bs + bs = (k + 1) * bs := (Nat.succ_mul k bs).symm
    have hchunk : (slice data (k * bs) bs).length = bs := length_slice (by omega)
    have hfit : clusOff (fileStartClus + k) + (slice data (k * bs) bs).length ≤ img.length := by
      have : clusOff fileStartClus + 67549 * bs = imgLen := by decide
      rw [hchunk, clusOff_succ]
      omega
    obtain ⟨e, t, ht⟩ := ih (k + 1) (by omega)
      (splice img (clusOff (fileStartClus + k)) (slice data (k * bs) bs))
      ((length_splice hfit).trans himg)
    refine ⟨e, t, ?_⟩
    show writeFileChainFrom _ _ _ _ = _
    rw [writeFileChainFrom_step (by omega) (by omega) hfit, if_neg (by omega)]
    exact ht

/-- **Past the capacity the image cannot be filled**: whatever the writers
before it do, the file loop panics. -/
theorem fillImage_fails {efi : Bytes} (h : capacity < efi.length) :
    Fails (fun img => img.length = imgLen) (fillImage efi) := by
  have hsector : ∀ lo hi (m : BufM PUnit), Within (fun _ => True) m →
      Keeps (fun img => img.length = imgLen) (withSlice lo hi m) := fun lo hi m hm =>
    (hm.withSlice (S := fun _ => True) lo hi fun _ _ _ => trivial).keeps imgLen
  have hfat : Keeps (fun img => img.length = imgLen) (writeFat efi.length) :=
    (writeFat_within (S := fun _ => True)
      (writeFatCopy_within (S := fun _ => True) (fun _ _ => trivial) fun _ _ _ _ _ => trivial)
      fun _ _ _ _ => trivial).keeps imgLen
  have hdir : ∀ c es, c < 2 ^ 31 → Keeps (fun img => img.length = imgLen) (writeDir c es) :=
    fun c es hc => (writeDir_within (S := fun _ => True) hc es fun _ _ _ => trivial).keeps imgLen
  have hentries : ∀ es, Keeps (fun img => img.length = imgLen) (entries es) := fun es =>
    (entries_within (S := fun _ => True) es).keeps imgLen
  have hfile : Fails (fun img => img.length = imgLen) (writeFileChain efi) := by
    have := writeFileChainFrom_fails h 67549 0 rfl
    rwa [Nat.zero_mul] at this
  unfold fillImage
  exact .after (hsector _ _ _ writeBootSector_within) fun _ =>
    .after (hsector _ _ _ writeFsinfo_within) fun _ =>
    .after (hsector _ _ _ writeBootSector_within) fun _ =>
    .after (hsector _ _ _ writeFsinfo_within) fun _ =>
    .after hfat fun _ => .after (hentries _) fun _ =>
    .after (hdir _ _ (by decide)) fun _ => .after (hentries _) fun _ =>
    .after (hdir _ _ (by decide)) fun _ => .after (hentries _) fun _ =>
    .after (hdir _ _ (by decide)) fun _ => hfile

theorem length_zeroImage : zeroImage.length = imgLen := by
  rw [zeroImage_eq, length_render (show Placed imgLen 0 [] from Nat.zero_le _)]
  rfl

/-- **A file that does not fit panics the caller**, before the disk's file is
created. -/
theorem writeFat32Disk_aborts {efi : Bytes} (h : capacity < efi.length) :
    ∃ p, ∀ io path files, Aborts (writeFat32Disk io efi path) files p files := by
  obtain ⟨p, t, ht⟩ := fillImage_fails h zeroImage length_zeroImage
  refine ⟨p, fun io path files => ?_⟩
  show commitImage io path (fillImage efi zeroImage) files = _
  rw [show fillImage efi zeroImage = .error p t from ht]
  rfl

theorem not_fitsCleanly {efi : Bytes} (h : capacity < efi.length) : ¬ FitsCleanly efi := by
  intro hclean
  obtain ⟨p, hp⟩ := writeFat32Disk_aborts h
  obtain ⟨r, files', hr⟩ := hclean.returns .ok "" fun _ => none
  exact hr.not_aborts (hp .ok "" fun _ => none)

/-- **When `write_fat32_disk` fails cleanly**: exactly up to the capacity. -/
theorem writeFat32Disk_fitsCleanly_iff (efi : Bytes) :
    FitsCleanly efi ↔ efi.length ≤ 67549 * 512 := by
  constructor
  · intro hclean
    by_contra hlen
    exact not_fitsCleanly (Nat.lt_of_not_le hlen) hclean
  · intro hlen
    refine ⟨fun io path files => ?_, fun hbig => absurd hlen (Nat.not_le_of_lt hbig), ?_⟩
    · show ∃ r files', commitImage io path (fillImage efi zeroImage) files = .ok r files'
      rw [show fillImage efi zeroImage = .ok ⟨⟩ (diskImage efi) from fillImage_returns hlen]
      cases io with
      | ok => exact ⟨_, _, rfl⟩
      | createFails e => exact ⟨_, _, rfl⟩
      | writeFails n e => exact ⟨_, _, rfl⟩
    · rintro img - i hi
      exact (fillImage_within hlen img).2 i (not_not_intro hi)

/-- One byte over the capacity: `write_fat32_disk` panics. -/
theorem writeFat32Disk_oversized :
    ¬ FitsCleanly (List.replicate (67549 * 512 + 1) 0xAA) :=
  not_fitsCleanly (by rw [List.length_replicate]; exact Nat.lt_succ_self _)

end MochiVM.Fat
