import MochiVM.Lib.Slice
import MochiVM.Lib.Panic

/-!
# Programs on a mutable byte buffer

The slice operations of Rust on a `&mut [u8]`: each works in place on the
buffer it is handed and stops with a `Panic` where slice indexing would, having
written nothing. A `&mut b[lo..hi]` handed to a callee is `withSlice`.

Two kinds of facts are proved per operation: the run on a buffer it fits
(`*_returns`, `*_aborts`), and its footprint. `Within S m` says that `m`,
whether it returns or panics, changes no byte at an index outside `S` and never
the length; it needs nothing to be known about the buffer's content.
-/

namespace MochiVM.Buffer

open MochiVM.Slice MochiVM.Panic

/-- A byte buffer (`[u8]`, `Vec<u8>`). -/
abbrev Bytes := List UInt8

/-- The panics of the slice operations and of assertions. -/
inductive Panic where
  /-- `index out of bounds`. -/
  | indexOutOfBounds
  /-- `range end index out of range`, or a range that ends before it starts. -/
  | rangeOutOfBounds
  /-- `copy_from_slice: source slice length does not match`. -/
  | lengthMismatch
  /-- A failed `assert!` with its message. -/
  | assertFailed (msg : String)
deriving DecidableEq, Repr

/-- Code that mutates the buffer it is handed and may panic. -/
abbrev BufM := EStateM Panic Bytes

/-- `b[i] = v`. -/
def setByte (i : Nat) (v : UInt8) : BufM PUnit := fun b =>
  if i < b.length then .ok ⟨⟩ (splice b i [v]) else .error .indexOutOfBounds b

/-- `b[lo..hi].copy_from_slice(src)`. -/
def copyFromSlice (lo hi : Nat) (src : Bytes) : BufM PUnit := fun b =>
  if lo ≤ hi ∧ hi ≤ b.length then
    if src.length = hi - lo then .ok ⟨⟩ (splice b lo src) else .error .lengthMismatch b
  else .error .rangeOutOfBounds b

/-- Run `m` on `&mut b[lo..hi]`. -/
def withSlice (lo hi : Nat) (m : BufM PUnit) : BufM PUnit := fun b =>
  if lo ≤ hi ∧ hi ≤ b.length then
    match m (slice b lo (hi - lo)) with
    | .ok a s => .ok a (splice b lo s)
    | .error e s => .error e (splice b lo s)
  else .error .rangeOutOfBounds b

/-- `&data[lo..hi]`, read only. -/
def subSlice (data : Bytes) (lo hi : Nat) : BufM Bytes := fun b =>
  if lo ≤ hi ∧ hi ≤ data.length then .ok (slice data lo (hi - lo)) b
  else .error .rangeOutOfBounds b

/-! ## Runs that fit, and runs that do not -/

theorem copyFromSlice_returns {b : Bytes} {lo hi : Nat} {src : Bytes}
    (hsrc : lo + src.length = hi) (hhi : hi ≤ b.length) :
    Returns (copyFromSlice lo hi src) b ⟨⟩ (splice b lo src) := by
  show copyFromSlice lo hi src b = _
  rw [copyFromSlice, if_pos (by omega), if_pos (by omega)]

theorem copyFromSlice_aborts {b : Bytes} {lo hi : Nat} (src : Bytes) (hhi : b.length < hi) :
    Aborts (copyFromSlice lo hi src) b .rangeOutOfBounds b := by
  show copyFromSlice lo hi src b = _
  rw [copyFromSlice, if_neg (by omega)]

theorem withSlice_returns {b s : Bytes} {lo hi : Nat} {m : BufM PUnit} (hlo : lo ≤ hi)
    (hhi : hi ≤ b.length) (hm : Returns m (slice b lo (hi - lo)) ⟨⟩ s) :
    Returns (withSlice lo hi m) b ⟨⟩ (splice b lo s) := by
  show withSlice lo hi m b = _
  rw [withSlice, if_pos ⟨hlo, hhi⟩, show m (slice b lo (hi - lo)) = .ok ⟨⟩ s from hm]

theorem subSlice_returns (b : Bytes) {data : Bytes} {lo hi : Nat} (hlo : lo ≤ hi)
    (hhi : hi ≤ data.length) :
    Returns (subSlice data lo hi) b (slice data lo (hi - lo)) b := by
  show subSlice data lo hi b = _
  rw [subSlice, if_pos ⟨hlo, hhi⟩]

/-! ## Footprints -/

/-- `t` is `b` with bytes changed at indices in `S` only. -/
def AgreesOutside (S : Nat → Prop) (b t : Bytes) : Prop :=
  t.length = b.length ∧ ∀ i, ¬ S i → t[i]? = b[i]?

/-- `m` changes no byte outside `S`, also when it panics. -/
def Within {α : Type} (S : Nat → Prop) (m : BufM α) : Prop :=
  ∀ b, AgreesOutside S b (finalState (m b))

variable {α β : Type} {S T : Nat → Prop}

theorem AgreesOutside.refl (b : Bytes) : AgreesOutside S b b := ⟨rfl, fun _ _ => rfl⟩

theorem AgreesOutside.trans {b t u : Bytes} (h₁ : AgreesOutside S b t)
    (h₂ : AgreesOutside S t u) : AgreesOutside S b u :=
  ⟨h₂.1.trans h₁.1, fun i hi => (h₂.2 i hi).trans (h₁.2 i hi)⟩

theorem AgreesOutside.slice {b t : Bytes} {off n : Nat} (h : AgreesOutside S b t)
    (hd : ∀ i, off ≤ i → i < off + n → ¬ S i) : slice t off n = slice b off n := by
  refine List.ext_getElem? fun j => ?_
  rw [getElem?_slice, getElem?_slice]
  by_cases hj : j < n
  · rw [if_pos hj, if_pos hj, h.2 _ (hd _ (by omega) (by omega))]
  · rw [if_neg hj, if_neg hj]

theorem agreesOutside_splice {b src : Bytes} {off : Nat} (hfit : off + src.length ≤ b.length)
    (hS : ∀ i, off ≤ i → i < off + src.length → S i) : AgreesOutside S b (splice b off src) := by
  refine ⟨length_splice hfit, fun i hi => ?_⟩
  rw [getElem?_splice hfit, if_neg]
  rintro ⟨h₁, h₂⟩
  exact hi (hS i h₁ h₂)

theorem Within.mono {m : BufM α} (h : Within S m) (hST : ∀ i, S i → T i) : Within T m :=
  fun b => ⟨(h b).1, fun i hi => (h b).2 i fun hs => hi (hST i hs)⟩

theorem Within.pure (a : α) : Within S (Pure.pure a : BufM α) := fun b => AgreesOutside.refl b

theorem Within.bind {m : BufM α} {f : α → BufM β} (hm : Within S m) (hf : ∀ a, Within S (f a)) :
    Within S (m >>= f) := by
  intro b
  have hmb := hm b
  cases h : m b with
  | ok a t =>
    rw [bind_of_returns h]
    rw [h] at hmb
    exact hmb.trans (hf a t)
  | error e t =>
    rw [bind_of_aborts h]
    rwa [h] at hmb

theorem Within.repeatFrom {body : Nat → BufM PUnit} :
    ∀ (k i : Nat), (∀ j, i ≤ j → j < i + k → Within S (body j)) → Within S (repeatFrom body i k)
  | 0, _, _ => Within.pure _
  | k + 1, i, h =>
    (h i (Nat.le_refl i) (by omega)).bind fun _ =>
      Within.repeatFrom k (i + 1) fun j h₁ h₂ => h j (by omega) (by omega)

theorem Within.forRange {body : Nat → BufM PUnit} {lo hi : Nat}
    (h : ∀ j, lo ≤ j → j < hi → Within S (body j)) : Within S (forRange lo hi body) :=
  Within.repeatFrom (hi - lo) lo fun j h₁ h₂ => h j h₁ (by omega)

theorem setByte_within {i : Nat} (v : UInt8) (hS : S i) : Within S (setByte i v) := by
  intro b
  rw [setByte]
  split
  case isTrue h =>
    refine agreesOutside_splice h fun j h₁ h₂ => ?_
    obtain rfl : j = i := by simp only [List.length_singleton] at h₂; omega
    exact hS
  case isFalse => exact AgreesOutside.refl b

theorem copyFromSlice_within {lo hi : Nat} (src : Bytes) (hS : ∀ i, lo ≤ i → i < hi → S i) :
    Within S (copyFromSlice lo hi src) := by
  intro b
  rw [copyFromSlice]
  split
  case isFalse => exact AgreesOutside.refl b
  case isTrue h =>
    split
    case isTrue hsrc =>
      exact agreesOutside_splice (by omega) fun i h₁ h₂ => hS i h₁ (by omega)
    case isFalse => exact AgreesOutside.refl b

theorem subSlice_within (data : Bytes) (lo hi : Nat) : Within S (subSlice data lo hi) := by
  intro b
  rw [subSlice]
  split <;> exact AgreesOutside.refl b

/-- Work on a sub-buffer stays where the sub-buffer stays, moved by its offset. -/
theorem Within.withSlice {m : BufM PUnit} (lo hi : Nat) (hm : Within T m)
    (hS : ∀ i, lo + i < hi → T i → S (lo + i)) : Within S (withSlice lo hi m) := by
  intro b
  rw [Buffer.withSlice]
  split
  case isFalse => exact AgreesOutside.refl b
  case isTrue h =>
    have hlen : (Slice.slice b lo (hi - lo)).length = hi - lo := length_slice (by omega)
    obtain ⟨hlen', hout⟩ := hm (Slice.slice b lo (hi - lo))
    -- both outcomes put the same sub-buffer back
    have key : AgreesOutside S b
        (splice b lo (finalState (m (Slice.slice b lo (hi - lo))))) := by
      have hfit : lo + (finalState (m (Slice.slice b lo (hi - lo)))).length ≤ b.length := by omega
      refine ⟨length_splice hfit, fun i hi' => ?_⟩
      rw [getElem?_splice hfit]
      split
      case isFalse => rfl
      case isTrue hin =>
        obtain ⟨j, rfl⟩ : ∃ j, i = lo + j := ⟨i - lo, by omega⟩
        rw [Nat.add_sub_cancel_left, hout j fun hT => hi' (hS j (by omega) hT), getElem?_slice,
          if_pos (by omega)]
    cases hr : m (Slice.slice b lo (hi - lo)) with
    | ok a s => rwa [hr] at key
    | error e s => rwa [hr] at key

/-- What stays within a footprint keeps the length of the buffer. -/
theorem Within.keeps {m : BufM α} (h : Within S m) (n : Nat) :
    Keeps (fun b => b.length = n) m :=
  fun b hb => (h b).1.trans hb

end MochiVM.Buffer
