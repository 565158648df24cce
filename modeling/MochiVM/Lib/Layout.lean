import MochiVM.Lib.Slice

/-!
# Placed regions

A file image is a list of regions at ascending offsets in a buffer that is
constant elsewhere. `Placed lo total rs` says that the regions fit: each starts
at or after the end of the one before, the first not before `lo`, the last ends
by `total`. `render` is the buffer they describe.

- `splice_render`: writing one more region at the end of the list is `splice`,
  so a program that writes its regions in ascending order renders them;
- `slice_render`: every region reads back as written;
- `getElem?_render_gap`: everything outside the regions is the filler.
-/

namespace MochiVM.Layout

open MochiVM.Slice

universe u

variable {α : Type u}

/-- `data` at offset `off`. -/
structure Region (α : Type u) where
  off : Nat
  data : List α

/-- The end of a region. -/
def Region.stop (r : Region α) : Nat := r.off + r.data.length

/-- The regions fit between `lo` and `total`, in ascending order. -/
def Placed (total : Nat) : Nat → List (Region α) → Prop
  | lo, [] => lo ≤ total
  | lo, r :: rs => lo ≤ r.off ∧ Placed total r.stop rs

/-- The buffer from `lo` to `total` that holds the regions and `z` elsewhere. -/
def render (z : α) (total : Nat) : Nat → List (Region α) → List α
  | lo, [] => List.replicate (total - lo) z
  | lo, r :: rs => List.replicate (r.off - lo) z ++ r.data ++ render z total r.stop rs

variable {z : α} {total lo : Nat} {rs : List (Region α)} {r : Region α}

theorem Placed.le (h : Placed total lo rs) : lo ≤ total := by
  induction rs generalizing lo with
  | nil => exact h
  | cons r rs ih =>
    have h₁ := h.1
    have h₂ := ih h.2
    rw [Region.stop] at h₂
    omega

theorem Placed.of_append {ss : List (Region α)} (h : Placed total lo (rs ++ ss)) :
    Placed total lo rs := by
  induction rs generalizing lo with
  | nil => exact h.le
  | cons r rs ih => exact ⟨h.1, ih h.2⟩

/-- A placed region lies within the bounds. -/
theorem Placed.mem (h : Placed total lo rs) (hr : r ∈ rs) : lo ≤ r.off ∧ r.stop ≤ total := by
  induction rs generalizing lo with
  | nil => cases hr
  | cons s rs ih =>
    rcases List.mem_cons.mp hr with rfl | hr
    · exact ⟨h.1, h.2.le⟩
    · obtain ⟨h₁, h₂⟩ := ih h.2 hr
      have h₃ := h.1
      rw [Region.stop] at h₁
      exact ⟨by omega, h₂⟩

/-- A region placed after others starts after the end of each. -/
theorem Placed.stop_le {s : Region α} (h : Placed total lo (rs ++ [s])) (hr : r ∈ rs) :
    r.stop ≤ s.off := by
  induction rs generalizing lo with
  | nil => cases hr
  | cons t rs ih =>
    rcases List.mem_cons.mp hr with rfl | hr
    · exact (Placed.mem h.2 (List.mem_append_right rs (List.mem_singleton_self s))).1
    · exact ih h.2 hr

theorem length_render (h : Placed total lo rs) :
    (render z total lo rs).length = total - lo := by
  induction rs generalizing lo with
  | nil => simp [render]
  | cons r rs ih =>
    have h₁ := h.1
    have h₂ := h.2.le
    rw [render, List.length_append, List.length_append, List.length_replicate, ih h.2]
    rw [Region.stop] at *
    omega

/-- Writing a region after all the others renders the longer list. -/
theorem splice_render (h : Placed total lo (rs ++ [r])) :
    splice (render z total lo rs) (r.off - lo) r.data = render z total lo (rs ++ [r]) := by
  induction rs generalizing lo with
  | nil =>
    have h₁ := h.1
    have h₂ := h.2.le
    rw [Region.stop] at h₂
    rw [List.nil_append, render, render, render, splice, List.take_replicate,
      List.drop_replicate, Nat.min_eq_left (by omega), Region.stop]
    congr 2
    omega
  | cons s rs ih =>
    have h₁ := h.1
    have h₂ := (Placed.mem h.2 (List.mem_append_right rs (List.mem_singleton_self r))).1
    have hs : s.stop = s.off + s.data.length := rfl
    rw [List.cons_append, render, render, ← ih h.2]
    set pre := List.replicate (s.off - lo) z ++ s.data with hpre
    have hlen : r.off - lo = pre.length + (r.off - s.stop) := by
      rw [hpre, List.length_append, List.length_replicate]
      omega
    rw [hlen, splice, splice, List.take_length_add_append, Nat.add_assoc,
      List.drop_length_add_append]
    simp only [List.append_assoc]

/-- Every region reads back as it was placed. -/
theorem slice_render (h : Placed total lo rs) (hr : r ∈ rs) :
    slice (render z total lo rs) (r.off - lo) r.data.length = r.data := by
  induction rs generalizing lo with
  | nil => cases hr
  | cons s rs ih =>
    have h₁ := h.1
    rw [render]
    rcases List.mem_cons.mp hr with rfl | hr
    · have := slice_middle (List.replicate (r.off - lo) z) r.data (render z total r.stop rs)
      rwa [List.length_replicate] at this
    · have h₂ := (Placed.mem h.2 hr).1
      have hs : s.stop = s.off + s.data.length := rfl
      rw [slice_append_right _ _ _ (by
        rw [List.length_append, List.length_replicate]; omega)]
      rw [show r.off - lo - (List.replicate (s.off - lo) z ++ s.data).length = r.off - s.stop by
        rw [List.length_append, List.length_replicate]; omega]
      exact ih h.2 hr

/-- Outside the regions there is only the filler. -/
theorem getElem?_render_gap (h : Placed total lo rs) {i : Nat} (hlo : lo ≤ i) (hi : i < total)
    (hgap : ∀ r ∈ rs, i < r.off ∨ r.stop ≤ i) : (render z total lo rs)[i - lo]? = some z := by
  induction rs generalizing lo with
  | nil => rw [render, List.getElem?_replicate, if_pos (by omega)]
  | cons s rs ih =>
    have h₁ := h.1
    have hs : s.stop = s.off + s.data.length := rfl
    rw [render, List.append_assoc]
    rcases hgap s List.mem_cons_self with hlt | hge
    · rw [List.getElem?_append_left (by rw [List.length_replicate]; omega),
        List.getElem?_replicate, if_pos (by omega)]
    · rw [List.getElem?_append_right (by rw [List.length_replicate]; omega),
        List.length_replicate, List.getElem?_append_right (by omega),
        show i - lo - (s.off - lo) - s.data.length = i - s.stop by omega]
      exact ih h.2 hge fun r hr => hgap r (List.mem_cons_of_mem s hr)

/-- A stretch outside the regions is constant. -/
theorem slice_render_gap (h : Placed total 0 rs) {i n : Nat} (hn : i + n ≤ total)
    (hgap : ∀ r ∈ rs, i + n ≤ r.off ∨ r.stop ≤ i) :
    slice (render z total 0 rs) i n = List.replicate n z := by
  refine List.ext_getElem? fun j => ?_
  rw [getElem?_slice, List.getElem?_replicate]
  by_cases hj : j < n
  · rw [if_pos hj, if_pos hj]
    have := getElem?_render_gap (z := z) (i := i + j) h (Nat.zero_le _) (by omega) fun r hr =>
      (hgap r hr).imp (fun h => by omega) (fun h => by omega)
    rwa [Nat.sub_zero] at this
  · rw [if_neg hj, if_neg hj]

end MochiVM.Layout
