import MochiVM.Lib.Panic
import MochiVM.Lib.Buffer
import MochiVM.Lib.Cut

/-!
# The serial console's log (manager/src/main.rs)

`App::update` appends what `drain_log` returned and then drops the excess over
`LOG_CAP` bytes from the front. The excess is a number of bytes, and
`String::drain` panics where it ends inside a character. `KeepsNewest` is what
trimming is for; `keepsNewest_iff` says on which texts it is achieved: those in
which no character straddles the place `LOG_CAP` bytes before the end.
-/

namespace MochiVM.App

open MochiVM.Panic MochiVM.Buffer MochiVM.Cut

/-- `LOG_CAP` (main.rs:11), in bytes. -/
def logCap : Nat := 250000

/-- Code that works on `self.log`. -/
abbrev LogM := EStateM Panic String

/-! ## The code -/

/-- `self.log.push_str(s)`. -/
def pushStr (s : String) : LogM PUnit := fun log => .ok ⟨⟩ (log ++ s)

/-- `self.log.drain(..n)`. -/
def drainTo (n : Nat) : LogM PUnit := fun log =>
  match dropAt Char.utf8Size log.toList n with
  | some rest => .ok ⟨⟩ (String.ofList rest)
  | none => .error (.assertFailed "self.is_char_boundary(end)") log

/-- What `App::update` (main.rs:201) does with the string `drain_log` returned. -/
def update (chunk : String) : LogM PUnit := do
  if chunk ≠ "" then
    pushStr chunk
    let log ← get
    if logCap < log.utf8ByteSize then
      drainTo (log.utf8ByteSize - logCap)

/-! ## Bytes of a string -/

/-- `s.is_char_boundary(n)`. -/
def CharBoundary (s : String) (n : Nat) : Prop := Boundary Char.utf8Size s.toList n

theorem utf8ByteSize_eq_size (s : String) : s.utf8ByteSize = size Char.utf8Size s.toList := by
  have hlist : ∀ l : List Char, (String.ofList l).utf8ByteSize = size Char.utf8Size l := by
    intro l
    induction l with
    | nil => rfl
    | cons c l ih =>
      rw [size_cons, ← ih, ← List.singleton_append, String.ofList_append,
        String.utf8ByteSize_append]
      congr 1
      exact String.utf8ByteSize_singleton
  rw [← hlist, String.ofList_toList]

theorem charBoundary_append (s t : String) (n : Nat) :
    CharBoundary (s ++ t) (s.utf8ByteSize + n) ↔ CharBoundary t n := by
  rw [CharBoundary, CharBoundary, String.toList_append, utf8ByteSize_eq_size]
  exact boundary_append

/-- The drain removes a front of `n` bytes, where it can. -/
theorem drainTo_spec {log : String} {n : Nat} (h : CharBoundary log n) :
    ∃ front rest, Returns (drainTo n) log ⟨⟩ rest ∧ log = front ++ rest ∧
      front.utf8ByteSize = n := by
  obtain ⟨p, r, hl, hp⟩ := h
  refine ⟨String.ofList p, String.ofList r, ?_, ?_, ?_⟩
  · rw [Returns, drainTo, (dropAt_eq_some Char.utf8Size_pos).mpr ⟨p, hl, hp⟩]
  · rw [← String.ofList_append, ← hl, String.ofList_toList]
  · rw [utf8ByteSize_eq_size, String.toList_ofList, hp]

/-- Elsewhere it panics. -/
theorem drainTo_aborts {log : String} {n : Nat} (h : ¬ CharBoundary log n) :
    ∃ e, Aborts (drainTo n) log e log := by
  refine ⟨.assertFailed "self.is_char_boundary(end)", ?_⟩
  rw [Aborts, drainTo, (dropAt_eq_none Char.utf8Size_pos).mpr h]

/-! ## One chunk -/

/-- Where the code trims, and where it can do so without cutting a character. -/
def TrimOk (log chunk : String) : Prop :=
  chunk ≠ "" → logCap < (log ++ chunk).utf8ByteSize →
    CharBoundary (log ++ chunk) ((log ++ chunk).utf8ByteSize - logCap)

/-- What `update` makes of a log, where it does not panic. -/
structure Trimmed (log chunk new : String) : Prop where
  empty : chunk = "" → new = log
  bounded : chunk ≠ "" → new.utf8ByteSize ≤ logCap
  /-- Only the oldest text goes: what exceeds the cap, and less than a character
  more. -/
  newest : ∃ dropped, log ++ chunk = dropped ++ new ∧
    (dropped ≠ "" → logCap < (log ++ chunk).utf8ByteSize ∧
      dropped.utf8ByteSize < (log ++ chunk).utf8ByteSize - logCap + 4)

theorem update_empty (log : String) : Returns (update "") log ⟨⟩ log := rfl

theorem update_nonempty {chunk : String} (h : chunk ≠ "") (log : String) :
    update chunk log = (if logCap < (log ++ chunk).utf8ByteSize then
      drainTo ((log ++ chunk).utf8ByteSize - logCap) else pure ⟨⟩) (log ++ chunk) := by
  rw [update, if_pos h]
  rfl

/-- A chunk that the log has room for. -/
theorem update_short {log chunk : String} (h : chunk ≠ "")
    (hsize : (log ++ chunk).utf8ByteSize ≤ logCap) :
    Returns (update chunk) log ⟨⟩ (log ++ chunk) := by
  rw [Returns, update_nonempty h, if_neg (Nat.not_lt.mpr hsize)]
  rfl

/-- One that it has not. -/
theorem update_long {log chunk : String} (h : chunk ≠ "")
    (hsize : logCap < (log ++ chunk).utf8ByteSize) :
    update chunk log = drainTo ((log ++ chunk).utf8ByteSize - logCap) (log ++ chunk) := by
  rw [update_nonempty h, if_pos hsize]

/-- The log a chunk leaves, and what the front that went had. -/
theorem update_spec {log chunk : String} (h : TrimOk log chunk) :
    ∃ front new, Returns (update chunk) log ⟨⟩ new ∧ log ++ chunk = front ++ new ∧
      (chunk = "" ∧ front = "" ∨ chunk ≠ "" ∧
        front.utf8ByteSize = (log ++ chunk).utf8ByteSize - logCap) := by
  by_cases hempty : chunk = ""
  · subst hempty
    exact ⟨"", log, update_empty log, by simp, .inl ⟨rfl, rfl⟩⟩
  · by_cases hsize : logCap < (log ++ chunk).utf8ByteSize
    · obtain ⟨front, new, hret, heq, hfront⟩ := drainTo_spec (h hempty hsize)
      exact ⟨front, new, (update_long hempty hsize).trans hret, heq, .inr ⟨hempty, hfront⟩⟩
    · have hle := Nat.not_lt.mp hsize
      refine ⟨"", log ++ chunk, update_short hempty hle, by simp, .inr ⟨hempty, ?_⟩⟩
      rw [Nat.sub_eq_zero_of_le hle]
      rfl

theorem update_aborts {log chunk : String} (h : ¬ TrimOk log chunk) :
    ∃ e t, Aborts (update chunk) log e t := by
  rw [TrimOk, Classical.not_imp, Classical.not_imp] at h
  obtain ⟨hempty, hsize, hcut⟩ := h
  obtain ⟨e, he⟩ := drainTo_aborts hcut
  exact ⟨e, log ++ chunk, (update_long hempty hsize).trans he⟩

theorem trimmed_of_front {log chunk front new : String} (heq : log ++ chunk = front ++ new)
    (hfront : chunk = "" ∧ front = "" ∨ chunk ≠ "" ∧
      front.utf8ByteSize = (log ++ chunk).utf8ByteSize - logCap) : Trimmed log chunk new := by
  have hsize : (log ++ chunk).utf8ByteSize = front.utf8ByteSize + new.utf8ByteSize := by
    rw [heq, String.utf8ByteSize_append]
  rcases hfront with ⟨rfl, rfl⟩ | ⟨hchunk, hfront⟩
  · have hnew : new = log := by simpa using heq.symm
    exact ⟨fun _ => hnew, fun h => absurd rfl h, "", heq, fun h => absurd rfl h⟩
  · refine ⟨fun h => absurd h hchunk, fun _ => by omega, front, heq, fun hne => ?_⟩
    have : front.utf8ByteSize ≠ 0 := fun h => hne (String.utf8ByteSize_eq_zero_iff.mp h)
    exact ⟨by omega, by omega⟩

/-! ## Any number of chunks -/

/-- The calls of `update` for these chunks, on this log, do not panic, and each
keeps the newest output. -/
def KeepsNewest : String → List String → Prop
  | _, [] => True
  | log, chunk :: chunks =>
    ∃ new, Returns (update chunk) log ⟨⟩ new ∧ Trimmed log chunk new ∧ KeepsNewest new chunks

/-- The text as it would be untrimmed. -/
def fullText (log : String) (chunks : List String) : String := chunks.foldl (· ++ ·) log

/-- Whenever a chunk leaves more than `LOG_CAP` bytes of text, untrimmed, no
character straddles the place `LOG_CAP` bytes before the end. -/
def CutsBetweenChars (log : String) (chunks : List String) : Prop :=
  ∀ done chunk rest, chunks = done ++ chunk :: rest → chunk ≠ "" →
    logCap < (fullText log (done ++ [chunk])).utf8ByteSize →
    CharBoundary (fullText log (done ++ [chunk]))
      ((fullText log (done ++ [chunk])).utf8ByteSize - logCap)

theorem cutsBetweenChars_cons (log chunk : String) (chunks : List String) :
    CutsBetweenChars log (chunk :: chunks) ↔
      TrimOk log chunk ∧ CutsBetweenChars (log ++ chunk) chunks := by
  constructor
  · intro h
    exact ⟨h [] chunk chunks rfl,
      fun done c rest heq => h (chunk :: done) c rest (by rw [heq]; rfl)⟩
  · rintro ⟨hfirst, hrest⟩ done c rest heq
    cases done with
    | nil =>
      rw [List.nil_append] at heq
      injection heq with hc _
      subst hc
      exact hfirst
    | cons d done =>
      rw [List.cons_append] at heq
      injection heq with hd heq
      subst hd
      exact hrest done c rest heq

/-- The log is what is left of a text whose front went, to the cap if any of it
did. -/
def Suffix (text log : String) : Prop :=
  ∃ gone, text = gone ++ log ∧ (gone = "" ∨ log.utf8ByteSize = logCap)

theorem utf8ByteSize_pos {s : String} (h : s ≠ "") : 0 < s.utf8ByteSize :=
  Nat.pos_of_ne_zero fun h₀ => h (String.utf8ByteSize_eq_zero_iff.mp h₀)

/-- Trimming the log cuts where trimming the whole text would. -/
theorem Suffix.trimOk_iff {text log : String} (h : Suffix text log) (chunk : String) :
    TrimOk text chunk ↔ TrimOk log chunk := by
  obtain ⟨gone, rfl, hgone⟩ := h
  rw [TrimOk, TrimOk]
  refine imp_congr_right fun hchunk => ?_
  have hpos := utf8ByteSize_pos hchunk
  rcases hgone with rfl | hcap
  · rw [String.empty_append]
  · have hsize : (gone ++ log ++ chunk).utf8ByteSize =
        gone.utf8ByteSize + (log ++ chunk).utf8ByteSize := by
      rw [String.append_assoc, String.utf8ByteSize_append]
    have hlong : logCap < (log ++ chunk).utf8ByteSize := by
      rw [String.utf8ByteSize_append]
      omega
    have hcut : CharBoundary (gone ++ log ++ chunk)
        ((gone ++ log ++ chunk).utf8ByteSize - logCap) ↔
          CharBoundary (log ++ chunk) ((log ++ chunk).utf8ByteSize - logCap) := by
      have hsub : gone.utf8ByteSize + (log ++ chunk).utf8ByteSize - logCap =
          gone.utf8ByteSize + ((log ++ chunk).utf8ByteSize - logCap) := by omega
      rw [hsize, String.append_assoc, hsub, charBoundary_append]
    exact ⟨fun h _ => hcut.mp (h (by omega)), fun h _ => hcut.mpr (h hlong)⟩

theorem Suffix.update {text log chunk front new : String} (h : Suffix text log)
    (heq : log ++ chunk = front ++ new)
    (hfront : chunk = "" ∧ front = "" ∨ chunk ≠ "" ∧
      front.utf8ByteSize = (log ++ chunk).utf8ByteSize - logCap) : Suffix (text ++ chunk) new := by
  obtain ⟨gone, rfl, hgone⟩ := h
  refine ⟨gone ++ front, by rw [String.append_assoc, heq, String.append_assoc], ?_⟩
  have hsize : log.utf8ByteSize + chunk.utf8ByteSize = front.utf8ByteSize + new.utf8ByteSize := by
    rw [← String.utf8ByteSize_append, heq, String.utf8ByteSize_append]
  rw [String.utf8ByteSize_append] at hfront
  rcases hfront with ⟨rfl, rfl⟩ | ⟨hchunk, hfront⟩
  · have hnew : log = new := by simpa using heq
    rwa [String.append_empty, ← hnew]
  · have hpos := utf8ByteSize_pos hchunk
    by_cases hzero : front.utf8ByteSize = 0
    · have hnil := String.utf8ByteSize_eq_zero_iff.mp hzero
      subst hnil
      rcases hgone with rfl | hcap
      · exact .inl rfl
      · omega
    · exact .inr (by omega)

theorem Suffix.keeps_iff {text log : String} (h : Suffix text log) (chunks : List String) :
    KeepsNewest log chunks ↔ CutsBetweenChars text chunks := by
  induction chunks generalizing text log with
  | nil => exact ⟨fun _ done _ _ heq => absurd heq (by simp), fun _ => trivial⟩
  | cons chunk chunks ih =>
    rw [cutsBetweenChars_cons, h.trimOk_iff]
    constructor
    · rintro ⟨new, hret, _, hrest⟩
      have hok : TrimOk log chunk := by
        by_contra hno
        obtain ⟨e, t, ha⟩ := update_aborts hno
        exact hret.not_aborts ha
      obtain ⟨front, new', hret', heq, hfront⟩ := update_spec hok
      obtain ⟨_, rfl⟩ := hret.unique hret'
      exact ⟨hok, (ih (h.update heq hfront)).mp hrest⟩
    · rintro ⟨hok, hrest⟩
      obtain ⟨front, new, hret, heq, hfront⟩ := update_spec hok
      exact ⟨new, hret, trimmed_of_front heq hfront, (ih (h.update heq hfront)).mpr hrest⟩

/-- **Log trimming**: it is safe, and keeps the newest output, exactly when no
character straddles a cut. -/
theorem keepsNewest_iff (log : String) (chunks : List String) :
    KeepsNewest log chunks ↔ CutsBetweenChars log chunks :=
  Suffix.keeps_iff ⟨"", by simp, .inl rfl⟩ chunks

/-- `é`, of two bytes, and 249999 letters. -/
def accented : String := String.ofList ('é' :: List.replicate 249999 'a')

theorem accented_toList : accented.toList = 'é' :: List.replicate 249999 'a' :=
  String.toList_ofList

theorem accented_size : accented.utf8ByteSize = logCap + 1 := by
  have hwide : 'é'.utf8Size = 2 := by decide
  have hnarrow : 'a'.utf8Size = 1 := by decide
  rw [utf8ByteSize_eq_size, accented_toList, size_cons, size_replicate, hwide, hnarrow, logCap]

/-- The cut at byte 1 would divide the `é`: the log panics. -/
theorem not_keepsNewest_accented : ¬ KeepsNewest "" [accented] := by
  intro h
  have hsuffix : Suffix "" "" := ⟨"", by simp, .inl rfl⟩
  have hcut := (hsuffix.keeps_iff [accented]).mp h [] accented [] rfl
  have hfull : fullText "" ([] ++ [accented]) = accented := String.empty_append
  have hne : accented ≠ "" := by
    intro h₀
    have := accented_size
    rw [h₀] at this
    cases this
  rw [hfull, accented_size] at hcut
  have hone := hcut hne (Nat.lt_succ_self _)
  rw [Nat.add_sub_cancel_left, CharBoundary, accented_toList, boundary_cons Nat.one_pos] at hone
  exact absurd hone.1 (by decide)

end MochiVM.App
