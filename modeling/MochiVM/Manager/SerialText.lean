import MochiVM.Hv.Serial
import MochiVM.Manager.LossySplit

/-!
# The hypervisor's lines in the console

What the hypervisor prints goes over the line as UTF-8, a carriage return before
every newline, and comes back as the text that `spawn_reader` decodes read by
read. `lines` is `str::lines`, with which the manager looks at that text.

Every string is decoded to itself (`fromUtf8Lossy_utf8`). Lines of ASCII text
come back one by one, whatever the firmware printed before them and wherever the
reads cut the stream (`console_lines`).
-/

namespace MochiVM.Vm

open MochiVM.Buffer MochiVM.Cut MochiVM.Utf8 MochiVM.Serial

/-! ## A character's bytes -/

section Bytes

variable {n m : Nat}

theorem seqLen_ofNat (hn : n < 256) : seqLen (UInt8.ofNat n) =
    if n < 0x80 then 1 else if 0xC2 ≤ n ∧ n ≤ 0xDF then 2 else if 0xE0 ≤ n ∧ n ≤ 0xEF then 3
    else if 0xF0 ≤ n ∧ n ≤ 0xF4 then 4 else 0 := by
  simp [seqLen, UInt8.lt_iff_toNat_lt, UInt8.le_iff_toNat_le, Nat.mod_eq_of_lt hn]

theorem secondOk_ofNat (hn : n < 256) (hm : m < 256) : secondOk (UInt8.ofNat n) (UInt8.ofNat m) =
    if n = 0xE0 then decide (0xA0 ≤ m ∧ m ≤ 0xBF) else if n = 0xED then decide (0x80 ≤ m ∧ m ≤ 0x9F)
    else if n = 0xF0 then decide (0x90 ≤ m ∧ m ≤ 0xBF)
    else if n = 0xF4 then decide (0x80 ≤ m ∧ m ≤ 0x8F) else decide (0x80 ≤ m ∧ m ≤ 0xBF) := by
  simp only [secondOk, ← UInt8.toNat_inj, UInt8.le_iff_toNat_le, UInt8.toNat_ofNat',
    Nat.mod_eq_of_lt hn, Nat.mod_eq_of_lt hm, Bool.decide_and]
  rfl

/-- A whole sequence is taken along. -/
theorem contBytes_whole {b : UInt8} {cont : Bytes} (hlen : cont.length + 1 = seqLen b)
    (hsecond : ∀ c ∈ cont.head?, secondOk b c = true)
    (hcont : ∀ d ∈ cont.tail, (0x80 ≤ d && d ≤ 0xBF) = true) (rest : Bytes) :
    contBytes b (cont ++ rest) = cont := by
  cases cont with
  | nil =>
    cases rest with
    | nil => rfl
    | cons c rest =>
      rw [List.length_nil] at hlen
      rw [List.nil_append, contBytes, ← hlen]
      rfl
  | cons c more =>
    rw [List.length_cons] at hlen
    have hok : (2 ≤ seqLen b && secondOk b c) = true := by
      rw [hsecond c rfl, Bool.and_true, decide_eq_true_eq]
      omega
    have hmore : seqLen b - 2 = more.length := by omega
    rw [List.cons_append, contBytes, if_pos hok, hmore, List.take_left,
      List.takeWhile_eq_self_iff.mpr (by exact hcont)]

end Bytes

/-- The bytes of a character: a first byte, and the continuation that it
announces. -/
structure Encodes (c : Char) (b : UInt8) (cont : Bytes) : Prop where
  bytes : String.utf8EncodeChar c = b :: cont
  length : cont.length + 1 = seqLen b
  second : ∀ d ∈ cont.head?, secondOk b d = true
  tail : ∀ d ∈ cont.tail, (0x80 ≤ d && d ≤ 0xBF) = true
  decode : decodeSeq b cont = c

/-- A continuation byte. -/
theorem isCont_ofNat (n : Nat) :
    (0x80 ≤ UInt8.ofNat (n % 0x40 + 0x80) && UInt8.ofNat (n % 0x40 + 0x80) ≤ 0xBF) = true := by
  have hlt : n % 0x40 + 0x80 < 256 := by omega
  simp only [UInt8.le_iff_toNat_le, UInt8.toNat_ofNat', Nat.mod_eq_of_lt hlt, Bool.and_eq_true,
    decide_eq_true_eq]
  exact ⟨show 128 ≤ _ by omega, show _ ≤ 191 by omega⟩

/-- Its value, from six bits of the continuation at a time. -/
theorem decodeSeq_ofNat {n k : Nat} (hn : n < 256) (hlead : 0x80 ≤ n)
    (hlen : seqLen (UInt8.ofNat n) = k) (cont : List Nat) :
    decodeSeq (UInt8.ofNat n) (cont.map fun d => UInt8.ofNat (d % 0x40 + 0x80)) =
      Char.ofNat (cont.foldl (fun v d => v * 64 + d % 64) (n % 2 ^ (7 - k))) := by
  have hd : ∀ d, (d % 0x40 + 0x80) % 2 ^ 8 % 64 = d % 64 := by omega
  have hnot : ¬ UInt8.ofNat n < 0x80 := by
    rw [UInt8.lt_iff_toNat_lt, UInt8.toNat_ofNat', Nat.mod_eq_of_lt hn]
    exact Nat.not_lt.mpr hlead
  simp only [decodeSeq, if_neg hnot, hlen, List.foldl_map, hd, UInt8.toNat_ofNat',
    Nat.mod_eq_of_lt hn]

/-- **A character** of one to four bytes. -/
theorem encodes_char (c : Char) : ∃ b cont, Encodes c b cont := by
  have hvalid : c.val.toNat < 0xD800 ∨ 0xDFFF < c.val.toNat ∧ c.val.toNat < 0x110000 := c.valid
  have hchar : Char.ofNat c.val.toNat = c := Char.ofNat_toNat c
  have hbytes := String.utf8EncodeChar.eq_1 c
  generalize c.val.toNat = v at hvalid hchar hbytes
  by_cases h₁ : v ≤ 0x7F
  · rw [if_pos h₁] at hbytes
    have hlt : v < 256 := by omega
    have hlow : UInt8.ofNat v < 0x80 := by
      rw [UInt8.lt_iff_toNat_lt, UInt8.toNat_ofNat', Nat.mod_eq_of_lt hlt]
      exact Nat.lt_succ_of_le h₁
    refine ⟨_, _, hbytes, ?_, by simp, by simp, ?_⟩
    · rw [seqLen_ofNat hlt, if_pos (by omega)]
      rfl
    · rw [decodeSeq, if_pos hlow, UInt8.toNat_ofNat', Nat.mod_eq_of_lt hlt]
      exact hchar
  by_cases h₂ : v ≤ 0x7FF
  · rw [if_neg h₁, if_pos h₂] at hbytes
    have hlt : v / 64 % 0x20 + 0xC0 < 256 := by omega
    have hlen : seqLen (UInt8.ofNat (v / 64 % 0x20 + 0xC0)) = 2 := by
      rw [seqLen_ofNat hlt, if_neg (by omega), if_pos (by omega)]
    refine ⟨_, _, hbytes, hlen.symm, ?_, by simp, ?_⟩
    · rintro d ⟨⟩
      rw [secondOk_ofNat hlt (by omega), if_neg (by omega), if_neg (by omega), if_neg (by omega),
        if_neg (by omega), decide_eq_true_eq]
      omega
    · refine (decodeSeq_ofNat hlt (by omega) hlen [v]).trans ?_
      rw [← hchar]
      congr 1
      show (v / 64 % 0x20 + 0xC0) % 32 * 64 + v % 64 = v
      omega
  by_cases h₃ : v ≤ 0xFFFF
  · rw [if_neg h₁, if_neg h₂, if_pos h₃] at hbytes
    have hlt : v / 4096 % 0x10 + 0xE0 < 256 := by omega
    have hlen : seqLen (UInt8.ofNat (v / 4096 % 0x10 + 0xE0)) = 3 := by
      rw [seqLen_ofNat hlt, if_neg (by omega), if_neg (by omega), if_pos (by omega)]
    refine ⟨_, _, hbytes, hlen.symm, ?_, ?_, ?_⟩
    · -- no overlong form, and no surrogate
      rintro d ⟨⟩
      rw [secondOk_ofNat hlt (by omega)]
      split
      · rw [decide_eq_true_eq]
        omega
      · split
        · rw [decide_eq_true_eq]
          omega
        · rw [if_neg (by omega), if_neg (by omega), decide_eq_true_eq]
          omega
    · rintro d hd
      obtain rfl := List.mem_singleton.mp hd
      exact isCont_ofNat v
    · refine (decodeSeq_ofNat hlt (by omega) hlen [v / 64, v]).trans ?_
      rw [← hchar]
      congr 1
      show ((v / 4096 % 0x10 + 0xE0) % 16 * 64 + v / 64 % 64) * 64 + v % 64 = v
      omega
  · rw [if_neg h₁, if_neg h₂, if_neg h₃] at hbytes
    have hlt : v / 262144 % 0x08 + 0xF0 < 256 := by omega
    have hlen : seqLen (UInt8.ofNat (v / 262144 % 0x08 + 0xF0)) = 4 := by
      rw [seqLen_ofNat hlt, if_neg (by omega), if_neg (by omega), if_neg (by omega),
        if_pos (by omega)]
    refine ⟨_, _, hbytes, hlen.symm, ?_, ?_, ?_⟩
    · -- no overlong form, and nothing above the last plane
      rintro d ⟨⟩
      rw [secondOk_ofNat hlt (by omega), if_neg (by omega), if_neg (by omega)]
      split
      · rw [decide_eq_true_eq]
        omega
      · split
        · rw [decide_eq_true_eq]
          omega
        · rw [decide_eq_true_eq]
          omega
    · intro d hd
      rcases List.mem_cons.mp hd with rfl | hd
      · exact isCont_ofNat (v / 64)
      · obtain rfl := List.mem_singleton.mp hd
        exact isCont_ofNat v
    · refine (decodeSeq_ofNat hlt (by omega) hlen [v / 4096, v / 64, v]).trans ?_
      rw [← hchar]
      congr 1
      show (((v / 262144 % 0x08 + 0xF0) % 8 * 64 + v / 4096 % 64) * 64 + v / 64 % 64) * 64 +
        v % 64 = v
      omega

/-! ## A string's bytes -/

theorem units_cons_char (c : Char) (rest : Bytes) :
    units (String.utf8EncodeChar c ++ rest) = String.utf8EncodeChar c :: units rest := by
  obtain ⟨b, cont, h⟩ := encodes_char c
  rw [h.bytes, List.cons_append, units_cons, contBytes_whole h.length h.second h.tail,
    List.drop_left]

theorem decodeUnit_char (c : Char) : decodeUnit (String.utf8EncodeChar c) = c := by
  obtain ⟨b, cont, h⟩ := encodes_char c
  rw [h.bytes, decodeUnit, if_pos h.length, h.decode]

/-- **UTF-8 is decoded to what was encoded**, whatever follows. -/
theorem fromUtf8Lossy_utf8_append (s : String) (rest : Bytes) :
    fromUtf8Lossy (utf8 s ++ rest) = s ++ fromUtf8Lossy rest := by
  have hunits : ∀ cs : List Char, units (cs.flatMap String.utf8EncodeChar ++ rest) =
      cs.map String.utf8EncodeChar ++ units rest := by
    intro cs
    induction cs with
    | nil => rfl
    | cons c cs ih => rw [List.flatMap_cons, List.append_assoc, units_cons_char, ih]; rfl
  rw [fromUtf8Lossy_eq, utf8, hunits, List.map_append, String.ofList_append, fromUtf8Lossy_eq,
    List.map_map]
  have hid : decodeUnit ∘ String.utf8EncodeChar = id := funext decodeUnit_char
  rw [hid, List.map_id, String.ofList_toList]

@[simp] theorem fromUtf8Lossy_nil : fromUtf8Lossy [] = "" := rfl

theorem fromUtf8Lossy_utf8 (s : String) : fromUtf8Lossy (utf8 s) = s := by
  have h := fromUtf8Lossy_utf8_append s []
  rwa [List.append_nil, fromUtf8Lossy_nil, String.append_empty] at h

/-! ## `str::lines` -/

/-- A line without its carriage return. -/
def dropCr (line : List Char) : List Char :=
  if line.getLast? = some '\r' then line.dropLast else line

/-- The lines of a text of which `line` was seen. A text does not begin another
line at its end. -/
def linesFrom (line : List Char) : List Char → List (List Char)
  | [] => if line = [] then [] else [line]
  | c :: rest =>
    if c = '\n' then dropCr line :: linesFrom [] rest else linesFrom (line ++ [c]) rest

/-- `str::lines`. -/
def lines (s : String) : List String := (linesFrom [] s.toList).map String.ofList

theorem linesFrom_line {l : List Char} (h : '\n' ∉ l) (line rest : List Char) :
    linesFrom line (l ++ '\n' :: rest) = dropCr (line ++ l) :: linesFrom [] rest := by
  induction l generalizing line with
  | nil => rw [List.nil_append, linesFrom, if_pos rfl, List.append_nil]
  | cons c l ih =>
    have hc : c ≠ '\n' := fun heq => h (heq ▸ List.mem_cons_self)
    rw [List.cons_append, linesFrom, if_neg hc, ih fun hmem => h (List.mem_cons_of_mem c hmem),
      List.append_assoc]
    rfl

/-- Behind a newline the lines are those of the rest. -/
theorem linesFrom_append (line before rest : List Char) :
    linesFrom line (before ++ '\n' :: rest) =
      linesFrom line (before ++ ['\n']) ++ linesFrom [] rest := by
  induction before generalizing line with
  | nil => rw [List.nil_append, List.nil_append, linesFrom, linesFrom, if_pos rfl, if_pos rfl]; rfl
  | cons c before ih =>
    rw [List.cons_append, List.cons_append, linesFrom, linesFrom]
    by_cases hc : c = '\n'
    · rw [if_pos hc, if_pos hc, ih]
      rfl
    · rw [if_neg hc, if_neg hc, ih]

theorem lines_append {before : String} (h : before = "" ∨ before.toList.getLast? = some '\n')
    (s : String) : lines (before ++ s) = lines before ++ lines s := by
  rcases h with rfl | h
  · rw [String.empty_append]
    rfl
  · obtain ⟨init, hinit⟩ := List.getLast?_eq_some_iff.mp h
    rw [lines, lines, lines, String.toList_append, hinit, List.append_assoc, List.singleton_append,
      linesFrom_append, List.map_append]

/-- Lines as the hypervisor ends them. -/
def terminated (ls : List String) : String := String.join (ls.map fun l => l ++ "\r\n")

/-- **The lines come back**, each without what it was ended with. -/
theorem lines_terminated {ls : List String} (h : ∀ l ∈ ls, '\n' ∉ l.toList) :
    lines (terminated ls) = ls := by
  induction ls with
  | nil => rfl
  | cons l ls ih =>
    have hl : '\n' ∉ l.toList ++ ['\r'] := by
      simpa using h l List.mem_cons_self
    have hrest := ih fun l' hl' => h l' (List.mem_cons_of_mem l hl')
    have hcr : dropCr ([] ++ (l.toList ++ ['\r'])) = l.toList := by
      rw [List.nil_append, dropCr, if_pos (List.getLast?_concat ..), List.dropLast_concat]
    have htext : (terminated (l :: ls)).toList =
        (l.toList ++ ['\r']) ++ '\n' :: (terminated ls).toList := by
      rw [terminated, List.map_cons, String.join_cons, String.toList_append, String.toList_append]
      simp [terminated]
    rw [lines, htext, linesFrom_line hl, hcr, List.map_cons, String.ofList_toList, ← lines, hrest]

/-! ## What goes over the line -/

/-- Continuation bytes have the high bit. -/
theorem Encodes.cont_high {c : Char} {b : UInt8} {cont : Bytes} (h : Encodes c b cont) {d : UInt8}
    (hd : d ∈ cont) : 0x80 ≤ d := by
  cases cont with
  | nil => exact absurd hd List.not_mem_nil
  | cons e more =>
    rcases List.mem_cons.mp hd with rfl | hd
    · exact (secondOk_isCont (h.second d rfl)).1
    · have hrange := h.tail d hd
      rw [Bool.and_eq_true, decide_eq_true_eq] at hrange
      exact hrange.1

/-- A byte below `0x80` is a character of its own. -/
theorem eq_of_mem_char {c : Char} {a : UInt8} (ha : a < 0x80)
    (h : a ∈ String.utf8EncodeChar c) : c = Char.ofNat a.toNat := by
  obtain ⟨b, cont, henc⟩ := encodes_char c
  rw [henc.bytes] at h
  rcases List.mem_cons.mp h with rfl | h
  · have hone : seqLen a = 1 := if_pos ha
    have hnil : cont = [] := List.eq_nil_of_length_eq_zero (by have := henc.length; omega)
    rw [← henc.decode, decodeSeq, if_pos ha, hnil]
    rfl
  · exact absurd (henc.cont_high h) (UInt8.not_le.mpr ha)

/-- A text without a newline goes over the line as it is. -/
theorem crlf_utf8 {s : String} (h : '\n' ∉ s.toList) : crlf (utf8 s) = utf8 s := by
  have hno : ∀ b ∈ utf8 s, b ≠ 0x0A := by
    rintro b hb rfl
    obtain ⟨c, hc, hmem⟩ := List.mem_flatMap.mp hb
    exact h (eq_of_mem_char (by decide) hmem ▸ hc)
  rw [crlf, List.flatMap_congr (g := fun b => [b]) fun b hb => if_neg (hno b hb)]
  exact List.flatMap_singleton' _

theorem encode_eq {ls : List String} (h : ∀ l ∈ ls, '\n' ∉ l.toList) :
    encode ls = utf8 (terminated ls) := by
  have hend : utf8 "\r\n" = [0x0D, 0x0A] := by decide
  rw [terminated, utf8_join, List.flatMap_map, encode]
  refine List.flatMap_congr fun l hl => ?_
  rw [crlf_utf8 (h l hl), utf8_append, hend]

/-! ## Wherever the reads cut -/

/-- A first byte is never taken along with what stands before it. -/
theorem units_append_of_lead {y : Bytes} (hy : ∀ d ∈ y.head?, ¬ IsCont d) (x : Bytes) :
    units (x ++ y) = units x ++ units y := by
  induction hn : x.length using Nat.strongRecOn generalizing x with
  | ind n ih =>
    subst hn
    cases x with
    | nil => rfl
    | cons b x =>
      rcases contBytes_append b x y with heq | ⟨m, hm, -, hxy, hall⟩
      · have hdrop : (x ++ y).drop (contBytes b x).length = x.drop (contBytes b x).length ++ y :=
          List.drop_append_of_le_length (contBytes_length_le b x)
        rw [List.cons_append, units_cons, units_cons, heq, hdrop, ih _ _ _ rfl, List.cons_append]
        rw [List.length_drop, List.length_cons]
        omega
      · -- what was taken along begins `y`
        obtain ⟨y', hy'⟩ := contBytes_initial b (x ++ y)
        rw [hxy, List.append_assoc, List.append_cancel_left_eq] at hy'
        obtain ⟨d, m, rfl⟩ := List.exists_cons_of_ne_nil hm
        exact absurd (hall d List.mem_cons_self) (hy d (hy' ▸ rfl))

/-- Bytes that are characters by themselves. -/
def AsciiBytes (bs : Bytes) : Prop := ∀ b ∈ bs, b < 0x80

theorem fromUtf8Lossy_append_ascii (x : Bytes) {a : Bytes} (ha : AsciiBytes a) :
    fromUtf8Lossy (x ++ a) = fromUtf8Lossy x ++ fromUtf8Lossy a := by
  have hlead : ∀ d ∈ a.head?, ¬ IsCont d := fun d hd hcont =>
    absurd hcont.1 (UInt8.not_le.mpr (ha d (List.mem_of_mem_head? hd)))
  simp only [fromUtf8Lossy_eq, units_append_of_lead hlead, List.map_append, String.ofList_append]

theorem decodedReads_cons (first : Bytes) (reads : List Bytes) :
    decodedReads (first :: reads) = fromUtf8Lossy first ++ decodedReads reads := by
  rw [decodedReads, List.map_cons, String.join_cons, decodedReads]

theorem decodedReads_ascii {reads : List Bytes} (h : AsciiBytes reads.flatten) :
    decodedReads reads = fromUtf8Lossy reads.flatten := by
  induction reads with
  | nil => rfl
  | cons first reads ih =>
    rw [List.flatten_cons] at h
    have hrest : AsciiBytes reads.flatten := fun b hb => h b (List.mem_append_right _ hb)
    rw [decodedReads_cons, ih hrest, List.flatten_cons, fromUtf8Lossy_append_ascii _ hrest]

/-- What follows the firmware's bytes `p` is decoded apart from them. -/
theorem decodedReads_append_ascii {reads : List Bytes} {p a : Bytes} (ha : AsciiBytes a)
    (h : reads.flatten = p ++ a) : ∃ ps : List Bytes, ps.flatten = p ∧
      decodedReads reads = decodedReads ps ++ fromUtf8Lossy a := by
  induction reads generalizing p with
  | nil =>
    obtain ⟨rfl, rfl⟩ := List.append_eq_nil_iff.mp h.symm
    exact ⟨[], rfl, rfl⟩
  | cons first reads ih =>
    rw [List.flatten_cons] at h
    rcases List.append_eq_append_iff.mp h with ⟨p', rfl, hrest⟩ | ⟨a', rfl, rfl⟩
    · obtain ⟨ps, rfl, hps⟩ := ih hrest
      refine ⟨first :: ps, rfl, ?_⟩
      rw [decodedReads_cons, decodedReads_cons, hps, String.append_assoc]
    · -- the read in which the lines begin
      have hfirst : AsciiBytes a' := fun b hb => ha b (List.mem_append_left _ hb)
      have hrest : AsciiBytes reads.flatten := fun b hb => ha b (List.mem_append_right _ hb)
      refine ⟨[p], List.append_nil p, ?_⟩
      rw [decodedReads_cons, fromUtf8Lossy_append_ascii p hfirst, decodedReads_ascii hrest,
        fromUtf8Lossy_append_ascii a' hrest, decodedReads_cons]
      show _ = fromUtf8Lossy p ++ "" ++ _
      rw [String.append_empty, String.append_assoc]

/-- ASCII bytes take nothing along. -/
theorem units_ascii_append {a : Bytes} (ha : AsciiBytes a) (y : Bytes) :
    units (a ++ y) = units a ++ units y := by
  induction a with
  | nil => rfl
  | cons b a ih =>
    have hnone : ∀ l, contBytes b l = [] := fun l => by
      cases l with
      | nil => rfl
      | cons c rest => rw [contBytes, seqLen, if_pos (ha b List.mem_cons_self), if_neg (by simp)]
    rw [List.cons_append, units_cons, units_cons, hnone, hnone, List.length_nil, List.drop_zero,
      List.drop_zero, ih fun d hd => ha d (List.mem_cons_of_mem b hd), List.cons_append]

theorem fromUtf8Lossy_ascii_append {a : Bytes} (ha : AsciiBytes a) (y : Bytes) :
    fromUtf8Lossy (a ++ y) = fromUtf8Lossy a ++ fromUtf8Lossy y := by
  simp only [fromUtf8Lossy_eq, units_ascii_append ha, List.map_append, String.ofList_append]

/-- What follows ASCII bytes is decoded apart from them. -/
theorem decodedReads_ascii_append {reads : List Bytes} {a y : Bytes} (ha : AsciiBytes a)
    (h : reads.flatten = a ++ y) : ∃ qs : List Bytes, qs.flatten = y ∧
      decodedReads reads = fromUtf8Lossy a ++ decodedReads qs := by
  induction reads generalizing a with
  | nil =>
    obtain ⟨rfl, rfl⟩ := List.append_eq_nil_iff.mp h.symm
    exact ⟨[], rfl, rfl⟩
  | cons first reads ih =>
    rw [List.flatten_cons] at h
    rcases List.append_eq_append_iff.mp h with ⟨a', rfl, hrest⟩ | ⟨y', rfl, rfl⟩
    · have ha' : AsciiBytes a' := fun b hb => ha b (List.mem_append_right _ hb)
      obtain ⟨qs, hqs, htext⟩ := ih ha' hrest
      refine ⟨qs, hqs, ?_⟩
      rw [decodedReads_cons, htext, fromUtf8Lossy_append_ascii _ ha', String.append_assoc]
    · refine ⟨y' :: reads, rfl, ?_⟩
      rw [decodedReads_cons, decodedReads_cons, fromUtf8Lossy_ascii_append ha, String.append_assoc]

/-- ASCII bytes in the middle of a stream are decoded apart from both sides. -/
theorem decodedReads_between {reads : List Bytes} {p a y : Bytes} (ha : AsciiBytes a)
    (hne : a ≠ []) (h : reads.flatten = p ++ (a ++ y)) : ∃ ps qs : List Bytes,
      ps.flatten = p ∧ qs.flatten = y ∧
      decodedReads reads = decodedReads ps ++ fromUtf8Lossy a ++ decodedReads qs := by
  induction reads generalizing p with
  | nil =>
    obtain ⟨-, hnil⟩ := List.append_eq_nil_iff.mp h.symm
    exact absurd (List.append_eq_nil_iff.mp hnil).1 hne
  | cons first reads ih =>
    rw [List.flatten_cons] at h
    rcases List.append_eq_append_iff.mp h with ⟨p', rfl, hrest⟩ | ⟨a', rfl, hrest⟩
    · obtain ⟨ps, qs, rfl, hqs, htext⟩ := ih hrest
      refine ⟨first :: ps, qs, rfl, hqs, ?_⟩
      rw [decodedReads_cons, decodedReads_cons, htext, String.append_assoc, String.append_assoc,
        String.append_assoc]
    · -- the read in which they begin
      have hp : decodedReads [p] = fromUtf8Lossy p := by
        rw [decodedReads_cons]
        exact String.append_empty
      rcases List.append_eq_append_iff.mp hrest with ⟨y', rfl, rfl⟩ | ⟨a'', rfl, hrest'⟩
      · have hlead : ∀ d ∈ (a ++ y').head?, ¬ IsCont d := by
          obtain ⟨b, a, rfl⟩ := List.exists_cons_of_ne_nil hne
          intro d hd hcont
          obtain rfl : b = d := Option.some.inj hd
          exact absurd hcont.1 (UInt8.not_le.mpr (ha b List.mem_cons_self))
        refine ⟨[p], y' :: reads, List.append_nil p, rfl, ?_⟩
        have hfirst : fromUtf8Lossy (p ++ (a ++ y')) =
            fromUtf8Lossy p ++ fromUtf8Lossy (a ++ y') := by
          simp only [fromUtf8Lossy_eq, units_append_of_lead hlead, List.map_append,
            String.ofList_append]
        rw [decodedReads_cons, hfirst, fromUtf8Lossy_ascii_append ha, hp, decodedReads_cons,
          String.append_assoc, String.append_assoc, String.append_assoc]
      · have ha' : AsciiBytes a' := fun b hb => ha b (List.mem_append_left _ hb)
        have ha'' : AsciiBytes a'' := fun b hb => ha b (List.mem_append_right _ hb)
        obtain ⟨qs, hqs, htext⟩ := decodedReads_ascii_append ha'' hrest'
        refine ⟨[p], qs, List.append_nil p, hqs, ?_⟩
        rw [decodedReads_cons, fromUtf8Lossy_append_ascii p ha', hp, htext,
          fromUtf8Lossy_append_ascii a' ha'', String.append_assoc, String.append_assoc,
          String.append_assoc]

/-- A line of ASCII text. -/
def AsciiLine (l : String) : Prop := ∀ c ∈ l.toList, c.val < 0x80 ∧ c ≠ '\n'

instance (l : String) : Decidable (AsciiLine l) :=
  inferInstanceAs (Decidable (∀ c ∈ l.toList, _))

theorem AsciiLine.append {l l' : String} (h : AsciiLine l) (h' : AsciiLine l') :
    AsciiLine (l ++ l') := by
  intro c hc
  rw [String.toList_append, List.mem_append] at hc
  exact hc.elim (h c) (h' c)

theorem AsciiLine.newline {l : String} (h : AsciiLine l) : '\n' ∉ l.toList := fun hmem =>
  (h _ hmem).2 rfl

theorem utf8_ascii {s : String} (h : ∀ c ∈ s.toList, c.val < 0x80) : AsciiBytes (utf8 s) := by
  rintro b hb
  obtain ⟨c, hc, hmem⟩ := List.mem_flatMap.mp hb
  have hlt : c.val.toNat < 0x80 := UInt32.lt_iff_toNat_lt.mp (h c hc)
  rw [String.utf8EncodeChar.eq_1, if_pos (Nat.le_of_lt_succ hlt), List.mem_singleton] at hmem
  rw [hmem, UInt8.lt_iff_toNat_lt, UInt8.toNat_ofNat', Nat.mod_eq_of_lt (by omega)]
  exact hlt

theorem terminated_ascii {ls : List String} (h : ∀ l ∈ ls, AsciiLine l) :
    AsciiBytes (utf8 (terminated ls)) := by
  refine utf8_ascii fun c hc => ?_
  rw [terminated, String.toList_join, List.flatMap_map, List.mem_flatMap] at hc
  obtain ⟨l, hl, hc⟩ := hc
  rw [String.toList_append, List.mem_append] at hc
  rcases hc with hc | hc
  · exact (h l hl c hc).1
  · have hcrlf : "\r\n".toList = ['\r', '\n'] := rfl
    rw [hcrlf, List.mem_pair] at hc
    rcases hc with rfl | rfl <;> decide

/-- After the firmware's bytes the text is the lines. -/
theorem decodedReads_encode {reads : List Bytes} {p : Bytes} {ls : List String}
    (hls : ∀ l ∈ ls, AsciiLine l) (hreads : reads.flatten = p ++ encode ls) :
    ∃ ps : List Bytes, ps.flatten = p ∧
      decodedReads reads = decodedReads ps ++ terminated ls := by
  rw [encode_eq fun l hl => (hls l hl).newline] at hreads
  obtain ⟨ps, hps, htext⟩ := decodedReads_append_ascii (terminated_ascii hls) hreads
  rw [fromUtf8Lossy_utf8] at htext
  exact ⟨ps, hps, htext⟩

/-- The lines stand in the text also where more follows them. -/
theorem decodedReads_encode_between {reads : List Bytes} {p more : Bytes} {ls : List String}
    (hls : ∀ l ∈ ls, AsciiLine l) (hne : ls ≠ [])
    (hreads : reads.flatten = p ++ encode ls ++ more) :
    ∃ ps qs : List Bytes, ps.flatten = p ∧ qs.flatten = more ∧
      decodedReads reads = decodedReads ps ++ terminated ls ++ decodedReads qs := by
  rw [encode_eq fun l hl => (hls l hl).newline, List.append_assoc] at hreads
  have hbytes : utf8 (terminated ls) ≠ [] := by
    obtain ⟨l, ls, rfl⟩ := List.exists_cons_of_ne_nil hne
    rw [terminated, List.map_cons, String.join_cons, utf8_append, utf8_append]
    simp [show utf8 "\r\n" = [0x0D, 0x0A] by decide]
  obtain ⟨ps, qs, hps, hqs, htext⟩ := decodedReads_between (terminated_ascii hls) hbytes hreads
  rw [fromUtf8Lossy_utf8] at htext
  exact ⟨ps, qs, hps, hqs, htext⟩

/-- A newline at the end is one of the text. -/
theorem decodedReads_newline {ps : List Bytes}
    (hend : ps.flatten = [] ∨ ps.flatten.getLast? = some 0x0A) :
    decodedReads ps = "" ∨ (decodedReads ps).toList.getLast? = some '\n' := by
  rcases hend with hempty | hend
  · left
    rw [decodedReads_ascii (by rw [hempty]; exact fun b hb => absurd hb List.not_mem_nil), hempty]
    rfl
  · right
    obtain ⟨q, hq⟩ := List.getLast?_eq_some_iff.mp hend
    obtain ⟨qs, -, hqs⟩ := decodedReads_append_ascii (a := [0x0A]) (by
      rintro b hb
      obtain rfl := List.mem_singleton.mp hb
      decide) hq
    rw [hqs, String.toList_append]
    exact List.getLast?_concat ..

/-- Behind the firmware's last line `str::lines` finds each of the others. -/
theorem lines_append_terminated {ps : List Bytes} {ls : List String} (hls : ∀ l ∈ ls, AsciiLine l)
    (hend : ps.flatten = [] ∨ ps.flatten.getLast? = some 0x0A) :
    lines (decodedReads ps ++ terminated ls) = lines (decodedReads ps) ++ ls := by
  rw [lines_append (decodedReads_newline hend), lines_terminated fun l hl => (hls l hl).newline]

/-- **The hypervisor's lines in the console**: after the firmware's bytes the
text is those lines, and where the firmware ended its last line, `str::lines`
finds each of them. -/
theorem console_lines {reads : List Bytes} {p : Bytes} {ls : List String}
    (hls : ∀ l ∈ ls, AsciiLine l) (hreads : reads.flatten = p ++ encode ls) :
    ∃ ps : List Bytes, ps.flatten = p ∧ decodedReads reads = decodedReads ps ++ terminated ls ∧
      ((p = [] ∨ p.getLast? = some 0x0A) →
        lines (decodedReads reads) = lines (decodedReads ps) ++ ls) := by
  obtain ⟨ps, rfl, htext⟩ := decodedReads_encode hls hreads
  refine ⟨ps, rfl, htext, fun hend => ?_⟩
  rw [htext, lines_append_terminated hls hend]

/-- Two lines in three reads, after a firmware that ended its own. -/
theorem console_lines_boot : ∃ ps : List Bytes, ps.flatten = [0x42, 0x0D, 0x0A] ∧
    decodedReads [[0x42, 0x0D], [0x0A, 0x68], [0x69, 0x0D, 0x0A, 0x79, 0x0D, 0x0A]] =
      decodedReads ps ++ terminated ["hi", "y"] ∧
    (([0x42, 0x0D, 0x0A] : Bytes) = [] ∨ ([0x42, 0x0D, 0x0A] : Bytes).getLast? = some 0x0A →
      lines (decodedReads [[0x42, 0x0D], [0x0A, 0x68], [0x69, 0x0D, 0x0A, 0x79, 0x0D, 0x0A]]) =
        lines (decodedReads ps) ++ ["hi", "y"]) := by
  have hls : ∀ l ∈ ["hi", "y"], AsciiLine l := by
    simp [AsciiLine]
  have hreads : [[0x42, 0x0D], [0x0A, 0x68], [0x69, 0x0D, 0x0A, 0x79, 0x0D, 0x0A]].flatten =
      [0x42, 0x0D, 0x0A] ++ encode ["hi", "y"] := by decide
  exact console_lines hls hreads

/-- **Any text** that is not cut inside a character comes back line by line. -/
theorem console_unicode {reads : List Bytes} {ls : List String} (hls : ∀ l ∈ ls, '\n' ∉ l.toList)
    (hreads : reads.flatten = encode ls) (hcut : CutsBetweenUnits reads) :
    lines (decodedReads reads) = ls := by
  rcases units_flatten reads with ⟨-, hunits⟩ | ⟨hno, -⟩
  · have htext : decodedReads reads = fromUtf8Lossy reads.flatten := by
      rw [← String.toList_inj, decodedReads_toList, hunits, fromUtf8Lossy_eq, String.toList_ofList]
    rw [htext, hreads, encode_eq hls, fromUtf8Lossy_utf8, lines_terminated hls]
  · exact absurd hcut hno

/-- Two reads, cut after the euro sign. -/
theorem console_unicode_euro :
    lines (decodedReads [[0x61, 0xE2, 0x82, 0xAC], [0x62, 0x0D, 0x0A]]) = ["a€b"] := by
  refine console_unicode (by decide) (by decide) fun done rest hdone => ?_
  rcases done with _ | ⟨r, _ | ⟨r', _ | ⟨r'', done⟩⟩⟩
  · exact boundary_zero _
  · obtain ⟨rfl, -⟩ := List.cons.inj hdone
    exact ⟨[[0x61], [0xE2, 0x82, 0xAC]], [[0x62], [0x0D], [0x0A]], by decide, by decide⟩
  · obtain ⟨rfl, htail⟩ := List.cons.inj hdone
    obtain ⟨rfl, -⟩ := List.cons.inj htail
    exact ⟨_, [], (List.append_nil _).symm, by decide⟩
  · exact absurd (congrArg List.length hdone) (by simp)

end MochiVM.Vm
