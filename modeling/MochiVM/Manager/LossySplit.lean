import MochiVM.Manager.VmLog
import MochiVM.Lib.Cut

/-!
# Lossy decoding of a stream that arrives in pieces

`spawn_reader` decodes every read by itself. `from_utf8_lossy` goes through its
bytes in units: a well-formed sequence, or the longest start of one, or a byte
that begins none, and each becomes one character. A read that ends inside a unit
of the stream makes two or more of it. `decodedReads_eq_iff` says exactly when
that does not happen, and `delivered_run` that these reads are what a run of the
system logs.
-/

namespace MochiVM.Vm

open MochiVM.Buffer MochiVM.Cut MochiVM.Fat MochiVM.Runs MochiVM.Panic

/-! ## Units -/

/-- The first `fuel` units. -/
def unitsFrom : Nat → Bytes → List Bytes
  | 0, _ | _, [] => []
  | fuel + 1, b :: rest =>
    (b :: contBytes b rest) :: unitsFrom fuel (rest.drop (contBytes b rest).length)

/-- The units that `from_utf8_lossy` takes the bytes apart into. -/
def units (bs : Bytes) : List Bytes := unitsFrom bs.length bs

/-- The character of a unit. -/
def decodeUnit : Bytes → Char
  | [] => Char.ofNat 0xFFFD
  | b :: cont => if cont.length + 1 = seqLen b then decodeSeq b cont else Char.ofNat 0xFFFD

theorem contBytes_initial (b : UInt8) (l : Bytes) : contBytes b l <+: l := by
  cases l with
  | nil => exact List.nil_prefix
  | cons c rest =>
    rw [contBytes]
    by_cases h : (2 ≤ seqLen b && secondOk b c) = true
    · rw [if_pos h]
      exact List.prefix_cons_inj c |>.mpr
        ((List.takeWhile_prefix _).trans (List.take_prefix _ _))
    · rw [if_neg h]
      exact List.nil_prefix

theorem contBytes_length_le (b : UInt8) (l : Bytes) : (contBytes b l).length ≤ l.length :=
  (contBytes_initial b l).length_le

theorem unitsFrom_fuel : ∀ (m n : Nat) (bs : Bytes), bs.length ≤ m → bs.length ≤ n →
    unitsFrom m bs = unitsFrom n bs
  | 0, n, bs, hm, _ => by
    rw [List.length_eq_zero_iff.mp (Nat.le_zero.mp hm)]
    cases n <;> rfl
  | m + 1, 0, bs, _, hn => by
    rw [List.length_eq_zero_iff.mp (Nat.le_zero.mp hn)]
    rfl
  | m + 1, n + 1, [], _, _ => rfl
  | m + 1, n + 1, b :: rest, hm, hn => by
    rw [List.length_cons] at hm hn
    have hle : (rest.drop (contBytes b rest).length).length ≤ rest.length := by simp
    rw [unitsFrom, unitsFrom, unitsFrom_fuel m n _ (by omega) (by omega)]

@[simp] theorem units_nil : units [] = [] := rfl

theorem units_cons (b : UInt8) (rest : Bytes) :
    units (b :: rest) = (b :: contBytes b rest) :: units (rest.drop (contBytes b rest).length) := by
  rw [units, List.length_cons, unitsFrom, units]
  congr 1
  exact unitsFrom_fuel _ _ _ (by simp) (Nat.le_refl _)

theorem lossyFrom_eq : ∀ (n : Nat) (bs : Bytes), lossyFrom n bs = (unitsFrom n bs).map decodeUnit
  | 0, _ => rfl
  | _ + 1, [] => rfl
  | n + 1, b :: rest => by
    rw [lossyFrom, unitsFrom, List.map_cons, ← lossyFrom_eq n]
    rfl

/-- **Lossy decoding**, unit by unit. -/
theorem fromUtf8Lossy_eq (bs : Bytes) :
    fromUtf8Lossy bs = String.ofList ((units bs).map decodeUnit) := by
  rw [fromUtf8Lossy, lossyFrom_eq, units]

/-! ## A cut in the middle -/

/-- A byte that only ever continues a sequence. -/
def IsCont (d : UInt8) : Prop := 0x80 ≤ d ∧ d ≤ 0xBF

theorem IsCont.seqLen {d : UInt8} (h : IsCont d) : seqLen d = 0 := by
  rw [Vm.seqLen]
  grind [IsCont]

theorem secondOk_isCont {b c : UInt8} (h : secondOk b c = true) : IsCont c := by
  rw [secondOk] at h
  grind [IsCont]

/-- What follows a sequence either does not matter, or it goes on there. -/
theorem takeWhile_take_append (p : UInt8 → Bool) (k : Nat) (x y : Bytes) :
    ((x ++ y).take k).takeWhile p = (x.take k).takeWhile p ∨
      ∃ m, m ≠ [] ∧ (x.take k).takeWhile p = x ∧ ((x ++ y).take k).takeWhile p = x ++ m ∧
        ∀ d ∈ m, p d = true := by
  rw [List.take_append]
  by_cases hall : ∀ d ∈ x.take k, p d = true
  · have hx : (x.take k).takeWhile p = x.take k := List.takeWhile_eq_self_iff.mpr hall
    rw [List.takeWhile_append_of_pos hall, hx]
    by_cases hm : (y.take (k - x.length)).takeWhile p = []
    · exact .inl (by rw [hm, List.append_nil])
    · have hlong : x.length ≤ k := by
        by_contra hlt
        rw [Nat.sub_eq_zero_of_le (by omega), List.take_zero] at hm
        exact hm rfl
      refine .inr ⟨_, hm, List.take_of_length_le hlong, by rw [List.take_of_length_le hlong], ?_⟩
      exact fun d hd => List.mem_takeWhile_imp hd
  · have hshort : ((x.take k).takeWhile p).length ≠ (x.take k).length := fun hlen =>
      hall (List.takeWhile_eq_self_iff.mp ((List.takeWhile_prefix p).eq_of_length hlen))
    exact .inl (by rw [List.takeWhile_append, if_neg hshort])

/-- The continuation bytes of a first byte, when what follows it arrives in two
pieces: the cut changes nothing, or it is in the middle of them. -/
theorem contBytes_append (b : UInt8) (x y : Bytes) :
    contBytes b (x ++ y) = contBytes b x ∨
      ∃ m, m ≠ [] ∧ contBytes b x = x ∧ contBytes b (x ++ y) = x ++ m ∧ ∀ d ∈ m, IsCont d := by
  -- whatever is taken along is a continuation byte
  have hcont : ∀ l, ∀ d ∈ contBytes b l, IsCont d := by
    intro l d hd
    cases l with
    | nil => exact absurd hd List.not_mem_nil
    | cons c rest =>
      rw [contBytes] at hd
      by_cases hok : (2 ≤ seqLen b && secondOk b c) = true
      · rw [if_pos hok] at hd
        rcases List.mem_cons.mp hd with rfl | hd
        · exact secondOk_isCont (Bool.and_eq_true_iff.mp hok).2
        · simpa [IsCont] using List.mem_takeWhile_imp hd
      · rw [if_neg hok] at hd
        exact absurd hd List.not_mem_nil
  cases x with
  -- the cut is right behind the lead byte
  | nil =>
    by_cases hnil : contBytes b y = []
    · exact .inl hnil
    · exact .inr ⟨contBytes b y, hnil, rfl, rfl, hcont y⟩
  | cons c rest =>
    rw [List.cons_append, contBytes, contBytes]
    by_cases hok : (2 ≤ seqLen b && secondOk b c) = true
    · rw [if_pos hok, if_pos hok]
      rcases takeWhile_take_append (fun d => 0x80 ≤ d && d ≤ 0xBF) (seqLen b - 2) rest y with
        heq | ⟨m, hm, hx, hxy, hall⟩
      · exact .inl (by rw [heq])
      · refine .inr ⟨m, hm, by rw [hx], by rw [hxy]; rfl, fun d hd => ?_⟩
        simpa [IsCont] using hall d hd
    · exact .inl (by rw [if_neg hok, if_neg hok])

/-- Continuation bytes on their own are a unit each. -/
theorem units_cont {m : Bytes} (hm : ∀ d ∈ m, IsCont d) (y : Bytes) :
    (units (m ++ y)).length = m.length + (units y).length := by
  induction m with
  | nil => rw [List.nil_append, List.length_nil, Nat.zero_add]
  | cons d m ih =>
    have hnone : contBytes d (m ++ y) = [] := by
      cases m ++ y with
      | nil => rfl
      | cons c rest => rw [contBytes, (hm d List.mem_cons_self).seqLen, if_neg (by simp)]
    rw [List.cons_append, units_cons, hnone, List.length_cons, List.length_nil, List.drop_zero,
      ih fun d' hd' => hm d' (List.mem_cons_of_mem d hd'), List.length_cons]
    omega

/-- **Two pieces**: a cut between units changes nothing; one inside a unit
decodes to more characters. -/
theorem units_append (x y : Bytes) :
    Boundary List.length (units (x ++ y)) x.length ∧ units (x ++ y) = units x ++ units y ∨
      ¬ Boundary List.length (units (x ++ y)) x.length ∧
        (units (x ++ y)).length < (units x).length + (units y).length := by
  induction hn : x.length using Nat.strongRecOn generalizing x with
  | ind n ih =>
    subst hn
    cases x with
    | nil => exact .inl ⟨boundary_zero _, rfl⟩
    | cons b x =>
      rw [List.cons_append, units_cons, units_cons, List.length_cons]
      rcases contBytes_append b x y with heq | ⟨m, hm, hx, hxy, hall⟩
      · -- the cut is behind the first unit
        have hle := contBytes_length_le b x
        have hdrop : (x ++ y).drop (contBytes b x).length = x.drop (contBytes b x).length ++ y :=
          List.drop_append_of_le_length hle
        have hlen : (x.drop (contBytes b x).length).length = x.length - (contBytes b x).length :=
          List.length_drop
        rw [heq, hdrop, boundary_cons (Nat.succ_pos _), List.length_cons,
          show x.length + 1 - ((contBytes b x).length + 1) =
            (x.drop (contBytes b x).length).length by omega]
        rcases ih _ (by rw [hlen, List.length_cons]; omega) (x.drop (contBytes b x).length) rfl with
          ⟨hcut, hunits⟩ | ⟨hcut, hunits⟩
        · exact .inl ⟨⟨by omega, hcut⟩, by rw [hunits]; rfl⟩
        · refine .inr ⟨fun h => hcut h.2, ?_⟩
          rw [List.length_cons, List.length_cons]
          omega
      · -- the cut is inside it, before the continuation bytes `m`
        have hpos := List.length_pos_of_ne_nil hm
        obtain ⟨y', rfl⟩ : m <+: y := by
          have hprefix := contBytes_initial b (x ++ y)
          rwa [hxy, List.prefix_append_right_inj] at hprefix
        have hdrop : (x ++ (m ++ y')).drop (x ++ m).length = y' := by
          rw [← List.append_assoc]
          exact List.drop_left
        refine .inr ⟨?_, ?_⟩
        · rw [boundary_cons (Nat.succ_pos _), hxy, List.length_cons, List.length_append]
          omega
        · rw [hxy, hx, hdrop, units_cont hall, List.drop_length]
          simp only [List.length_cons, units_nil, List.length_nil]
          omega

/-! ## Any number of reads -/

/-- No read but the last ends inside a unit of the stream. -/
def CutsBetweenUnits (reads : List Bytes) : Prop :=
  ∀ done rest, reads = done ++ rest →
    Boundary List.length (units reads.flatten) done.flatten.length

/-- What the readers send, put together, for these reads. -/
def decodedReads (reads : List Bytes) : String := String.join (reads.map fromUtf8Lossy)

theorem decodedReads_toList (reads : List Bytes) :
    (decodedReads reads).toList = (reads.flatMap units).map decodeUnit := by
  rw [decodedReads, String.toList_join, List.flatMap_map, List.map_flatMap]
  congr 1
  funext bs
  rw [fromUtf8Lossy_eq, String.toList_ofList]

theorem size_units (bs : Bytes) : size List.length (units bs) = bs.length := by
  induction hn : bs.length using Nat.strongRecOn generalizing bs with
  | ind n ih =>
    subst hn
    cases bs with
    | nil => rfl
    | cons b rest =>
      have hle := contBytes_length_le b rest
      have hlen : (rest.drop (contBytes b rest).length).length =
          rest.length - (contBytes b rest).length := List.length_drop
      rw [units_cons, size_cons, ih _ (by rw [hlen, List.length_cons]; omega) _ rfl,
        List.length_cons, List.length_cons]
      omega

/-- Behind a cut between units, the cuts are those of the rest of the stream. -/
theorem cutsBetweenUnits_cons {first : Bytes} {reads : List Bytes}
    (h : units (first ++ reads.flatten) = units first ++ units reads.flatten) :
    CutsBetweenUnits (first :: reads) ↔ CutsBetweenUnits reads := by
  have hcut : ∀ done : List Bytes,
      Boundary List.length (units (first :: reads).flatten) (first :: done).flatten.length ↔
        Boundary List.length (units reads.flatten) done.flatten.length := by
    intro done
    rw [List.flatten_cons, h, List.flatten_cons, List.length_append, ← size_units first]
    exact boundary_append
  constructor
  · intro hcuts done rest heq
    exact (hcut done).mp (hcuts (first :: done) rest (by rw [heq]; rfl))
  · intro hcuts done rest heq
    cases done with
    | nil => exact boundary_zero _
    | cons d done =>
      rw [List.cons_append] at heq
      injection heq with hd heq
      subst hd
      exact (hcut done).mpr (hcuts done rest heq)

/-- Reads never decode to fewer characters than the stream. -/
theorem units_flatten_le (reads : List Bytes) :
    (units reads.flatten).length ≤ (reads.flatMap units).length := by
  induction reads with
  | nil => exact Nat.le_refl _
  | cons first reads ih =>
    rw [List.flatten_cons, List.flatMap_cons, List.length_append]
    rcases units_append first reads.flatten with ⟨_, heq⟩ | ⟨_, hlt⟩
    · rw [heq, List.length_append]
      omega
    · omega

theorem units_flatten (reads : List Bytes) :
    CutsBetweenUnits reads ∧ reads.flatMap units = units reads.flatten ∨
      ¬ CutsBetweenUnits reads ∧ (units reads.flatten).length < (reads.flatMap units).length := by
  induction reads with
  | nil =>
    refine .inl ⟨fun done rest heq => ?_, rfl⟩
    rw [(List.append_eq_nil_iff.mp heq.symm).1]
    exact boundary_zero _
  | cons first reads ih =>
    have hle := units_flatten_le reads
    rw [List.flatMap_cons, List.length_append]
    rcases units_append first reads.flatten with ⟨_, heq⟩ | ⟨hcut, hlt⟩
    · rw [cutsBetweenUnits_cons heq, List.flatten_cons, heq, List.length_append]
      rcases ih with ⟨hcuts, hunits⟩ | ⟨hcuts, hlt⟩
      · exact .inl ⟨hcuts, by rw [hunits]⟩
      · exact .inr ⟨hcuts, by omega⟩
    · refine .inr ⟨fun hcuts => hcut ?_, by rw [List.flatten_cons]; omega⟩
      have := hcuts [first] reads rfl
      simpa using this

/-- **Decoding read by read** gives the text of the whole stream exactly when no
read ends inside a multi-byte sequence of it, well-formed or cut off. -/
theorem decodedReads_eq_iff (reads : List Bytes) :
    decodedReads reads = fromUtf8Lossy reads.flatten ↔ CutsBetweenUnits reads := by
  rw [← String.toList_inj, decodedReads_toList, fromUtf8Lossy_eq, String.toList_ofList]
  rcases units_flatten reads with ⟨hcuts, hunits⟩ | ⟨hcuts, hlt⟩
  · exact ⟨fun _ => hcuts, fun _ => by rw [hunits]⟩
  · refine ⟨fun heq => ?_, fun h => absurd h hcuts⟩
    have := congrArg List.length heq
    rw [List.length_map, List.length_map] at this
    omega

/-- The euro sign in two reads becomes three replacement characters. -/
theorem decodedReads_euro :
    ¬ ∀ reads : List Bytes, (∀ r ∈ reads, 0 < r.length ∧ r.length ≤ 1024) →
      decodedReads reads = fromUtf8Lossy reads.flatten := by
  intro h
  have hall := h [[0xE2], [0x82, 0xAC]] (by decide)
  exact absurd hall (by decide)

/-! ## The readers of a run -/

/-- What the `r.read` calls for a stream of engine `g` returned in a run. -/
def readsIn (ls : List Label) (g : Nat) (st : Stream) : List Bytes :=
  ls.filterMap fun l =>
    match l with
    | .engine g' (.read st' bytes) => if g' = g ∧ st' = st then some bytes else none
    | _ => none

/-- What the reader for a stream of engine `g` has taken so far. -/
def Sys.takenBy (s : Sys) (g : Nat) (st : Stream) : List String :=
  ((s.engines[g]?).map fun e => (e.reader st).reads).getD []

/-- From `s` to `t` nothing is taken from any stream. -/
def TakesNothing (s t : Sys) : Prop := ∀ g st, t.takenBy g st = s.takenBy g st

theorem TakesNothing.trans {s t u : Sys} (h : TakesNothing s t) (h' : TakesNothing t u) :
    TakesNothing s u := fun g st => (h' g st).trans (h g st)

theorem TakesNothing.same {s t : Sys} (h : t.engines = s.engines) : TakesNothing s t := by
  intro g st
  rw [Sys.takenBy, Sys.takenBy, h]

/-- An engine changed, but not in what its readers have taken. -/
theorem TakesNothing.modify {s t : Sys} {g₀ : Nat} {f : Engine → Engine}
    (h : t.engines = s.engines.modify g₀ f)
    (hf : ∀ e st, ((f e).reader st).reads = (e.reader st).reads) : TakesNothing s t := by
  intro g st
  rw [Sys.takenBy, Sys.takenBy, h, List.getElem?_modify]
  cases s.engines[g]? with
  | none => rfl
  | some e => by_cases hg : g₀ = g <;> simp [hg, hf]

/-- An engine more, which has read nothing. -/
theorem TakesNothing.spawned {s t : Sys} {e : Engine} (h : t.engines = s.engines ++ [e])
    (hreads : ∀ st, (e.reader st).reads = []) : TakesNothing s t := by
  intro g st
  rw [Sys.takenBy, Sys.takenBy, h]
  rcases Nat.lt_trichotomy g s.engines.length with hlt | rfl | hgt
  · rw [List.getElem?_append_left hlt]
  · simp [hreads]
  · rw [List.getElem?_eq_none (by rw [List.length_append, List.length_singleton]; omega),
      List.getElem?_eq_none (by omega)]

theorem takesNothing_stopped (s : Sys) : TakesNothing s s.stopped := by
  rw [Sys.stopped]
  cases s.backend.child with
  | none => exact .same rfl
  | some g => exact .modify (f := Engine.settled) rfl fun _ _ => rfl

theorem reads_setReader (e : Engine) (st₀ st : Stream) (r : Reader) :
    ((e.setReader st₀ r).reader st).reads = if st₀ = st then r.reads else (e.reader st).reads := by
  by_cases h : st₀ = st
  · subst h
    simp [Engine.setReader]
  · simp [Engine.setReader, h, Function.update_of_ne (Ne.symm h)]

/-- A reader that reads nothing now. -/
theorem reads_setState (e : Engine) (st₀ st : Stream) (state : ReaderState) :
    ((e.setReader st₀ { e.reader st₀ with state := state }).reader st).reads =
      (e.reader st).reads := by
  rw [reads_setReader]
  by_cases h : st₀ = st
  · subst h
    rw [if_pos rfl]
  · rw [if_neg h]

/-- A step of engine `g`: a `read` adds its bytes, decoded by themselves. -/
theorem Engine.step_reads {g : Nat} {e e' : Engine} {l : EngineLabel} (h : e.step g l = some e')
    (st : Stream) : (e'.reader st).reads =
      (e.reader st).reads ++ (readsIn [.engine g l] g st).map fromUtf8Lossy := by
  cases l with
  | exit =>
    rw [Engine.step] at h
    split at h
    · cases h
      exact (List.append_nil _).symm
    · cases h
  | read st₀ bytes =>
    rw [Engine.step] at h
    split at h
    · cases h
      rw [reads_setReader]
      by_cases hst : st₀ = st
      · subst hst
        simp [readsIn]
      · simp [readsIn, hst]
    · cases h
  | send st₀ =>
    rw [Engine.step] at h
    split at h
    · split at h
      all_goals
        cases h
        exact (reads_setState e st₀ st _).trans (List.append_nil _).symm
    · cases h
    · cases h
  | readEnd st₀ =>
    rw [Engine.step] at h
    split at h
    · cases h
      exact (reads_setState e st₀ st _).trans (List.append_nil _).symm
    · cases h

theorem readsIn_append (ls ls' : List Label) (g : Nat) (st : Stream) :
    readsIn (ls ++ ls') g st = readsIn ls g st ++ readsIn ls' g st := List.filterMap_append

theorem readsIn_other {g₀ g : Nat} (hg : g₀ ≠ g) (l : EngineLabel) (st : Stream) :
    readsIn [.engine g₀ l] g st = [] := by
  cases l <;> simp [readsIn, hg]

/-- Every stream has what it had, and what the step read from it. -/
def TakesRead (s : Sys) (l : Label) (t : Sys) : Prop :=
  ∀ g st, t.takenBy g st = s.takenBy g st ++ (readsIn [l] g st).map fromUtf8Lossy

/-- A step that reads nothing. -/
theorem TakesNothing.takesRead {s t : Sys} {l : Label} (h : TakesNothing s t)
    (hl : ∀ g st, readsIn [l] g st = []) : TakesRead s l t := by
  intro g st
  rw [h g st, hl, List.map_nil, List.append_nil]

/-- **One step**: only a `read` of an engine takes anything from a stream. -/
theorem Logged.step_takesRead {hst : Host} {s t : Sys} {l : Label} (h : Logged s)
    (hstep : Vm.step hst s l = some t) : TakesRead s l t := by
  have hstopped := takesNothing_stopped s
  cases Sys.moves_of_step h.sync hstep with
  | notStarted _ ht =>
    obtain ⟨files, rfl⟩ := ht
    exact (hstopped.trans (.same rfl)).takesRead fun _ _ => rfl
  | orphaned _ ht =>
    obtain ⟨_, files, program, args, rfl⟩ := ht
    exact (hstopped.trans (.spawned rfl fun _ => rfl)).takesRead fun _ _ => rfl
  | started _ ht =>
    obtain ⟨files, program, args, rfl⟩ := ht
    exact (hstopped.trans (.spawned rfl fun _ => rfl)).takesRead fun _ _ => rfl
  | stop => exact hstopped.takesRead fun _ _ => rfl
  | drop => exact (hstopped.trans (.same rfl)).takesRead fun _ _ => rfl
  | notRunning | drainBegin | drainEnd =>
    exact (TakesNothing.same rfl).takesRead fun _ _ => rfl
  | reaped g =>
    exact (TakesNothing.modify (f := Engine.reaped) rfl fun _ _ => rfl).takesRead fun _ _ => rfl
  | drainRecv d c rest hd hc =>
    obtain ⟨g, _, hrx, _, _⟩ := Sys.pending_cons hc
    have hengines : (s.received d c).engines =
        s.engines.modify g fun e => { e with queue := e.queue.tail } := by rw [Sys.received, hrx]
    exact (TakesNothing.modify hengines fun _ _ => rfl).takesRead fun _ _ => rfl
  | engine g₀ e e' l he he' =>
    intro g st
    show (((s.engines.modify g₀ fun _ => e')[g]?).map _).getD [] = _
    rw [List.getElem?_modify, Sys.takenBy]
    by_cases hg : g₀ = g
    · subst hg
      simp [he, Engine.step_reads he' st]
    · simp [readsIn_other hg, hg]

/-- What a run has logged and read. -/
theorem logged_takenBy_run {hst : Host} {runDir : String} {files : Files} {ls : List Label}
    {s : Sys} (hrun : run (step hst) (Sys.new runDir files) ls = some s) :
    Logged s ∧ ∀ g st, s.takenBy g st = (readsIn ls g st).map fromUtf8Lossy := by
  refine run_inv_history (I := fun ls s =>
    Logged s ∧ ∀ g st, s.takenBy g st = (readsIn ls g st).map fromUtf8Lossy)
    (fun ls s l t h hstep => ⟨h.1.step hstep, fun g st => ?_⟩)
    ⟨.new runDir files, fun _ _ => rfl⟩ hrun
  rw [h.1.step_takesRead hstep, h.2, readsIn_append, List.map_append]

/-- **The log text** of a stream: a drain that returns once both readers have
ended leaves what the engine's reads decode to, each by itself. -/
theorem delivered_run {hst : Host} {runDir : String} {files : Files} {ls : List Label} {s t : Sys}
    (hrun : run (step hst) (Sys.new runDir files) ls = some s) {g : Nat} {e : Engine}
    (hchild : s.backend.child = some g) (he : s.engines[g]? = some e)
    (hended : ∀ st, (e.reader st).state = .ended) (hstep : step hst s .drainEnd = some t)
    (st : Stream) : String.join (t.delivered g st) = decodedReads (readsIn ls g st) := by
  obtain ⟨hlogged, htaken⟩ := logged_takenBy_run hrun
  have hreads : (e.reader st).reads = (readsIn ls g st).map fromUtf8Lossy := by
    rw [← htaken, Sys.takenBy, he]
    rfl
  rw [hlogged.delivered_all hchild he hended hstep st, hreads, decodedReads]

end MochiVM.Vm
