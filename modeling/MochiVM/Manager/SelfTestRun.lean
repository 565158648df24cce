import MochiVM.Manager.SelfTest
import MochiVM.Manager.BootConsole
import MochiVM.Manager.VmOwnership

/-!
# The self-test as a program (manager/src/main.rs)

`run_self_test` checks its files, starts the engine, polls the log until the
banner is in it or 25 seconds are over, stops the engine and writes its report.
The engine goes on meanwhile, so the test is a sequence of steps; `Place` is the
place in its code. What the clock, the host and the file system decide is an
argument of the step.

`selfTest_finished` says of every run how the exit code, the report and the
processes left behind hang together, and `selfTest_boot` what the test makes of
a boot of the hypervisor.
-/

namespace MochiVM.SelfTest

open MochiVM.Buffer MochiVM.Fat MochiVM.Panic MochiVM.Runs MochiVM.Text MochiVM.Utf8
open MochiVM.Hv (Boot Env Fresh Machine Stage bootMachine_fresh boot_fiveHlts)
open MochiVM.Vm hiding step

/-! ## The state -/

/-- How `run_self_test` ends. -/
inductive Outcome where
  | returned (r : Except String PUnit)
  | panicked (p : Panic)

/-- The exit code of `main --self-test` (main.rs:15). -/
def Outcome.exitCode : Outcome → Nat
  | .returned (.ok _) => 0
  | .returned (.error _) => 1
  -- the exit code of a Rust program whose main thread unwinds
  | .panicked _ => 101

/-- The place in `run_self_test` (main.rs:32). -/
inductive Place where
  | start
  /-- Before the deadline is looked at. -/
  | waiting
  /-- In `drain_log`. -/
  | draining
  | sleeping
  /-- After the loop. -/
  | stopping (passed : Bool)
  | reporting (passed : Bool)
  /-- Where the backend is dropped. -/
  | leaving (o : Outcome)
  | ended (o : Outcome)

structure Test where
  sys : Sys
  place : Place
  report : String
  log : String
  /-- The content of `selftest.log`. -/
  file : Option Bytes

/-! ## The program -/

/-- `exe_dir` (main.rs:141). -/
def exeDir (h : Host) : String := h.exeDir.getD ""

def efiPath (h : Host) : String := h.join (exeDir h) "mochivm.efi"

def codePath (h : Host) : String := h.join (exeDir h) "ovmf/x64/code.fd"

def varsPath (h : Host) : String := h.join (exeDir h) "ovmf/x64/vars.fd"

/-- The test before its first statement. -/
def Test.new (h : Host) (files : Files) (file : Option Bytes) : Test :=
  ⟨.new (h.join (exeDir h) "runtime") files, .start, "", "", file⟩

/-- The closure `say`. -/
def Test.say (t : Test) (s : String) : Test := { t with report := t.report ++ s ++ "\n" }

/-- `write_report` (main.rs:135). -/
def Test.writeReport (t : Test) : DiskIo → Test
  | .ok => { t with file := some (utf8 t.report) }
  | .createFails _ => t
  | .writeFails n _ => { t with file := some ((utf8 t.report).take n) }

/-- A line of the report about a file. -/
def checkLine (what : String) (ok : Bool) : String :=
  "  " ++ what ++ ": " ++ if ok then "ok" else "MISSING"

/-- The files that must be there, under their names in the report (main.rs:50). -/
def needed (h : Host) : List (String × String) :=
  [("mochivm.efi", efiPath h), ("ovmf code.fd", codePath h), ("ovmf vars.fd", varsPath h)]

/-- The loop over them, up to the first one that is missing. -/
def checkFiles (h : Host) (t : Test) : List (String × String) → Test × Option String
  | [] => (t, none)
  | (what, path) :: rest =>
    let ok := h.present path
    let t := t.say (checkLine what ok)
    if ok then checkFiles h t rest else (t, some what)

/-- Whether the engine is next to the program (main.rs:66). -/
def enginePresent (h : Host) : Bool :=
  let engine := h.join (exeDir h) "engine"
  h.present (h.join engine "mochivm-vm.exe") || h.present (h.join engine "qemu-system-x86_64.exe")

/-- The configuration of the test: the default one, under software emulation. -/
def selfTestConfig : VmConfig := ⟨512, 1, .tcg⟩

/-- `backend.start(&cfg, &efi, &code, &vars)`. -/
def startEngine (h : Host) (w : World) : VmM (Except String PUnit) :=
  Vm.start h selfTestConfig (efiPath h) (codePath h) (varsPath h) w

/-- From the first statement to the wait loop (main.rs:47). -/
def begin (h : Host) (w : World) (io : DiskIo) (t : Test) : Test :=
  let t := (t.say "== mochivm self-test ==").say ("exe dir: " ++ exeDir h)
  match checkFiles h t (needed h) with
  | (t, some what) =>
    { t.writeReport io with place := .ended (.returned (.error ("missing " ++ what))) }
  | (t, none) =>
    let t := t.say (checkLine "engine" (enginePresent h))
    match startEngine h w t.sys with
    | .ok (.ok _) s =>
      { t.say "  engine spawned (software emulation)" with sys := s, place := .waiting }
    | .ok (.error e) s =>
      { (t.say ("  engine spawn failed: " ++ e)).writeReport io with
        sys := s
        place := .leaving (.returned (.error "selftest failed")) }
    | .error p s => { t with sys := s, place := .leaving (.panicked p) }

/-- The last lines of the engine's output (main.rs:116). -/
def tail (log : String) : List String := ((Vm.lines log).reverse.take 20).reverse

/-- What the report says after the wait (main.rs:104). -/
def verdictLines (passed : Bool) (log : String) : List String :=
  (((Vm.lines log).filter fun l => Contains l "[mochivm]").map fun l => "  " ++ l) ++
  if passed then ["== SELF-TEST PASSED =="]
  else "== SELF-TEST FAILED: 'mochivm booted' never appeared on serial ==" ::
    if log = "" then ["    (no output captured from engine)"]
    else "-- raw engine output (tail) --" :: (tail log).map fun l => "    " ++ l

/-- What it returns (main.rs:125). -/
def verdict (passed : Bool) : Except String PUnit :=
  if passed then .ok ⟨⟩ else .error "selftest failed"

/-- After `backend.stop()` (main.rs:104). -/
def conclude (passed : Bool) (io : DiskIo) (t : Test) : Test :=
  let t := (verdictLines passed t.log).foldl Test.say t
  { t.writeReport io with place := .leaving (.returned (verdict passed)) }

/-! ## Steps -/

inductive Label where
  | begin (w : World) (io : DiskIo)
  /-- The deadline is looked at, and the log drained if it is not over. -/
  | now (expired : Bool)
  | drainRecv
  | drainEnd
  /-- `thread::sleep` returns. -/
  | wake
  | stop
  | conclude (io : DiskIo)
  /-- The backend goes out of scope. -/
  | leave
  | engine (g : Nat) (l : EngineLabel)

/-- A step of the backend's system. -/
def Test.sysStep (h : Host) (t : Test) (l : Vm.Label) : Option Test :=
  (Vm.step h t.sys l).map fun s => { t with sys := s }

/-- The log with what `drain_log` returned (main.rs:95). -/
def Test.logged (t : Test) (out : String) : Test :=
  { t with
    log := t.log ++ out
    place := if HasMarker (t.log ++ out) then .stopping true else .sleeping }

/-- A step of the test. -/
def step (h : Host) (t : Test) : Label → Option Test
  | .begin w io =>
    match t.place with
    | .start => some (begin h w io t)
    | _ => none
  | .now expired =>
    match t.place with
    | .waiting =>
      if expired then some { t with place := .stopping false }
      else (t.sysStep h .drainBegin).map fun t => { t with place := .draining }
    | _ => none
  | .drainRecv => t.sysStep h .drainRecv
  | .drainEnd =>
    match t.sys.draining with
    | some d => (t.sysStep h .drainEnd).map fun t => t.logged d.out
    | none => none
  | .wake =>
    match t.place with
    | .sleeping => some { t with place := .waiting }
    | _ => none
  | .stop =>
    match t.place with
    | .stopping passed => (t.sysStep h .stop).map fun t => { t with place := .reporting passed }
    | _ => none
  | .conclude io =>
    match t.place with
    | .reporting passed => some (conclude passed io t)
    | _ => none
  | .leave =>
    match t.place with
    | .leaving o => (t.sysStep h .drop).map fun t => { t with place := .ended o }
    | _ => none
  | .engine g l => t.sysStep h (.engine g l)

/-! ## What is said -/

/-- The text of these lines of the report. -/
def said (ls : List String) : String := String.join (ls.map fun l => l ++ "\n")

@[simp] theorem said_nil : said [] = "" := rfl

theorem said_append (ls ls' : List String) : said (ls ++ ls') = said ls ++ said ls' := by
  rw [said, List.map_append, String.join_append]
  rfl

theorem said_concat (ls : List String) (l : String) : said (ls ++ [l]) = said ls ++ l ++ "\n" := by
  rw [said_append, String.append_assoc]
  rfl

/-- The test with more of the report. -/
def Test.sayAll (t : Test) (ls : List String) : Test := { t with report := t.report ++ said ls }

@[simp] theorem Test.sayAll_sys (t : Test) (ls : List String) : (t.sayAll ls).sys = t.sys := rfl

theorem Test.sayAll_nil (t : Test) : t.sayAll [] = t := by
  rw [Test.sayAll, said_nil, String.append_empty]

theorem Test.sayAll_say (t : Test) (ls : List String) (l : String) :
    (t.sayAll ls).say l = t.sayAll (ls ++ [l]) := by
  rw [Test.say, Test.sayAll, Test.sayAll, said_concat, ← String.append_assoc, ← String.append_assoc]

theorem Test.sayAll_foldl (t : Test) (ls ls' : List String) :
    ls'.foldl Test.say (t.sayAll ls) = t.sayAll (ls ++ ls') := by
  induction ls' generalizing ls with
  | nil => rw [List.append_nil, List.foldl_nil]
  | cons l ls' ih =>
    rw [List.foldl_cons, Test.sayAll_say, ih, List.append_assoc, List.singleton_append]

/-- What is said of files that are there. -/
def foundLines (files : List (String × String)) : List String :=
  files.map fun x => checkLine x.1 true

/-- What is said before the files are checked. -/
def titleLines (h : Host) : List String := ["== mochivm self-test ==", "exe dir: " ++ exeDir h]

/-- What is said before the engine is started. -/
def headLines (h : Host) : List String :=
  titleLines h ++ foundLines (needed h) ++ [checkLine "engine" (enginePresent h)]

/-- The report of a test that returned, and what it returned. -/
inductive Report (h : Host) (log : String) : Except String PUnit → List String → Prop
  /-- A file is missing. -/
  | missing (before after : List (String × String)) (what path : String) :
      needed h = before ++ (what, path) :: after → (∀ x ∈ before, h.present x.2 = true) →
      h.present path = false → Report h log (.error ("missing " ++ what))
        (titleLines h ++ foundLines before ++ [checkLine what false])
  /-- `start` failed. -/
  | failed (e : String) : (∀ x ∈ needed h, h.present x.2 = true) →
      Report h log (.error "selftest failed") (headLines h ++ ["  engine spawn failed: " ++ e])
  /-- The log was waited for. -/
  | waited : (∀ x ∈ needed h, h.present x.2 = true) → Report h log (verdict (HasMarker log))
      (headLines h ++ "  engine spawned (software emulation)" :: verdictLines (HasMarker log) log)

/-- The files are all there, or one of them is the first that is missing. -/
theorem checkFiles_cases (h : Host) (files : List (String × String)) (t : Test) (ls : List String) :
    (∀ x ∈ files, h.present x.2 = true) ∧
        checkFiles h (t.sayAll ls) files = (t.sayAll (ls ++ foundLines files), none) ∨
      ∃ before what path after, files = before ++ (what, path) :: after ∧
        (∀ x ∈ before, h.present x.2 = true) ∧ h.present path = false ∧
        checkFiles h (t.sayAll ls) files =
          (t.sayAll (ls ++ foundLines before ++ [checkLine what false]), some what) := by
  induction files generalizing ls with
  | nil =>
    exact .inl ⟨fun x hx => absurd hx List.not_mem_nil, by rw [foundLines]; simp [checkFiles]⟩
  | cons x files ih =>
    obtain ⟨what, path⟩ := x
    rw [checkFiles]
    cases hpath : h.present path with
    | false =>
      refine .inr ⟨[], what, path, files, rfl, by simp, hpath, ?_⟩
      simp [Test.sayAll_say, foundLines]
    | true =>
      simp only [Test.sayAll_say, if_pos]
      rcases ih (ls ++ [checkLine what true]) with
        ⟨hall, heq⟩ | ⟨before, w, p, after, rfl, hall, hp, heq⟩
      · refine .inl ⟨fun x hx => ?_, by rw [heq]; simp [foundLines]⟩
        rcases List.mem_cons.mp hx with rfl | hx
        · exact hpath
        · exact hall x hx
      · refine .inr ⟨(what, path) :: before, w, p, after, rfl, fun x hx => ?_, hp, by
          rw [heq]; simp [foundLines]⟩
        rcases List.mem_cons.mp hx with rfl | hx
        · exact hpath
        · exact hall x hx

/-- How the test gets to its wait loop, or not. -/
inductive Test.Begun (h : Host) (w : World) (io : DiskIo) (t : Test) : Test → Prop
  | missing (before after : List (String × String)) (what path : String) :
      needed h = before ++ (what, path) :: after → (∀ x ∈ before, h.present x.2 = true) →
      h.present path = false →
      Begun h w io t { (t.sayAll (titleLines h ++ foundLines before ++
          [checkLine what false])).writeReport io with
        place := .ended (.returned (.error ("missing " ++ what))) }
  | failed (e : String) (s : Sys) : (∀ x ∈ needed h, h.present x.2 = true) →
      Returns (startEngine h w) t.sys (.error e) s →
      Begun h w io t { (t.sayAll (headLines h ++
          ["  engine spawn failed: " ++ e])).writeReport io with
        sys := s
        place := .leaving (.returned (.error "selftest failed")) }
  | spawned (s : Sys) : (∀ x ∈ needed h, h.present x.2 = true) →
      Returns (startEngine h w) t.sys (.ok ⟨⟩) s →
      Begun h w io t { t.sayAll (headLines h ++ ["  engine spawned (software emulation)"]) with
        sys := s, place := .waiting }
  | panicked (p : Panic) (s : Sys) : Aborts (startEngine h w) t.sys p s →
      Begun h w io t { t.sayAll (headLines h) with sys := s, place := .leaving (.panicked p) }

theorem begin_begun (h : Host) (w : World) (io : DiskIo) (t : Test) :
    t.Begun h w io (begin h w io t) := by
  have htitle : (t.say "== mochivm self-test ==").say ("exe dir: " ++ exeDir h) =
      t.sayAll (titleLines h) := by
    rw [← t.sayAll_nil, Test.sayAll_say, Test.sayAll_say, Test.sayAll_nil]
    rfl
  rw [begin]
  simp only [htitle]
  rcases checkFiles_cases h (needed h) t (titleLines h) with
    ⟨hall, heq⟩ | ⟨before, what, path, after, hneeded, hall, hpath, heq⟩
  · rw [heq]
    simp only [Test.sayAll_say, Test.sayAll_sys]
    cases hstart : startEngine h w t.sys with
    | ok r s =>
      cases r with
      | ok _ => exact .spawned s hall hstart
      | error e => exact .failed e s hall hstart
    | error p s => exact .panicked p s hstart
  · rw [heq]
    exact .missing before after what path hneeded hall hpath

theorem conclude_eq (passed : Bool) (io : DiskIo) (t : Test) :
    conclude passed io t = { (t.sayAll (verdictLines passed t.log)).writeReport io with
      place := .leaving (.returned (verdict passed)) } := by
  have hsaid := t.sayAll_foldl [] (verdictLines passed t.log)
  rw [Test.sayAll_nil, List.nil_append] at hsaid
  rw [conclude, hsaid]

/-! ## What a step does -/

theorem Test.sysStep_eq_some {h : Host} {t u : Test} {l : Vm.Label}
    (hstep : t.sysStep h l = some u) :
    ∃ s, Vm.step h t.sys l = some s ∧ u = { t with sys := s } := by
  obtain ⟨s, hs, rfl⟩ := Option.map_eq_some_iff.mp hstep
  exact ⟨s, hs, rfl⟩

/-- A step of the test, by what the backend does in it. -/
inductive Test.Takes (h : Host) (t : Test) : Label → Test → Prop
  | begin {u : Test} (w : World) (io : DiskIo) : t.place = .start → t.Begun h w io u →
      Takes h t (.begin w io) u
  | expired : t.place = .waiting → Takes h t (.now true) { t with place := .stopping false }
  | drain (s : Sys) : t.place = .waiting → Vm.step h t.sys .drainBegin = some s →
      Takes h t (.now false) { t with sys := s, place := .draining }
  | drainRecv (s : Sys) : Vm.step h t.sys .drainRecv = some s →
      Takes h t .drainRecv { t with sys := s }
  | drainEnd (d : Drain) (s : Sys) : t.sys.draining = some d →
      Vm.step h t.sys .drainEnd = some s →
      Takes h t .drainEnd (Test.logged { t with sys := s } d.out)
  | wake : t.place = .sleeping → Takes h t .wake { t with place := .waiting }
  | stop (passed : Bool) (s : Sys) : t.place = .stopping passed → Vm.step h t.sys .stop = some s →
      Takes h t .stop { t with sys := s, place := .reporting passed }
  | conclude (passed : Bool) (io : DiskIo) : t.place = .reporting passed →
      Takes h t (.conclude io) { (t.sayAll (verdictLines passed t.log)).writeReport io with
        place := .leaving (.returned (verdict passed)) }
  | leave (o : Outcome) (s : Sys) : t.place = .leaving o → Vm.step h t.sys .drop = some s →
      Takes h t .leave { t with sys := s, place := .ended o }
  | engine (g : Nat) (l : EngineLabel) (s : Sys) : Vm.step h t.sys (.engine g l) = some s →
      Takes h t (.engine g l) { t with sys := s }

/-- **Every step** is one of these. -/
theorem Test.takes_of_step {h : Host} {t u : Test} {l : Label} (hstep : step h t l = some u) :
    t.Takes h l u := by
  cases l with
  | begin w io =>
    rw [step] at hstep
    split at hstep
    · rename_i hplace
      cases hstep
      exact .begin w io hplace (begin_begun h w io t)
    · cases hstep
  | now expired =>
    rw [step] at hstep
    split at hstep
    · rename_i hplace
      cases expired with
      | true =>
        cases hstep
        exact .expired hplace
      | false =>
        obtain ⟨v, hv, rfl⟩ := Option.map_eq_some_iff.mp hstep
        obtain ⟨s, hs, rfl⟩ := Test.sysStep_eq_some hv
        exact .drain s hplace hs
    · cases hstep
  | drainRecv =>
    obtain ⟨s, hs, rfl⟩ := Test.sysStep_eq_some hstep
    exact .drainRecv s hs
  | drainEnd =>
    rw [step] at hstep
    split at hstep
    · rename_i d hd
      obtain ⟨v, hv, rfl⟩ := Option.map_eq_some_iff.mp hstep
      obtain ⟨s, hs, rfl⟩ := Test.sysStep_eq_some hv
      exact .drainEnd d s hd hs
    · cases hstep
  | wake =>
    rw [step] at hstep
    split at hstep
    · rename_i hplace
      cases hstep
      exact .wake hplace
    · cases hstep
  | stop =>
    rw [step] at hstep
    split at hstep
    · rename_i passed hplace
      obtain ⟨v, hv, rfl⟩ := Option.map_eq_some_iff.mp hstep
      obtain ⟨s, hs, rfl⟩ := Test.sysStep_eq_some hv
      exact .stop passed s hplace hs
    · cases hstep
  | conclude io =>
    rw [step] at hstep
    split at hstep
    · rename_i passed hplace
      cases hstep
      rw [conclude_eq]
      exact .conclude passed io hplace
    · cases hstep
  | leave =>
    rw [step] at hstep
    split at hstep
    · rename_i o hplace
      obtain ⟨v, hv, rfl⟩ := Option.map_eq_some_iff.mp hstep
      obtain ⟨s, hs, rfl⟩ := Test.sysStep_eq_some hv
      exact .leave o s hplace hs
    · cases hstep
  | engine g l =>
    obtain ⟨s, hs, rfl⟩ := Test.sysStep_eq_some hstep
    exact .engine g l s hs

/-! ## The backend in a run -/

/-- A start of the backend whose child, if there is one, has its two pipes. -/
def Label.piped : Label → Prop
  | .begin w _ => ∀ st, w.piped st = true
  | _ => True

/-- The backend can be called wherever the test calls it. -/
structure Linked (t : Test) : Prop where
  sync : t.sys.backend.rx = t.sys.backend.child
  idle : t.place ≠ .draining → t.sys.draining = none
  alive : (∀ o, t.place ≠ .ended o) → t.sys.dropped = false
  fresh : t.place = .start → t.sys.engines = [] ∧ t.sys.backend.child = none
  one : t.sys.engines.length ≤ 1

theorem Linked.new (h : Host) (files : Files) (file : Option Bytes) :
    Linked (Test.new h files file) where
  sync := rfl
  idle _ := rfl
  alive _ := rfl
  fresh _ := ⟨rfl, rfl⟩
  one := Nat.zero_le _

theorem Test.writeReport_sys (t : Test) (io : DiskIo) : (t.writeReport io).sys = t.sys := by
  cases io <;> rfl

section

variable {h : Host} {t u : Test} {l : Label}

theorem Linked.callable (ht : Linked t) (hdraining : t.place ≠ .draining)
    (hended : ∀ o, t.place ≠ .ended o) : t.sys.callable = true := by
  rw [Sys.callable, ht.idle hdraining, ht.alive hended]
  rfl

/-- **Every step** is at most one of the backend's system. -/
theorem sysMoves_of_step (ht : Linked t) (hstep : step h t l = some u) : u.sys = t.sys ∨
    ∃ l' : Vm.Label, (l.piped → l'.piped) ∧ Vm.step h t.sys l' = some u.sys := by
  cases Test.takes_of_step hstep with
  | begin w io hplace hbegun =>
    have hcall : t.sys.callable = true :=
    ht.callable (by rw [hplace]; nofun) (by rw [hplace]; nofun)
    have hstart : Vm.step h t.sys (.start selfTestConfig (efiPath h) (codePath h) (varsPath h) w) =
        some (finalState (startEngine h w t.sys)) := call_eq_some.mpr ⟨hcall, rfl⟩
    cases hbegun with
    | missing => exact .inl (Test.writeReport_sys _ io)
    | failed e s _ hs | spawned s _ hs | panicked _ s hs =>
      have hran : some (finalState (startEngine h w t.sys)) = some s := by
        rw [hs]
        rfl
      exact .inr ⟨.start selfTestConfig (efiPath h) (codePath h) (varsPath h) w, fun hl => hl,
        hstart.trans hran⟩
  | expired | wake => exact .inl rfl
  | drain s _ hs | drainRecv s hs | drainEnd _ s _ hs | stop _ s _ hs | leave _ s _ hs
  | engine _ _ s hs =>
    refine .inr ⟨_, fun _ => ?_, hs⟩
    trivial
  | conclude passed io => exact .inl (Test.writeReport_sys _ io)

/-- A call of the backend that neither starts an engine, nor enters `drain_log`,
nor drops it. -/
theorem Linked.call (ht : Linked t) {l' : Vm.Label} (hs : Vm.step h t.sys l' = some u.sys)
    (hl' : (∀ cfg efi code vars w, l' ≠ .start cfg efi code vars w) ∧ l' ≠ .drainBegin ∧ l' ≠ .drop)
    (hdraining : u.place ≠ .draining → t.place ≠ .draining)
    (hended : (∀ o, u.place ≠ .ended o) → ∀ o, t.place ≠ .ended o) (hbegun : u.place ≠ .start) :
    Linked u where
  sync := step_sync ht.sync hs
  idle hu := step_idle hs ht.sync (ht.idle (hdraining hu)) hl'.2.1
  alive hu := (step_dropped ht.sync hs hl'.2.2).trans (ht.alive (hended hu))
  fresh hu := absurd hu hbegun
  one := Nat.le_trans (Nat.le_of_eq (step_history ht.sync hs hl'.1).1) ht.one

/-- Nothing moves by itself before the test has begun. -/
theorem Linked.begun (ht : Linked t) {g : Nat} {l : EngineLabel} {s : Sys}
    (hs : Vm.step h t.sys (.engine g l) = some s) : t.place ≠ .start := by
  intro hplace
  rw [Vm.step, (ht.fresh hplace).1] at hs
  cases hs

/-- `drain_log` is only ever in progress where the test called it. -/
theorem Linked.draining (ht : Linked t) {d : Drain} (hd : t.sys.draining = some d) :
    t.place = .draining := by
  by_contra hne
  rw [ht.idle hne] at hd
  cases hd

/-- The engine that `start` left, or not. -/
theorem Linked.started (ht : Linked t) (hplace : t.place = .start) {w : World} {s : Sys}
    (hs : s = finalState (startEngine h w t.sys)) :
    s.backend.rx = s.backend.child ∧ s.draining = none ∧ s.dropped = false ∧
      s.engines.length ≤ 1 ∧ s.returned = t.sys.returned := by
  have hcall : t.sys.callable = true :=
    ht.callable (by rw [hplace]; nofun) (by rw [hplace]; nofun)
  have hstep : Vm.step h t.sys (.start selfTestConfig (efiPath h) (codePath h) (varsPath h) w) =
      some s := call_eq_some.mpr ⟨hcall, hs.symm⟩
  have hkept := start_kept ht.sync hstep
  obtain ⟨hlen, hreturned⟩ := ends_iff_finalState.mp
    (@start_history h t.sys selfTestConfig (efiPath h) (codePath h) (varsPath h) w ht.sync)
  rw [(ht.fresh hplace).1] at hlen
  subst hs
  exact ⟨step_sync ht.sync hstep, hkept.draining.trans (callable_idle hcall),
    hkept.dropped.trans (callable_not_dropped hcall), hlen, hreturned⟩

/-- **Every step keeps the link.** -/
theorem Linked.step (ht : Linked t) (hstep : step h t l = some u) : Linked u := by
  cases Test.takes_of_step hstep with
  | begin w io hplace hbegun =>
    cases hbegun with
    | missing =>
      have hsys := Test.writeReport_sys
      refine ⟨?_, fun _ => ?_, fun hu => absurd rfl (hu _), nofun, ?_⟩ <;> simp only [hsys]
      · exact ht.sync
      · exact ht.idle (by rw [hplace]; nofun)
      · exact ht.one
    | failed e s _ hs | spawned s _ hs | panicked _ s hs =>
      obtain ⟨hsync, hidle, halive, hone, -⟩ := ht.started (h := h) (w := w) (s := s) hplace (by
        rw [hs]
        rfl)
      exact ⟨hsync, fun _ => hidle, fun _ => halive, nofun, hone⟩
  | expired hplace =>
    exact ⟨ht.sync, fun _ => ht.idle (by rw [hplace]; nofun),
      fun _ => ht.alive (by rw [hplace]; nofun), nofun, ht.one⟩
  | drain s hplace hs =>
    refine ⟨step_sync ht.sync hs, fun hu => absurd rfl hu, fun _ => ?_, nofun, ?_⟩
    · exact (step_dropped ht.sync hs nofun).trans (ht.alive (by rw [hplace]; nofun))
    · exact Nat.le_trans (Nat.le_of_eq (step_history ht.sync hs nofun).1) ht.one
  | drainRecv s hs =>
    obtain ⟨d, _, _, hd, -, -⟩ := drainRecv_eq_some hs
    have hplace := ht.draining hd
    exact ht.call hs ⟨nofun, nofun, nofun⟩ id id (by rw [hplace]; nofun)
  | drainEnd d s hd hs =>
    have hplace := ht.draining hd
    obtain ⟨d', -, -, hs'⟩ := drainEnd_eq_some hs
    have hnext : ∀ q, (Test.logged { t with sys := s } d.out).place = q → q ≠ .draining ∧
        q ≠ .start ∧ ∀ o, q ≠ .ended o := by
      rintro _ rfl
      rw [Test.logged]
      dsimp only
      split <;> exact ⟨nofun, nofun, nofun⟩
    refine ⟨step_sync ht.sync hs, fun _ => ?_, fun _ => ?_, fun hu => ?_, ?_⟩
    · rw [Test.logged, hs']
      rfl
    · exact (step_dropped ht.sync hs nofun).trans (ht.alive (by rw [hplace]; nofun))
    · exact absurd rfl (hnext _ hu).2.1
    · exact Nat.le_trans (Nat.le_of_eq (step_history ht.sync hs nofun).1) ht.one
  | wake hplace =>
    exact ⟨ht.sync, fun _ => ht.idle (by rw [hplace]; nofun),
      fun _ => ht.alive (by rw [hplace]; nofun), nofun, ht.one⟩
  | stop passed s hplace hs =>
    exact ht.call hs ⟨nofun, nofun, nofun⟩ (fun _ => by rw [hplace]; nofun)
      (fun _ => by rw [hplace]; nofun) nofun
  | conclude passed io hplace =>
    have hsys := Test.writeReport_sys
    refine ⟨?_, fun _ => ?_, fun _ => ?_, nofun, ?_⟩ <;> simp only [hsys]
    · exact ht.sync
    · exact ht.idle (by rw [hplace]; nofun)
    · exact ht.alive (by rw [hplace]; nofun)
    · exact ht.one
  | leave o s hplace hs =>
    refine ⟨step_sync ht.sync hs, fun _ => ?_, fun hu => absurd rfl (hu o), nofun, ?_⟩
    · exact step_idle hs ht.sync (ht.idle (by rw [hplace]; nofun)) nofun
    · exact Nat.le_trans (Nat.le_of_eq (step_history ht.sync hs nofun).1) ht.one
  | engine g l s hs =>
    have hbegun := ht.begun hs
    exact ht.call hs ⟨nofun, nofun, nofun⟩ id id hbegun

/-! ### The log and the verdict -/

/-- The verdict the test has come to, which is a failure until it passes. -/
def Place.passed : Place → Bool
  | .stopping passed | .reporting passed => passed
  | .leaving o | .ended o => o.exitCode == 0
  | _ => false

/-- The test has done with the strings that `drain_log` returned what the wait
loop does with them. -/
structure Polled (t : Test) : Prop where
  loop : waitLoop "" (t.sys.returned.map fun r => r.drain.out) = (t.place.passed, t.log)
  whole : t.log = String.join (t.sys.returned.map fun r => r.drain.out)

/-- The loop goes on with the next string, if it has not passed. -/
theorem waitLoop_concat {log log' : String} {drained : List String}
    (hloop : waitLoop log drained = (false, log')) (s : String) :
    waitLoop log (drained ++ [s]) = (decide (HasMarker (log' ++ s)), log' ++ s) := by
  induction drained generalizing log with
  | nil =>
    obtain rfl : log = log' := (Prod.mk.inj hloop).2
    rw [List.nil_append, waitLoop, waitLoop]
    by_cases hs : HasMarker (log ++ s)
    · rw [if_pos hs, decide_eq_true hs]
    · rw [if_neg hs, decide_eq_false hs]
  | cons d drained ih =>
    rw [waitLoop] at hloop
    by_cases hd : HasMarker (log ++ d)
    · rw [if_pos hd] at hloop
      cases (Prod.mk.inj hloop).1
    · rw [if_neg hd] at hloop
      rw [List.cons_append, waitLoop, if_neg hd, ih hloop]

/-- It passes when the log has the banner. -/
theorem Polled.passed_iff (ht : Polled t) : t.place.passed = true ↔ HasMarker t.log := by
  have hempty : ¬ HasMarker "" := by decide
  have hpassed := waitLoop_passed hempty (t.sys.returned.map fun r => r.drain.out)
  rwa [ht.loop] at hpassed

theorem Polled.keep (ht : Polled t) (hreturned : u.sys.returned = t.sys.returned)
    (hplace : u.place.passed = t.place.passed) (hlog : u.log = t.log) : Polled u := by
  refine ⟨?_, ?_⟩
  · rw [hreturned, hplace, hlog]
    exact ht.loop
  · rw [hreturned, hlog]
    exact ht.whole

/-- Only a drain that returns adds to what was drained. -/
theorem step_returned (ht : Linked t) (hstep : step h t l = some u) (hl : l ≠ .drainEnd) :
    u.sys.returned = t.sys.returned := by
  cases Test.takes_of_step hstep with
  | begin w io hplace hbegun =>
    cases hbegun with
    | missing => exact congrArg Sys.returned (Test.writeReport_sys _ io)
    | failed e s _ hs | spawned s _ hs | panicked _ s hs =>
      obtain ⟨-, -, -, -, hreturned⟩ := ht.started (h := h) (w := w) (s := s) hplace (by
        rw [hs]
        rfl)
      exact hreturned
  | expired | wake => rfl
  | drain s _ hs | stop _ s _ hs | leave _ s _ hs | drainRecv s hs | engine _ _ s hs =>
    exact (step_history ht.sync hs nofun).2 nofun
  | drainEnd => exact absurd rfl hl
  | conclude passed io => exact congrArg Sys.returned (Test.writeReport_sys _ io)

theorem Test.writeReport_log (t : Test) (io : DiskIo) : (t.writeReport io).log = t.log := by
  cases io <;> rfl

theorem verdict_exitCode (passed : Bool) :
    ((Outcome.returned (verdict passed)).exitCode == 0) = passed := by
  cases passed <;> rfl

theorem run_returned {ls : List Label} (ht : Linked t) (hls : ∀ l ∈ ls, l ≠ .drainEnd)
    (hrun : run (step h) t ls = some u) : u.sys.returned = t.sys.returned := by
  have hstep : ∀ (v : Test) (l : Label) (v' : Test), l ≠ .drainEnd →
      Linked v ∧ v.sys.returned = t.sys.returned → step h v l = some v' →
      Linked v' ∧ v'.sys.returned = t.sys.returned := fun _ _ _ hl hv hstep =>
    ⟨hv.1.step hstep, (step_returned hv.1 hstep hl).trans hv.2⟩
  exact (run_inv_on hstep hls ⟨ht, rfl⟩ hrun).2

/-- **Every step keeps it.** -/
theorem Polled.step (hlinked : Linked t) (ht : Polled t) (hstep : step h t l = some u) :
    Polled u := by
  have hreturned := step_returned hlinked hstep
  cases Test.takes_of_step hstep with
  | begin w io hplace hbegun =>
    have hpassed : t.place.passed = false := by rw [hplace]; rfl
    have hsame := hreturned nofun
    cases hbegun with
    | missing | failed => exact ht.keep hsame hpassed.symm (Test.writeReport_log _ io)
    | spawned | panicked => exact ht.keep hsame hpassed.symm rfl
  | expired hplace | wake hplace => exact ht.keep rfl (by rw [hplace]; rfl) rfl
  | drain _ hplace | stop _ _ hplace | leave _ _ hplace =>
    exact ht.keep (hreturned nofun) (by rw [hplace]; rfl) rfl
  | drainRecv | engine => exact ht.keep (hreturned nofun) rfl rfl
  | drainEnd d s hd hs =>
    have hplace := hlinked.draining hd
    obtain ⟨d', hd', -, rfl⟩ := drainEnd_eq_some hs
    obtain rfl : d = d' := Option.some.inj (hd.symm.trans hd')
    have hloop := ht.loop
    rw [hplace] at hloop
    have houts : ((t.sys.drainedBy d).returned.map fun r => r.drain.out) =
        (t.sys.returned.map fun r => r.drain.out) ++ [d.out] := List.map_append
    refine ⟨?_, ?_⟩
    · show waitLoop "" ((t.sys.drainedBy d).returned.map _) = _
      rw [houts, waitLoop_concat hloop d.out, Test.logged]
      by_cases hmarker : HasMarker (t.log ++ d.out)
      · simp only [hmarker, decide_true, if_true, Place.passed]
      · simp only [hmarker, decide_false, if_false, Place.passed]
    · show t.log ++ d.out = String.join ((t.sys.drainedBy d).returned.map _)
      rw [houts, String.join_append, ← ht.whole, String.join_cons, String.join_nil,
        String.append_empty]
  | conclude passed io hplace =>
    refine ht.keep (hreturned nofun) ?_ (Test.writeReport_log _ io)
    rw [hplace]
    exact verdict_exitCode passed

/-! ### The report -/

/-- What a report file has in it after a report of these lines, which may have
failed to be written; `file` is what was in it before. -/
def Partly (file : Option Bytes) (lines : List String) (now : Option Bytes) : Prop :=
  now = file ∨ ∃ n, now = some ((utf8 (said lines)).take n)

theorem Test.partly_writeReport {file : Option Bytes} {lines : List String}
    (hfile : t.file = file) (hreport : t.report = said lines) (io : DiskIo) :
    Partly file lines (t.writeReport io).file := by
  cases io with
  | ok =>
    refine .inr ⟨(utf8 t.report).length, ?_⟩
    rw [← hreport, List.take_length]
    rfl
  | createFails => exact .inl hfile
  | writeFails n => exact .inr ⟨n, by rw [← hreport]; rfl⟩

@[simp] theorem Test.writeReport_report (t : Test) (io : DiskIo) :
    (t.writeReport io).report = t.report := by
  cases io <;> rfl

/-- What has been said where the test is, and what is in the file; `file` is what
was in it before. -/
def Told (h : Host) (file : Option Bytes) (t : Test) : Prop :=
  match t.place with
  | .start => t.report = "" ∧ t.file = file
  | .leaving (.returned r) | .ended (.returned r) =>
    ∃ lines, Report h t.log r lines ∧ t.report = said lines ∧ Partly file lines t.file
  | .leaving (.panicked _) | .ended (.panicked _) => t.file = file
  | _ => (∀ x ∈ needed h, h.present x.2 = true) ∧ t.file = file ∧
    t.report = said (headLines h ++ ["  engine spawned (software emulation)"])

/-- In the wait loop, or after it. -/
def Place.going : Place → Bool
  | .waiting | .draining | .sleeping | .stopping _ | .reporting _ => true
  | _ => false

section

variable {file : Option Bytes}

theorem told_going (hgoing : t.place.going = true) : Told h file t ↔
    (∀ x ∈ needed h, h.present x.2 = true) ∧ t.file = file ∧
      t.report = said (headLines h ++ ["  engine spawned (software emulation)"]) := by
  rw [Told]
  split <;> rename_i hplace <;> try (rw [hplace] at hgoing; cases hgoing)
  exact Iff.rfl

/-- A step that says nothing. -/
theorem Told.going (ht : Told h file t) (hfrom : t.place.going = true)
    (hto : u.place.going = true) (hfile : u.file = t.file) (hreport : u.report = t.report) :
    Told h file u := by
  rw [told_going hto, hfile, hreport]
  exact (told_going hfrom).mp ht

/-- A step that changes neither the place nor what was said. -/
theorem Told.same (ht : Told h file t) (hplace : u.place = t.place) (hlog : u.log = t.log)
    (hreport : u.report = t.report) (hfile : u.file = t.file) : Told h file u := by
  rw [Told, hplace, hlog, hreport, hfile]
  exact ht

/-- Where the test has just written its report. -/
theorem told_writeReport {r : Except String PUnit} {lines : List String} {io : DiskIo}
    (hreport : Report h t.log r lines) (hsaid : t.report = said lines) (hfile : t.file = file)
    (hplace : u.place = .leaving (.returned r) ∨ u.place = .ended (.returned r))
    (hu : u.report = (t.writeReport io).report ∧ u.file = (t.writeReport io).file ∧
      u.log = (t.writeReport io).log) : Told h file u := by
  obtain ⟨hureport, hufile, hulog⟩ := hu
  have htold : ∃ lines, Report h u.log r lines ∧ u.report = said lines ∧
      Partly file lines u.file := by
    rw [hureport, hufile, hulog, Test.writeReport_log, Test.writeReport_report]
    exact ⟨lines, hreport, hsaid, Test.partly_writeReport hfile hsaid io⟩
  rw [Told]
  rcases hplace with hplace | hplace <;> rw [hplace] <;> exact htold

/-- **Every step keeps it**. -/
theorem Told.step (hlinked : Linked t) (hpolled : Polled t) (ht : Told h file t)
    (hstep : step h t l = some u) : Told h file u := by
  cases Test.takes_of_step hstep with
  | begin w io hplace hbegun =>
    rw [Told, hplace] at ht
    obtain ⟨hreport, hfile⟩ := ht
    have hsaid : ∀ lines, (t.sayAll lines).report = said lines := fun lines => by
      rw [Test.sayAll, hreport, String.empty_append]
    cases hbegun with
    | missing before after what path hneeded hall hpath =>
      exact told_writeReport (t := t.sayAll _) (.missing before after what path hneeded hall hpath)
        (hsaid _) hfile (.inr rfl) ⟨rfl, rfl, rfl⟩
    | failed e s hall =>
      exact told_writeReport (t := t.sayAll _) (.failed e hall) (hsaid _) hfile (.inl rfl)
        ⟨rfl, rfl, rfl⟩
    | spawned s hall => exact ⟨hall, hfile, hsaid _⟩
    | panicked => exact hfile
  | expired hplace | wake hplace | drain s hplace hs | stop _ s hplace hs =>
    exact ht.going (by rw [hplace]; rfl) rfl rfl rfl
  | drainRecv s hs | engine _ _ s hs => exact ht.same rfl rfl rfl rfl
  | drainEnd d s hd hs =>
    have hplace := hlinked.draining hd
    refine ht.going (by rw [hplace]; rfl) ?_ rfl rfl
    rw [Test.logged]
    dsimp only
    split <;> rfl
  | conclude passed io hplace =>
    rw [told_going (by rw [hplace]; rfl)] at ht
    obtain ⟨hall, hfile, hreport⟩ := ht
    -- the verdict is about the log
    have hpassed : passed = decide (HasMarker t.log) := by
      have hiff := hpolled.passed_iff
      rw [hplace] at hiff
      exact Bool.eq_iff_iff.mpr (hiff.trans decide_eq_true_iff.symm)
    rw [hpassed]
    refine told_writeReport (t := t.sayAll (verdictLines (HasMarker t.log) t.log)) (.waited hall) ?_
      hfile (.inl rfl) ⟨rfl, rfl, rfl⟩
    rw [Test.sayAll, hreport, ← said_append, List.append_assoc, List.singleton_append]
  | leave o s hplace hs =>
    rw [Told, hplace] at ht
    cases o <;> exact ht

end

/-- Whether the report is written, where the step writes one. -/
def Label.written : Label → Prop
  | .begin _ io | .conclude io => io = .ok
  | _ => True

/-- The report is in its file once the test returns. -/
def Put (t : Test) : Prop :=
  ∀ r, t.place = .leaving (.returned r) ∨ t.place = .ended (.returned r) →
    t.file = some (utf8 t.report)

theorem Put.step (ht : Put t) (hl : l.written) (hstep : step h t l = some u) : Put u := by
  cases Test.takes_of_step hstep with
  | begin w io hplace hbegun =>
    obtain rfl : io = .ok := hl
    cases hbegun with
    | missing | failed => exact fun _ _ => rfl
    | spawned | panicked => exact fun _ hu => by rcases hu with hu | hu <;> cases hu
  | conclude passed io =>
    obtain rfl : io = .ok := hl
    exact fun _ _ => rfl
  | leave o s hplace =>
    rintro r (hu | hu) <;> cases hu
    exact ht r (.inl hplace)
  | expired | wake | drain | stop => exact fun _ hu => by rcases hu with hu | hu <;> cases hu
  | drainRecv | engine => exact ht
  | drainEnd d s hd =>
    rintro r (hu | hu) <;> rw [Test.logged] at hu <;> dsimp only at hu <;> split at hu <;> cases hu

/-- The line of the report that says so. -/
def passedLine : String := "== SELF-TEST PASSED =="

/-- A line that begins with another character. -/
theorem ne_passedLine {c : Char} (hc : c ≠ '=') (rest : String) :
    passedLine ≠ String.singleton c ++ rest := by
  intro heq
  have hhead := congrArg (fun s => s.toList.head?) heq
  simp only [String.toList_append, String.toList_singleton] at hhead
  exact hc (Option.some.inj hhead).symm

theorem indented_ne_passedLine (s : String) : passedLine ≠ "  " ++ s := by
  have hsplit : "  " ++ s = String.singleton ' ' ++ (" " ++ s) := by
    rw [← String.append_assoc]
    rfl
  rw [hsplit]
  exact ne_passedLine (by decide) _

theorem checkLine_ne_passedLine (what : String) (ok : Bool) : passedLine ≠ checkLine what ok := by
  rw [checkLine, String.append_assoc, String.append_assoc]
  exact indented_ne_passedLine _

theorem not_mem_titleLines (h : Host) : passedLine ∉ titleLines h := by
  have hdir : "exe dir: " ++ exeDir h = String.singleton 'e' ++ ("xe dir: " ++ exeDir h) := by
    rw [← String.append_assoc]
    rfl
  rw [titleLines, hdir]
  simp only [List.mem_cons, List.not_mem_nil, or_false, not_or]
  exact ⟨by decide, ne_passedLine (by decide) _⟩

theorem not_mem_foundLines (files : List (String × String)) : passedLine ∉ foundLines files := by
  intro hmem
  obtain ⟨x, -, hx⟩ := List.mem_map.mp hmem
  exact checkLine_ne_passedLine _ _ hx.symm

theorem not_mem_headLines (h : Host) : passedLine ∉ headLines h := by
  simp only [headLines, List.mem_append, List.mem_singleton, not_or]
  exact ⟨⟨not_mem_titleLines h, not_mem_foundLines _⟩, checkLine_ne_passedLine _ _⟩

theorem mem_verdictLines (passed : Bool) (log : String) :
    passedLine ∈ verdictLines passed log ↔ passed = true := by
  have hquoted : ∀ ls : List String, passedLine ∉ ls.map fun l => "  " ++ l := fun ls hmem => by
    obtain ⟨l, -, hl⟩ := List.mem_map.mp hmem
    exact indented_ne_passedLine l hl.symm
  have hraw : ∀ ls : List String, passedLine ∉ ls.map fun l => "    " ++ l := fun ls hmem => by
    obtain ⟨l, -, hl⟩ := List.mem_map.mp hmem
    have hsplit : "    " ++ l = "  " ++ ("  " ++ l) := by
      rw [← String.append_assoc]
      rfl
    exact indented_ne_passedLine _ (hl.symm.trans hsplit)
  rw [verdictLines, List.mem_append, or_iff_right (hquoted _)]
  cases passed with
  | true => simp [passedLine]
  | false =>
    rw [if_neg Bool.false_ne_true, List.mem_cons]
    refine iff_of_false (not_or.mpr ⟨by decide, ?_⟩) Bool.false_ne_true
    split
    · decide
    · rw [List.mem_cons, not_or]
      exact ⟨by decide, hraw _⟩

/-- The report says so exactly if the test passed. -/
theorem Report.passed_iff {log : String} {r : Except String PUnit} {lines : List String}
    (hr : Report h log r lines) : passedLine ∈ lines ↔ (Outcome.returned r).exitCode = 0 := by
  cases hr with
  | missing before after what =>
    refine iff_of_false ?_ Nat.one_ne_zero
    simp only [List.mem_append, List.mem_singleton, not_or]
    exact ⟨⟨not_mem_titleLines h, not_mem_foundLines _⟩, checkLine_ne_passedLine _ _⟩
  | failed e =>
    refine iff_of_false ?_ Nat.one_ne_zero
    have hsplit : "  engine spawn failed: " ++ e = "  " ++ ("engine spawn failed: " ++ e) := by
      rw [← String.append_assoc]
      rfl
    simp only [List.mem_append, List.mem_singleton, not_or, hsplit]
    exact ⟨not_mem_headLines h, indented_ne_passedLine _⟩
  | waited =>
    have hexit := verdict_exitCode (decide (HasMarker log))
    rw [List.mem_append, or_iff_right (not_mem_headLines h), List.mem_cons,
      or_iff_right (by decide), mem_verdictLines]
    exact (Iff.of_eq (congrArg (fun b => b = true) hexit)).symm.trans beq_iff_eq

/-! ### The processes -/

/-- Who owns the processes, and that none is left at the end. -/
structure Left (t : Test) : Prop where
  owned : Owned t.sys
  gone : ∀ o, t.place = .ended o → t.sys.backend.child = none

theorem Left.step (hlinked : Linked t) (ht : Left t) (hl : l.piped) (hstep : step h t l = some u) :
    Left u := by
  refine ⟨?_, ?_⟩
  · rcases sysMoves_of_step hlinked hstep with heq | ⟨l', hl', hs⟩
    · rw [heq]
      exact ht.owned
    · exact ht.owned.step (hl' hl) hs
  · cases Test.takes_of_step hstep with
    | begin w io hplace hbegun =>
      cases hbegun with
      | missing =>
        rw [Test.writeReport_sys]
        exact fun _ _ => (hlinked.fresh hplace).2
      | failed | spawned | panicked => nofun
    | expired | drain | wake | stop | conclude => nofun
    | drainRecv s hs =>
      obtain ⟨d, _, _, hd, -, -⟩ := drainRecv_eq_some hs
      exact fun o ho => absurd ((hlinked.draining hd).symm.trans ho) nofun
    | drainEnd d s =>
      intro o ho
      rw [Test.logged] at ho
      dsimp only at ho
      split at ho <;> cases ho
    | leave o s _ hs =>
      cases Sys.moves_of_step hlinked.sync hs with
      | drop => exact fun _ _ => t.sys.stopped_child
    | engine g l s hs =>
      cases Sys.moves_of_step hlinked.sync hs with
      | engine => exact ht.gone

end

/-! ## Every run -/

/-- A test that has ended by the labels `ls`; `file` is what was in its report file
before. -/
structure Finished (h : Host) (file : Option Bytes) (ls : List Label) (t : Test) (o : Outcome) :
    Prop where
  /-- It succeeds exactly if the banner came through, -/
  exit : o.exitCode = 0 ↔ HasMarker t.log
  /-- that is, in the log that the wait loop makes of what was drained. -/
  polled : waitLoop "" (t.sys.returned.map fun r => r.drain.out) = (o.exitCode == 0, t.log)
  /-- The report is complete, and says `PASSED` exactly if it succeeded. If it
  could be written it is in its file, and otherwise at most a part of it is. -/
  report : ∀ r, o = .returned r → ∃ lines, Report h t.log r lines ∧ t.report = said lines ∧
    (passedLine ∈ lines ↔ o.exitCode = 0) ∧ Partly file lines t.file ∧
      ((∀ l ∈ ls, l.written) → t.file = some (utf8 t.report))
  /-- A test that panics leaves the report of an earlier one. -/
  stale : ∀ p, o = .panicked p → t.file = file
  /-- At most one engine was spawned, and none is left. -/
  spawned : t.sys.engines.length ≤ 1
  reaped : ∀ g, ¬ Unreaped t.sys g

/-- What every state reached has. -/
structure Good (h : Host) (file : Option Bytes) (t : Test) : Prop extends Linked t, Left t where
  polled : Polled t
  told : Told h file t

theorem Good.new (h : Host) (files : Files) (file : Option Bytes) :
    Good h file (Test.new h files file) where
  toLinked := .new h files file
  toLeft := ⟨.new _ files, nofun⟩
  polled := ⟨rfl, rfl⟩
  told := ⟨rfl, rfl⟩

theorem Good.step {h : Host} {file : Option Bytes} {t u : Test} {l : Label}
    (ht : Good h file t) (hl : l.piped) (hstep : step h t l = some u) : Good h file u where
  toLinked := ht.toLinked.step hstep
  toLeft := ht.toLeft.step ht.toLinked hl hstep
  polled := ht.polled.step ht.toLinked hstep
  told := ht.told.step ht.toLinked ht.polled hstep

section

variable {h : Host} {files : Files} {file : Option Bytes} {ls : List Label} {t : Test} {o : Outcome}

theorem good_run (hpiped : ∀ l ∈ ls, l.piped)
    (hrun : run (step h) (Test.new h files file) ls = some t) : Good h file t :=
  run_inv_on (fun _ _ _ hl ht hstep => Good.step ht hl hstep) hpiped (.new h files file) hrun

/-- Where the report could be written it is in its file. -/
theorem put_run (hwritten : ∀ l ∈ ls, l.written)
    (hrun : run (step h) (Test.new h files file) ls = some t) : Put t := by
  have hnew : Put (Test.new h files file) := by
    rintro r (hplace | hplace) <;> cases hplace
  exact run_inv_on (fun _ _ _ hl ht hstep => Put.step ht hl hstep) hwritten hnew hrun

/-- A test that returned has its report. -/
theorem Good.reported {r : Except String PUnit} (ht : Good h file t)
    (hend : t.place = .ended (.returned r)) :
    ∃ lines, Report h t.log r lines ∧ t.report = said lines ∧ Partly file lines t.file := by
  have htold := ht.told
  rw [Told, hend] at htold
  exact htold

/-- **How a self-test ends**, whatever the clock, the engine and its readers do
in between. -/
theorem selfTest_finished (hpiped : ∀ l ∈ ls, l.piped)
    (hrun : run (step h) (Test.new h files file) ls = some t) (hend : t.place = .ended o) :
    Finished h file ls t o := by
  have ht := good_run hpiped hrun
  have hpolled := ht.polled.loop
  rw [hend] at hpolled
  have hexit := ht.polled.passed_iff
  rw [hend] at hexit
  refine ⟨beq_iff_eq.symm.trans hexit, hpolled, ?_, ?_, ht.one,
    ht.owned.not_unreaped (ht.gone o hend)⟩
  · rintro r rfl
    obtain ⟨lines, hreport, hsaid, hpartly⟩ := ht.reported hend
    exact ⟨lines, hreport, hsaid, hreport.passed_iff, hpartly, fun hwritten =>
      put_run hwritten hrun r (.inr hend)⟩
  · rintro p rfl
    have htold := ht.told
    rw [Told, hend] at htold
    exact htold

end

/-! ## It comes to an end -/

/-- A step of the test itself. -/
def Label.own : Label → Prop
  | .engine _ _ => False
  | _ => True

/-- The test ends so by these steps. -/
def EndsBy (h : Host) (t : Test) (ls : List Label) (o : Outcome) : Prop :=
  ∃ u, run (step h) t ls = some u ∧ u.place = .ended o

section

variable {h : Host} {t u : Test} {l : Label} {ls : List Label} {o : Outcome} {passed : Bool}

theorem EndsBy.cons (hstep : step h t l = some u) (hu : EndsBy h u ls o) :
    EndsBy h t (l :: ls) o := by
  obtain ⟨v, hrun, hend⟩ := hu
  refine ⟨v, ?_, hend⟩
  rw [run, hstep]
  exact hrun

theorem EndsBy.ended (hplace : t.place = .ended o) : EndsBy h t [] o := ⟨t, rfl, hplace⟩

theorem EndsBy.leaving (ht : Linked t) (hplace : t.place = .leaving o) : EndsBy h t [.leave] o := by
  have hcall := ht.callable (by rw [hplace]; nofun) (by rw [hplace]; nofun)
  have hstep : step h t .leave =
      some { t with sys := finalState (dropBackend t.sys), place := .ended o } := by
    rw [step, hplace, Test.sysStep, Vm.step, call_eq_some.mpr ⟨hcall, rfl⟩]
    rfl
  exact .cons hstep (.ended rfl)

theorem EndsBy.reporting (ht : Linked t) (hplace : t.place = .reporting passed) :
    EndsBy h t [.conclude .ok, .leave] (.returned (verdict passed)) := by
  have hstep : step h t (.conclude .ok) = some (conclude passed .ok t) := by
    rw [step, hplace]
  exact .cons hstep (.leaving (ht.step hstep) rfl)

theorem EndsBy.stopping (ht : Linked t) (hplace : t.place = .stopping passed) :
    EndsBy h t [.stop, .conclude .ok, .leave] (.returned (verdict passed)) := by
  have hcall := ht.callable (by rw [hplace]; nofun) (by rw [hplace]; nofun)
  have hstep : step h t .stop =
      some { t with sys := finalState (Vm.stop t.sys), place := .reporting passed } := by
    rw [step, hplace, Test.sysStep, Vm.step, call_eq_some.mpr ⟨hcall, rfl⟩]
    rfl
  exact .cons hstep (.reporting (ht.step hstep) rfl)

theorem EndsBy.waiting (ht : Linked t) (hplace : t.place = .waiting) :
    EndsBy h t [.now true, .stop, .conclude .ok, .leave] (.returned (verdict false)) := by
  have hstep : step h t (.now true) = some { t with place := .stopping false } := by
    rw [step, hplace]
    rfl
  exact .cons hstep (.stopping (ht.step hstep) rfl)

theorem EndsBy.sleeping (ht : Linked t) (hplace : t.place = .sleeping) :
    EndsBy h t [.wake, .now true, .stop, .conclude .ok, .leave] (.returned (verdict false)) := by
  have hstep : step h t .wake = some { t with place := .waiting } := by
    rw [step, hplace]
  exact .cons hstep (.waiting (ht.step hstep) rfl)

/-- `drain_log` returns when nothing is left. -/
theorem step_drainEnd {d : Drain} (hd : t.sys.draining = some d) (hpending : t.sys.pending = []) :
    step h t .drainEnd = some (Test.logged { t with sys := t.sys.drainedBy d } d.out) := by
  rw [step, hd]
  simp only [Test.sysStep, Vm.step, hd, hpending]
  rfl

/-- The test can end within `n` steps of its own. -/
def CanEnd (h : Host) (t : Test) (n : Nat) : Prop :=
  ∃ ls o, (∀ l ∈ ls, Label.own l) ∧ ls.length ≤ n ∧ EndsBy h t ls o

theorem CanEnd.cons {n : Nat} (hstep : step h t l = some u) (hl : l.own) (hu : CanEnd h u n) :
    CanEnd h t (n + 1) := by
  obtain ⟨ls, o, hown, hlen, hend⟩ := hu
  refine ⟨l :: ls, o, fun l' hl' => ?_, Nat.succ_le_succ hlen, .cons hstep hend⟩
  rcases List.mem_cons.mp hl' with rfl | hl'
  · exact hl
  · exact hown l' hl'

theorem EndsBy.canEnd {n : Nat} (ht : EndsBy h t ls o) (hls : ∀ l ∈ ls, l.own)
    (hn : ls.length ≤ n) : CanEnd h t n :=
  ⟨ls, o, hls, hn, ht⟩

/-- `drain_log` takes what is there, and returns. -/
theorem CanEnd.draining (n : Nat) {t : Test} (ht : Linked t) {d : Drain}
    (hd : t.sys.draining = some d) (hn : t.sys.pending.length = n) : CanEnd h t (n + 6) := by
  induction n generalizing t d with
  | zero =>
    have hstep := step_drainEnd (h := h) hd (List.length_eq_zero_iff.mp hn)
    have hnext := ht.step hstep
    refine .cons hstep trivial ?_
    by_cases hmarker : HasMarker (t.log ++ d.out)
    · exact (EndsBy.stopping hnext (if_pos hmarker)).canEnd (by simp [Label.own]) (by simp)
    · exact (EndsBy.sleeping hnext (if_neg hmarker)).canEnd (by simp [Label.own]) (by simp)
  | succ n ih =>
    obtain ⟨c, rest, hpending⟩ := List.exists_cons_of_length_eq_add_one hn
    have hstep : step h t .drainRecv = some { t with sys := t.sys.received d c } := by
      simp only [step, Test.sysStep, Vm.step, hd, hpending]
      rfl
    have hrest : (t.sys.received d c).pending.length = n := by
      rw [received_pending hpending]
      rw [hpending] at hn
      exact Nat.succ.inj hn
    exact .cons hstep trivial (ih (ht.step hstep) rfl hrest)

/-- `drain_log` is in progress where the test is in it. -/
def Busy (t : Test) : Prop := t.place = .draining → t.sys.draining.isSome = true

theorem Busy.step (hlinked : Linked t) (ht : Busy t) (hstep : step h t l = some u) : Busy u := by
  cases Test.takes_of_step hstep with
  | begin w io hplace hbegun => cases hbegun <;> nofun
  | expired | wake | stop | conclude | leave => nofun
  | drain s _ hs =>
    cases Sys.moves_of_step hlinked.sync hs with
    | drainBegin => exact fun _ => rfl
  | drainRecv s hs =>
    obtain ⟨d, c, _, _, _, rfl⟩ := drainRecv_eq_some hs
    exact fun _ => rfl
  | drainEnd d s =>
    intro hplace
    rw [Test.logged] at hplace
    dsimp only at hplace
    split at hplace <;> cases hplace
  | engine g l s hs =>
    cases Sys.moves_of_step hlinked.sync hs with
    | engine => exact ht

/-- **It never gets stuck**: at any moment of any run it can end, however the
host answers, in a few steps more than there are strings to be drained. -/
theorem selfTest_ends {files : Files} {file : Option Bytes}
    (hrun : run (step h) (Test.new h files file) ls = some t) (w : World) :
    CanEnd h t (t.sys.pending.length + 6) := by
  obtain ⟨ht, hbusy⟩ : Linked t ∧ Busy t :=
    run_inv (I := fun t => Linked t ∧ Busy t)
      (fun _ _ _ hs hstep => ⟨hs.1.step hstep, hs.2.step hs.1 hstep⟩)
      ⟨.new h files file, nofun⟩ hrun
  cases hplace : t.place with
  | start =>
    obtain ⟨u, hstep, hbegun⟩ : ∃ u, step h t (.begin w .ok) = some u ∧ t.Begun h w .ok u :=
      ⟨_, by rw [step, hplace], begin_begun h w .ok t⟩
    have hnext := ht.step hstep
    refine .cons hstep trivial ?_
    cases hbegun with
    | missing => exact (EndsBy.ended rfl).canEnd (by simp) (by simp)
    | failed => exact (EndsBy.leaving hnext rfl).canEnd (by simp [Label.own]) (by simp)
    | spawned => exact (EndsBy.waiting hnext rfl).canEnd (by simp [Label.own]) (by simp)
    | panicked => exact (EndsBy.leaving hnext rfl).canEnd (by simp [Label.own]) (by simp)
  | waiting => exact (EndsBy.waiting ht hplace).canEnd (by simp [Label.own]) (by simp)
  | draining =>
    obtain ⟨d, hd⟩ := Option.isSome_iff_exists.mp (hbusy hplace)
    exact .draining _ ht hd rfl
  | sleeping => exact (EndsBy.sleeping ht hplace).canEnd (by simp [Label.own]) (by simp)
  | stopping => exact (EndsBy.stopping ht hplace).canEnd (by simp [Label.own]) (by simp)
  | reporting => exact (EndsBy.reporting ht hplace).canEnd (by simp [Label.own]) (by simp)
  | leaving => exact (EndsBy.leaving ht hplace).canEnd (by simp [Label.own]) (by simp)
  | ended => exact (EndsBy.ended hplace).canEnd (by simp) (by simp)

end

/-! ## A boot of the hypervisor -/

/-- A test of one engine has all that was drained from it. -/
theorem joined_drains {s : Sys} (hs : Logged s) (hone : s.engines.length ≤ 1) :
    (String.join (s.returned.map fun r => r.drain.out)) = joined (drainedOf s.returned 0) := by
  have honly : ∀ r ∈ s.returned, ∀ c ∈ r.drain.got, r.engine = some 0 := by
    intro r hr c hc
    obtain ⟨-, htag, hlt⟩ := hs.returned r hr
    have hengine := htag c hc
    have hzero : c.engine = 0 := by
      have := hlt _ hengine
      omega
    rw [hengine, hzero]
  have htext : (s.returned.map fun r => r.drain.out) =
      (s.returned.map fun r => r.drain.got).map joined := by
    rw [List.map_map]
    exact List.map_congr_left fun r hr => (hs.returned r hr).1
  rw [htext, drainedOf_only honly, ← String.toList_inj, join_drains, joined_toList]

/-- Tagged lines that stand in the log stand in the report of a test that passed. -/
theorem verdictLines_tagged {ps qs : List Bytes} {ls : List String} (hls : ∀ l ∈ ls, Tagged l)
    (hne : ls ≠ []) (hend : ps.flatten = [] ∨ ps.flatten.getLast? = some 0x0A) :
    ∃ before after, verdictLines true (decodedReads ps ++ terminated ls ++ decodedReads qs) =
      before ++ (ls.map fun l => "  " ++ l) ++ after ++ [passedLine] := by
  have hlines : Vm.lines (decodedReads ps ++ terminated ls ++ decodedReads qs) =
      Vm.lines (decodedReads ps) ++ ls ++ Vm.lines (decodedReads qs) := by
    rw [lines_append (.inr (terminated_newline hne _)),
      lines_append_terminated (fun l hl => (hls l hl).1) hend]
  have htagged : (ls.filter fun l => decide (Contains l "[mochivm]")) = ls :=
    List.filter_eq_self.mpr fun l hl => decide_eq_true (hls l hl).contains
  rw [verdictLines, hlines, List.filter_append, List.filter_append, htagged, List.map_append,
    List.map_append]
  exact ⟨_, _, rfl⟩

section

variable {env : Env} {systemTable : BitVec 64} {s m : Machine} {stage : Stage} {h : Host}
  {files : Files} {file : Option Bytes} {ls : List Label} {t : Test} {o : Outcome}
  {reads : List Bytes} {p more : Bytes} {n : Nat}

/-- What the log of a test has when the boot's first line has come through. -/
theorem log_boot (hs : Fresh s) (hserial : s.serial = []) (hboot : Boot env systemTable s stage m)
    (hpiped : ∀ l ∈ ls, l.piped) (hrun : run (step h) (Test.new h files file) ls = some t)
    (hsilent : t.sys.delivered 0 .stderr = [])
    (hstdout : t.sys.delivered 0 .stdout = reads.map fromUtf8Lossy)
    (hreads : reads.flatten = p ++ Serial.encode (m.serial.take (n + 1)) ++ more) :
    ∃ ps qs : List Bytes, ps.flatten = p ∧
      t.log = decodedReads ps ++ terminated (m.serial.take (n + 1)) ++ decodedReads qs ∧
      (∀ l ∈ m.serial.take (n + 1), Tagged l) ∧
      "[mochivm] mochivm booted" ∈ m.serial.take (n + 1) := by
  have ht := good_run hpiped hrun
  have hlogged : Linked t ∧ Logged t.sys := run_inv (I := fun t => Linked t ∧ Logged t.sys)
    (fun _ _ _ hs hstep => ⟨hs.1.step hstep, by
      rcases sysMoves_of_step hs.1 hstep with heq | ⟨l', -, hs'⟩
      · exact heq ▸ hs.2
      · exact hs.2.step hs'⟩) ⟨.new h files file, .new _ files⟩ hrun
  have hlog : t.log = decodedReads reads := by
    rw [ht.polled.whole, joined_drains hlogged.2 ht.one, joined_silent hsilent, hstdout,
      decodedReads]
  obtain ⟨htagged, hfirst⟩ := boot_serial hs hserial hboot
  have hls : ∀ l ∈ m.serial.take (n + 1), Tagged l := fun l hl =>
    htagged l (List.mem_of_mem_take hl)
  have hbanner : "[mochivm] mochivm booted" ∈ m.serial.take (n + 1) := by
    obtain ⟨rest, hrest⟩ := List.head?_eq_some_iff.mp hfirst
    rw [hrest]
    exact List.mem_cons_self
  obtain ⟨ps, qs, hps, -, htext⟩ := decodedReads_encode_between (fun l hl => (hls l hl).1)
    (List.ne_nil_of_mem hbanner) hreads
  exact ⟨ps, qs, hps, hlog.trans htext, hls, hbanner⟩

/-- **The exit code of a boot's test**: if the boot's first line has come through,
stderr being silent, the test passes. -/
theorem passes_boot (hs : Fresh s) (hserial : s.serial = [])
    (hboot : Boot env systemTable s stage m) (hpiped : ∀ l ∈ ls, l.piped)
    (hrun : run (step h) (Test.new h files file) ls = some t) (hend : t.place = .ended o)
    (hsilent : t.sys.delivered 0 .stderr = [])
    (hstdout : t.sys.delivered 0 .stdout = reads.map fromUtf8Lossy)
    (hreads : reads.flatten = p ++ Serial.encode (m.serial.take (n + 1)) ++ more) :
    HasMarker t.log ∧ o = .returned (.ok ⟨⟩) := by
  obtain ⟨ps, qs, -, hlog, -, hbanner⟩ :=
    log_boot hs hserial hboot hpiped hrun hsilent hstdout hreads
  have hmarker : HasMarker t.log := by
    rw [hlog]
    exact Contains.append (terminated_marker hbanner) _ _
  have hpassed := (good_run hpiped hrun).polled.passed_iff.mpr hmarker
  rw [hend] at hpassed
  refine ⟨hmarker, ?_⟩
  rcases o with (_ | _) | _
  · cases hpassed
  · rfl
  · cases hpassed

/-- **The self-test of a boot**: it passes, and its report has every line of the
boot that came through, one after the other; where the report could be written,
so has its file. -/
theorem selfTest_boot (hs : Fresh s) (hserial : s.serial = [])
    (hboot : Boot env systemTable s stage m) (hpiped : ∀ l ∈ ls, l.piped)
    (hrun : run (step h) (Test.new h files file) ls = some t) (hend : t.place = .ended o)
    (hsilent : t.sys.delivered 0 .stderr = [])
    (hstdout : t.sys.delivered 0 .stdout = reads.map fromUtf8Lossy)
    (hreads : reads.flatten = p ++ Serial.encode (m.serial.take (n + 1)) ++ more) :
    o.exitCode = 0 ∧ (p = [] ∨ p.getLast? = some 0x0A → ∃ before after,
      t.report = said (headLines h ++ "  engine spawned (software emulation)" ::
        (before ++ ((m.serial.take (n + 1)).map fun l => "  " ++ l) ++ after ++ [passedLine])) ∧
      ((∀ l ∈ ls, l.written) → t.file = some (utf8 t.report))) := by
  have ht := good_run hpiped hrun
  obtain ⟨hmarker, rfl⟩ := passes_boot hs hserial hboot hpiped hrun hend hsilent hstdout hreads
  refine ⟨rfl, fun hline => ?_⟩
  obtain ⟨ps, qs, rfl, hlog, hls, hbanner⟩ :=
    log_boot hs hserial hboot hpiped hrun hsilent hstdout hreads
  obtain ⟨lines, hreport, hsaid, -⟩ := ht.reported hend
  obtain ⟨before, after, hverdict⟩ := @verdictLines_tagged ps qs _ hls
    (List.ne_nil_of_mem hbanner) hline
  refine ⟨before, after, ?_, fun hwritten => put_run hwritten hrun _ (.inr hend)⟩
  rw [hsaid]
  generalize hr : (Except.ok ⟨⟩ : Except String PUnit) = r at hreport
  cases hreport with
  | missing | failed => cases hr
  | waited => rw [decide_eq_true hmarker, hlog, hverdict]

end

/-! ## A test that passes -/

/-- A host with the files of the test. -/
def testHost : Host := { bareHost with present := fun _ => true }

/-- The test in its wait loop, with this engine. -/
def waitingTest (s : Sys) : Test :=
  ⟨s, .waiting, said (headLines testHost ++ ["  engine spawned (software emulation)"]), "", none⟩

theorem begin_waiting : ∃ files program args, step testHost (Test.new testHost (fun _ => none) none)
    (.begin smoothWorld .ok) = some (waitingTest
      (((Test.new testHost (fun _ => none) none).sys.stopped.withFiles files).launched
        program args)) := by
  obtain ⟨s, hret, files, program, args, hs⟩ := @start_started
    (Test.new testHost (fun _ => none) none).sys testHost selfTestConfig (efiPath testHost)
    (codePath testHost) (varsPath testHost) _ rfl (smoothWorld_willing _ _)
  refine ⟨files, program, args, ?_⟩
  obtain ⟨u, hstep, hbegun⟩ : ∃ u, step testHost (Test.new testHost (fun _ => none) none)
      (.begin smoothWorld .ok) = some u ∧
      (Test.new testHost (fun _ => none) none).Begun testHost smoothWorld .ok u :=
    ⟨_, rfl, begin_begun _ _ _ _⟩
  rw [hstep, ← hs]
  cases hbegun with
  | missing _ _ _ _ _ _ hpath => cases hpath
  | failed e _ _ hfailed => cases (hret.unique hfailed).1
  | spawned _ _ hspawned =>
    obtain ⟨-, rfl⟩ := hret.unique hspawned
    rfl
  | panicked _ _ haborted => exact (hret.not_aborts haborted).elim

/-- The banner comes through in one read. -/
def bannerLabels : List Label :=
  [.engine 0 (.read .stdout bannerBytes), .engine 0 (.send .stdout), .now false, .drainRecv]

/-- The test goes on so when it has the banner. -/
def passedLabels : List Label := [.drainEnd, .stop, .conclude .ok, .leave]

/-- The test in `drain_log`, with the banner. -/
theorem test_reading : ∃ t, run (step testHost) (Test.new testHost (fun _ => none) none)
    (.begin smoothWorld .ok :: bannerLabels) = some t ∧
    t.sys.draining = some ⟨"" ++ fromUtf8Lossy bannerBytes,
      [⟨0, .stdout, fromUtf8Lossy bannerBytes⟩]⟩ ∧
    t.sys.pending = [] ∧ t.log = "" ∧ t.sys.returned = [] ∧ t.sys.backend.child = some 0 := by
  obtain ⟨files, program, args, hbegin⟩ := begin_waiting
  obtain ⟨t, hwait, ht⟩ : ∃ t, run (step testHost) (waitingTest
      (((Test.new testHost (fun _ => none) none).sys.stopped.withFiles files).launched
        program args)) bannerLabels = some t ∧
      t.sys.draining = some ⟨"" ++ fromUtf8Lossy bannerBytes,
        [⟨0, .stdout, fromUtf8Lossy bannerBytes⟩]⟩ ∧
      t.sys.pending = [] ∧ t.log = "" ∧ t.sys.returned = [] ∧ t.sys.backend.child = some 0 :=
    ⟨_, rfl, rfl, rfl, rfl, rfl, rfl⟩
  refine ⟨t, ?_, ht⟩
  rw [run, hbegin]
  exact hwait

theorem test_passes : ∃ t, run (step testHost) (Test.new testHost (fun _ => none) none)
    (.begin smoothWorld .ok :: (bannerLabels ++ passedLabels)) = some t ∧
    t.place = .ended (.returned (.ok ⟨⟩)) ∧ t.sys.returned =
      [⟨some 0, ⟨"" ++ fromUtf8Lossy bannerBytes, [⟨0, .stdout, fromUtf8Lossy bannerBytes⟩]⟩⟩] := by
  obtain ⟨t, hreading, hd, hpending, hlog, hreturned, hchild⟩ := test_reading
  have ht : Linked t := run_inv (fun _ _ _ hs hstep => Linked.step hs hstep) (.new _ _ _) hreading
  have hstep := step_drainEnd (h := testHost) hd hpending
  have hnext := ht.step hstep
  have hmarker : HasMarker (t.log ++ ("" ++ fromUtf8Lossy bannerBytes)) := by
    rw [hlog, fromUtf8Lossy_banner, String.empty_append, String.empty_append]
    exact terminated_marker List.mem_cons_self
  obtain ⟨u, hrun, hend⟩ : EndsBy testHost _ [.stop, .conclude .ok, .leave]
      (.returned (verdict true)) := .stopping hnext (if_pos hmarker)
  refine ⟨u, ?_, hend, ?_⟩
  · rw [← List.cons_append, run_append, hreading, Option.bind_some, passedLabels, run, hstep]
    exact hrun
  · -- nothing is drained any more
    rw [run_returned hnext (by simp) hrun]
    show t.sys.returned ++ [⟨t.sys.backend.child, _⟩] = _
    rw [hreturned, hchild]
    rfl

theorem selfTest_finished_passed : ∃ t,
    run (step testHost) (Test.new testHost (fun _ => none) none)
      (.begin smoothWorld .ok :: (bannerLabels ++ passedLabels)) = some t ∧
    Finished testHost none (.begin smoothWorld .ok :: (bannerLabels ++ passedLabels)) t
      (.returned (.ok ⟨⟩)) := by
  obtain ⟨t, hrun, hend, -⟩ := test_passes
  refine ⟨t, hrun, selfTest_finished ?_ hrun hend⟩
  simp [bannerLabels, passedLabels, Label.piped, smoothWorld]

/-- With the banner not looked at yet. -/
theorem selfTest_ends_reading : ∃ t, run (step testHost) (Test.new testHost (fun _ => none) none)
    (.begin smoothWorld .ok :: bannerLabels) = some t ∧
    CanEnd testHost t (t.sys.pending.length + 6) := by
  obtain ⟨t, hreading, -⟩ := test_reading
  exact ⟨t, hreading, selfTest_ends hreading smoothWorld⟩

/-- Of a boot with five HLTs, the first line comes through. -/
theorem selfTest_boot_banner : ∃ (m : Machine) (t : Test),
    run (step testHost) (Test.new testHost (fun _ => none) none)
      (.begin smoothWorld .ok :: (bannerLabels ++ passedLabels)) = some t ∧
    Outcome.exitCode (.returned (.ok ⟨⟩)) = 0 ∧ (([] : Bytes) = [] ∨
      ([] : Bytes).getLast? = some 0x0A → ∃ before after, t.report = said
        (headLines testHost ++ "  engine spawned (software emulation)" ::
          (before ++ ((m.serial.take 1).map fun l => "  " ++ l) ++ after ++ [passedLine])) ∧
      ((∀ l ∈ Label.begin smoothWorld .ok :: (bannerLabels ++ passedLabels), l.written) →
        t.file = some (utf8 t.report))) := by
  obtain ⟨mode, m, hboot⟩ := boot_fiveHlts
  obtain ⟨t, hrun, hend, hreturned⟩ := test_passes
  have hfirst : m.serial.take 1 = ["[mochivm] mochivm booted"] := by
    obtain ⟨rest, hrest⟩ :=
      List.head?_eq_some_iff.mp (boot_serial bootMachine_fresh rfl hboot).2
    rw [hrest]
    rfl
  have hpiped : ∀ l ∈ Label.begin smoothWorld .ok :: (bannerLabels ++ passedLabels), l.piped := by
    simp [bannerLabels, passedLabels, Label.piped, smoothWorld]
  have hsilent : t.sys.delivered 0 .stderr = [] := by
    rw [Sys.delivered, hreturned]
    rfl
  have hstdout : t.sys.delivered 0 .stdout = [bannerBytes].map fromUtf8Lossy := by
    rw [Sys.delivered, hreturned]
    rfl
  have hreads : [bannerBytes].flatten = [] ++ Serial.encode (m.serial.take (0 + 1)) ++ [] := by
    rw [hfirst, List.append_nil, List.flatten_cons, List.flatten_nil, List.append_nil]
    rfl
  exact ⟨m, t, hrun, selfTest_boot bootMachine_fresh rfl hboot hpiped hrun hend hsilent hstdout
    hreads⟩

end MochiVM.SelfTest
