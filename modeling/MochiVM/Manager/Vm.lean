import MochiVM.Manager.Fat
import MochiVM.Lib.Runs

/-!
# The QEMU backend (manager/src/vm.rs)

A `Backend` owns at most one engine: a spawned QEMU process, two reader threads
that copy its stdout and stderr into a channel, and the channel's receiver. The
methods of `Backend` are programs on the whole system (`Sys`); the system also
moves by itself, when an engine exits and when a reader reads, sends or ends.
`step` is all of it.

What the host decides is an argument: the outcome of every fallible call of
`start` (`World`), the bytes of every read, and when an engine exits. `events`
and `returned` are ghosts: the process calls made, and what `drain_log`
returned.
-/

namespace MochiVM.Vm

open MochiVM.Buffer MochiVM.Fat MochiVM.Runs MochiVM.Panic

/-! ## `String::from_utf8_lossy` -/

/-- The length of the sequence that a first byte announces; 0 for a byte that
begins none. -/
def seqLen (b : UInt8) : Nat :=
  if b < 0x80 then 1
  else if 0xC2 ≤ b && b ≤ 0xDF then 2
  else if 0xE0 ≤ b && b ≤ 0xEF then 3
  else if 0xF0 ≤ b && b ≤ 0xF4 then 4
  else 0

/-- Whether a second byte is allowed after this first one. -/
def secondOk (b c : UInt8) : Bool :=
  if b = 0xE0 then 0xA0 ≤ c && c ≤ 0xBF
  else if b = 0xED then 0x80 ≤ c && c ≤ 0x9F
  else if b = 0xF0 then 0x90 ≤ c && c ≤ 0xBF
  else if b = 0xF4 then 0x80 ≤ c && c ≤ 0x8F
  else 0x80 ≤ c && c ≤ 0xBF

/-- The continuation bytes that follow the first byte `b`: at most those it
announces, and up to the first that is not allowed. -/
def contBytes (b : UInt8) : Bytes → Bytes
  | [] => []
  | c :: rest =>
    if 2 ≤ seqLen b && secondOk b c then
      c :: (rest.take (seqLen b - 2)).takeWhile fun d => 0x80 ≤ d && d ≤ 0xBF
    else []

/-- The character of a complete sequence. -/
def decodeSeq (b : UInt8) (cont : Bytes) : Char :=
  let lead := if b < 0x80 then b.toNat else b.toNat % 2 ^ (7 - seqLen b)
  Char.ofNat (cont.foldl (fun v c => v * 64 + c.toNat % 64) lead)

/-- Decode `fuel` sequences at most, each ill-formed one to U+FFFD. -/
def lossyFrom : Nat → Bytes → List Char
  | 0, _ | _, [] => []
  | fuel + 1, b :: rest =>
    let cont := contBytes b rest
    (if cont.length + 1 = seqLen b then decodeSeq b cont else Char.ofNat 0xFFFD) ::
      lossyFrom fuel (rest.drop cont.length)

/-- `String::from_utf8_lossy(b).into_owned()`. -/
def fromUtf8Lossy (b : Bytes) : String := String.ofList (lossyFrom b.length b)

/-- A truncated three-byte sequence is one replacement character. -/
example : fromUtf8Lossy [0x61, 0xE2, 0x82, 0x62, 0xE2, 0x82, 0xAC, 0xC0] =
    String.ofList ([0x61, 0xFFFD, 0x62, 0x20AC, 0xFFFD].map Char.ofNat) := by decide

/-! ## Configuration and command line -/

/-- `Accel`. -/
inductive Accel where
  | tcg | kvm | whpx
deriving DecidableEq, Repr

/-- `VmConfig`, its name apart, which `start` does not read. -/
structure VmConfig where
  ramMb : UInt16
  vcpus : UInt8
  accel : Accel

/-- What `start` finds on the host, the outcomes of its calls apart. -/
structure Host where
  /-- `cfg!(windows)`. -/
  windows : Bool
  /-- The environment variable `MOCHIVM_QEMU`. -/
  mochivmQemu : Option String
  /-- The directory of the running program. -/
  exeDir : Option String
  /-- `Path::exists`. -/
  present : String → Bool
  /-- A path as `{:?}` prints it. -/
  debug : String → String

/-- A drive, such as `C:`. -/
def isDrive (dir : String) : Bool :=
  match dir.toList with
  | [c, ':'] => c.isAlpha
  | _ => false

/-- `Path::join` with a relative name. -/
def Host.join (h : Host) (dir name : String) : String :=
  if dir = "" || dir.endsWith "/" || (h.windows && (dir.endsWith "\\" || isDrive dir)) then
    dir ++ name
  else dir ++ (if h.windows then "\\" else "/") ++ name

/-- The engine next to the program, in `qemu_bin`. -/
def bundled (h : Host) (dir : String) : Option String :=
  (["mochivm-vm.exe", "qemu-system-x86_64.exe"].map fun name =>
    h.join (h.join dir "engine") name).find? h.present

/-- `qemu_bin` (vm.rs:188). -/
def qemuBin (h : Host) : String :=
  match h.mochivmQemu.filter (· ≠ "") with
  | some p => p
  | none =>
  match h.exeDir.bind (bundled h) with
  | some cand => cand
  | none =>
  match if h.windows then
      ["C:\\Program Files\\qemu\\qemu-system-x86_64.exe",
        "C:\\Program Files (x86)\\qemu\\qemu-system-x86_64.exe",
        "C:\\qemu\\qemu-system-x86_64.exe"].find? h.present
    else none with
  | some b => b
  | none => "qemu-system-x86_64"

/-- The accelerator's arguments (vm.rs:86). -/
def accelArgs : Accel → List String
  | .tcg => ["-accel", "tcg", "-cpu", "max"]
  | .kvm => ["-enable-kvm", "-cpu", "host"]
  | .whpx => ["-accel", "whpx", "-cpu", "max"]

/-- The engine's arguments (vm.rs:79). -/
def qemuArgs (cfg : VmConfig) (code varsCopy disk : String) : List String :=
  ["-machine", "q35", "-m", toString cfg.ramMb.toNat ++ "M", "-smp", toString cfg.vcpus.toNat] ++
  accelArgs cfg.accel ++
  ["-drive", "if=pflash,format=raw,readonly=on,file=" ++ code,
    "-drive", "if=pflash,format=raw,file=" ++ varsCopy,
    "-drive", "if=virtio,format=raw,file=" ++ disk,
    "-serial", "stdio", "-monitor", "none", "-display", "none", "-vga", "none", "-nic", "none",
    "-no-reboot", "-no-shutdown"]

/-! ## The system -/

/-- The two piped streams of an engine. -/
inductive Stream where
  | stdout | stderr
deriving DecidableEq, Repr

/-- A string a reader sends; the engine and the stream are ghosts. -/
structure Chunk where
  engine : Nat
  stream : Stream
  text : String

/-- The state of a process, seen by its parent. -/
inductive ProcState where
  | running
  /-- Exited, and not waited for. -/
  | exited
  | reaped
deriving DecidableEq, Repr

/-- Where a reader thread is in its loop. -/
inductive ReaderState where
  /-- In `r.read`. -/
  | reading
  /-- Before `tx.send`. -/
  | sending (text : String)
  /-- Out of the loop, its sender dropped; also before it is spawned. -/
  | ended
deriving DecidableEq, Repr

/-- A reader thread; `reads` is a ghost, the chunks it read. -/
structure Reader where
  state : ReaderState
  reads : List String

/-- A spawned engine, with its channel and its readers. -/
structure Engine where
  program : String
  args : List String
  proc : ProcState
  /-- Whether the channel's receiver is alive. -/
  receiver : Bool
  queue : List Chunk
  reader : Stream → Reader

/-- `Backend`. Engines are numbered as they are spawned; `child` and `rx` are the
numbers of the process and of the channel. -/
structure Backend where
  child : Option Nat
  rx : Option Nat
  runDir : String

/-- A call made on a process. -/
inductive ProcEvent where
  | spawned (g : Nat)
  | killed (g : Nat)
  | waited (g : Nat)
deriving DecidableEq, Repr

/-- A call of `drain_log` in progress: `out`, and as a ghost the chunks in it. -/
structure Drain where
  out : String
  got : List Chunk

/-- A call of `drain_log` that returned `drain.out`, while `engine` was the
backend's child. -/
structure Drained where
  engine : Option Nat
  drain : Drain

structure Sys where
  backend : Backend
  engines : List Engine
  files : Files
  /-- The call of `drain_log` in progress, if any. -/
  draining : Option Drain
  /-- Whether the backend was dropped. -/
  dropped : Bool
  events : List ProcEvent
  returned : List Drained

/-- `Backend::new` (vm.rs:54). -/
def Backend.new (runDir : String) : Backend := ⟨none, none, runDir⟩

/-- The system with a new backend. -/
def Sys.new (runDir : String) (files : Files) : Sys :=
  ⟨.new runDir, [], files, none, false, [], []⟩

/-- The system with engine `g` changed. -/
def Sys.modifyEngine (s : Sys) (g : Nat) (f : Engine → Engine) : Sys :=
  { s with engines := s.engines.modify g f }

/-! ## Processes and channels -/

/-- Methods of `Backend`. -/
abbrev VmM := EStateM Panic Sys

/-- `self.child.take()`. -/
def takeChild : VmM (Option Nat) := fun s =>
  .ok s.backend.child { s with backend := { s.backend with child := none } }

/-- An engine after SIGKILL: nothing happens to a process that has exited. -/
def Engine.killed (e : Engine) : Engine :=
  { e with proc := if e.proc = .running then .exited else e.proc }

/-- An engine whose process was waited for. -/
def Engine.reaped (e : Engine) : Engine := { e with proc := .reaped }

/-- An engine whose channel has lost its receiver, and what was queued with it. -/
def Engine.closed (e : Engine) : Engine := { e with receiver := false, queue := [] }

/-- `c.kill()`. -/
def kill (g : Nat) : VmM PUnit := fun s =>
  .ok ⟨⟩ { s.modifyEngine g Engine.killed with events := s.events ++ [.killed g] }

/-- `c.wait()`, on a process that was killed. -/
def wait (g : Nat) : VmM PUnit := fun s =>
  .ok ⟨⟩ { s.modifyEngine g Engine.reaped with events := s.events ++ [.waited g] }

/-- The receiver of engine `g`'s channel is dropped. -/
def dropReceiver (g : Nat) : VmM PUnit := fun s => .ok ⟨⟩ (s.modifyEngine g Engine.closed)

/-- `self.rx = rx`; the old receiver is dropped. -/
def assignRx (rx : Option Nat) : VmM PUnit := do
  match (← get).backend.rx with
  | some g => dropReceiver g
  | none => pure ⟨⟩
  modify fun s => { s with backend := { s.backend with rx := rx } }

/-- `self.child = Some(child)`. -/
def assignChild (g : Nat) : VmM PUnit :=
  modify fun s => { s with backend := { s.backend with child := some g } }

/-- `cmd.spawn()` and `channel()`. -/
def spawnEngine (program : String) (args : List String) : VmM Nat := fun s =>
  .ok s.engines.length
    { s with
      engines := s.engines ++ [⟨program, args, .running, true, [], fun _ => ⟨.ended, []⟩⟩]
      events := s.events ++ [.spawned s.engines.length] }

/-- The reader of one stream replaced. -/
def Engine.setReader (e : Engine) (st : Stream) (r : Reader) : Engine :=
  { e with reader := Function.update e.reader st r }

/-- `spawn_reader` (vm.rs:171), up to its first read. `thread::spawn` panics where
no thread can be created; here one can. -/
def spawnReader (g : Nat) (st : Stream) : VmM PUnit := fun s =>
  .ok ⟨⟩ (s.modifyEngine g fun e => e.setReader st ⟨.reading, []⟩)

/-! ## The methods -/

/-- `stop` (vm.rs:138). -/
def stop : VmM PUnit := do
  match ← takeChild with
  | some g =>
    kill g
    wait g
    assignRx none
  | none => pure ⟨⟩

/-- What the calls of one `start` come back with. -/
structure World where
  /-- `create_dir_all`. -/
  mkdir : Except String PUnit
  /-- `fs::read`, by path. -/
  read : String → Except String Bytes
  /-- The file system under `write_fat32_disk`. -/
  disk : DiskIo
  /-- `fs::copy`, by source path: what it copies. -/
  copy : String → Except String Bytes
  /-- What a copy that fails has put at its destination, if anything. -/
  copyLeft : Option Bytes
  /-- `cmd.spawn()`. -/
  spawn : Except String PUnit
  /-- Whether the spawned child has a stdout and a stderr handle. -/
  piped : Stream → Bool

/-- `write_fat32_disk`, on the system's files. -/
def writeDisk (io : DiskIo) (efi : Bytes) (path : String) : VmM (Except String PUnit) := fun s =>
  match writeFat32Disk io efi path s.files with
  | .ok r files => .ok r { s with files := files }
  | .error p files => .error p { s with files := files }

/-- A program on files run on the system's changes nothing else. -/
theorem ends_onFiles {write : EStateM Panic Files (Except String PUnit)} {s : Sys}
    {Q : Except String PUnit → Sys → Prop} {E : Panic → Sys → Prop}
    (hQ : ∀ r files, Q r { s with files := files })
    (hE : ∀ p files, E p { s with files := files }) :
    Ends (fun s : Sys =>
      match write s.files with
      | .ok r files => .ok r { s with files := files }
      | .error p files => .error p { s with files := files }) s Q E := by
  simp only [Ends]
  cases write s.files with
  | ok r files => exact hQ r files
  | error p files => exact hE p files

theorem onFiles_returns {write : EStateM Panic Files (Except String PUnit)} {s : Sys}
    {files : Files} {r : Except String PUnit} (h : Returns write s.files r files) :
    Returns (fun s : Sys =>
      match write s.files with
      | .ok r files => .ok r { s with files := files }
      | .error p files => .error p { s with files := files }) s r { s with files := files } := by
  simp only [Returns, show write s.files = .ok r files from h]

theorem writeDisk_returns {io : DiskIo} {efi : Bytes} {path : String} {s : Sys} {files : Files}
    {r : Except String PUnit} (h : Returns (writeFat32Disk io efi path) s.files r files) :
    Returns (writeDisk io efi path) s r { s with files := files } := by
  delta writeDisk
  exact onFiles_returns h

/-- `write_fat32_disk` touches nothing but files, also when it panics. -/
theorem ends_writeDisk {io : DiskIo} {efi : Bytes} {path : String} {s : Sys}
    {Q : Except String PUnit → Sys → Prop} {E : Panic → Sys → Prop}
    (hQ : ∀ r files, Q r { s with files := files })
    (hE : ∀ p files, E p { s with files := files }) :
    Ends (writeDisk io efi path) s Q E := by
  -- not unfolded by the goal's own steps, which would compute the image
  delta writeDisk
  exact ends_onFiles hQ hE

/-- `fs::copy(src, dst)`, given what it copies, and what it leaves if it fails. -/
def copyTo (content : Except String Bytes) (left : Option Bytes) (dst : String) :
    VmM (Except String PUnit) := fun s =>
  match content with
  | .ok bytes => .ok (.ok ⟨⟩) { s with files := putFile s.files dst bytes }
  | .error e =>
    .ok (.error e) { s with files := (left.map (putFile s.files dst)).getD s.files }

/-- The last part of `start` (vm.rs:118): the engine and its readers. -/
def launch (program : String) (args : List String) (w : World) : VmM (Except String PUnit) := do
  match w.spawn with
  | .error e =>
    pure (.error ("failed to start the vm engine (" ++ e ++
      ") - put the engine in the engine/ folder or set MOCHIVM_QEMU"))
  | .ok _ =>
  let g ← spawnEngine program args
  if !w.piped .stdout then
    dropReceiver g
    pure (.error "no stdout")
  else if !w.piped .stderr then
    dropReceiver g
    pure (.error "no stderr")
  else
    spawnReader g .stdout
    spawnReader g .stderr
    assignChild g
    assignRx (some g)
    pure (.ok ⟨⟩)

/-- `start` (vm.rs:62). -/
def start (h : Host) (cfg : VmConfig) (efi code vars : String) (w : World) :
    VmM (Except String PUnit) := do
  stop
  match w.mkdir with
  | .error e => pure (.error ("mkdir: " ++ e))
  | .ok _ =>
  let runDir := (← get).backend.runDir
  let disk := h.join runDir "disk.img"
  let varsCopy := h.join runDir "vars.fd"
  match w.read efi with
  | .error e => pure (.error ("read efi " ++ h.debug efi ++ ": " ++ e))
  | .ok efiBytes =>
  match ← writeDisk w.disk efiBytes disk with
  | .error e => pure (.error e)
  | .ok _ =>
  match ← copyTo (w.copy vars) w.copyLeft varsCopy with
  | .error e => pure (.error ("copy ovmf vars: " ++ e))
  | .ok _ => launch (qemuBin h) (qemuArgs cfg code varsCopy disk) w

/-- `is_running` (vm.rs:146). A `try_wait` that finds the process exited reaps
it; `fails` is whether it fails. -/
def isRunning (fails : Bool) : VmM Bool := do
  let s ← get
  match s.backend.child with
  | none => pure false
  | some g =>
    if fails then pure false
    else
      match (s.engines[g]?).map Engine.proc with
      | some .running => pure true
      | _ => do
        set (s.modifyEngine g Engine.reaped)
        pure false

/-- `Drop::drop` (vm.rs:166), and the drop of the fields. -/
def dropBackend : VmM PUnit := do
  stop
  assignRx none
  modify fun s => { s with dropped := true }

/-! ## Steps -/

/-- What an engine and its readers do by themselves. -/
inductive EngineLabel where
  | exit
  /-- `r.read` returns these bytes. -/
  | read (st : Stream) (bytes : Bytes)
  | send (st : Stream)
  /-- `r.read` returns `Ok(0)` or an error. -/
  | readEnd (st : Stream)

/-- A step of engine `g`: its process, or the loop of `spawn_reader`. -/
def Engine.step (g : Nat) (e : Engine) : EngineLabel → Option Engine
  | .exit => if e.proc = .running then some { e with proc := .exited } else none
  | .read st bytes =>
    if (e.reader st).state = .reading ∧ 0 < bytes.length ∧ bytes.length ≤ 1024 then
      let text := fromUtf8Lossy bytes
      some (e.setReader st ⟨.sending text, (e.reader st).reads ++ [text]⟩)
    else none
  | .send st =>
    match (e.reader st).state with
    | .sending text =>
      if e.receiver then
        some { e.setReader st { e.reader st with state := .reading } with
          queue := e.queue ++ [⟨g, st, text⟩] }
      else some (e.setReader st { e.reader st with state := .ended })
    | .reading | .ended => none
  | .readEnd st =>
    if (e.reader st).state = .reading then
      some (e.setReader st { e.reader st with state := .ended })
    else none

inductive Label where
  | start (cfg : VmConfig) (efi code vars : String) (w : World)
  | stop
  | isRunning (fails : Bool)
  /-- The backend goes out of scope. -/
  | drop
  /-- `drain_log` (vm.rs:154) is entered, -/
  | drainBegin
  /-- a `try_recv` of it gets a string, -/
  | drainRecv
  /-- and one gets none, so that it returns. -/
  | drainEnd
  | engine (g : Nat) (l : EngineLabel)

/-- Whether a method can be called: there is a backend, and no `drain_log` holds
a borrow of it. -/
def Sys.callable (s : Sys) : Bool := !s.dropped && s.draining.isNone

def Sys.call {α : Type} (s : Sys) (m : VmM α) : Option Sys :=
  if s.callable then some (finalState (m s)) else none

/-- What `rx.try_recv` would get next. -/
def Sys.pending (s : Sys) : List Chunk :=
  match s.backend.rx with
  | some g => ((s.engines[g]?).map Engine.queue).getD []
  | none => []

/-- The string `try_recv` gets is taken off the channel. -/
def Sys.received (s : Sys) (d : Drain) (c : Chunk) : Sys :=
  { s with
    engines := match s.backend.rx with
      | some g => s.engines.modify g fun e => { e with queue := e.queue.tail }
      | none => s.engines
    draining := some ⟨d.out ++ c.text, d.got ++ [c]⟩ }

/-- A step of the system. -/
def step (h : Host) (s : Sys) : Label → Option Sys
  | .start cfg efi code vars w => s.call (start h cfg efi code vars w)
  | .stop => s.call stop
  | .isRunning fails => s.call (isRunning fails)
  | .drop => s.call dropBackend
  | .drainBegin => if s.callable then some { s with draining := some ⟨"", []⟩ } else none
  | .drainRecv =>
    match s.draining, s.pending with
    | some d, c :: _ => some (s.received d c)
    | _, _ => none
  | .drainEnd =>
    match s.draining, s.pending with
    | some d, [] =>
      some { s with draining := none, returned := s.returned ++ [⟨s.backend.child, d⟩] }
    | _, _ => none
  | .engine g l =>
    match s.engines[g]? with
    | some e => (e.step g l).map fun e' => s.modifyEngine g fun _ => e'
    | none => none

end MochiVM.Vm
