import MochiVM.Lib.Fair
import MochiVM.Lib.Uart
import MochiVM.Lib.Utf8

/-!
# The serial port (serial.rs)

The driver is a sequence of port accesses: `init` programs the UART, and every
character is written once the line status says that the transmitter is ready.
It runs beside the device, whose transmitter takes its own time: a step is a port
access, or a byte that moves on inside the device. Nothing is assumed of the
UART that the firmware leaves.

`serial_run` says what is on the line at any moment, `serial_fair` that all of
it gets there.
-/

namespace MochiVM.Serial

open MochiVM.Buffer MochiVM.Uart MochiVM.Utf8 MochiVM.Runs

/-! ## The driver -/

/-- `COM1` (serial.rs:3). -/
def com1 : UInt16 := 0x3F8

/-- What the driver does with a port. -/
inductive PortOp where
  | outb (port : UInt16) (value : UInt8)
  /-- `while inb(port) & mask == 0 {}`. -/
  | spin (port : UInt16) (mask : UInt8)
deriving DecidableEq, Repr

/-- `init` (serial.rs:28). -/
def init : List PortOp :=
  [.outb (com1 + 1) 0x00, -- no interrupts
   .outb (com1 + 3) 0x80, -- DLAB on
   .outb (com1 + 0) 0x01, -- divisor low (115200)
   .outb (com1 + 1) 0x00, -- divisor high
   .outb (com1 + 3) 0x03, -- 8N1
   .outb (com1 + 2) 0xC7, -- FIFO enable/clear
   .outb (com1 + 4) 0x0B] -- DTR+RTS

/-- `put_char_raw` (serial.rs:40). -/
def putCharRaw (c : UInt8) : List PortOp := [.spin (com1 + 5) 0x20, .outb com1 c]

/-- `put_char` (serial.rs:47). -/
def putChar (c : UInt8) : List PortOp :=
  (if c = 0x0A then putCharRaw 0x0D else []) ++ putCharRaw c

/-- `write` (serial.rs:54), and `Writer::write_str`. -/
def write (s : String) : List PortOp := (utf8 s).flatMap putChar

/-- `serial_println!`: `write_fmt` writes the pieces that the format string and
its arguments make. -/
def serialPrintln (pieces : List String) : List PortOp := pieces.flatMap write ++ write "\n"

/-! ## The driver beside the device -/

/-- The driver, by what it still has to do, and the device. -/
structure Console where
  code : List PortOp
  uart : Device

/-- A port write, which reaches the UART at its eight ports. -/
def outb (u : Device) (port : UInt16) (v : UInt8) : Device :=
  if port - com1 < 8 then u.write (port - com1) v else u

/-- A port read; `other` is what is not the transmitter's. -/
def inb (u : Device) (port : UInt16) (other : UInt8) : UInt8 :=
  if port - com1 < 8 then u.read (port - com1) other else other

/-- Who makes a step. -/
inductive Proc where
  | cpu | load | emit
deriving DecidableEq, Repr

inductive Label where
  /-- The driver's next port access. -/
  | cpu (other : UInt8)
  /-- A byte goes into the shift register, -/
  | load
  /-- and out. -/
  | emit

def Label.proc : Label → Proc
  | .cpu _ => .cpu
  | .load => .load
  | .emit => .emit

def step (s : Console) : Label → Option Console
  | .cpu other =>
    match s.code with
    | [] => none
    | .outb port v :: rest => some ⟨rest, outb s.uart port v⟩
    | .spin port mask :: rest =>
      some (if inb s.uart port other &&& mask = 0 then s else { s with code := rest })
  | .load => s.uart.load.map fun u => { s with uart := u }
  | .emit => s.uart.emit.map fun u => { s with uart := u }

/-! ## What the driver writes -/

/-- A text as it goes over the line: a carriage return before every newline. -/
def crlf (bs : Bytes) : Bytes := bs.flatMap fun c => if c = 0x0A then [0x0D, c] else [c]

/-- Lines as they go over the line. -/
def encode (lines : List String) : Bytes :=
  lines.flatMap fun line => crlf (utf8 line) ++ [0x0D, 0x0A]

theorem putChar_eq (c : UInt8) :
    putChar c = (if c = 0x0A then [0x0D, c] else [c]).flatMap putCharRaw := by
  rw [putChar]
  split
  · rfl
  · exact (List.append_nil _).symm

theorem write_eq (s : String) : write s = (crlf (utf8 s)).flatMap putCharRaw := by
  rw [write, crlf, List.flatMap_assoc]
  exact congrArg (List.flatMap · _) (funext putChar_eq)

/-- **What is printed**: the pieces make one line. -/
theorem serialPrintln_eq (pieces : List String) :
    serialPrintln pieces =
      (crlf (utf8 (String.join pieces)) ++ [0x0D, 0x0A]).flatMap putCharRaw := by
  have hpieces : pieces.flatMap write = (crlf (utf8 (String.join pieces))).flatMap putCharRaw := by
    rw [utf8_join, crlf, List.flatMap_assoc, List.flatMap_assoc]
    refine congrArg (List.flatMap · _) (funext fun s => ?_)
    rw [write_eq, crlf, List.flatMap_assoc]
  rw [serialPrintln, hpieces, write_eq, List.flatMap_append]
  rfl

/-- All the lines of a run. -/
def printAll (lines : List (List String)) : List PortOp := lines.flatMap serialPrintln

theorem printAll_eq (lines : List (List String)) :
    printAll lines = (encode (lines.map String.join)).flatMap putCharRaw := by
  rw [printAll, encode, List.flatMap_map, List.flatMap_assoc]
  exact congrArg (List.flatMap · _) (funext serialPrintln_eq)

/-! ## What a step does -/

/-- A step, by what it does. -/
inductive Console.Moves (s : Console) : Label → Console → Prop
  | outb {other : UInt8} (port : UInt16) (v : UInt8) (rest : List PortOp) :
      s.code = .outb port v :: rest → Moves s (.cpu other) ⟨rest, Serial.outb s.uart port v⟩
  /-- The status was not what the driver waits for. -/
  | spins {other : UInt8} (port : UInt16) (mask : UInt8) (rest : List PortOp) :
      s.code = .spin port mask :: rest → inb s.uart port other &&& mask = 0 →
      Moves s (.cpu other) s
  | passes {other : UInt8} (port : UInt16) (mask : UInt8) (rest : List PortOp) :
      s.code = .spin port mask :: rest → inb s.uart port other &&& mask ≠ 0 →
      Moves s (.cpu other) { s with code := rest }
  | load (b : UInt8) (rest : Bytes) : s.uart.fifo = b :: rest → s.uart.shift = none →
      Moves s .load { s with uart := { s.uart with fifo := rest, shift := some b } }
  | emit (b : UInt8) : s.uart.shift = some b → s.uart.regs.silent = false →
      Moves s .emit { s with uart := { s.uart with
        shift := none, wire := s.uart.wire ++ [⟨b, s.uart.regs.divisor, s.uart.regs.lcr⟩] } }
  /-- In loopback, or during a break. -/
  | swallow (b : UInt8) : s.uart.shift = some b → s.uart.regs.silent = true →
      Moves s .emit { s with uart := { s.uart with
        shift := none, dropped := s.uart.dropped ++ [b] } }

theorem Console.moves_of_step {s t : Console} {l : Label} (h : step s l = some t) :
    s.Moves l t := by
  cases l with
  | cpu other =>
    rw [step] at h
    split at h
    · cases h
    next port v rest hcode =>
      cases h
      exact .outb port v rest hcode
    next port mask rest hcode =>
      cases h
      split
      next hwait => exact .spins port mask rest hcode hwait
      next hpass => exact .passes port mask rest hcode hpass
  | load =>
    obtain ⟨u, hu, rfl⟩ := Option.map_eq_some_iff.mp h
    obtain ⟨b, rest, hfifo, hshift, rfl⟩ := Device.load_eq_some hu
    exact .load b rest hfifo hshift
  | emit =>
    obtain ⟨u, hu, rfl⟩ := Option.map_eq_some_iff.mp h
    obtain ⟨b, hshift, rfl⟩ := Device.emit_eq_some hu
    cases hsilent : s.uart.regs.silent with
    | false => exact .emit b hshift hsilent
    | true => exact .swallow b hshift hsilent

/-- The driver's test of the line status. -/
theorem inb_ready (u : Device) (other : UInt8) :
    inb u (com1 + 5) other &&& 0x20 = 0 ↔ u.fifo ≠ [] := u.lsr_ready other

/-! ## Programming the UART -/

/-- The registers after the first `k` accesses of `init`. -/
def initRegs (r : Regs) (k : Nat) : Regs :=
  (init.take k).foldl (fun r op => match op with
    | .outb port v => r.write (port - com1) v
    | .spin _ _ => r) r

/-- What `init` leaves in the registers. If DLAB is on to begin with, the write
that is to disable the interrupts goes to the divisor latch. -/
theorem initRegs_all (r : Regs) :
    initRegs r 7 = ⟨if r.dlab then r.ier else 0, 0xC1, 0x03, 0x0B, 0x01, 0x00⟩ := by
  obtain ⟨ier, fcr, lcr, mcr, dll, dlm⟩ := r
  have hon : ∀ ier fcr mcr dll dlm, Regs.dlab ⟨ier, fcr, 0x80, mcr, dll, dlm⟩ = true :=
    fun _ _ _ _ _ => show (0x80 &&& 0x80 != (0 : UInt8)) = true by decide
  have hfcr : (if (0xC7 : UInt8) &&& 1 = 0 then 0 else 0xC7 &&& 0xC9) = (0xC1 : UInt8) := by decide
  have hmcr : (0x0B : UInt8) &&& 0x1F = 0x0B := by decide
  cases h : Regs.dlab ⟨ier, fcr, lcr, mcr, dll, dlm⟩ with
  | false => simp [initRegs, init, com1, Regs.write, h, hon, hfcr, hmcr]
  | true => simp [initRegs, init, com1, Regs.write, h, hon, hfcr, hmcr]

/-- The access that `init` is at, and what it does to the registers. -/
theorem init_at (r : Regs) {k : Nat} (hk : k < 7) : ∃ offset v,
    init.drop k = .outb (com1 + offset) v :: init.drop (k + 1) ∧
      com1 + offset - com1 = offset ∧ offset < 8 ∧
      initRegs r (k + 1) = (initRegs r k).write offset v ∧
      (offset = 0 → (initRegs r k).dlab = true) ∧
      (k = 5 → offset = 2 ∧ v = 0xC7) := by
  have hdlab : (initRegs r 2).dlab = true := by
    show (0x80 &&& 0x80 != (0 : UInt8)) = true
    decide
  have hother : ∀ {offset : UInt16} {p : Prop}, offset ≠ 0 → offset = 0 → p :=
    fun hne heq => absurd heq hne
  obtain rfl | rfl | rfl | rfl | rfl | rfl | rfl :
      k = 0 ∨ k = 1 ∨ k = 2 ∨ k = 3 ∨ k = 4 ∨ k = 5 ∨ k = 6 := by omega
  · exact ⟨1, 0x00, rfl, rfl, by decide, rfl, hother (by decide), by decide⟩
  · exact ⟨3, 0x80, rfl, rfl, by decide, rfl, hother (by decide), by decide⟩
  · exact ⟨0, 0x01, rfl, rfl, by decide, rfl, fun _ => hdlab, by decide⟩
  · exact ⟨1, 0x00, rfl, rfl, by decide, rfl, hother (by decide), by decide⟩
  · exact ⟨3, 0x03, rfl, rfl, by decide, rfl, hother (by decide), by decide⟩
  · exact ⟨2, 0xC7, rfl, rfl, by decide, rfl, hother (by decide), fun _ => ⟨rfl, rfl⟩⟩
  · exact ⟨4, 0x0B, rfl, rfl, by decide, rfl, hother (by decide), by decide⟩

/-- The FIFO control word of `init` clears the FIFO, enabled before or not. -/
theorem flushes_init (r : Regs) : r.flushes 0xC7 = true := by
  have hbits : ((0xC7 : UInt8) &&& 1 != 0 && (0xC7 : UInt8) &&& 4 != 0) = true := by decide
  rw [Regs.flushes, hbits, Bool.or_true]

/-- The driver is in `init`, with `k` accesses made: of the bytes that the
firmware left some may have been lost. -/
structure Starting (u₀ : Device) (rest : List PortOp) (k : Nat) (s : Console) : Prop where
  code : s.code = init.drop k ++ rest
  regs : s.uart.regs = initRegs u₀.regs k
  kept : u₀.wire <+: s.uart.wire
  out : ∃ old, s.uart.sent = u₀.sent ++ old ∧ (old ++ s.uart.pending).Sublist u₀.pending
  /-- The FIFO was emptied. -/
  empty : 6 ≤ k → s.uart.fifo = []

/-- A port write of `init`. -/
theorem Starting.outb {u₀ : Device} {rest : List PortOp} {k : Nat} {s : Console}
    (h : Starting u₀ rest k s) (hk : k < 7) : ∃ port v,
    s.code = .outb port v :: (init.drop (k + 1) ++ rest) ∧
      Starting u₀ rest (k + 1) ⟨init.drop (k + 1) ++ rest, Serial.outb s.uart port v⟩ := by
  obtain ⟨offset, v, hcode, hport, hlt, hregs, hdlab, hflush⟩ := init_at u₀.regs hk
  have hout : Serial.outb s.uart (com1 + offset) v = s.uart.write offset v := by
    rw [Serial.outb, hport, if_pos hlt]
  have hput : offset = 0 → s.uart.regs.dlab = true := by
    rw [h.regs]
    exact hdlab
  refine ⟨com1 + offset, v, by rw [h.code, hcode]; rfl, rfl, ?_, ?_, ?_, ?_⟩
  · rw [hout, Device.write_regs, h.regs, hregs]
  · rw [hout, Device.write_wire]
    exact h.kept
  · obtain ⟨old, hsent, hold⟩ := h.out
    refine ⟨old, ?_, ?_⟩
    · rw [hout, Device.sent, Device.write_wire]
      exact hsent
    · rw [hout]
      exact ((List.Sublist.refl old).append (Device.write_pending_sublist hput)).trans hold
  · -- emptied by the sixth access, the FIFO stays so
    intro hk'
    rw [hout]
    by_cases hlast : k = 5
    · obtain ⟨rfl, rfl⟩ := hflush hlast
      exact Device.write_flush (flushes_init _)
    · exact Device.write_fifo_empty hput (h.empty (by show 6 ≤ k; omega))

/-- What the device does by itself meanwhile. -/
theorem Starting.device {u₀ : Device} {rest : List PortOp} {k : Nat} {s t : Console}
    (h : Starting u₀ rest k s) {l : Label} (hl : l.proc ≠ .cpu) (hmoves : s.Moves l t) :
    Starting u₀ rest k t := by
  obtain ⟨hcode, hregs, hkept, ⟨old, hsent, hold⟩, hempty⟩ := h
  cases hmoves with
  | outb | spins | passes => exact absurd rfl hl
  | load b fifo hfifo hshift =>
    refine ⟨hcode, hregs, hkept, ⟨old, hsent, ?_⟩, fun hk => ?_⟩
    · rw [Device.pending, hfifo, hshift] at hold
      exact hold
    · rw [hempty hk] at hfifo
      cases hfifo
  | emit b hshift =>
    refine ⟨hcode, hregs, hkept.trans (List.prefix_append _ _), ⟨old ++ [b], ?_, ?_⟩, hempty⟩
    · show (s.uart.wire ++ [_]).map Frame.data = _
      rw [List.map_append, ← List.append_assoc, ← hsent]
      rfl
    · rw [Device.pending, hshift] at hold
      rw [List.append_assoc]
      exact hold
  | swallow b hshift =>
    refine ⟨hcode, hregs, hkept, ⟨old, hsent, ?_⟩, hempty⟩
    rw [Device.pending, hshift] at hold
    exact ((List.Sublist.refl old).append (List.sublist_cons_self b _)).trans hold

/-! ## Printing -/

/-- A frame at 115200 baud, 8N1. -/
def Plain (f : Frame) : Prop := f.divisor = 1 ∧ f.format = 0x03

/-- What is on the line and under way, `done` of the text having been written:
what the firmware had sent, what of its last bytes still got out, and then
`done`, byte for byte. -/
structure Carries (u₀ : Device) (stale done : Bytes) (u : Device) : Prop where
  kept : u₀.wire <+: u.wire
  leftover : stale.Sublist u₀.pending
  out : u.out = u₀.sent ++ stale ++ done
  /-- The text goes out at the settings of `init`. -/
  plain : ∀ i f, u.wire[i]? = some f → u₀.wire.length + stale.length ≤ i → Plain f

/-- The driver is printing, `left` being what is left to write. -/
structure Sending (u₀ : Device) (stale done left : Bytes) (s : Console) : Prop
    extends Carries u₀ stale done s.uart where
  regs : s.uart.regs = initRegs u₀.regs 7
  /-- It is before the loop, or between the loop and the write. -/
  code : s.code = left.flatMap putCharRaw ∨ s.uart.fifo = [] ∧ ∃ c rest, left = c :: rest ∧
    s.code = .outb com1 c :: rest.flatMap putCharRaw

/-- In `init` the line carries what the firmware left. -/
theorem Starting.carries {u₀ : Device} {rest : List PortOp} {k : Nat} {s : Console}
    (h : Starting u₀ rest k s) : ∃ stale, Carries u₀ stale [] s.uart := by
  obtain ⟨old, hsent, hold⟩ := h.out
  refine ⟨old ++ s.uart.pending, h.kept, hold, ?_, ?_⟩
  · rw [Device.out, hsent, List.append_nil, List.append_assoc]
  · -- the line has got no further yet
    intro i f hi hle
    have hlen := congrArg List.length hsent
    rw [Device.sent, Device.sent, List.length_map, List.length_append, List.length_map] at hlen
    have := (List.getElem?_eq_some_iff.mp hi).1
    rw [List.length_append] at hle
    omega

theorem Starting.sending {u₀ : Device} {text : Bytes} {s : Console}
    (h : Starting u₀ (text.flatMap putCharRaw) 7 s) :
    ∃ stale, Sending u₀ stale [] text s := by
  obtain ⟨stale, hcarries⟩ := h.carries
  exact ⟨stale, hcarries, h.regs, .inl h.code⟩

/-- The settings of `init` are those of a plain line. -/
theorem initRegs_plain (r : Regs) :
    (initRegs r 7).silent = false ∧ (initRegs r 7).divisor = 1 ∧ (initRegs r 7).lcr = 0x03 ∧
      (initRegs r 7).dlab = false := by
  have hsilent : ((0x0B : UInt8) &&& 0x10 != 0 || (0x03 : UInt8) &&& 0x40 != 0) = false := by decide
  have hdlab : ((0x03 : UInt8) &&& 0x80 != 0) = false := by decide
  rw [initRegs_all]
  exact ⟨hsilent, rfl, rfl, hdlab⟩

/-- A frame of the line with one more: an old one, or the new one. -/
theorem Carries.sent {u₀ u : Device} {stale done : Bytes} (h : Carries u₀ stale done u) {b : UInt8}
    {divisor : Nat} {format : UInt8} (hshift : u.shift = some b)
    (hplain : Plain ⟨b, divisor, format⟩) : Carries u₀ stale done
      { u with shift := none, wire := u.wire ++ [⟨b, divisor, format⟩] } where
  kept := h.kept.trans (List.prefix_append _ _)
  leftover := h.leftover
  out := (Device.out_emit hshift).trans h.out
  plain i f hi hle := by
    obtain ⟨-, hi⟩ | ⟨-, rfl⟩ := getElem?_concat_cases hi
    · exact h.plain i f hi hle
    · exact hplain

/-- **One step** of the driver or the device, while the driver prints. -/
theorem Sending.step {u₀ : Device} {stale done left : Bytes} {s t : Console} {l : Label}
    (h : Sending u₀ stale done left s) (hstep : step s l = some t) :
    ∃ done' left', done ++ left = done' ++ left' ∧ Sending u₀ stale done' left' t := by
  obtain ⟨hsilent, hdivisor, hlcr, hdlab⟩ := initRegs_plain u₀.regs
  rw [← h.regs] at hsilent hdivisor hlcr hdlab
  cases Console.moves_of_step hstep with
  | outb port v rest hcode =>
    obtain hloop | ⟨hfifo, c, left', rfl, hwrite⟩ := h.code
    · -- what comes first is a loop
      rw [hcode] at hloop
      cases left with
      | nil => cases hloop
      | cons c left' => cases hloop
    · -- the FIFO is empty: the byte goes into it
      rw [hcode] at hwrite
      cases hwrite
      have hput : outb s.uart com1 v = { s.uart with fifo := [v] } := Device.write_ready hdlab hfifo
      refine ⟨done ++ [v], left', by rw [List.append_assoc]; rfl, ⟨?_, h.leftover, ?_, ?_⟩, ?_,
        .inl rfl⟩
      · rw [hput]
        exact h.kept
      · have hout := h.out
        rw [Device.out, Device.pending, hfifo, List.append_nil] at hout
        show (outb s.uart com1 v).out = _
        rw [hput, ← List.append_assoc, ← hout, List.append_assoc]
        rfl
      · rw [hput]
        exact h.plain
      · rw [hput]
        exact h.regs
  | spins => exact ⟨done, left, rfl, h⟩
  | passes port mask rest hcode hready =>
    obtain hloop | ⟨-, c, left', rfl, hwrite⟩ := h.code
    · rw [hcode] at hloop
      cases left with
      | nil => cases hloop
      | cons c left' =>
        cases hloop
        have hfifo : s.uart.fifo = [] := not_not.mp fun hne => hready ((inb_ready _ _).mpr hne)
        exact ⟨done, c :: left', rfl, ⟨h.kept, h.leftover, h.out, h.plain⟩, h.regs,
          .inr ⟨hfifo, c, left', rfl, rfl⟩⟩
    · rw [hcode] at hwrite
      cases hwrite
  | load b fifo hfifo hshift =>
    refine ⟨done, left, rfl, ⟨h.kept, h.leftover, ?_, h.plain⟩, h.regs, ?_⟩
    · exact (Device.out_load hfifo hshift).trans h.out
    · refine h.code.imp_right ?_
      rintro ⟨hempty, -⟩
      rw [hempty] at hfifo
      cases hfifo
  | emit b hshift =>
    exact ⟨done, left, rfl, h.toCarries.sent hshift ⟨hdivisor, hlcr⟩, h.regs, h.code⟩
  | swallow b hshift hsilent' => exact absurd (hsilent.symm.trans hsilent') Bool.false_ne_true

/-! ## Every run -/

/-- What a run keeps: the driver is in `init`, or it is printing. -/
def Runs (u₀ : Device) (text : Bytes) (s : Console) : Prop :=
  (∃ k < 7, Starting u₀ (text.flatMap putCharRaw) k s) ∨
    ∃ stale done left, text = done ++ left ∧ Sending u₀ stale done left s

theorem runs_start (u₀ : Device) (text : Bytes) :
    Runs u₀ text ⟨init ++ text.flatMap putCharRaw, u₀⟩ :=
  .inl ⟨0, by decide, rfl, rfl, List.prefix_refl _,
    ⟨[], (List.append_nil _).symm, List.Sublist.refl _⟩, by simp⟩

theorem Runs.step {u₀ : Device} {text : Bytes} {s t : Console} {l : Label} (h : Runs u₀ text s)
    (hstep : step s l = some t) : Runs u₀ text t := by
  obtain ⟨k, hk, hs⟩ | ⟨stale, done, left, htext, hs⟩ := h
  · by_cases hl : l.proc = .cpu
    · obtain ⟨port, v, hcode, hnext⟩ := hs.outb hk
      have ht : t = ⟨init.drop (k + 1) ++ text.flatMap putCharRaw, outb s.uart port v⟩ := by
        cases l with
        | cpu other =>
          rw [Serial.step, hcode] at hstep
          exact (Option.some.inj hstep).symm
        | load | emit => cases hl
      rw [ht]
      by_cases hlast : k = 6
      · subst hlast
        obtain ⟨stale, hsending⟩ := hnext.sending
        exact .inr ⟨stale, [], text, rfl, hsending⟩
      · exact .inl ⟨k + 1, by omega, hnext⟩
    · exact .inl ⟨k, hk, hs.device hl (Console.moves_of_step hstep)⟩
  · obtain ⟨done', left', heq, ht⟩ := hs.step hstep
    exact .inr ⟨stale, done', left', htext.trans heq, ht⟩

/-- The text printed, at any moment of a run: `done` of it was written, and
nothing of what was written is lost. -/
def Printed (u₀ : Device) (text : Bytes) (s : Console) : Prop :=
  ∃ stale done left, text = done ++ left ∧ Carries u₀ stale done s.uart ∧
    (s.code = [] → left = [])

theorem Runs.printed {u₀ : Device} {text : Bytes} {s : Console} (h : Runs u₀ text s) :
    Printed u₀ text s := by
  obtain ⟨k, hk, hs⟩ | ⟨stale, done, left, htext, hs⟩ := h
  · obtain ⟨stale, hcarries⟩ := hs.carries
    refine ⟨stale, [], text, rfl, hcarries, fun hcode => ?_⟩
    obtain ⟨_, _, hnext, -⟩ := hs.outb hk
    rw [hcode] at hnext
    cases hnext
  · refine ⟨stale, done, left, htext, hs.toCarries, fun hcode => ?_⟩
    obtain hloop | ⟨-, c, left', rfl, hwrite⟩ := hs.code
    · rw [hcode] at hloop
      cases left with
      | nil => rfl
      | cons c left' => cases hloop
    · rw [hcode] at hwrite
      cases hwrite

/-- The machine at the entry of `efi_main`, before lines are printed. -/
def booting (u₀ : Device) (lines : List (List String)) : Console := ⟨init ++ printAll lines, u₀⟩

theorem runs_of_run {u₀ : Device} {lines : List (List String)} {ls : List Label} {t : Console}
    (h : run step (booting u₀ lines) ls = some t) :
    Runs u₀ (encode (lines.map String.join)) t := by
  rw [booting, printAll_eq] at h
  exact run_inv (fun _ _ _ hs hstep => hs.step hstep) (runs_start u₀ _) h

/-- **What is on the line**, whatever the firmware left in the UART and however
its transmitter keeps up with the driver. -/
theorem serial_run {u₀ : Device} {lines : List (List String)} {ls : List Label} {t : Console}
    (h : run step (booting u₀ lines) ls = some t) :
    Printed u₀ (encode (lines.map String.join)) t :=
  (runs_of_run h).printed

/-- A UART that the firmware left with DLAB on, interrupts enabled and two bytes
under way. -/
def busyUart : Device := ⟨⟨0x05, 0x01, 0x83, 0x03, 0x0C, 0x00⟩, [0x42], some 0x41, [], []⟩

/-- One line, printed up to the middle of `init` while the old bytes go out. -/
theorem serial_run_busy : ∃ t, run step (booting busyUart [["hi"]])
      [.cpu 0, .emit, .cpu 0, .load, .cpu 0, .cpu 0] = some t ∧
    Printed busyUart (encode ([["hi"]].map String.join)) t := by
  have hsome : (run step (booting busyUart [["hi"]])
      [.cpu 0, .emit, .cpu 0, .load, .cpu 0, .cpu 0]).isSome = true := by decide
  obtain ⟨t, ht⟩ := Option.isSome_iff_exists.mp hsome
  exact ⟨t, ht, serial_run ht⟩

/-! ## Interrupts -/

/-- **The interrupts are off** once `init` is through, exactly when it found DLAB
off, or them off. -/
theorem serial_quiet_iff {u₀ : Device} {lines : List (List String)} {ls : List Label} {t : Console}
    (h : run step (booting u₀ lines) ls = some t)
    (hthrough : t.code.length ≤ (printAll lines).length) :
    t.uart.regs.ier = 0 ↔ u₀.regs.dlab = false ∨ u₀.regs.ier = 0 := by
  obtain ⟨k, hk, hs⟩ | ⟨stale, done, left, -, hs⟩ := runs_of_run h
  · -- there is some of `init` left
    rw [hs.code, printAll_eq, List.length_append, List.length_drop,
      show init.length = 7 from rfl] at hthrough
    omega
  · rw [hs.regs, initRegs_all]
    cases u₀.regs.dlab <;> simp

/-- With DLAB on they stay on. -/
theorem serial_quiet_busy : ∃ t,
    run step (booting busyUart []) (List.replicate 7 (.cpu 0)) = some t ∧
    (t.uart.regs.ier = 0 ↔ busyUart.regs.dlab = false ∨ busyUart.regs.ier = 0) := by
  have hlen : (run step (booting busyUart []) (List.replicate 7 (.cpu 0))).map
      (fun t => t.code.length) = some 0 := by decide
  obtain ⟨t, ht, hcode⟩ := Option.map_eq_some_iff.mp hlen
  exact ⟨t, ht, serial_quiet_iff ht (by rw [hcode]; exact Nat.zero_le _)⟩

/-! ## Progress -/

/-- What is left to be done: a write makes a byte that has two more steps to go. -/
def rank (s : Console) : Nat :=
  3 * s.code.length + 2 * s.uart.fifo.length + s.uart.shift.toList.length

/-- Who gets on: the transmitter, while it holds the driver up. -/
def helper (s : Console) : Proc :=
  if s.uart.shift.isSome then .emit else if s.uart.fifo = [] then .cpu else .load

/-- Everything is written, and out. -/
def Idle (s : Console) : Prop := s.code = [] ∧ s.uart.pending = []

/-- The driver waits for nothing but the transmitter. -/
def WaitsForUart (s : Console) : Prop :=
  ∀ port mask, .spin port mask ∈ s.code → port = com1 + 5 ∧ mask = 0x20

theorem Console.code_suffix {s t : Console} {l : Label} (h : step s l = some t) :
    t.code <:+ s.code := by
  cases moves_of_step h with
  | outb port v rest hcode => exact hcode ▸ List.suffix_cons _ rest
  | passes port mask rest hcode => exact hcode ▸ List.suffix_cons _ rest
  | spins | load | emit | swallow => exact List.suffix_refl _

theorem WaitsForUart.step {s t : Console} {l : Label} (h : WaitsForUart s)
    (hstep : step s l = some t) : WaitsForUart t :=
  fun port mask hmem => h port mask ((Console.code_suffix hstep).mem hmem)

theorem waitsForUart_booting (u₀ : Device) (lines : List (List String)) :
    WaitsForUart (booting u₀ lines) := by
  intro port mask hmem
  rw [booting, printAll_eq] at hmem
  rcases List.mem_append.mp hmem with hinit | hprint
  · exact absurd hinit (by simp [init])
  · obtain ⟨c, -, hc⟩ := List.mem_flatMap.mp hprint
    simpa [putCharRaw] using hc

/-- Every step but a turn of the waiting loop is progress. -/
theorem step_rank {s t : Console} {l : Label} (h : step s l = some t) :
    t = s ∨ rank t < rank s := by
  cases Console.moves_of_step h with
  | outb port v rest hcode =>
    have hdevice : (outb s.uart port v).fifo.length ≤ s.uart.fifo.length + 1 ∧
        (outb s.uart port v).shift = s.uart.shift := by
      rw [outb]
      split
      · exact s.uart.write_fifo_length _ v
      · exact ⟨Nat.le_succ _, rfl⟩
    refine .inr ?_
    show 3 * rest.length + 2 * (outb s.uart port v).fifo.length +
      (outb s.uart port v).shift.toList.length < rank s
    rw [rank, hcode, hdevice.2, List.length_cons]
    omega
  | spins => exact .inl rfl
  | passes port mask rest hcode =>
    refine .inr ?_
    show 3 * rest.length + 2 * s.uart.fifo.length + s.uart.shift.toList.length < rank s
    rw [rank, hcode, List.length_cons]
    omega
  | load b rest hfifo hshift =>
    refine .inr ?_
    show 3 * s.code.length + 2 * rest.length + 1 < rank s
    rw [rank, hfifo, hshift, List.length_cons, Option.toList_none, List.length_nil]
    omega
  | emit b hshift =>
    refine .inr ?_
    show 3 * s.code.length + 2 * s.uart.fifo.length + 0 < rank s
    rw [rank, hshift]
    exact Nat.lt_succ_self _
  | swallow b hshift =>
    refine .inr ?_
    show 3 * s.code.length + 2 * s.uart.fifo.length + 0 < rank s
    rw [rank, hshift]
    exact Nat.lt_succ_self _

/-- The helper can make a step, and a proper one. -/
theorem helper_moves {s : Console} (hwait : WaitsForUart s) (hidle : ¬ Idle s) {l : Label}
    (hl : l.proc = helper s) : ∃ t, step s l = some t ∧ t ≠ s := by
  cases hshift : s.uart.shift with
  | some b =>
    rw [helper, hshift, Option.isSome_some, if_pos rfl] at hl
    cases l with
    | cpu | load => cases hl
    | emit =>
      refine ⟨_, by rw [step, Device.emit, hshift]; rfl, fun heq => ?_⟩
      have := congrArg (fun s => s.uart.shift) heq
      split at this <;> simp [hshift] at this
  | none =>
    rw [helper, hshift, Option.isSome_none, if_neg Bool.false_ne_true] at hl
    cases hfifo : s.uart.fifo with
    | cons b rest =>
      rw [hfifo, if_neg (List.cons_ne_nil b rest)] at hl
      cases l with
      | cpu | emit => cases hl
      | load =>
        refine ⟨_, by rw [step, Device.load, hfifo, hshift]; rfl, fun heq => ?_⟩
        have := congrArg (fun s => s.uart.shift) heq
        simp [hshift] at this
    | nil =>
      rw [hfifo, if_pos rfl] at hl
      cases l with
      | load | emit => cases hl
      | cpu other =>
        cases hcode : s.code with
        | nil => exact absurd ⟨hcode, by rw [Device.pending, hshift, hfifo]; rfl⟩ hidle
        | cons op rest =>
          -- the transmitter is ready, so that the loop ends
          cases op with
          | outb port v =>
            refine ⟨_, by rw [step, hcode], fun heq => ?_⟩
            have := congrArg (fun s => s.code) heq
            simp [hcode] at this
          | spin port mask =>
            obtain ⟨rfl, rfl⟩ := hwait port mask (by rw [hcode]; exact List.mem_cons_self)
            have hready : ¬ inb s.uart (com1 + 5) other &&& 0x20 = 0 := fun h =>
              (inb_ready _ _).mp h hfifo
            refine ⟨{ s with code := rest }, by rw [step, hcode]; simp only [if_neg hready], ?_⟩
            intro heq
            have := congrArg (fun s => s.code) heq
            simp [hcode] at this

theorem turn_rank (s : Console) (l : Label) :
    turn step s l = s ∨ rank (turn step s l) < rank s := by
  rw [turn]
  cases hstep : step s l with
  | none => exact .inl rfl
  | some t => exact step_rank hstep

theorem booting_drains {u₀ : Device} {lines : List (List String)} {sched : Nat → Label}
    (hfair : ∀ k, FairTo Label.proc sched k) :
    ∃ n, Idle (after step sched (booting u₀ lines) n) := by
  refine fair_reaches WaitsForUart rank helper (fun _ _ _ h hstep => h.step hstep)
    (fun s l _ _ => ?_) (fun s l hwait hidle hl => ?_) hfair (waitsForUart_booting u₀ lines)
  · rcases turn_rank s l with heq | hlt
    · rw [heq]
      exact .inr ⟨Nat.le_refl _, rfl⟩
    · exact .inl hlt
  · obtain ⟨t, hstep, hne⟩ := helper_moves hwait hidle hl
    rw [turn, hstep]
    exact (step_rank hstep).resolve_left hne

/-- Nothing moves any more. -/
theorem Idle.turn {s : Console} (h : Idle s) (l : Label) : Runs.turn step s l = s := by
  obtain ⟨hcode, hpending⟩ := h
  obtain ⟨hshift, hfifo⟩ := List.append_eq_nil_iff.mp hpending
  rw [Runs.turn]
  cases hstep : step s l with
  | none => rfl
  | some t =>
    cases Console.moves_of_step hstep with
    | outb port v rest hop | spins port mask rest hop | passes port mask rest hop =>
      rw [hcode] at hop
      cases hop
    | load b rest hop =>
      rw [hfifo] at hop
      cases hop
    | emit b hop | swallow b hop =>
      rw [hop] at hshift
      cases hshift

theorem Idle.after {sched : Nat → Label} {s : Console} {n : Nat} (h : Idle (after step sched s n))
    (m : Nat) (hm : n ≤ m) : Runs.after step sched s m = Runs.after step sched s n := by
  obtain ⟨d, rfl⟩ := Nat.exists_eq_add_of_le hm
  induction d with
  | zero => rfl
  | succ d ih =>
    have hd := ih (Nat.le_add_right n d)
    show Runs.turn step (Runs.after step sched s (n + d)) _ = _
    rw [hd, h.turn]

/-- The whole text is on the line, and nothing is under way. -/
def Delivered (u₀ : Device) (text : Bytes) (s : Console) : Prop :=
  s.code = [] ∧ s.uart.pending = [] ∧ ∃ stale, Carries u₀ stale text s.uart

/-- With everything written and out, the line has the whole text. -/
theorem Idle.delivered {u₀ : Device} {lines : List (List String)} {ls : List Label} {t : Console}
    (hidle : Idle t) (h : run step (booting u₀ lines) ls = some t) :
    Delivered u₀ (encode (lines.map String.join)) t := by
  obtain ⟨stale, done, left, htext, hcarries, hleft⟩ := (runs_of_run h).printed
  rw [htext, hleft hidle.1, List.append_nil]
  exact ⟨hidle.1, hidle.2, stale, hcarries⟩

/-- **Everything printed gets out**: under every schedule that is fair to the
driver and to both parts of the transmitter, the whole text is on the line from
some time on. -/
theorem serial_fair {u₀ : Device} {lines : List (List String)} {sched : Nat → Label}
    (hfair : ∀ k, FairTo Label.proc sched k) : ∃ n, ∀ m, n ≤ m →
      Delivered u₀ (encode (lines.map String.join)) (after step sched (booting u₀ lines) m) := by
  obtain ⟨n, hidle⟩ := @booting_drains u₀ lines sched hfair
  refine ⟨n, fun m hm => ?_⟩
  rw [hidle.after m hm]
  obtain ⟨ls, hrun⟩ := after_run step sched (booting u₀ lines) n
  exact hidle.delivered hrun

/-! ## A round robin -/

/-- The driver and the two parts of the transmitter in turn. -/
def roundRobin (n : Nat) : Label := if n % 3 = 0 then .cpu 0 else if n % 3 = 1 then .load else .emit

theorem roundRobin_fair (k : Proc) : FairTo Label.proc roundRobin k := by
  have hturn : ∀ n r, r < 3 → (3 * n + r) % 3 = r := by omega
  intro n
  cases k with
  | cpu => exact ⟨3 * n + 0, by omega, by rw [roundRobin, hturn n 0 (by decide)]; rfl⟩
  | load => exact ⟨3 * n + 1, by omega, by rw [roundRobin, hturn n 1 (by decide)]; rfl⟩
  | emit => exact ⟨3 * n + 2, by omega, by rw [roundRobin, hturn n 2 (by decide)]; rfl⟩

theorem serial_fair_busy : ∃ n, ∀ m, n ≤ m →
    Delivered busyUart (encode ([["hi"], []].map String.join))
      (after step roundRobin (booting busyUart [["hi"], []]) m) :=
  serial_fair roundRobin_fair

end MochiVM.Serial
