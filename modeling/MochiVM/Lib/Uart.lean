import MochiVM.Lib.Buffer

/-!
# The transmitter of a 16550 UART

Seven of the eight byte registers of a 16550, those a transmitting driver uses:
the divisor latch shares the addresses of the first two with the transmitter
holding register and the interrupt enables, and bit 7 of the line control
register (DLAB) says which of them an access is to. What is written to the
holding register goes through a FIFO and a shift register onto the line, by
steps of the device (`load`, `emit`) that the driver does not see.

`dropped` is a ghost: the bytes that were written and cannot come out any more.
Of the receiver there is nothing but the status bits it contributes to the line
status register, which are left open.
-/

namespace MochiVM.Uart

open MochiVM.Buffer

/-! ## The registers -/

/-- The registers of the transmitter; the FIFO control register holds what stays
of a write. -/
structure Regs where
  ier : UInt8
  fcr : UInt8
  lcr : UInt8
  mcr : UInt8
  /-- Divisor latch, low byte. -/
  dll : UInt8
  /-- Divisor latch, high byte. -/
  dlm : UInt8
deriving DecidableEq, Repr

namespace Regs

/-- Divisor latch access. -/
def dlab (r : Regs) : Bool := r.lcr &&& 0x80 != 0

/-- Whether the FIFO is enabled. -/
def fifoOn (r : Regs) : Bool := r.fcr &&& 1 != 0

/-- Nothing gets onto the line: loopback, or a break. -/
def silent (r : Regs) : Bool := r.mcr &&& 0x10 != 0 || r.lcr &&& 0x40 != 0

/-- The divisor of the 115200 baud base clock. -/
def divisor (r : Regs) : Nat := 256 * r.dlm.toNat + r.dll.toNat

/-- A write to the register at `offset`, as far as registers are concerned. -/
def write (r : Regs) (offset : UInt16) (v : UInt8) : Regs :=
  if offset = 0 then if r.dlab then { r with dll := v } else r
  else if offset = 1 then if r.dlab then { r with dlm := v } else { r with ier := v &&& 0x0F }
  -- without bit 0 the other bits are not programmed
  else if offset = 2 then { r with fcr := if v &&& 1 = 0 then 0 else v &&& 0xC9 }
  else if offset = 3 then { r with lcr := v }
  else if offset = 4 then { r with mcr := v &&& 0x1F }
  else r

/-- A write to the FIFO control register that empties the FIFO. -/
def flushes (r : Regs) (v : UInt8) : Bool :=
  r.fifoOn != (v &&& 1 != 0) || (v &&& 1 != 0 && v &&& 4 != 0)

end Regs

/-! ## The device -/

/-- A character on the line, with the settings it went out at. -/
structure Frame where
  data : UInt8
  divisor : Nat
  /-- The line control register. -/
  format : UInt8
deriving DecidableEq, Repr

structure Device where
  regs : Regs
  fifo : Bytes
  /-- The shift register. -/
  shift : Option UInt8
  /-- What went over the line so far. -/
  wire : List Frame
  dropped : Bytes

namespace Device

/-- What the FIFO holds at most. -/
def depth (u : Device) : Nat := if u.regs.fifoOn then 16 else 1

/-- A write to the transmitter holding register. A full FIFO takes no more, and
the single register is overwritten. -/
def put (u : Device) (b : UInt8) : Device :=
  if u.fifo.length < u.depth then { u with fifo := u.fifo ++ [b] }
  else if u.regs.fifoOn then { u with dropped := u.dropped ++ [b] }
  else { u with fifo := [b], dropped := u.dropped ++ u.fifo }

def flush (u : Device) : Device := { u with fifo := [], dropped := u.dropped ++ u.fifo }

/-- A write to the register at `offset`. -/
def write (u : Device) (offset : UInt16) (v : UInt8) : Device :=
  let u' :=
    if offset = 0 ∧ ¬ u.regs.dlab then u.put v
    else if offset = 2 ∧ u.regs.flushes v then u.flush
    else u
  { u' with regs := u.regs.write offset v }

/-- The line status register; `other` are the bits of the receiver. -/
def lsr (u : Device) (other : UInt8) : UInt8 :=
  (other &&& 0x9F) ||| (if u.fifo = [] then 0x20 else 0) |||
    (if u.fifo = [] ∧ u.shift = none then 0x40 else 0)

/-- A read of the register at `offset`. Only the line status is modelled. -/
def read (u : Device) (offset : UInt16) (other : UInt8) : UInt8 :=
  if offset = 5 then u.lsr other else other

/-- The next byte goes into the shift register. -/
def load (u : Device) : Option Device :=
  match u.fifo, u.shift with
  | b :: rest, none => some { u with fifo := rest, shift := some b }
  | _, _ => none

/-- The byte in the shift register goes out. -/
def emit (u : Device) : Option Device :=
  match u.shift with
  | some b =>
    some (if u.regs.silent then { u with shift := none, dropped := u.dropped ++ [b] }
      else { u with shift := none, wire := u.wire ++ [⟨b, u.regs.divisor, u.regs.lcr⟩] })
  | none => none

/-- What is under way. -/
def pending (u : Device) : Bytes := u.shift.toList ++ u.fifo

/-- What went over the line. -/
def sent (u : Device) : Bytes := u.wire.map Frame.data

/-- What went over the line or is under way. -/
def out (u : Device) : Bytes := u.sent ++ u.pending

/-! ## What the parts of a step do -/

variable {u t : Device}

@[simp] theorem write_regs (u : Device) (offset : UInt16) (v : UInt8) :
    (u.write offset v).regs = u.regs.write offset v := rfl

@[simp] theorem put_wire (u : Device) (b : UInt8) : (u.put b).wire = u.wire := by
  rw [put]
  split
  · rfl
  · split <;> rfl

@[simp] theorem write_wire (u : Device) (offset : UInt16) (v : UInt8) :
    (u.write offset v).wire = u.wire := by
  simp only [write]
  split
  · exact put_wire u v
  · split <;> rfl

/-- Anything but a write to the holding register adds nothing to what is under
way. -/
theorem write_pending_sublist {offset : UInt16} {v : UInt8}
    (h : offset = 0 → u.regs.dlab = true) : (u.write offset v).pending.Sublist u.pending := by
  simp only [write]
  rw [if_neg (by rintro ⟨h₀, hd⟩; exact hd (h h₀))]
  split
  · exact (List.Sublist.refl u.shift.toList).append (List.nil_sublist u.fifo)
  · exact List.Sublist.refl _

/-- And leaves an empty FIFO empty. -/
theorem write_fifo_empty {offset : UInt16} {v : UInt8} (h : offset = 0 → u.regs.dlab = true)
    (hfifo : u.fifo = []) : (u.write offset v).fifo = [] := by
  simp only [write]
  rw [if_neg (by rintro ⟨h₀, hd⟩; exact hd (h h₀))]
  split
  · rfl
  · exact hfifo

theorem write_flush {v : UInt8} (h : u.regs.flushes v = true) : (u.write 2 v).fifo = [] := by
  simp only [write]
  rw [if_neg (by rintro ⟨h₀, -⟩; exact absurd h₀ (by decide)), if_pos (by simp [h])]
  rfl

/-- A byte written while the FIFO is empty goes into it. -/
theorem write_ready {v : UInt8} (hdlab : u.regs.dlab = false) (hfifo : u.fifo = []) :
    u.write 0 v = { u with fifo := [v] } := by
  have hroom : u.fifo.length < u.depth := by
    rw [hfifo, depth]
    split <;> decide
  have hregs : u.regs.write 0 v = u.regs := by
    rw [Regs.write, if_pos rfl, hdlab]
    rfl
  simp only [write]
  rw [if_pos (by simp [hdlab]), hregs, put, if_pos hroom, hfifo]
  rfl

/-- The driver's test: bit 5 is set when the FIFO is empty. -/
theorem lsr_ready (u : Device) (other : UInt8) : u.lsr other &&& 0x20 = 0 ↔ u.fifo ≠ [] := by
  have hset : ∀ x y : BitVec 8, y = 0 ∨ y = 0x40 → ((x &&& 0x9F) ||| 0x20 ||| y) &&& 0x20 ≠ 0 := by
    rintro x y (rfl | rfl) <;> revert x <;> decide
  have hclear : ∀ x : BitVec 8, ((x &&& 0x9F) ||| 0 ||| 0) &&& 0x20 = 0 := by decide
  rw [lsr]
  by_cases hfifo : u.fifo = []
  · refine iff_of_false (fun h => ?_) (not_not.mpr hfifo)
    rw [if_pos hfifo] at h
    by_cases hshift : u.shift = none
    · rw [if_pos ⟨hfifo, hshift⟩] at h
      exact hset other.toBitVec 0x40 (.inr rfl) (congrArg UInt8.toBitVec h)
    · rw [if_neg (by simp [hshift])] at h
      exact hset other.toBitVec 0 (.inl rfl) (congrArg UInt8.toBitVec h)
  · refine iff_of_true ?_ hfifo
    rw [if_neg hfifo, if_neg (by simp [hfifo])]
    exact UInt8.toBitVec_inj.mp (hclear other.toBitVec)

theorem load_eq_some (h : u.load = some t) :
    ∃ b rest, u.fifo = b :: rest ∧ u.shift = none ∧
      t = { u with fifo := rest, shift := some b } := by
  rw [load] at h
  split at h
  next b rest hfifo hshift =>
    cases h
    exact ⟨b, rest, hfifo, hshift, rfl⟩
  · cases h

theorem emit_eq_some (h : u.emit = some t) :
    ∃ b, u.shift = some b ∧
      t = if u.regs.silent then { u with shift := none, dropped := u.dropped ++ [b] }
        else { u with shift := none, wire := u.wire ++ [⟨b, u.regs.divisor, u.regs.lcr⟩] } := by
  rw [emit] at h
  split at h
  next b hshift =>
    cases h
    exact ⟨b, hshift, rfl⟩
  · cases h

/-- A write puts at most one byte into the FIFO, and none further. -/
theorem write_fifo_length (u : Device) (offset : UInt16) (v : UInt8) :
    (u.write offset v).fifo.length ≤ u.fifo.length + 1 ∧ (u.write offset v).shift = u.shift := by
  have hput : (u.put v).fifo.length ≤ u.fifo.length + 1 ∧ (u.put v).shift = u.shift := by
    rw [put]
    split
    · exact ⟨by simp, rfl⟩
    · split
      · exact ⟨Nat.le_succ _, rfl⟩
      · exact ⟨by simp, rfl⟩
  simp only [write]
  split
  · exact hput
  · split
    · exact ⟨Nat.zero_le _, rfl⟩
    · exact ⟨Nat.le_succ _, rfl⟩

/-- The order of the bytes does not change inside the device. -/
theorem out_load {b : UInt8} {rest : Bytes} (hfifo : u.fifo = b :: rest) (hshift : u.shift = none) :
    ({ u with fifo := rest, shift := some b } : Device).out = u.out := by
  rw [out, out, pending, pending, hfifo, hshift]
  rfl

theorem out_emit {b : UInt8} {divisor : Nat} {format : UInt8} (hshift : u.shift = some b) :
    ({ u with shift := none, wire := u.wire ++ [⟨b, divisor, format⟩] } : Device).out = u.out := by
  rw [out, out, sent, sent, pending, pending, hshift, List.map_append, List.append_assoc]
  rfl

end Device

end MochiVM.Uart
