import KbmOs.Lib.Polling
/-!
# A serial port

The transmitting half of a 16550. A byte written to it waits in the
transmit register until the port has put it on the line; a second byte
written meanwhile would be lost, and is not allowed. While the divisor
latch is open the first two registers are the divisor's.
-/

namespace Uart16550

open Polling

structure Uart where
  divisorLow : BitVec 8
  divisorHigh : BitVec 8
  interruptEnable : BitVec 8
  fifoControl : BitVec 8
  lineControl : BitVec 8
  modemControl : BitVec 8
  /-- The byte that waits to be sent. -/
  holding : Option (BitVec 8)
  /-- What was put on the line. -/
  line : List (BitVec 8)

namespace Uart

/-- The divisor latch is open. -/
def latch (u : Uart) : Bool := u.lineControl.getLsbD 7

/-- A byte is written to a register; the bit that empties the queue drops
what waits. -/
def write (u : Uart) (register : ℕ) (value : BitVec 8) : Option Uart :=
  match register with
  | 0 =>
    if u.latch then some { u with divisorLow := value }
    else if u.holding.isSome then none
    else some { u with holding := some value }
  | 1 => some (if u.latch then { u with divisorHigh := value } else { u with interruptEnable := value })
  | 2 => some { u with
      fifoControl := value
      holding := if value.getLsbD 2 then none else u.holding }
  | 3 => some { u with lineControl := value }
  | 4 => some { u with modemControl := value }
  | _ => none

/-- The line status: bit 5 says that the transmit register is empty. -/
def lineStatus (u : Uart) : BitVec 8 := if u.holding.isNone then 0x20 else 0

/-- The waiting byte is put on the line. -/
def transmit (u : Uart) : Uart :=
  { u with
    holding := none
    line := u.line ++ u.holding.toList }

/-- What was written to be sent. -/
def sent (u : Uart) : List (BitVec 8) := u.line ++ u.holding.toList

end Uart

/-- The port sends whenever it likes. -/
def pace (schedule : ℕ → Option Unit) : Pace Uart Unit := ⟨fun _ u => u.transmit, schedule⟩

variable {schedule : ℕ → Option Unit} {u : Uart} {now : ℕ}

/-- With nothing to send the port keeps still. -/
theorem still_of_empty (h : u.holding = none) : Still (pace schedule) u := fun _ => by
  change u.transmit = u
  unfold Uart.transmit
  rw [h]
  change { u with holding := none, line := u.line ++ [] } = u
  rw [List.append_nil, ← h]

theorem transmit_turns (u : Uart) : Turns (pace schedule) () u u.transmit :=
  ⟨rfl, fun _ => Or.inr rfl⟩

end Uart16550
