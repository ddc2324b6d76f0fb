import KbmOs.Lib.Polling
import Mathlib.Data.List.Basic
import Mathlib.Logic.Function.Basic
/-!
# The keyboard controller

An 8042 with a keyboard and a mouse behind it. Both send bytes, and the
controller passes them on through one output buffer, a byte at a time: a
byte waits there until it is read, and the next is passed on only then.
What the processor writes goes the other way through an input buffer, of
which the controller takes its commands. The bytes of a device stay in
order and none is lost (`pending_passes`, `pending_read`), as long as a
buffer is read for the device whose byte is in it.
-/

namespace I8042

/-- Where a byte in the output buffer comes from. -/
inductive Device
  | keyboard
  | mouse
deriving DecidableEq

/-- The port a byte was written to. -/
inductive Port
  | command
  | data
deriving DecidableEq

/-- What the next byte at the data port is for. -/
inductive Expects
  | keyboardByte
  | commandByte
  | mouseByte
deriving DecidableEq

structure Controller where
  commandByte : BitVec 8
  /-- The byte that was written and not yet taken. -/
  input : Option (Port × BitVec 8)
  expects : Expects
  /-- The bytes a device has sent and the controller not yet passed on. -/
  queue : Device → List (BitVec 8)
  /-- What is read at the data port. -/
  data : BitVec 8
  /-- Whose byte waits in the output buffer. -/
  full : Option Device
  /-- The bytes that were given to the mouse. -/
  mouseCommands : List (BitVec 8)

namespace Controller

/-- Status bit 0: the output buffer is full. -/
def outputFull (c : Controller) : Bool := c.full.isSome

/-- Status bit 1: the input buffer is full. -/
def inputFull (c : Controller) : Bool := c.input.isSome

/-- The device may send. -/
def admits (c : Controller) : Device → Bool
  | .keyboard => !c.commandByte.getLsbD 4
  | .mouse => !c.commandByte.getLsbD 5

/-- A byte of the device in the output buffer requests an interrupt. -/
def interrupts (c : Controller) : Device → Bool
  | .keyboard => c.commandByte.getLsbD 0
  | .mouse => c.commandByte.getLsbD 1

/-- A device sends a byte. -/
def sends (c : Controller) (device : Device) (byte : BitVec 8) : Controller :=
  { c with queue := Function.update c.queue device (c.queue device ++ [byte]) }

/-- The controller passes the next byte of a device on, once the output
buffer is empty. -/
def passes (c : Controller) (device : Device) : Option Controller :=
  match c.full, c.queue device with
  | none, byte :: rest =>
    if c.admits device then
      some { c with
        queue := Function.update c.queue device rest
        data := byte
        full := some device }
    else none
  | _, _ => none

/-- The data port is read. -/
def read (c : Controller) : BitVec 8 × Controller := (c.data, { c with full := none })

/-- What the device has sent and nobody has read. -/
def pending (c : Controller) (device : Device) : List (BitVec 8) :=
  (if c.full = some device then [c.data] else []) ++ c.queue device

variable {c c' : Controller} {device other : Device} {byte : BitVec 8}

theorem pending_sends : (c.sends device byte).pending other =
    c.pending other ++ if other = device then [byte] else [] := by
  unfold sends pending
  dsimp only
  by_cases h : other = device
  · rw [if_pos h, h, Function.update_self, List.append_assoc]
  · rw [if_neg h, Function.update_of_ne h, List.append_nil]

/-- **What passing a byte on does.** -/
theorem passes_eq_some : c.passes device = some c' ↔ c.full = none ∧ c.admits device = true ∧
    ∃ byte rest, c.queue device = byte :: rest ∧ c' = { c with
      queue := Function.update c.queue device rest
      data := byte
      full := some device } := by
  unfold passes
  constructor
  · intro h
    split at h
    · next byte rest hfull hqueue =>
      split at h
      · next hadmits => exact ⟨hfull, hadmits, byte, rest, hqueue, (Option.some.inj h).symm⟩
      · cases h
    · cases h
  · rintro ⟨hfull, hadmits, byte, rest, hqueue, rfl⟩
    rw [hfull, hqueue]
    exact if_pos hadmits

/-- **A byte that is passed on is still pending.** -/
theorem pending_passes (h : c.passes device = some c') (other : Device) :
    c'.pending other = c.pending other := by
  obtain ⟨hfull, -, byte, rest, hqueue, rfl⟩ := passes_eq_some.1 h
  unfold pending
  dsimp only
  rw [hfull, if_neg (nofun : ¬ none = some other), List.nil_append]
  by_cases hother : other = device
  · rw [hother, if_pos rfl, Function.update_self, hqueue]
    rfl
  · rw [if_neg fun heq => hother (Option.some.inj heq).symm, Function.update_of_ne hother]
    rfl

/-- **A byte that is read is the device's next**, and the other's are kept. -/
theorem pending_read (h : c.full = some device) (other : Device) : c.pending other =
    (if other = device then [c.read.1] else []) ++ c.read.2.pending other := by
  unfold pending read
  dsimp only
  rw [h]
  by_cases hother : other = device
  · rw [hother, if_pos rfl, if_pos rfl, if_neg (nofun : ¬ none = some device), List.nil_append]
  · rw [if_neg fun heq => hother (Option.some.inj heq).symm, if_neg hother,
      if_neg (nofun : ¬ none = some other)]
    rfl

/-! ## What is written -/

/-- A byte is written to a port; one that has not been taken must not be
written over. -/
def write (c : Controller) (port : Port) (value : BitVec 8) : Option Controller :=
  if c.inputFull then none else some { c with input := some (port, value) }

/-- The data port is read by a program that knows a byte waits. -/
def readFull (c : Controller) : Option (BitVec 8 × Controller) :=
  if c.outputFull then some c.read else none

/-- The controller takes what was written. To be read, its own byte needs
the output buffer; a device answers what it is given. -/
def takes (answer : Device → BitVec 8 → BitVec 8) (c : Controller) : Controller :=
  match c.input with
  | none => c
  | some (.command, value) =>
    if value = 0x20 then
      if c.outputFull then c
      else { c with input := none, data := c.commandByte, full := some .keyboard }
    else if value = 0x60 then { c with input := none, expects := .commandByte }
    else if value = 0xA8 then
      { c with input := none, commandByte := c.commandByte &&& ~~~0x20 }
    else if value = 0xD4 then { c with input := none, expects := .mouseByte }
    else { c with input := none }
  | some (.data, value) =>
    match c.expects with
    | .keyboardByte => ({ c with input := none } : Controller).sends .keyboard (answer .keyboard value)
    | .commandByte => { c with input := none, expects := .keyboardByte, commandByte := value }
    | .mouseByte =>
      ({ c with
        input := none
        expects := .keyboardByte
        mouseCommands := c.mouseCommands ++ [value] } : Controller).sends .mouse (answer .mouse value)

end Controller

/-! ## At its own pace -/

open Polling

/-- What the controller does by itself. -/
inductive Act
  | take
  | pass (device : Device)

/-- The controller and its devices, with the answers they give. -/
def pace (answer : Device → BitVec 8 → BitVec 8) (schedule : ℕ → Option Act) : Pace Controller Act where
  act
    | .take, c => c.takes answer
    | .pass device, c => (c.passes device).getD c
  schedule := schedule

variable {answer : Device → BitVec 8 → BitVec 8} {schedule : ℕ → Option Act} {c c' : Controller}

/-- Nothing is on its way from a device. -/
def Controller.Silent (c : Controller) : Prop := ∀ device, c.queue device = []

theorem passes_of_silent (h : c.Silent) (device : Device) : (c.passes device).getD c = c := by
  rcases hpass : c.passes device with _ | c'
  · rfl
  · obtain ⟨-, -, byte, rest, hqueue, -⟩ := Controller.passes_eq_some.1 hpass
    rw [h device] at hqueue
    cases hqueue

/-- **With nothing to take and nothing to pass on the controller keeps
still.** -/
theorem still_of_silent (hsilent : c.Silent) (hinput : c.input = none) :
    Still (pace answer schedule) c := fun a => by
  cases a with
  | take =>
    change c.takes answer = c
    unfold Controller.takes
    rw [hinput]
  | pass device => exact passes_of_silent hsilent device

/-- **It takes what was written**, where nothing is to be passed on. -/
theorem takes_turns (hsilent : c.Silent) (htakes : c.takes answer = c') :
    Turns (pace answer schedule) .take c c' where
  does := htakes
  only a := by
    cases a with
    | take => exact Or.inr htakes
    | pass device => exact Or.inl (passes_of_silent hsilent device)

/-- **And passes a byte on**, where nothing is to be taken and the other
device is silent. -/
theorem passes_turns {device : Device} (hinput : c.input = none)
    (hother : ∀ other, other ≠ device → c.queue other = []) (hpass : c.passes device = some c') :
    Turns (pace answer schedule) (.pass device) c c' where
  does := congrArg (Option.getD · c) hpass
  only a := by
    cases a with
    | take =>
      refine Or.inl ?_
      change c.takes answer = c
      unfold Controller.takes
      rw [hinput]
    | pass other =>
      by_cases heq : other = device
      · rw [heq]
        exact Or.inr (congrArg (Option.getD · c) hpass)
      · refine Or.inl ?_
        rcases hnone : c.passes other with _ | c''
        · exact congrArg (Option.getD · c) hnone
        · obtain ⟨-, -, byte, rest, hqueue, -⟩ := Controller.passes_eq_some.1 hnone
          rw [hother other heq] at hqueue
          cases hqueue

end I8042
