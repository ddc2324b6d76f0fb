import KbmOs.Lib.Uart16550
import KbmOs.Serial
/-!
# The serial port's driver

`drivers/serial.c` on the port itself: the registers `serial_init` sets,
and the loop that looks at the line status before each byte. What reaches
the line is what the list model of the driver says, however slowly the port
sends.
-/

namespace KbmOs

namespace SerialPort

open Polling Uart16550

variable (schedule : ℕ → Option Unit)

/-- `outb` at the register. -/
def outb (register : ℕ) (value : BitVec 8) : Polled Uart Unit :=
  access (pace schedule) fun u => (u.write register value).map fun u => ((), u)

/-- 38400 baud, 8 data bits, no parity, one stop bit. -/
def serialInit : Polled Uart Unit := do
  outb schedule 1 0x00
  outb schedule 3 0x80
  outb schedule 0 0x03
  outb schedule 1 0x00
  outb schedule 3 0x03
  outb schedule 2 0xc7
  outb schedule 4 0x0b

/-- The transmit register is not empty. -/
def transmitting (u : Uart) : Bool := u.lineStatus &&& 0x20 = 0

def serialPutc (character : ℕ) : Polled Uart Unit := do
  waitWhile (pace schedule) transmitting
  outb schedule 0 (BitVec.ofNat 8 character)

/-- The loop of `serial_write` on the bytes of its text. -/
def serialWriteBytes : List ℕ → Polled Uart Unit
  | [] => pure ()
  | character :: text =>
    if character = 0 then pure ()
    else do
      if character = '\n'.toNat then serialPutc schedule '\r'.toNat
      serialPutc schedule character
      serialWriteBytes text

def serialWrite (text : String) : Polled Uart Unit := serialWriteBytes schedule (cString text)

/-- The nibbles at the shifts, one after the other. -/
def serialWriteNibbles (value : ℕ) : List ℕ → Polled Uart Unit
  | [] => pure ()
  | shift :: shifts => do
    serialPutc schedule ((cString "0123456789abcdef").getD (value >>> shift &&& 0x0f) 0)
    serialWriteNibbles value shifts

def serialWriteHex (value : ℕ) : Polled Uart Unit := do
  serialWrite schedule "0x"
  serialWriteNibbles schedule value ((List.range 16).map fun i => 60 - 4 * i)

/-! ## One byte -/

variable {schedule : ℕ → Option Unit} {u : Uart}

/-- A byte has taken the place of what was waiting. -/
def put (u : Uart) (character : ℕ) : Uart :=
  { u.transmit with holding := some (BitVec.ofNat 8 character) }

theorem sent_put (u : Uart) (character : ℕ) :
    (put u character).sent = u.sent ++ [BitVec.ofNat 8 character] := rfl

theorem not_transmitting (h : u.holding = none) : transmitting u = false := by
  unfold transmitting Uart.lineStatus
  rw [h]
  rfl

theorem transmitting_of_some {byte : BitVec 8} (h : u.holding = some byte) :
    transmitting u = true := by
  simp [transmitting, Uart.lineStatus, h]

theorem transmit_eq (h : u.holding = none) : u.transmit = u :=
  @still_of_empty (fun _ => none) u h ()

/-- **A byte is written once the one before it is on the line.** -/
theorem serialPutc_returns (hfair : (pace schedule).Fair) (hlatch : u.latch = false)
    (character now : ℕ) :
    ∃ later, Returns (serialPutc schedule character) (u, now) () (put u character, later) := by
  have hempty : u.transmit.holding = none := rfl
  have hwait : ∃ later, Returns (waitWhile (pace schedule) transmitting) (u, now) ()
      (u.transmit, later) := by
    rcases hholding : u.holding with _ | byte
    · refine ⟨now + 1, ?_⟩
      rw [transmit_eq hholding]
      exact Returns.waited (still_of_empty hholding) (not_transmitting hholding)
    · exact Returns.turned (transmit_turns u) (transmitting_of_some hholding)
        (not_transmitting hempty) hfair now
  obtain ⟨later, hwait⟩ := hwait
  refine ⟨later + 1, hwait.bind (Returns.access (still_of_empty hempty) ?_)⟩
  have hwrite : u.transmit.write 0 (BitVec.ofNat 8 character) = some (put u character) := by
    have hlatch' : u.transmit.latch = false := hlatch
    unfold Uart.write
    rw [hlatch']
    rfl
  rw [hwrite]
  rfl

/-! ## Texts -/

/-- The bytes of the list model, as they go over the line. -/
def onLine (characters : List ℕ) : List (BitVec 8) := characters.map (BitVec.ofNat 8)

/-- The characters have been written, one after the other. -/
def putAll (u : Uart) (characters : List ℕ) : Uart := characters.foldl put u

theorem sent_putAll (u : Uart) (characters : List ℕ) :
    (putAll u characters).sent = u.sent ++ onLine characters := by
  induction characters generalizing u with
  | nil => exact (List.append_nil _).symm
  | cons character characters ih =>
    refine (ih (put u character)).trans ?_
    rw [sent_put, List.append_assoc]
    rfl

theorem latch_putAll (u : Uart) (characters : List ℕ) : (putAll u characters).latch = u.latch := by
  induction characters generalizing u with
  | nil => rfl
  | cons character characters ih => exact ih (put u character)

/-- A program that writes the characters. -/
def Writes (p : Polled Uart Unit) (characters : List ℕ) : Prop :=
  ∀ u now, u.latch = false →
    ∃ later, Returns p (u, now) () (putAll u characters, later)

theorem Writes.pure : Writes (pure ()) [] := fun u now _ => ⟨now, Returns.pure () (u, now)⟩

/-- **Programs write one after the other.** -/
theorem Writes.bind {p q : Polled Uart Unit} {first second : List ℕ} (h : Writes p first)
    (h' : Writes q second) :
    Writes (do p; q) (first ++ second) := fun u now hlatch => by
  obtain ⟨middle, hp⟩ := h u now hlatch
  obtain ⟨later, hq⟩ := h' (putAll u first) middle ((latch_putAll u first).trans hlatch)
  refine ⟨later, hp.bind ?_⟩
  unfold putAll at hq ⊢
  rw [List.foldl_append]
  exact hq

variable (hfair : (pace schedule).Fair)
include hfair

theorem writes_serialPutc (character : ℕ) :
    Writes (serialPutc schedule character) (KbmOs.serialPutc character) :=
  fun _ now hlatch => serialPutc_returns hfair hlatch character now

/-- **`serial_write` writes its text**, up to the NUL, with a carriage return
before each new line. -/
theorem writes_serialWriteBytes (text : List ℕ) :
    Writes (serialWriteBytes schedule text) (KbmOs.serialWriteBytes text) := by
  induction text with
  | nil => exact Writes.pure
  | cons character text ih =>
    unfold serialWriteBytes KbmOs.serialWriteBytes
    by_cases hnul : character = 0
    · rw [if_pos hnul, if_pos hnul]
      exact Writes.pure
    rw [if_neg hnul, if_neg hnul]
    have hrest := (writes_serialPutc hfair character).bind ih
    by_cases hline : character = '\n'.toNat
    · rw [if_pos hline, if_pos hline, List.append_assoc]
      exact (writes_serialPutc hfair '\r'.toNat).bind hrest
    · rw [if_neg hline, if_neg hline, List.append_assoc]
      exact Writes.pure.bind hrest

theorem writes_serialWrite (text : String) :
    Writes (serialWrite schedule text) (KbmOs.serialWrite text) :=
  writes_serialWriteBytes hfair (cString text)

theorem writes_serialWriteNibbles (value : ℕ) (shifts : List ℕ) :
    Writes (serialWriteNibbles schedule value shifts) (shifts.flatMap fun shift =>
      KbmOs.serialPutc ((cString "0123456789abcdef").getD (value >>> shift &&& 0x0f) 0)) := by
  induction shifts with
  | nil => exact Writes.pure
  | cons shift shifts ih => exact (writes_serialPutc hfair _).bind ih

theorem writes_serialWriteHex (value : ℕ) :
    Writes (serialWriteHex schedule value) (KbmOs.serialWriteHex value) := by
  have hnibbles := writes_serialWriteNibbles hfair value ((List.range 16).map fun i => 60 - 4 * i)
  rw [List.flatMap_map] at hnibbles
  exact (writes_serialWrite hfair _).bind hnibbles

/-! ## The log -/

omit hfair

/-- What the kernel writes to its log. -/
inductive LogItem
  | words (text : String)
  | hex (value : ℕ)

/-- The calls. -/
def writeLog (schedule : ℕ → Option Unit) : List LogItem → Polled Uart Unit
  | [] => Pure.pure ()
  | .words text :: log => do
    serialWrite schedule text
    writeLog schedule log
  | .hex value :: log => do
    serialWriteHex schedule value
    writeLog schedule log

/-- And what they write. -/
def LogItem.characters : LogItem → List ℕ
  | .words text => KbmOs.serialWrite text
  | .hex value => KbmOs.serialWriteHex value

theorem writes_writeLog (hfair : (pace schedule).Fair) (log : List LogItem) :
    Writes (writeLog schedule log) (log.flatMap LogItem.characters) := by
  induction log with
  | nil => exact Writes.pure
  | cons item log ih =>
    cases item with
    | words text =>
      rw [List.flatMap_cons]
      exact (writes_serialWrite hfair text).bind ih
    | hex value =>
      rw [List.flatMap_cons]
      exact (writes_serialWriteHex hfair value).bind ih

/-- The registers as `serial_init` sets them: a divisor of 3, the latch
closed, 8 data bits, no parity and one stop bit. -/
structure Configured (u : Uart) : Prop where
  divisor : u.divisorHigh = 0x00 ∧ u.divisorLow = 0x03
  lineControl : u.lineControl = 0x03
  fifoControl : u.fifoControl = 0xc7
  modemControl : u.modemControl = 0x0b

theorem configured_putAll (h : Configured u) (characters : List ℕ) :
    Configured (putAll u characters) := by
  induction characters generalizing u with
  | nil => exact h
  | cons character characters ih =>
    exact ih ⟨h.divisor, h.lineControl, h.fifoControl, h.modemControl⟩

/-- A register is set while the port may or may not send what waits. -/
theorem outb_returns (schedule : ℕ → Option Unit) (register : ℕ) (value : BitVec 8) {v after : Uart}
    (hu : u = v ∨ u = v.transmit) (hwrite : v.write register value = some after)
    (hsend : v.transmit.write register value = some after.transmit) (now : ℕ) :
    ∃ u', (u' = after ∨ u' = after.transmit) ∧
      Returns (outb schedule register value) (u, now) () (u', now + 1) := by
  rcases (transmit_turns v).ready (still_of_empty rfl) hu now with hready | hready
  · refine ⟨after, Or.inl rfl, Returns.accessed hready ?_⟩
    rw [hwrite]
    rfl
  · refine ⟨after.transmit, Or.inr rfl, Returns.accessed hready ?_⟩
    rw [hsend]
    rfl

/-- Emptying the queue drops what still waits. -/
theorem outb_empties (schedule : ℕ → Option Unit) {v : Uart} (hu : u = v ∨ u = v.transmit) (now : ℕ) :
    ∃ line, (line = v.line ∨ line = v.sent) ∧ Returns (outb schedule 2 0xc7) (u, now) ()
      ({ v with fifoControl := 0xc7, holding := none, line }, now + 1) := by
  rcases (transmit_turns v).ready (still_of_empty rfl) hu now with hready | hready
  · exact ⟨v.line, Or.inl rfl, Returns.accessed hready rfl⟩
  · exact ⟨v.sent, Or.inr rfl, Returns.accessed hready rfl⟩

theorem outb_modem (schedule : ℕ → Option Unit) (h : u.holding = none) (value : BitVec 8) (now : ℕ) :
    Returns (outb schedule 4 value) (u, now) () ({ u with modemControl := value }, now + 1) :=
  Returns.access (still_of_empty h) rfl

/-- The second register, whichever it is. -/
def setSecond (u : Uart) (value : BitVec 8) : Uart :=
  if u.latch then { u with divisorHigh := value } else { u with interruptEnable := value }

theorem write_second (u : Uart) (value : BitVec 8) :
    u.write 1 value = some (setSecond u value) := rfl

theorem transmit_setSecond (u : Uart) (value : BitVec 8) :
    setSecond u.transmit value = (setSecond u value).transmit := by
  have hlatch : u.transmit.latch = u.latch := rfl
  unfold setSecond
  rw [hlatch]
  split <;> rfl

/-- With the latch open the first two registers are the divisor's. -/
theorem write_divisor (h : u.latch = true) (low high : BitVec 8) :
    u.write 0 low = some { u with divisorLow := low } ∧
      u.write 1 high = some { u with divisorHigh := high } :=
  ⟨if_pos h, congrArg some (if_pos h)⟩

/-- **`serial_init` sets the registers**, and sends nothing of its own: a
byte that had been written before is sent, or dropped with the queue. -/
theorem serialInit_returns (schedule : ℕ → Option Unit) (u : Uart) (now : ℕ) : ∃ u' later,
    Returns (serialInit schedule) (u, now) () (u', later) ∧ Configured u' ∧ u'.holding = none ∧
      (u.latch = false → u'.interruptEnable = 0x00) ∧ (u'.line = u.line ∨ u'.line = u.sent) := by
  obtain ⟨u₁, h₁, r₁⟩ := outb_returns schedule 1 0x00 (Or.inl rfl : u = u ∨ u = u.transmit)
    (write_second u 0x00) ((write_second _ _).trans (congrArg some (transmit_setSecond u 0x00))) now
  have hkept : (u.latch = false → (setSecond u 0x00).interruptEnable = 0x00) ∧
      (setSecond u 0x00).line = u.line ∧ (setSecond u 0x00).sent = u.sent := by
    unfold setSecond
    rcases u.latch
    · exact ⟨fun _ => rfl, rfl, rfl⟩
    · exact ⟨nofun, rfl, rfl⟩
  generalize setSecond u 0x00 = v at h₁ hkept
  obtain ⟨hinterrupts, hline, hsent⟩ := hkept
  -- the latch is open from here
  obtain ⟨u₂, h₂, r₂⟩ := outb_returns schedule 3 0x80
    h₁ rfl rfl (now + 1)
  have hopen : ∀ w : Uart, ({ w with lineControl := 0x80 } : Uart).latch = true := fun w => by
    change (0x80 : BitVec 8).getLsbD 7 = true
    decide
  obtain ⟨u₃, h₃, r₃⟩ := outb_returns schedule 0 0x03 h₂ (write_divisor (hopen v) 0x03 0).1
    (write_divisor (hopen v.transmit) 0x03 0).1 (now + 2)
  obtain ⟨u₄, h₄, r₄⟩ := outb_returns schedule 1 0x00 h₃
    (write_divisor (hopen { v with divisorLow := 0x03 }) 0 0x00).2
    (write_divisor (hopen { v.transmit with divisorLow := 0x03 }) 0 0x00).2 (now + 3)
  obtain ⟨u₅, h₅, r₅⟩ := outb_returns schedule 3 0x03
    h₄ rfl rfl (now + 4)
  obtain ⟨line, hline', r₆⟩ := outb_empties schedule h₅ (now + 5)
  refine ⟨_, _, r₁.bind (r₂.bind (r₃.bind (r₄.bind (r₅.bind (r₆.bind
    (outb_modem schedule rfl 0x0b (now + 6))))))),
    ⟨⟨rfl, rfl⟩, rfl, rfl, rfl⟩, rfl, hinterrupts, ?_⟩
  rw [← hline, ← hsent]
  exact hline'

/-- **The log reaches the line.** However slowly the port sends, and
whatever it was set to before: `serial_init` and the calls after it return,
no byte is written over one that still waits, and what the calls write,
byte for byte, is what follows on the line. -/
theorem log_transmitted (schedule : ℕ → Option Unit) (hfair : (pace schedule).Fair) (u : Uart)
    (now : ℕ) (log : List LogItem) : ∃ u' later,
      Returns (do serialInit schedule; writeLog schedule log) (u, now) () (u', later) ∧
      Configured u' ∧ (u'.sent = u.line ++ onLine (log.flatMap LogItem.characters) ∨
        u'.sent = u.sent ++ onLine (log.flatMap LogItem.characters)) := by
  obtain ⟨u₁, middle, hinit, hconfigured, hempty, -, hline⟩ := serialInit_returns schedule u now
  have hlatch : u₁.latch = false := by
    unfold Uart.latch
    rw [hconfigured.lineControl]
    decide
  obtain ⟨later, hlog⟩ := writes_writeLog hfair log u₁ middle hlatch
  have hsent : u₁.sent = u₁.line := by
    unfold Uart.sent
    rw [hempty]
    exact List.append_nil _
  refine ⟨_, later, hinit.bind hlog, configured_putAll hconfigured _, ?_⟩
  rw [sent_putAll, hsent]
  rcases hline with hline | hline
  · exact Or.inl (congrArg (· ++ _) hline)
  · exact Or.inr (congrArg (· ++ _) hline)

/-- A port that sends before every other access. -/
def everyOther (now : ℕ) : Option Unit := if now % 2 = 0 then none else some ()

theorem everyOther_fair : (pace everyOther).Fair := fun _ now =>
  ⟨2 * now + 1, by omega, if_neg (by omega)⟩

/-- A port as it may be found: its divisor half written, a byte waiting. -/
def foundPort : Uart where
  interruptEnable := 0x0f
  divisorLow := 0x0c
  divisorHigh := 0x00
  lineControl := 0x83
  fifoControl := 0x00
  modemControl := 0x00
  holding := some 0x41
  line := []

/-- The log of a boot that finds Limine. -/
theorem log_transmitted_everyOther : ∃ u' later,
    Returns (do serialInit everyOther; writeLog everyOther [.words "KBM_BOOT_OK\n"]) (foundPort, 0) ()
      (u', later) ∧ Configured u' :=
  let ⟨u', later, hreturns, hconfigured, _⟩ := log_transmitted everyOther everyOther_fair foundPort 0 _
  ⟨u', later, hreturns, hconfigured⟩

end SerialPort

end KbmOs
