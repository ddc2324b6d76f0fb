import KbmOs.Lib.I8042
/-!
# Setting the mouse up

What `mouse_init` of `drivers/mouse.c` says to the keyboard controller, and
how it waits for it: it writes only where the controller can take a byte,
and reads only where a byte waits. The controller and the mouse take their
time; the mouse answers what it is asked.
-/

namespace KbmOs

namespace MouseDialogue

open Polling I8042

variable (answer : Device → BitVec 8 → BitVec 8) (schedule : ℕ → Option Act)

/-- `outb(0x64, value)`. -/
def outCommand (value : BitVec 8) : Polled Controller Unit :=
  access (pace answer schedule) fun c => (c.write .command value).map fun c => ((), c)

/-- `outb(0x60, value)`. -/
def outData (value : BitVec 8) : Polled Controller Unit :=
  access (pace answer schedule) fun c => (c.write .data value).map fun c => ((), c)

/-- `inb(0x60)`. -/
def inData : Polled Controller (BitVec 8) := access (pace answer schedule) Controller.readFull

def mouseWaitToWrite : Polled Controller Unit :=
  waitWhile (pace answer schedule) Controller.inputFull

/-- Status bit 0 is clear. -/
def nothingToRead (c : Controller) : Bool := !c.outputFull

def mouseWaitToRead : Polled Controller Unit := waitWhile (pace answer schedule) nothingToRead

/-- `inb(0x64) & 0x01`. -/
def outputStatus : Polled Controller Bool :=
  access (pace answer schedule) fun c => some (c.outputFull, c)

/-- The loop of `mouse_discard_pending_data`. -/
def discard : ℕ → Polled Controller Unit
  | 0 => fun _ _ => none
  | n + 1 => do
    if ← outputStatus answer schedule then
      let _ ← inData answer schedule
      discard n

def mouseDiscardPendingData : Polled Controller Unit := fun fuel => discard answer schedule fuel fuel

def mouseSendCommand (command : BitVec 8) : Polled Controller (BitVec 8) := do
  mouseWaitToWrite answer schedule
  outCommand answer schedule 0xD4
  mouseWaitToWrite answer schedule
  outData answer schedule command
  mouseWaitToRead answer schedule
  inData answer schedule

/-- The part of `mouse_init` that talks to the controller, with the mouse's
two answers. -/
def mouseInitController : Polled Controller (BitVec 8 × BitVec 8) := do
  mouseWaitToWrite answer schedule
  outCommand answer schedule 0xA8
  mouseDiscardPendingData answer schedule
  mouseWaitToWrite answer schedule
  outCommand answer schedule 0x20
  mouseWaitToRead answer schedule
  let commandByte ← inData answer schedule
  mouseWaitToWrite answer schedule
  outCommand answer schedule 0x60
  mouseWaitToWrite answer schedule
  outData answer schedule ((commandByte ||| 0x03) &&& ~~~0x30)
  let defaultsResponse ← mouseSendCommand answer schedule 0xF6
  let reportingResponse ← mouseSendCommand answer schedule 0xF4
  pure (defaultsResponse, reportingResponse)

/-- The lines that read the command byte. -/
def readCommandByte : Polled Controller (BitVec 8) := do
  outCommand answer schedule 0x20
  mouseWaitToRead answer schedule
  inData answer schedule

/-- The lines that write it. -/
def writeCommandByte (commandByte : BitVec 8) : Polled Controller Unit := do
  outCommand answer schedule 0x60
  mouseWaitToWrite answer schedule
  outData answer schedule commandByte

theorem mouseInitController_eq : mouseInitController answer schedule = (do
    mouseWaitToWrite answer schedule
    outCommand answer schedule 0xA8
    mouseDiscardPendingData answer schedule
    mouseWaitToWrite answer schedule
    let commandByte ← readCommandByte answer schedule
    mouseWaitToWrite answer schedule
    writeCommandByte answer schedule ((commandByte ||| 0x03) &&& ~~~0x30)
    let defaultsResponse ← mouseSendCommand answer schedule 0xF6
    let reportingResponse ← mouseSendCommand answer schedule 0xF4
    pure (defaultsResponse, reportingResponse)) := by
  unfold mouseInitController readCommandByte writeCommandByte
  simp only [bind_assoc]

variable {answer : Device → BitVec 8 → BitVec 8} {schedule : ℕ → Option Act}
variable {c c' : Controller} {value : BitVec 8}

/-- The controller expects nothing, and nothing is on its way. -/
structure Ready (c : Controller) : Prop where
  input : c.input = none
  silent : c.Silent

theorem Ready.still (h : Ready c) : Still (pace answer schedule) c := still_of_silent h.silent h.input

variable (answer schedule) in
/-- **A byte is written to a controller that can take it.** -/
theorem outCommand_returns (h : Ready c) (value : BitVec 8) (now : ℕ) :
    Returns (outCommand answer schedule value) (c, now) ()
      ({ c with input := some (.command, value) }, now + 1) := by
  refine Returns.access h.still ?_
  unfold Controller.write Controller.inputFull
  rw [h.input]
  rfl

variable (answer schedule) in
theorem outData_returns (h : Ready c) (value : BitVec 8) (now : ℕ) :
    Returns (outData answer schedule value) (c, now) ()
      ({ c with input := some (.data, value) }, now + 1) := by
  refine Returns.access h.still ?_
  unfold Controller.write Controller.inputFull
  rw [h.input]
  rfl

variable (answer schedule) in
/-- **A byte is read from a controller that has one.** -/
theorem inData_returns (h : Ready c) (hfull : c.full.isSome = true) (now : ℕ) :
    Returns (inData answer schedule) (c, now) c.data ({ c with full := none }, now + 1) := by
  refine Returns.access h.still ?_
  unfold Controller.readFull Controller.outputFull
  rw [hfull]
  rfl

theorem nothingToRead_of_empty (h : c.full = none) : nothingToRead c = true := by
  unfold nothingToRead Controller.outputFull
  rw [h]
  rfl

variable (hfair : (pace answer schedule).Fair)
include hfair

/-- **Waiting until what was written is taken.** -/
theorem waitToWrite_returns {written : Port × BitVec 8} (c : Controller) (hsilent : c.Silent)
    (hinput : c.input = some written) (htakes : c.takes answer = c') (hready : Ready c') (now : ℕ) :
    ∃ later, Returns (mouseWaitToWrite answer schedule) (c, now) () (c', later) := by
  have hbusy : c.inputFull = true := by
    unfold Controller.inputFull
    rw [hinput]
    rfl
  have hdone : c'.inputFull = false := by
    unfold Controller.inputFull
    rw [hready.input]
    rfl
  exact Returns.turned (takes_turns hsilent htakes) hbusy hdone hfair now

omit hfair

/-- The controller after the mouse was given a byte and its answer read. -/
def asked (c : Controller) (command answered : BitVec 8) : Controller :=
  { c with
    expects := .keyboardByte
    mouseCommands := c.mouseCommands ++ [command]
    data := answered }

/-- The answer on its way. -/
def answering (c : Controller) (command answered : BitVec 8) : Controller :=
  (asked { c with data := c.data } command c.data).sends .mouse answered

variable (answer) in
theorem takes_mouseByte (hexpects : c.expects = .mouseByte) (command : BitVec 8) :
    ({ c with input := some (.data, command) } : Controller).takes answer =
      answering { c with input := none } command (answer .mouse command) := by
  unfold Controller.takes
  dsimp only
  rw [hexpects]
  rfl

/-- The answer is passed on. -/
theorem passes_answering (h : Ready c) (hempty : c.full = none) (hadmits : c.admits .mouse = true)
    (command answered : BitVec 8) : (answering c command answered).passes .mouse =
      some { asked c command answered with full := some .mouse } := by
  have hqueue : (answering c command answered).queue .mouse = [answered] := by
    unfold answering Controller.sends
    dsimp only
    rw [Function.update_self]
    exact congrArg (· ++ [answered]) (h.silent .mouse)
  refine Controller.passes_eq_some.2 ⟨hempty, hadmits, answered, [], hqueue, ?_⟩
  have hsame : Function.update (answering c command answered).queue .mouse [] = c.queue := by
    funext device
    unfold answering Controller.sends
    dsimp only
    cases device
    · rw [Function.update_of_ne (by decide), Function.update_of_ne (by decide)]
      rfl
    · rw [Function.update_self]
      exact (h.silent .mouse).symm
  rw [hsame]
  rfl

include hfair

/-- **Waiting for the mouse's answer**: the controller takes the byte, the
mouse answers, and the controller passes the answer on. -/
theorem waitToRead_returns (h : Ready c) (hempty : c.full = none) (hadmits : c.admits .mouse = true)
    (hexpects : c.expects = .mouseByte) (command : BitVec 8) (now : ℕ) :
    ∃ later, Returns (mouseWaitToRead answer schedule)
      ({ c with input := some (.data, command) }, now) ()
      ({ asked c command (answer .mouse command) with full := some .mouse }, later) := by
  have hinput : ({ c with input := none } : Controller) = c := by rw [← h.input]
  have htakes := takes_mouseByte answer hexpects command
  rw [hinput] at htakes
  have hother : ∀ other, other ≠ Device.mouse →
      (answering c command (answer .mouse command)).queue other = [] := fun other hne => by
    unfold answering Controller.sends
    dsimp only
    rw [Function.update_of_ne hne]
    exact h.silent other
  refine Returns.through (takes_turns (c := { c with input := some (.data, command) }) h.silent
    htakes) (nothingToRead_of_empty hempty)
    (nothingToRead_of_empty hempty) hfair (fun then_ => ?_) now
  have hpass := passes_answering h hempty hadmits command (answer .mouse command)
  exact Returns.turned (passes_turns (c := answering c command (answer .mouse command)) h.input
    hother hpass) (nothingToRead_of_empty hempty) rfl hfair then_

/-- **The mouse is given a byte, and its answer is read.** -/
theorem mouseSendCommand_returns {start : Controller} (h : Ready c) (hempty : c.full = none)
    (hadmits : c.admits .mouse = true) (command : BitVec 8) (now : ℕ)
    (hwait : ∃ later, Returns (mouseWaitToWrite answer schedule) (start, now) () (c, later)) :
    ∃ later, Returns (mouseSendCommand answer schedule command) (start, now)
      (answer .mouse command) (asked c command (answer .mouse command), later) := by
  obtain ⟨t₁, r₁⟩ := hwait
  have r₂ := outCommand_returns answer schedule h 0xD4 t₁
  -- the controller takes the announcement
  have hready : Ready { c with input := none, expects := .mouseByte } := ⟨rfl, h.silent⟩
  obtain ⟨t₃, r₃⟩ := waitToWrite_returns hfair { c with input := some (.command, 0xD4) } h.silent
    rfl rfl hready (t₁ + 1)
  have r₄ := outData_returns answer schedule hready command t₃
  obtain ⟨t₅, r₅⟩ := waitToRead_returns hfair hready hempty hadmits rfl command (t₃ + 1)
  have hanswered : Ready { asked { c with input := none, expects := .mouseByte } command
      (answer .mouse command) with full := some .mouse } := ⟨rfl, h.silent⟩
  have r₆ := inData_returns answer schedule hanswered rfl t₅
  have hlast : ({ asked { c with input := none, expects := .mouseByte } command
      (answer .mouse command) with full := none } : Controller) =
        asked c command (answer .mouse command) := by
    unfold asked
    dsimp only
    rw [← h.input, ← hempty]
  rw [← hlast]
  exact ⟨_, r₁.bind (r₂.bind (r₃.bind (r₄.bind (r₅.bind r₆))))⟩

/-! ## Stale bytes -/

omit hfair

theorem discard_succ (n fuel : ℕ) (w : Controller × ℕ) :
    discard answer schedule (n + 1) fuel w = (outputStatus answer schedule fuel w).bind fun r =>
      if r.1 then (inData answer schedule fuel r.2).bind fun d => discard answer schedule n fuel d.2
      else some ((), r.2) := by
  change ((outputStatus answer schedule fuel w).bind fun r =>
    (if r.1 = true then (inData answer schedule >>= fun _ => discard answer schedule n)
      else pure ()) fuel r.2) = _
  refine congrArg _ (funext fun ⟨full, after⟩ => ?_)
  cases full <;> rfl

theorem outputStatus_eq {found : Controller} (now fuel : ℕ)
    (hready : (pace answer schedule).ready c now = found) :
    outputStatus answer schedule fuel (c, now) = some (found.outputFull, (found, now + 1)) := by
  unfold outputStatus access
  dsimp only
  rw [hready]
  rfl

/-- A look at an empty buffer ends the loop. -/
theorem discard_empty {found : Controller} (hempty : found.full = none) (now n fuel : ℕ)
    (hready : (pace answer schedule).ready c now = found) :
    discard answer schedule (n + 1) fuel (c, now) = some ((), (found, now + 1)) := by
  have hlook : found.outputFull = false := by
    unfold Controller.outputFull
    rw [hempty]
    rfl
  rw [discard_succ, outputStatus_eq now fuel hready, hlook]
  rfl

/-- At a full one the byte is read and dropped. -/
theorem discard_full {found last : Controller} (hfull : found.full.isSome = true) (now n fuel : ℕ)
    (hready : (pace answer schedule).ready c now = found)
    (hread : (pace answer schedule).ready found (now + 1) = last) (hlast : last.full.isSome = true) :
    discard answer schedule (n + 1) fuel (c, now) =
      discard answer schedule n fuel ({ last with full := none }, now + 2) := by
  have hdata : inData answer schedule fuel (found, now + 1) =
      some (last.data, ({ last with full := none }, now + 2)) := by
    unfold inData access
    dsimp only
    rw [hread]
    unfold Controller.readFull Controller.outputFull
    rw [hlast]
    rfl
  have hlook : found.outputFull = true := hfull
  rw [discard_succ, outputStatus_eq now fuel hready, hlook, Option.bind_some, if_pos rfl, hdata]
  rfl

/-- The controller with the command that opens the mouse's port, before and
after it has taken it. -/
def opening (c : Controller) : Controller := { c with input := some (.command, 0xA8) }

def opened (c : Controller) : Controller := { c with commandByte := c.commandByte &&& ~~~0x20 }

theorem opening_turns (h : Ready c) :
    Turns (pace answer schedule) .take (opening c) (opened c) := by
  refine takes_turns h.silent ?_
  unfold Controller.takes opening opened
  dsimp only
  rw [if_neg (by decide), if_neg (by decide), if_pos rfl, h.input]

theorem Ready.opened (h : Ready c) : Ready (opened c) := ⟨h.input, h.silent⟩

variable (answer schedule) in
/-- **What waits in the output buffer is dropped**, whenever the controller
takes its command. -/
theorem mouseDiscardPendingData_returns (h : Ready c) (now : ℕ) : ∃ found later,
    (found = opening { c with full := none } ∨ found = opened { c with full := none }) ∧
      Returns (mouseDiscardPendingData answer schedule) (opening c, now) () (found, later) := by
  have hempty : Ready { c with full := none } := ⟨h.input, h.silent⟩
  have hlook : ∀ {start : Controller} (t : ℕ), (start = opening { c with full := none } ∨
      start = opened { c with full := none }) → ∃ found,
        (found = opening { c with full := none } ∨ found = opened { c with full := none }) ∧
          ∀ n fuel, discard answer schedule (n + 1) fuel (start, t) =
            some ((), (found, t + 1)) := fun t hstart => by
    rcases (opening_turns hempty).ready hempty.opened.still hstart t with hready | hready
    · exact ⟨_, Or.inl rfl, fun n fuel => discard_empty rfl t n fuel hready⟩
    · exact ⟨_, Or.inr rfl, fun n fuel => discard_empty rfl t n fuel hready⟩
  by_cases hfull : c.full.isSome = true
  · -- a byte waits: it is read, and the next look ends the loop
    obtain ⟨second, hsecond, hread⟩ : ∃ second : Controller,
        (second = opening { c with full := none } ∨ second = opened { c with full := none }) ∧
          ∀ n fuel, discard answer schedule (n + 1) fuel (opening c, now) =
            discard answer schedule n fuel (second, now + 2) := by
      have hbefore : (opening c).full.isSome = true := hfull
      have hafter : (opened c).full.isSome = true := hfull
      rcases (opening_turns h).ready h.opened.still (Or.inl rfl) now with hfirst | hfirst
      · rcases (opening_turns h).ready h.opened.still (Or.inl rfl) (now + 1) with hnext | hnext
        · exact ⟨_, Or.inl rfl, fun n fuel => discard_full hbefore now n fuel hfirst hnext hbefore⟩
        · exact ⟨_, Or.inr rfl, fun n fuel => discard_full hbefore now n fuel hfirst hnext hafter⟩
      · exact ⟨_, Or.inr rfl, fun n fuel => discard_full hafter now n fuel hfirst
          (h.opened.still.ready (now + 1)) hafter⟩
    obtain ⟨found, hfound, hends⟩ := hlook (now + 2) hsecond
    refine ⟨found, now + 3, hfound, 2, fun fuel hfuel => ?_⟩
    obtain ⟨n, rfl⟩ := Nat.exists_eq_add_of_le hfuel
    unfold mouseDiscardPendingData
    rw [show 2 + n = n + 1 + 1 by omega, hread, hends]
  · have hnone : c.full = none := Option.not_isSome_iff_eq_none.1 hfull
    have hsame : ({ c with full := none } : Controller) = c := by rw [← hnone]
    obtain ⟨found, hfound, hends⟩ := @hlook (opening c) now (Or.inl (by rw [hsame]))
    refine ⟨found, now + 1, hfound, 1, fun fuel hfuel => ?_⟩
    obtain ⟨n, rfl⟩ := Nat.exists_eq_add_of_le hfuel
    unfold mouseDiscardPendingData
    rw [show 1 + n = n + 1 by omega, hends]

/-! ## The dialogue -/

/-- The command byte `mouse_init` writes lets both devices send, and both
request interrupts. -/
theorem commandByte_sets {byte : BitVec 8} (h : c.commandByte = (byte ||| 0x03) &&& ~~~0x30) :
    (∀ device, c.interrupts device = true) ∧ ∀ device, c.admits device = true := by
  constructor <;> intro device <;> cases device <;>
    simp [Controller.interrupts, Controller.admits, h]

/-- The mouse's port has been opened before the byte is read. -/
theorem commandByte_opened (byte : BitVec 8) :
    ((byte &&& ~~~0x20) ||| 0x03) &&& ~~~0x30 = (byte ||| 0x03) &&& ~~~(0x30 : BitVec 8) := by
  have hmask : ~~~0x20 &&& ~~~0x30 = ~~~(0x30 : BitVec 8) := by decide
  rw [BitVec.and_or_distrib_right, BitVec.and_or_distrib_right, BitVec.and_assoc, hmask]

variable (answer schedule) in
theorem waitToWrite_idle (h : Ready c) (now : ℕ) :
    Returns (mouseWaitToWrite answer schedule) (c, now) () (c, now + 1) := by
  refine Returns.waited h.still ?_
  unfold Controller.inputFull
  rw [h.input]
  rfl

/-- The controller with a new command byte. -/
def configured (c : Controller) (value : BitVec 8) : Controller :=
  { c with
    expects := .keyboardByte
    commandByte := value }

include hfair

/-- **The command byte is read.** -/
theorem readCommandByte_returns (h : Ready c) (hempty : c.full = none) (now : ℕ) :
    ∃ later, Returns (readCommandByte answer schedule) (c, now) c.commandByte
      ({ c with data := c.commandByte }, later) := by
  have r₁ := outCommand_returns answer schedule h 0x20 now
  have htakes : ({ c with input := some (.command, 0x20) } : Controller).takes answer =
      { c with input := none, data := c.commandByte, full := some .keyboard } := by
    unfold Controller.takes Controller.outputFull
    dsimp only
    rw [if_pos rfl, hempty]
    rfl
  obtain ⟨t₂, r₂⟩ := Returns.turned
    (takes_turns (c := { c with input := some (.command, 0x20) }) h.silent htakes)
    (nothingToRead_of_empty hempty) rfl hfair (now + 1)
  have hready : Ready { c with input := none, data := c.commandByte, full := some .keyboard } :=
    ⟨rfl, h.silent⟩
  have r₃ := inData_returns answer schedule hready rfl t₂
  have hlast : ({ c with input := none, data := c.commandByte, full := none } : Controller) =
      { c with data := c.commandByte } := by rw [← h.input, ← hempty]
  rw [← hlast]
  exact ⟨_, r₁.bind (r₂.bind r₃)⟩

/-- **And written**: once the controller waits for it, it is given the new
one, and has taken it when it can be written to again. -/
theorem writeCommandByte_returns (h : Ready c) (value : BitVec 8) (now : ℕ) : ∃ given later,
    Returns (writeCommandByte answer schedule value) (c, now) () (given, later) ∧
      ∃ last, Returns (mouseWaitToWrite answer schedule) (given, later) ()
        (configured c value, last) := by
  have r₁ := outCommand_returns answer schedule h 0x60 now
  have hexpects : Ready { c with input := none, expects := .commandByte } := ⟨rfl, h.silent⟩
  obtain ⟨t₂, r₂⟩ := waitToWrite_returns hfair { c with input := some (.command, 0x60) } h.silent
    rfl rfl hexpects (now + 1)
  have r₃ := outData_returns answer schedule hexpects value t₂
  have hready : Ready (configured c value) := ⟨h.input, h.silent⟩
  have hgiven : ({ c with input := some (.data, value), expects := .commandByte } :
      Controller).takes answer = configured c value := by
    unfold Controller.takes configured
    dsimp only
    rw [h.input]
  obtain ⟨last, r₄⟩ := waitToWrite_returns hfair
    { c with input := some (.data, value), expects := .commandByte } h.silent rfl
    hgiven hready (t₂ + 1)
  exact ⟨_, _, r₁.bind (r₂.bind r₃), last, r₄⟩

/-- The dialogue to its end: the last byte read stays in the data register. -/
theorem mouseInitController_ends (c : Controller) (h : Ready c) (now : ℕ) : ∃ final later,
    Returns (mouseInitController answer schedule) (c, now)
      (answer .mouse 0xF6, answer .mouse 0xF4) (final, later) ∧
    final.commandByte = (c.commandByte ||| 0x03) &&& ~~~0x30 ∧
    final.mouseCommands = c.mouseCommands ++ [0xF6, 0xF4] ∧
    final.data = answer .mouse 0xF4 ∧ final.full = none ∧ Ready final := by
  have r₁ := waitToWrite_idle answer schedule h now
  have r₂ := outCommand_returns answer schedule h 0xA8 (now + 1)
  obtain ⟨found, t₃, hfound, r₃⟩ := mouseDiscardPendingData_returns answer
    schedule h (now + 1 + 1)
  -- the port is open by the next wait's end
  have hdrained : Ready { c with full := none } := ⟨h.input, h.silent⟩
  obtain ⟨t₄, r₄⟩ : ∃ later, Returns (mouseWaitToWrite answer schedule) (found, t₃) ()
      (opened { c with full := none }, later) := by
    refine Returns.settled (opening_turns hdrained) hdrained.opened.still rfl ?_ hfair hfound t₃
    unfold Controller.inputFull
    rw [hdrained.opened.input]
    rfl
  obtain ⟨t₅, r₅⟩ := readCommandByte_returns hfair hdrained.opened rfl t₄
  have hread : Ready { opened { c with full := none } with
      data := (opened { c with full := none }).commandByte } := ⟨h.input, h.silent⟩
  have r₆ := waitToWrite_idle answer schedule hread t₅
  obtain ⟨given, t₇, r₇, hwait⟩ := writeCommandByte_returns hfair hread
    (((opened { c with full := none }).commandByte ||| 0x03) &&& ~~~0x30) (t₅ + 1)
  -- the mouse's two commands
  have hset : (configured { opened { c with full := none } with
      data := (opened { c with full := none }).commandByte }
        (((opened { c with full := none }).commandByte ||| 0x03) &&& ~~~0x30)).commandByte =
          (c.commandByte ||| 0x03) &&& ~~~0x30 := commandByte_opened c.commandByte
  generalize hmade : configured _ _ = made at hset hwait
  have hmade' : made.full = none ∧ made.mouseCommands = c.mouseCommands ∧ Ready made := by
    rw [← hmade]
    exact ⟨rfl, rfl, h.input, h.silent⟩
  obtain ⟨hempty, hcommands, hready⟩ := hmade'
  have hadmits := (commandByte_sets hset).2 .mouse
  obtain ⟨t₈, r₈⟩ := mouseSendCommand_returns hfair hready hempty hadmits 0xF6 t₇ hwait
  have hasked : Ready (asked made 0xF6 (answer .mouse 0xF6)) := ⟨hready.input, hready.silent⟩
  obtain ⟨t₉, r₉⟩ := mouseSendCommand_returns hfair hasked hempty hadmits 0xF4 t₈
    ⟨_, waitToWrite_idle answer schedule hasked t₈⟩
  refine ⟨asked (asked made 0xF6 (answer .mouse 0xF6)) 0xF4 (answer .mouse 0xF4), t₉, ?_, hset,
    ?_, rfl, hempty, ⟨hready.input, hready.silent⟩⟩
  · rw [mouseInitController_eq]
    exact r₁.bind (r₂.bind (r₃.bind (r₄.bind (r₅.bind (r₆.bind (r₇.bind
      (r₈.bind (r₉.bind (Returns.pure _ _)))))))))
  · unfold asked
    rw [← hcommands, List.append_assoc]
    rfl

/-- **Setting the mouse up.** Whatever the controller was set to, and
whatever byte still waits to be read, as long as its input buffer is empty,
neither device has a byte queued and no key is pressed meanwhile:
`mouse_init` returns, and so never writes where a byte waits nor
reads where none does; what it takes for the command byte is the command
byte, and for the mouse's answers the mouse's answers; the mouse has been
given its two commands, and both devices may send and request interrupts. -/
theorem mouseInitController_returns (c : Controller) (h : Ready c) (now : ℕ) : ∃ final later,
    Returns (mouseInitController answer schedule) (c, now)
      (answer .mouse 0xF6, answer .mouse 0xF4) (final, later) ∧
    final.commandByte = (c.commandByte ||| 0x03) &&& ~~~0x30 ∧
    (∀ device, final.interrupts device = true ∧ final.admits device = true) ∧
    final.mouseCommands = c.mouseCommands ++ [0xF6, 0xF4] ∧
    (∀ device, final.pending device = []) ∧ Ready final := by
  obtain ⟨final, later, hreturns, hset, hcommands, -, hempty, hready⟩ :=
    mouseInitController_ends hfair c h now
  refine ⟨final, later, hreturns, hset, fun device => ?_, hcommands, fun device => ?_, hready⟩
  · exact ⟨(commandByte_sets hset).1 device, (commandByte_sets hset).2 device⟩
  · unfold Controller.pending
    rw [hempty, if_neg (nofun : ¬ none = some device), List.nil_append]
    exact hready.silent device

omit hfair

/-- The controller does one thing after another. -/
def inTurn (now : ℕ) : Option Act :=
  if now % 3 = 0 then some .take else if now % 3 = 1 then some (.pass .keyboard)
  else some (.pass .mouse)

theorem inTurn_fair : (pace (fun _ _ => 0xFA) inTurn).Fair := fun act now => by
  have hturn : ∃ later ≥ now, inTurn later = some act := by
    unfold inTurn
    cases act with
    | take => exact ⟨3 * now, by omega, by rw [if_pos (by omega)]⟩
    | pass device =>
      cases device
      · exact ⟨3 * now + 1, by omega, by rw [if_neg (by omega), if_pos (by omega)]⟩
      · exact ⟨3 * now + 2, by omega, by rw [if_neg (by omega), if_neg (by omega)]⟩
  exact hturn

/-- A controller with the mouse's port closed, and a key that nobody read. -/
def closedController : Controller where
  commandByte := 0x65
  input := none
  expects := .keyboardByte
  queue := fun _ => []
  data := 0x1c
  full := some .keyboard
  mouseCommands := []

theorem mouseInitController_returns_closed : ∃ final later,
    Returns (mouseInitController (fun _ _ => 0xFA) inTurn) (closedController, 0) (0xFA, 0xFA)
      (final, later) ∧ final.commandByte = 0x47 :=
  let ⟨final, later, hreturns, hcommand, _⟩ := mouseInitController_returns inTurn_fair
    closedController ⟨rfl, fun _ => rfl⟩ 0
  ⟨final, later, hreturns, hcommand⟩

end MouseDialogue

end KbmOs
