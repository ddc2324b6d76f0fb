import KbmOs.Mouse.Dialogue
/-!
# Rebooting

`reboot` of `arch/x86_64/reboot.c` waits until the keyboard controller can
take a command, and asks it to reset the processor. The devices may still
send meanwhile, and nobody reads what they send.
-/

namespace KbmOs

open Polling I8042

variable (answer : Device → BitVec 8 → BitVec 8) (schedule : ℕ → Option Act)

/-- `reboot`, up to the loop that halts. -/
def reboot : Polled Controller Unit := do
  waitWhile (pace answer schedule) Controller.inputFull
  MouseDialogue.outCommand answer schedule 0xFE

/-- What was written last can be taken, or has been: everything but the
command whose answer needs the output buffer. -/
def Takeable (c : Controller) : Prop := c.input ≠ some (.command, 0x20)

variable {answer : Device → BitVec 8 → BitVec 8} {schedule : ℕ → Option Act} {c c' : Controller}

theorem passes_input {device : Device} : ((c.passes device).getD c).input = c.input := by
  rcases hpass : c.passes device with _ | c'
  · rfl
  · obtain ⟨-, -, byte, rest, -, rfl⟩ := Controller.passes_eq_some.1 hpass
    rfl

/-- **The controller takes what can be taken.** -/
theorem Takeable.takes (h : Takeable c) : (c.takes answer).input = none := by
  unfold Controller.takes
  rcases hinput : c.input with _ | ⟨_ | _, value⟩
  · exact hinput
  · dsimp only
    split
    · next hread => exact absurd (hread ▸ hinput) h
    · split
      · rfl
      · split
        · rfl
        · split <;> rfl
  · dsimp only
    split <;> rfl

theorem Takeable.act (h : Takeable c) (a : Act) : Takeable ((pace answer schedule).act a c) := by
  unfold Takeable
  cases a with
  | take =>
    rw [show ((pace answer schedule).act .take c).input = none from h.takes]
    exact nofun
  | pass device =>
    rw [show ((pace answer schedule).act (.pass device) c).input = c.input from passes_input]
    exact h

/-- What has been taken stays so until the next write. -/
theorem ready_input (h : c.input = none) (now : ℕ) : ((pace answer schedule).ready c now).input = none := by
  unfold Pace.ready
  rcases (pace answer schedule).schedule now with _ | a
  · exact h
  · cases a with
    | take =>
      change (c.takes answer).input = none
      unfold Controller.takes
      rw [h]
      exact h
    | pass device => exact passes_input.trans h

/-- **`reboot` asks for the reset.** Whatever the devices send and in
whatever order the controller does its steps, as long as it never puts one
off forever and can take what was written last: the wait ends, and the
command that resets the processor is in the controller's input. -/
theorem reboot_asks (hfair : (pace answer schedule).Fair) (h : Takeable c) (now : ℕ) :
    ∃ final later, Returns (reboot answer schedule) (c, now) () (final, later) ∧
      final.input = some (.command, 0xFE) := by
  have hclears : ∀ s, Takeable s → ((pace answer schedule).act .take s).inputFull = false := by
    intro s hs
    change (s.takes answer).input.isSome = false
    rw [hs.takes]
    rfl
  obtain ⟨found, later, hwait, hdone⟩ := Returns.cleared hfair .take Takeable
    (fun s a hs => Takeable.act hs a) hclears h now
  have hinput : found.input = none := by
    rcases hfound : found.input with _ | written
    · rfl
    · unfold Controller.inputFull at hdone
      rw [hfound] at hdone
      cases hdone
  -- the command is written to the controller as it is at that access
  have hready := @ready_input answer schedule found hinput later
  have hwrite : ((pace answer schedule).ready found later).write .command 0xFE =
      some { (pace answer schedule).ready found later with input := some (.command, 0xFE) } := by
    unfold Controller.write Controller.inputFull
    rw [hready]
    rfl
  have hout : Returns (MouseDialogue.outCommand answer schedule 0xFE) (found, later) ()
      ({ (pace answer schedule).ready found later with input := some (.command, 0xFE) }, later + 1) :=
    Returns.accessed rfl (congrArg (Option.map fun c => ((), c)) hwrite)
  exact ⟨_, later + 1, hwait.bind hout, rfl⟩

/-- A controller that has yet to take what the mouse driver wrote. -/
def busyController : Controller where
  commandByte := 0x47
  input := some (.command, 0xD4)
  expects := .keyboardByte
  queue := fun _ => [0x1c]
  data := 0
  full := some .keyboard
  mouseCommands := []

theorem reboot_asks_busy : ∃ final later,
    Returns (reboot (fun _ _ => 0xFA) MouseDialogue.inTurn) (busyController, 0) () (final, later) ∧
      final.input = some (.command, 0xFE) :=
  reboot_asks MouseDialogue.inTurn_fair (by unfold Takeable busyController; decide) 0

end KbmOs
