import KbmOs.Mouse.Model
import KbmOs.Shell.Session
/-!
# The desktop

What runs after `kmain` has switched to the UI: the keyboard interrupt
(`drivers/keyboard.c`), the mouse interrupt and the main loop's update of
the header. Interrupt gates keep them apart, so each is one step. Beside
the desktop stands the same UI without a mouse, which has only the steps of
the keyboard and of the header.
-/

namespace KbmOs

/-- The shell, the console and the static of `keyboard.c`. -/
structure TextUi where
  shell : Shell
  console : Console
  keyboardShiftDown : ℕ

/-- The UI with the mouse over it. -/
structure Desktop extends TextUi where
  mouse : Mouse

/-- What happens to the UI: a scan code arrives (with what the shell would
report), a byte of the mouse arrives, the uptime has changed. -/
inductive UiEvent
  | keyboardIrq (readings : Readings) (scanCode : ℕ)
  | mouseIrq (mouseByte : UInt8)
  | updateHeader (uptimeSeconds : ℕ)

/-- `keyboard_irq`: the shift flag, and what the shell does with the
character. -/
def keyboardIrq (keyboardShiftDown : ℕ) (shell : Shell) (readings : Readings) (scanCode : ℕ) :
    ℕ × ShellResult :=
  if scanCode = 0x2a ∨ scanCode = 0x36 then (1, .returns shell [])
  else if scanCode = 0xaa ∨ scanCode = 0xb6 then (0, .returns shell [])
  else
    let character := keyboardScancodeToCharacter keyboardShiftDown scanCode
    (keyboardShiftDown,
      if character ≠ 0 then shellHandleCharacter shell readings character else .returns shell [])

/-- A step without a mouse. -/
def TextUi.step (ui : TextUi) : UiEvent → Option TextUi
  | .keyboardIrq readings scanCode =>
    match keyboardIrq ui.keyboardShiftDown ui.shell readings scanCode with
    | (keyboardShiftDown, .returns shell calls) =>
      some { shell, console := ui.console.performAll calls, keyboardShiftDown }
    | (_, .reboots _) => none
  | .mouseIrq _ => some ui
  | .updateHeader uptimeSeconds =>
    some { ui with console := consoleUpdateHeader ui.console uptimeSeconds }

/-- The desktop after the mouse driver was given its screen. -/
def Desktop.withMouse (desktop : Desktop) (driver : Mouse → Pixels → Mouse × Pixels) : Desktop :=
  { desktop with
    mouse := (driver desktop.mouse desktop.console.pixels).1
    console := { desktop.console with
      pixels := (driver desktop.mouse desktop.console.pixels).2 } }

/-- A step: the keyboard draws as if there were no mouse, the main loop
hides the cursor before it draws and shows it again. -/
def Desktop.step (desktop : Desktop) : UiEvent → Option Desktop
  | .keyboardIrq readings scanCode =>
    (desktop.toTextUi.step (.keyboardIrq readings scanCode)).map fun ui => ⟨ui, desktop.mouse⟩
  | .mouseIrq mouseByte =>
    some (desktop.withMouse fun mouse screen => mouseIrq mouse mouseByte screen)
  | .updateHeader uptimeSeconds =>
    let desktop := desktop.withMouse mouseHideCursor
    let desktop := { desktop with console := consoleUpdateHeader desktop.console uptimeSeconds }
    some (desktop.withMouse mouseShowCursor)

/-- `console_init` and `shell_init`. -/
def TextUi.boot (shell : Shell) (framebuffer : Framebuffer) (pixels : Pixels) : TextUi where
  shell := shellInit shell
  console := (Session.boot shell).console framebuffer pixels
  keyboardShiftDown := 0

/-- And `mouse_init`. -/
def Desktop.boot (shell : Shell) (framebuffer : Framebuffer) (pixels : Pixels) : Desktop :=
  Desktop.withMouse ⟨TextUi.boot shell framebuffer pixels, Mouse.atBoot framebuffer⟩
    fun mouse screen => mouseInit mouse framebuffer screen

/-- What hiding the cursor leaves on the screen. -/
def Desktop.hidden (desktop : Desktop) : Pixels :=
  (mouseHideCursor desktop.mouse desktop.console.pixels).2

end KbmOs
