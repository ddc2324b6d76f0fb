import KbmOs.Desktop.Model
import KbmOs.Interrupts.Gates
import KbmOs.Interrupts.Pic
import KbmOs.Lib.I8042
import KbmOs.Lib.Runs
/-!
# The running kernel

What runs once `kmain` has switched interrupts on: the main loop, the
handlers of `kernel/timer.c`, `drivers/keyboard.c` and `drivers/mouse.c`
behind their gates, and around them the chips that decide when a handler
runs. The devices send bytes and the timer fires at any time; the keyboard
controller passes bytes on one by one; the processor takes an interrupt
between any two steps of the main loop. A handler runs with interrupts off
and is over when it has sent its end of interrupt, and the chips go on
meanwhile.
-/

namespace KbmOs

open Pic8259 I8042 LabelledRuns

/-- Where the main loop is. -/
inductive LoopPoint
  /-- Before the ticks are read. -/
  | test
  /-- The uptime read is not the one displayed. -/
  | changed (uptimeSeconds : ℕ)
  /-- Before `hlt`. -/
  | hlt
  /-- Halted. -/
  | asleep
deriving DecidableEq

/-- An interrupt ends a `hlt`. -/
def LoopPoint.woken : LoopPoint → LoopPoint
  | .asleep => .test
  | point => point

/-- The kernel after `sti`, and the chips around it. -/
structure Running where
  pics : Pair
  controller : Controller
  /-- The static of `timer.c`. -/
  ticks : ℕ
  desktop : Desktop
  displayedUptimeSeconds : ℕ
  point : LoopPoint
  /-- The line whose handler has not sent its end of interrupt. -/
  serving : Option Line

/-- What happens next. -/
inductive KernelEvent
  /-- A device sends a byte. -/
  | sent (device : Device) (byte : BitVec 8)
  | timerFired
  /-- The controller passes a device's byte on. -/
  | passed (device : Device)
  /-- The processor takes an interrupt; the shell would report the readings. -/
  | interrupted (vector : ℕ) (readings : Readings)
  /-- The handler sends its end of interrupt and returns. -/
  | returned
  /-- The main loop goes on. -/
  | looped

/-- What a step leads to. -/
inductive Next
  | runs (kernel : Running)
  | reboots
  /-- The vector has no handler of a device behind it. -/
  | faults (vector : ℕ)

/-- The line of a device at the keyboard controller. -/
def deviceLine : Device → Line
  | .keyboard => 1
  | .mouse => 12

namespace Running

/-- The handler behind an entry point, up to its end of interrupt. -/
def handle (kernel : Running) (readings : Readings) (vector : ℕ) : Option Isr → Next
  | some .isrTimer => .runs { kernel with
      ticks := wrap (kernel.ticks + 1)
      serving := some 0 }
  | some .isrKeyboard =>
    let (scanCode, controller) := kernel.controller.read
    match kernel.desktop.step (.keyboardIrq readings scanCode.toNat) with
    | some desktop => .runs { kernel with controller, desktop, serving := some 1 }
    | none => .reboots
  | some .isrMouse =>
    let (mouseByte, controller) := kernel.controller.read
    match kernel.desktop.step (.mouseIrq ⟨mouseByte⟩) with
    | some desktop => .runs { kernel with controller, desktop, serving := some 12 }
    | none => .reboots
  | _ => .faults vector

/-- The main loop's next step, or none while it is halted. From `cli` to
`sti` there is one step. -/
def loop (kernel : Running) : Option Running :=
  match kernel.point with
  | .test =>
    let uptimeSeconds := kernel.ticks / 100
    some { kernel with
      point := if uptimeSeconds ≠ kernel.displayedUptimeSeconds then .changed uptimeSeconds else .hlt }
  | .changed uptimeSeconds =>
    (kernel.desktop.step (.updateHeader uptimeSeconds)).map fun desktop => { kernel with
      desktop
      displayedUptimeSeconds := uptimeSeconds
      point := .hlt }
  | .hlt => some { kernel with point := .asleep }
  | .asleep => none

/-- One step, where the event can happen. -/
def step (kernel : Running) : KernelEvent → Option Next
  | .sent device byte => some (.runs { kernel with controller := kernel.controller.sends device byte })
  | .timerFired => some (.runs { kernel with pics := kernel.pics.raise 0 })
  | .passed device =>
    (kernel.controller.passes device).map fun controller => .runs { kernel with
      controller
      pics := if controller.interrupts device then kernel.pics.raise (deviceLine device) else kernel.pics }
  | .interrupted vector readings =>
    match kernel.serving, kernel.pics.interrupt with
    | none, some (v, pics) =>
      if v = vector then
        some (handle { kernel with pics, point := kernel.point.woken } readings vector (isrAt vector))
      else none
    | _, _ => none
  | .returned =>
    kernel.serving.map fun line => .runs { kernel with
      pics := ((picSendEoi line.val).run kernel.pics).2
      serving := none }
  | .looped => if kernel.serving = none then kernel.loop.map .runs else none

/-- A step after which the kernel runs on. -/
def Steps (kernel : Running) (event : KernelEvent) (kernel' : Running) : Prop :=
  kernel.step event = some (.runs kernel')

end Running

end KbmOs
