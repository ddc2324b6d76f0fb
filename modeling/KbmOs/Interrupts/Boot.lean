import KbmOs.Interrupts.BootWait
import KbmOs.Interrupts.Strays
/-!
# From the wait to the main loop

Behind the wait interrupts stay off until the desktop is up: `keyboard_init`
and `mouse_init` open their lines, and `mouse_init` talks to the mouse,
whose answers request its line although they are read at once. Whatever is
requested meanwhile, the kernel is wired when interrupts are switched on
again, and begins as its handlers need it.
-/

namespace KbmOs

open Pic8259 I8042 LabelledRuns Polling MouseDialogue

/-- Lines requested while interrupts are off. -/
def raiseAll (lines : List Line) (p : Pair) : Pair := lines.foldl Pair.raise p

/-- The chips from the wait to the last `sti`: `keyboard_init` and
`mouse_init` each open a line, with requests before, between and after. -/
def behindWait (before between after : List Line) (p : Pair) : Pair :=
  let p := raiseAll before p
  let p := ((picEnableIrq 1).run p).2
  let p := raiseAll between p
  let p := ((picEnableIrq 12).run p).2
  raiseAll after p

namespace OpenFor

variable {irqs : List ℕ} {p : Pair}

theorem raiseAll (h : OpenFor irqs p) (lines : List Line) : OpenFor irqs (raiseAll lines p) := by
  induction lines generalizing p with
  | nil => exact h
  | cons line lines ih => exact ih (h.raise line)

/-- **All lines that have a handler are open.** -/
theorem behindWait (h : OpenFor [0] p) (before between after : List Line) :
    OpenFor servedLines (behindWait before between after p) :=
  ((((h.raiseAll before).enable 1).raiseAll between).enable 12).raiseAll after

end OpenFor

namespace Running

variable {answer : Device → BitVec 8 → BitVec 8} {schedule : ℕ → Option Act}
variable {events : List WaitEvent} {waiting : Waiting}

/-- **Boot hands over to the main loop.** Let the wait for a hundred ticks
end in any way, let any lines be requested until interrupts are switched on
again, let the controller start with nothing written to it and no byte
queued by either device, and let the mouse acknowledge the command to
report: `mouse_init` returns, and at the last `sti` the kernel is wired for all its handlers
with no byte waiting, the mouse's acknowledgement the last that was read
and no packet begun; where no device's line is requested it is sound. -/
theorem boot_hands_over (p : Pair) (hrun : Run Waiting.Steps (Waiting.atSti p) events waiting)
    (hticks : events.countP WaitEvent.ticks < 2 ^ 64) (hover : waiting.point = .over)
    (hfair : (pace answer schedule).Fair) (hanswer : answer .mouse 0xF4 = 0xFA) {c : Controller}
    (hready : Ready c) (now : ℕ) (before between after : List Line) (shell : Shell)
    (framebuffer : Framebuffer) (pixels : Pixels) : ∃ final later,
      Returns (mouseInitController answer schedule) (c, now) (answer .mouse 0xF6, 0xFA)
        (final, later) ∧
      let kernel := atSti (behindWait before between after waiting.pics) final waiting.ticks
        (Desktop.boot shell framebuffer pixels)
      kernel.Begins ∧ 100 ≤ kernel.ticks ∧ (kernel.strays = 0 → kernel.Sound) := by
  have hcounts := Waiting.counts_run hrun hticks
  obtain ⟨final, later, hreturns, hcommand, -, hdata, hempty, -⟩ :=
    mouseInitController_ends hfair c hready now
  rw [hanswer] at hreturns hdata
  have hwaited : OpenFor [0] waiting.pics := by
    have hsound := hcounts.sound
    unfold Waiting.Sound at hsound
    rwa [Waiting.rested_of_resting (hcounts.resting hover)] at hsound
  have hbegins : (atSti (behindWait before between after waiting.pics) final waiting.ticks
      (Desktop.boot shell framebuffer pixels)).Begins :=
    ⟨(hwaited.behindWait before between after).wired hcommand, hempty, hdata, rfl⟩
  exact ⟨final, later, hreturns, hbegins, hcounts.counted (Or.inr hover), hbegins.sound⟩

theorem boot_hands_over_hundredTurns : ∃ waiting final later,
    Run Waiting.Steps (Waiting.atSti ⟨initialisedChip 0 0, initialisedChip 0 0⟩) Waiting.hundredTurns
      waiting ∧
    Returns (mouseInitController (fun _ _ => 0xFA) inTurn) (closedController, 0) (0xFA, 0xFA)
      (final, later) ∧
    (atSti (behindWait [1] [12] [0] waiting.pics) final waiting.ticks
      (Desktop.boot Shell.atBoot sampleFramebuffer fun _ => 0)).Begins := by
  obtain ⟨waiting, hrun, hover, -⟩ :=
    Waiting.hundredTurns_run ⟨initialisedChip 0 0, initialisedChip 0 0⟩
  have hclosed : Ready closedController := ⟨rfl, fun _ => rfl⟩
  obtain ⟨final, later, hreturns, hbegins, -⟩ := boot_hands_over _ hrun Waiting.hundredTurns_ticks
    hover inTurn_fair rfl hclosed 0 [1] [12] [0] Shell.atBoot sampleFramebuffer fun _ => 0
  exact ⟨waiting, final, later, hrun, hreturns, hbegins⟩

end Running

end KbmOs
