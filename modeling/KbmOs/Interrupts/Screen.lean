import KbmOs.Desktop.Picture
import KbmOs.Interrupts.Served
/-!
# The screen of the running kernel

Whatever has been sent and however the chips, the handlers and the main
loop have taken their turns, the screen shows what was typed, as the shell
answered it, under the uptime the main loop displays and with the cursor
where the mouse is, as long as no key has drawn where the cursor was.
-/

namespace KbmOs

open Pic8259 I8042 LabelledRuns

namespace Running

/-- A key that is handled draws beside the cursor. -/
def Misses (kernel : Running) : KernelEvent → Prop
  | .interrupted vector readings =>
    match isrAt vector with
    | some .isrKeyboard =>
      kernel.desktop.Misses (.keyboardIrq readings kernel.controller.read.1.toNat)
    | _ => True
  | _ => True

/-- A step that draws beside the cursor. -/
def UncoveredSteps (kernel : Running) (event : KernelEvent) (kernel' : Running) : Prop :=
  kernel.Misses event ∧ kernel.Steps event kernel'

variable {kernel kernel' : Running} {event : KernelEvent} {events : List KernelEvent}

/-- **What it handles draws there too**, and the last uptime of the header is
the one the main loop displays. -/
theorem Sound.uncovered (h : kernel.Sound) (hstep : kernel.UncoveredSteps event kernel') :
    ∃ more, kernel.service.Served [event] kernel'.service more ∧
      Run Desktop.UncoveredStep kernel.desktop more kernel'.desktop ∧
      kernel'.displayedUptimeSeconds = more.foldl UiEvent.uptimeAfter kernel.displayedUptimeSeconds := by
  obtain ⟨hmisses, hstep⟩ := hstep
  obtain ⟨more, hserved, hcases⟩ := h.handles hstep
  refine ⟨more, hserved, ?_⟩
  have hdesktop : Run Desktop.Steps kernel.desktop more kernel'.desktop := hserved.desktop
  rcases hcases with ⟨-, rfl, hdisplayed⟩ | ⟨-, hmore⟩ | ⟨device, readings, rfl, rfl, hdisplayed⟩
  · rw [run_nil.1 hdesktop]
    exact ⟨.nil, hdisplayed⟩
  · rw [hmore] at hdesktop ⊢
    obtain ⟨desktop, hheader, hlast⟩ := run_cons.1 hdesktop
    exact ⟨run_cons.2 ⟨desktop, ⟨trivial, hheader⟩, run_nil.2 (run_nil.1 hlast)⟩, rfl⟩
  · obtain ⟨desktop, hhandled, hlast⟩ := run_cons.1 hdesktop
    have hmiss : kernel.desktop.Misses (deviceEvent readings kernel.controller.data device) := by
      cases device with
      | keyboard => exact hmisses
      | mouse => trivial
    refine ⟨run_cons.2 ⟨desktop, ⟨hmiss, hhandled⟩, run_nil.2 (run_nil.1 hlast)⟩, ?_⟩
    rw [hdisplayed]
    cases device <;> rfl

/-- **A run that draws beside the cursor** is one of the desktop that does. -/
theorem Sound.run_uncovered (h : kernel.Sound) (hrun : Run UncoveredSteps kernel events kernel') :
    kernel'.Sound ∧ ∃ served, kernel.service.Served events kernel'.service served ∧
      Run Desktop.UncoveredStep kernel.desktop served kernel'.desktop ∧
      kernel'.displayedUptimeSeconds =
        served.foldl UiEvent.uptimeAfter kernel.displayedUptimeSeconds := by
  induction hrun with
  | nil => exact ⟨h, [], .nil _, .nil, rfl⟩
  | snoc _ hstep ih =>
    obtain ⟨hsound, served, hserved, huncovered, hdisplayed⟩ := ih
    obtain ⟨more, hmore, hmoreUncovered, hmoreDisplayed⟩ := hsound.uncovered hstep
    refine ⟨(hsound.step hstep.2).1, served ++ more, hserved.append hmore,
      run_append.2 ⟨_, huncovered, hmoreUncovered⟩, ?_⟩
    rw [List.foldl_append, ← hdisplayed]
    exact hmoreDisplayed

section Boot

variable {framebuffer : Framebuffer} (h : framebuffer.Roomy) (hfb : framebuffer.HoldsCursor)
variable {shell : Shell} {pixels : Pixels} (hsound : kernel.Sound)
variable (hdesktop : kernel.desktop = Desktop.boot shell framebuffer pixels)
include hfb hsound hdesktop

/-- **What has been handled makes the desktop what it is.** -/
theorem Sound.run_tracks (hrun : Run UncoveredSteps kernel events kernel') :
    ∃ served ui session, kernel.service.Served events kernel'.service served ∧
      TracksShown kernel'.desktop ui ∧ kernel'.desktop.mouse.mouseFramebuffer = framebuffer ∧
      Typed shell served session ∧ ui.Follows h served session ∧
      kernel'.displayedUptimeSeconds =
        served.foldl UiEvent.uptimeAfter kernel.displayedUptimeSeconds := by
  obtain ⟨-, served, hserved, huncovered, hdisplayed⟩ := hsound.run_uncovered hrun
  rw [hdesktop] at huncovered
  obtain ⟨ui, session, htracks, hframebuffer, htyped, hfollows⟩ :=
    KbmOs.run_follows h hfb huncovered
  exact ⟨served, ui, session, hserved, htracks, hframebuffer, htyped, hfollows, hdisplayed⟩

/-- **And the screen shows it.** -/
theorem Sound.run_screenShows (hdisplayed : kernel.displayedUptimeSeconds = 0)
    (hrun : Run UncoveredSteps kernel events kernel') : ∃ served session,
      kernel.service.Served events kernel'.service served ∧ Typed shell served session ∧
      kernel'.desktop.shell = session.shell ∧
      ScreenShows kernel'.desktop.mouse (session.face h kernel'.displayedUptimeSeconds)
        kernel'.desktop.console.pixels := by
  obtain ⟨served, ui, session, hserved, htracks, hframebuffer, htyped, hfollows, hlast⟩ :=
    hsound.run_tracks h hfb hdesktop hrun
  have huptime : kernel'.displayedUptimeSeconds = uptimeShown served := by
    rw [hlast, hdisplayed]
    rfl
  have hshell : kernel'.desktop.shell = ui.shell := (congrArg TextUi.shell htracks.same).symm
  rw [huptime]
  exact ⟨served, session, hserved, htyped, hshell.trans hfollows.shell,
    htracks.screenShows hframebuffer hfb hfollows⟩

/-- A key that is handled finds the cursor above the text, and does not have
the screen cleared. -/
def Above (kernel : Running) (event : KernelEvent) : Prop :=
  (∃ readings, event = .interrupted 33 readings) →
    kernel.desktop.mouse.mouseY + 4 ≤ 56 ∧ shellCommandIs kernel.desktop.shell "CLEAR" = false

include h in
/-- **Then no key draws where the cursor is.** -/
theorem Sound.run_above
    (hrun : Run (fun kernel event kernel' => kernel.Above event ∧ kernel.Steps event kernel') kernel
      events kernel') : Run UncoveredSteps kernel events kernel' := by
  induction hrun with
  | nil => exact .nil
  | @snoc es e c c' _ hstep ih =>
    obtain ⟨habove, hstep⟩ := hstep
    refine ih.snoc ⟨?_, hstep⟩
    cases e with
    | interrupted vector readings =>
      obtain ⟨served, ui, session, -, htracks, hframebuffer, -, hfollows, -⟩ :=
        hsound.run_tracks h hfb hdesktop ih
      rcases ((hsound.run_uncovered ih).1.interrupted hstep).2 with ⟨pics, rfl, -⟩ |
        ⟨device, pics, rfl, -⟩
      · exact trivial
      · cases device with
        | keyboard =>
          obtain ⟨hY, hclear⟩ := habove ⟨readings, rfl⟩
          exact htracks.misses_above hframebuffer hfb hfollows hY hclear readings _
        | mouse => exact trivial
    | _ => exact trivial

end Boot

/-- **The screen shows what was sent.** In every run from a sound kernel at
`sti` on, however the devices, the chips, the handlers and the main loop
take their turns, as long as no key draws where the cursor is: every pixel
of the screen is the cursor's where the mouse is, and elsewhere that of the
header with the uptime displayed, of the strip below it, or of the terminal
of the session in which the scan codes handled so far are typed. -/
theorem screen_shows {framebuffer : Framebuffer} (h : framebuffer.Roomy)
    (hfb : framebuffer.HoldsCursor) (shell : Shell) (pixels : Pixels) (kernel kernel' : Running)
    (events : List KernelEvent) (hsound : kernel.Sound)
    (hdesktop : kernel.desktop = Desktop.boot shell framebuffer pixels)
    (hdisplayed : kernel.displayedUptimeSeconds = 0)
    (hrun : Run UncoveredSteps kernel events kernel') : ∃ served session,
      (∀ device, (kernel.controller.pending device).map BitVec.toNat ++ sentBytes device events =
        handledBytes device served ++ (kernel'.controller.pending device).map BitVec.toNat) ∧
      Typed shell served session ∧ kernel'.desktop.shell = session.shell ∧
      ScreenShows kernel'.desktop.mouse (session.face h kernel'.displayedUptimeSeconds)
        kernel'.desktop.console.pixels := by
  obtain ⟨served, session, hserved, htyped, hshell, hshows⟩ :=
    hsound.run_screenShows h hfb hdesktop hdisplayed hrun
  exact ⟨served, session, hserved.bytes, htyped, hshell, hshows⟩

/-- A letter is typed while the mouse waits. -/
theorem screen_shows_letter : ∃ kernel' session,
    Run UncoveredSteps sampleKernel [.sent .keyboard 0x1e, .passed .keyboard,
      .interrupted 33 idleReadings, .returned] kernel' ∧
    ScreenShows kernel'.desktop.mouse
      (Session.face session sampleFramebuffer_roomy kernel'.displayedUptimeSeconds)
      kernel'.desktop.console.pixels := by
  have hrun : Run UncoveredSteps sampleKernel [.sent .keyboard 0x1e, .passed .keyboard,
      .interrupted 33 idleReadings, .returned] _ :=
    run_cons.2 ⟨_, ⟨trivial, rfl⟩, run_cons.2 ⟨_, ⟨trivial, rfl⟩,
      run_cons.2 ⟨_, ⟨boot_misses_letter, rfl⟩, run_cons.2 ⟨_, ⟨trivial, rfl⟩, .nil⟩⟩⟩⟩
  obtain ⟨served, session, -, -, -, hshows⟩ :=
    screen_shows sampleFramebuffer_roomy ⟨by decide, by decide⟩ Shell.atBoot (fun _ => 0)
      sampleKernel _ _ sampleKernel_sound rfl rfl hrun
  exact ⟨_, session, hrun, hshows⟩

end Running

end KbmOs
