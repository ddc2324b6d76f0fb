import KbmOs.Interrupts.Apart
import KbmOs.Interrupts.Screen
import KbmOs.Shell.Typing
/-!
# A script on the running kernel

Someone types lines at the keyboard while the mouse, the timer and the main
loop do what they like. Once all the keys have been handled the shell has
answered every line, and the screen shows it.
-/

namespace KbmOs

open Pic8259 I8042 LabelledRuns

variable {served : List UiEvent}

/-- What has been typed is found on the bytes of the keyboard. -/
theorem keysIn_eq (keyed : ℕ × List (Readings × ℕ)) (served : List UiEvent) :
    ((served.foldl UiEvent.keysIn keyed).1, (served.foldl UiEvent.keysIn keyed).2.map Prod.snd) =
      (handledBytes .keyboard served).foldl decodeKey (keyed.1, keyed.2.map Prod.snd) := by
  induction served generalizing keyed with
  | nil => rfl
  | cons event served ih =>
    have hhandled : handledBytes .keyboard (event :: served) =
        handledBytes .keyboard [event] ++ handledBytes .keyboard served := by
      rw [← handledBytes_append]
      rfl
    rw [List.foldl_cons, ih, hhandled, List.foldl_append]
    congr 1
    cases event with
    | keyboardIrq readings scanCode =>
      change _ = decodeKey (keyed.1, keyed.2.map Prod.snd) scanCode
      unfold UiEvent.keysIn decodeKey
      dsimp only
      split_ifs <;> simp
    | mouseIrq mouseByte => rfl
    | updateHeader uptimeSeconds => rfl

theorem keyboardProduces_enter : KeyboardProduces '\n'.toNat := ⟨by decide, 0, 0x1c, rfl⟩

/-- **Handling the keys of a script types the script.** -/
theorem keyedIn_script {script : List (List ℕ)} (hscript : ∀ line ∈ script, Typeable line)
    (hkeys : handledBytes .keyboard served = scriptKeys script) :
    (keyedIn served).2.map Prod.snd = script.flatMap fun line => line ++ ['\n'.toNat] := by
  have hproduced : ∀ character ∈ script.flatMap fun line => line ++ ['\n'.toNat],
      KeyboardProduces character := by
    intro character hcharacter
    obtain ⟨line, hline, hmem⟩ := List.mem_flatMap.1 hcharacter
    rcases List.mem_append.1 hmem with hmem | hmem
    · exact (hscript line hline).produced character hmem
    · rw [List.mem_singleton.1 hmem]
      exact keyboardProduces_enter
  have hkeyed := keysIn_eq (0, []) served
  rw [hkeys] at hkeyed
  have htyped := hkeyed.trans (decodeKey_text hproduced)
  exact (Prod.mk.inj htyped).2

namespace Running

/-- **What is typed is answered on the screen.** From a sound kernel at `sti`
on, whatever lines are typed, of characters of the keyboard and no longer
than the buffer, and however their keys interleave with the mouse, the
timer, the chips and the main loop, as long as no key draws where the cursor
is: once all keys have been handled no line has asked to reboot, and below
the header with the uptime displayed the screen shows, after the first
prompt, line by line what was typed and the answer to it. -/
theorem script_shown {framebuffer : Framebuffer} (h : framebuffer.Roomy)
    (hfb : framebuffer.HoldsCursor) (shell : Shell) (pixels : Pixels) (kernel kernel' : Running)
    (events : List KernelEvent) (hsound : kernel.Sound)
    (hdesktop : kernel.desktop = Desktop.boot shell framebuffer pixels)
    (hdisplayed : kernel.displayedUptimeSeconds = 0)
    (hrun : Run UncoveredSteps kernel events kernel') (script : List (List ℕ))
    (hscript : ∀ line ∈ script, Typeable line)
    (hsent : (kernel.controller.pending .keyboard).map BitVec.toNat ++ sentBytes .keyboard events =
      scriptKeys script)
    (hhandled : kernel'.controller.pending .keyboard = []) : ∃ readings : List Readings,
      readings.length = script.length ∧ (∀ line ∈ script, commandOf line ≠ .reboot) ∧
      kernel'.desktop.shell.line = [] ∧
      ScreenShows kernel'.desktop.mouse (⟨terminalRun (Terminal.empty (contentGrid framebuffer h) ℕ)
        (shellPrompt ++ scriptCalls script readings), kernel'.displayedUptimeSeconds⟩ : Face _)
        kernel'.desktop.console.pixels := by
  obtain ⟨served, session, hserved, htyped, hshell, hshows⟩ :=
    hsound.run_screenShows h hfb hdesktop hdisplayed hrun
  have hkeys : handledBytes .keyboard served = scriptKeys script := by
    have hbytes := hserved.bytes .keyboard
    rw [← hsent]
    refine (hbytes.trans ?_).symm
    rw [show kernel'.service.pending .keyboard = [] from hhandled]
    exact List.append_nil _
  obtain ⟨readings, hlength, hcommands, hline, hcalls⟩ :=
    Session.run_script rfl hscript (keyedIn_script hscript hkeys) htyped
  refine ⟨readings, hlength, hcommands, by rw [hshell]; exact hline, ?_⟩
  have hface : session.face h kernel'.displayedUptimeSeconds =
      ⟨terminalRun (Terminal.empty (contentGrid framebuffer h) ℕ)
        (shellPrompt ++ scriptCalls script readings), kernel'.displayedUptimeSeconds⟩ := by
    unfold Session.face Session.terminal
    rw [hcalls]
    rfl
  rw [← hface]
  exact hshows

/-- A screen so low that the mouse starts above the text. -/
def lowFramebuffer : Framebuffer where
  width := 112
  height := 104
  pitch := 448
  height_lt := by decide
  pitch_lt := by decide
  stride := by decide
  inMemory := by decide

theorem lowFramebuffer_roomy : lowFramebuffer.Roomy := ⟨by decide, by decide⟩

def lowKernel : Running :=
  atSti ((openIrqs servedLines).run ⟨initialisedChip 0 0, initialisedChip 0 0⟩).2 silentController 0
    (Desktop.boot Shell.atBoot lowFramebuffer fun _ => 0)

theorem lowKernel_sound : lowKernel.Sound :=
  sound_atSti (attached_openIrqs _ (by decide : (0x47 : BitVec 8) = (0x47 ||| 0x03) &&& ~~~0x30) rfl) _ _

theorem lowKernel_desktop : lowKernel.desktop = Desktop.boot Shell.atBoot lowFramebuffer fun _ => 0 :=
  rfl

/-- A scan code from the key to the end of its interrupt. -/
def handledKey (scanCode : BitVec 8) : List KernelEvent :=
  [.sent .keyboard scanCode, .passed .keyboard, .interrupted 33 idleReadings, .returned]

/-- A step at which the cursor is above the text. -/
def AboveSteps (kernel : Running) (event : KernelEvent) (kernel' : Running) : Prop :=
  kernel.Above event ∧ kernel.Steps event kernel'

/-- **A key is handled** before anything else happens. -/
theorem handledKey_run {k k₁ k₂ k₃ k₄ k₅ : Running} {scanCode : BitVec 8} {events : List KernelEvent}
    (hsent : k.Steps (.sent .keyboard scanCode) k₁) (hpassed : k₁.Steps (.passed .keyboard) k₂)
    (habove : k₂.desktop.mouse.mouseY + 4 ≤ 56 ∧ shellCommandIs k₂.desktop.shell "CLEAR" = false)
    (hinterrupted : k₂.Steps (.interrupted 33 idleReadings) k₃) (hreturned : k₃.Steps .returned k₄)
    (hrest : Run AboveSteps k₄ events k₅) : Run AboveSteps k (handledKey scanCode ++ events) k₅ := by
  have hother : ∀ (kernel : Running) (event : KernelEvent),
      (∀ readings, event ≠ .interrupted 33 readings) → kernel.Above event :=
    fun _ _ hne ⟨readings, heq⟩ => absurd heq (hne readings)
  exact run_cons.2 ⟨k₁, ⟨hother _ _ nofun, hsent⟩, run_cons.2 ⟨k₂, ⟨hother _ _ nofun, hpassed⟩,
    run_cons.2 ⟨k₃, ⟨fun _ => habove, hinterrupted⟩, run_cons.2 ⟨k₄, ⟨hother _ _ nofun, hreturned⟩,
      hrest⟩⟩⟩⟩

/-- The keys of `ECHO !`, the last one with Shift held, and Enter. -/
def echoKeys : List (BitVec 8) :=
  [0x12, 0x92, 0x2e, 0xae, 0x23, 0xa3, 0x18, 0x98, 0x39, 0xb9, 0x2a, 0x02, 0x82, 0xaa, 0x1c, 0x9c]

theorem echoKeys_run : ∃ kernel',
    Run UncoveredSteps lowKernel (echoKeys.flatMap handledKey) kernel' ∧
    kernel'.controller.pending .keyboard = [] := by
  have hrun : ∃ kernel', Run AboveSteps lowKernel (echoKeys.flatMap handledKey) kernel' ∧
      kernel'.controller.pending .keyboard = [] := by
    refine ⟨?last, ?run, ?handled⟩
    case run =>
      -- each key is sent, passed on and handled before the next
      iterate 16 refine handledKey_run rfl rfl ⟨by decide, by decide⟩ rfl rfl ?_
      exact .nil
    case handled => rfl
  obtain ⟨kernel', hrun, hpending⟩ := hrun
  have huncovered := Sound.run_above lowFramebuffer_roomy ⟨by decide, by decide⟩ lowKernel_sound
    lowKernel_desktop hrun
  exact ⟨kernel', huncovered, hpending⟩

/-- The line is typed and answered on the screen. -/
theorem script_shown_echo : ∃ kernel',
    Run UncoveredSteps lowKernel (echoKeys.flatMap handledKey) kernel' ∧
    ScreenShows kernel'.desktop.mouse (⟨terminalRun
      (Terminal.empty (contentGrid lowFramebuffer lowFramebuffer_roomy) ℕ)
      (shellPrompt ++ (written (letters "ECHO !\n\n!\n\n") ++ promptCalls)),
        kernel'.displayedUptimeSeconds⟩ : Face _)
      kernel'.desktop.console.pixels := by
  obtain ⟨kernel', hrun, hhandled⟩ := echoKeys_run
  have hproduced : ∀ character ∈ letters "ECHO !", KeyboardProduces character := by
    have hall : ∀ character ∈ letters "ECHO !", character ≠ 0 ∧ ∃ shift ∈ [0, 1],
        ∃ scanCode ∈ [0x12, 0x2e, 0x23, 0x18, 0x39, 0x02],
          keyboardScancodeToCharacter shift scanCode = character := by decide
    intro character hcharacter
    obtain ⟨hne, shift, -, scanCode, -, hproduces⟩ := hall character hcharacter
    exact ⟨hne, shift, scanCode, hproduces⟩
  have htypeable : ∀ line ∈ [letters "ECHO !"], Typeable line := fun line hline => by
    rw [List.mem_singleton.1 hline]
    exact ⟨by decide, hproduced, by decide⟩
  obtain ⟨readings, hlength, -, -, hshows⟩ :=
    script_shown lowFramebuffer_roomy ⟨by decide, by decide⟩ Shell.atBoot (fun _ => 0) lowKernel kernel'
      _ lowKernel_sound lowKernel_desktop rfl hrun [letters "ECHO !"] htypeable (by decide) hhandled
  obtain ⟨reading, rfl⟩ := List.length_eq_one_iff.1 hlength
  have hcalls : scriptCalls [letters "ECHO !"] [reading] =
      written (letters "ECHO !\n\n!\n\n") ++ promptCalls := rfl
  rw [hcalls] at hshows
  exact ⟨kernel', hrun, hshows⟩

end Running

end KbmOs
