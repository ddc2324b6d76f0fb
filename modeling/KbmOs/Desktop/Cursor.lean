import KbmOs.Desktop.Model
import KbmOs.Lib.Runs
import KbmOs.Mouse.Overlay
/-!
# The cursor and the picture

The desktop runs beside the UI without a mouse. `Tracks` relates the two:
the same statics, and a screen that is the other's picture under the
cursor. The mouse and the header keep it, whatever they do. The keyboard
interrupt does not hide the cursor before the shell draws, so it keeps it
where the drawing has nothing to do with the words under the cursor; where
it changes one of them the picture is damaged (`Tracks.damaged`).
-/

namespace KbmOs

open Raster Framebuffer LabelledRuns

/-- **The desktop is the UI's picture with the cursor over it.** -/
structure Tracks (desktop : Desktop) (ui : TextUi) : Prop where
  same : ui = { desktop.toTextUi with
    console := { desktop.console with pixels := ui.console.pixels } }
  fits : desktop.console.Fits
  covers : Covers desktop.mouse desktop.console.pixels ui.console.pixels

/-- The drawing of the event has nothing to do with the words under the
cursor, unless the event sees to it that the cursor is hidden. -/
def Desktop.Misses (desktop : Desktop) : UiEvent → Prop
  | .keyboardIrq readings scanCode =>
    ∀ keyboardShiftDown shell calls,
      keyboardIrq desktop.keyboardShiftDown desktop.shell readings scanCode =
          (keyboardShiftDown, .returns shell calls) →
        Disjoint (callsFootprint desktop.console calls) desktop.mouse.cover
  | .mouseIrq _ => True
  | .updateHeader _ => True

def Desktop.Steps (desktop : Desktop) (event : UiEvent) (desktop' : Desktop) : Prop :=
  desktop.step event = some desktop'

/-- A step whose drawing misses the cursor. -/
def Desktop.UncoveredStep (desktop : Desktop) (event : UiEvent) (desktop' : Desktop) : Prop :=
  desktop.Misses event ∧ desktop.step event = some desktop'

def TextUi.Steps (ui : TextUi) (event : UiEvent) (ui' : TextUi) : Prop := ui.step event = some ui'

variable {desktop desktop' : Desktop} {ui ui' : TextUi} {event : UiEvent} {events : List UiEvent}
variable {framebuffer : Framebuffer}

/-! ## Steps -/

/-- The two consoles have the same statics. -/
theorem Tracks.statics (h : Tracks desktop ui) :
    desktop.console.framebuffer = ui.console.framebuffer ∧
      desktop.console.cursorX = ui.console.cursorX ∧
      desktop.console.cursorY = ui.console.cursorY := by
  rw [h.same]
  exact ⟨rfl, rfl, rfl⟩

/-- Hiding the cursor gives the UI's picture. -/
theorem Tracks.hidden (h : Tracks desktop ui) : desktop.hidden = ui.console.pixels := h.covers.hide

/-- **A key whose drawing misses the cursor.** -/
theorem Tracks.keyboardIrq (h : Tracks desktop ui) {readings : Readings} {scanCode : ℕ}
    (hmiss : desktop.Misses (.keyboardIrq readings scanCode))
    (hstep : desktop.step (.keyboardIrq readings scanCode) = some desktop') :
    ∃ ui', ui.step (.keyboardIrq readings scanCode) = some ui' ∧ Tracks desktop' ui' := by
  obtain ⟨pixels, hpixels⟩ : ∃ pixels, pixels = ui.console.pixels := ⟨_, rfl⟩
  have hsame := h.same
  have hcovers := h.covers
  rw [← hpixels] at hsame hcovers
  rw [hsame]
  obtain ⟨next, hnext, rfl⟩ := Option.map_eq_some_iff.1 hstep
  unfold TextUi.step at hnext ⊢
  dsimp only at hnext ⊢
  rcases hirq : KbmOs.keyboardIrq desktop.keyboardShiftDown desktop.shell readings scanCode with
    ⟨shift, ⟨shell, calls⟩ | calls⟩
  · rw [hirq] at hnext
    cases hnext
    -- the calls draw off the cursor: both screens change alike, and what is saved still holds
    obtain ⟨pixels', hrun, hoff, hon, hfits⟩ :=
      Console.performAll_off h.fits (hmiss shift shell calls hirq) hcovers.off
    dsimp only
    rw [hrun]
    refine ⟨_, rfl, rfl, hfits, hoff, fun hshown row hr column hc hv => ?_⟩
    have hcover : desktop.mouse.cover = desktop.mouse.mouseFramebuffer.words
        (cursorSquare desktop.mouse.mouseOldX desktop.mouse.mouseOldY) := if_neg hshown
    have hmem := (mem_words hv).2 (mem_cursorSquare hr hc)
    rw [← hcover] at hmem
    exact (hcovers.saved hshown row hr column hc hv).trans (hon _ hmem).symm
  · rw [hirq] at hnext
    cases hnext

/-- **The header is drawn with the cursor hidden.** -/
theorem Tracks.updateHeader (h : Tracks desktop ui) {uptimeSeconds : ℕ}
    (hstep : desktop.step (.updateHeader uptimeSeconds) = some desktop') :
    ∃ ui', ui.step (.updateHeader uptimeSeconds) = some ui' ∧ Tracks desktop' ui' := by
  -- with the cursor hidden the desktop is the UI
  have hui : ({ desktop.console with
      pixels := (mouseHideCursor desktop.mouse desktop.console.pixels).2 } : Console) =
        ui.console := by
    rw [h.covers.hide]
    exact (congrArg TextUi.console h.same).symm
  have hshift : ui.shell = desktop.shell ∧ ui.keyboardShiftDown = desktop.keyboardShiftDown := by
    rw [h.same]
    exact ⟨rfl, rfl⟩
  have hfits : ui.console.Fits := by
    rw [← hui]
    exact h.fits.redrawn _
  have hvisible : (mouseHideCursor desktop.mouse desktop.console.pixels).1.mouseCursorVisible =
      0 := by rw [mouseHideCursor_fst]
  unfold Desktop.step at hstep
  cases hstep
  refine ⟨_, rfl, ?_⟩
  unfold Desktop.withMouse
  dsimp only
  rw [hui]
  refine ⟨?_, (hfits.updateHeader uptimeSeconds).redrawn _, covers_show hvisible _⟩
  dsimp only
  rw [← hshift.1, ← hshift.2]

/-- **What a step keeps.** -/
theorem Tracks.step (h : Tracks desktop ui) (hstep : desktop.UncoveredStep event desktop') :
    ∃ ui', ui.Steps event ui' ∧ Tracks desktop' ui' := by
  obtain ⟨hmiss, hstep⟩ := hstep
  cases event with
  | keyboardIrq readings scanCode => exact h.keyboardIrq hmiss hstep
  | mouseIrq mouseByte =>
    cases hstep
    exact ⟨ui, rfl, h.same, h.fits.redrawn _, h.covers.mouseIrq mouseByte⟩
  | updateHeader uptimeSeconds => exact h.updateHeader hstep

/-- The prompt on a fresh screen. -/
theorem boot_shows (h : framebuffer.Roomy) (shell : Shell) (pixels : Pixels) :
    Shows ((Session.boot shell).terminal h) (TextUi.boot shell framebuffer pixels).console :=
  ((shows_init (Console.atBoot framebuffer pixels) h).performAll fun color hmem =>
    plain_shellPrompt color hmem).1

/-- The driver covers the picture it is given. -/
theorem tracks_withMouse (hfits : ui.console.Fits) {mouse : Mouse}
    {driver : Mouse → Pixels → Mouse × Pixels}
    (hcovers : Covers (driver mouse ui.console.pixels).1 (driver mouse ui.console.pixels).2
      ui.console.pixels) : Tracks (Desktop.withMouse ⟨ui, mouse⟩ driver) ui where
  same := rfl
  fits := hfits.redrawn _
  covers := hcovers

/-- **The desktop starts as the UI's picture under the cursor.** -/
theorem tracks_boot (h : framebuffer.Roomy) (shell : Shell) (pixels : Pixels) :
    Tracks (Desktop.boot shell framebuffer pixels) (TextUi.boot shell framebuffer pixels) := by
  unfold Desktop.boot
  refine tracks_withMouse (boot_shows h shell pixels).fits ?_
  exact covers_init (Mouse.atBoot framebuffer) framebuffer rfl _

/-! ## Damage -/

/-- A key leaves the mouse alone. -/
theorem Desktop.step_mouse {readings : Readings} {scanCode : ℕ}
    (hstep : desktop.step (.keyboardIrq readings scanCode) = some desktop') :
    desktop'.mouse = desktop.mouse := by
  obtain ⟨next, -, rfl⟩ := Option.map_eq_some_iff.1 hstep
  rfl

/-- **Keys that change a pixel under the cursor damage the picture**: what
is put back there is what stood there before. -/
theorem Tracks.damaged (h : Tracks desktop ui) (hshown : desktop.mouse.mouseCursorVisible ≠ 0)
    (hrun : Run Desktop.Steps desktop events desktop')
    (hkeys : ∀ e ∈ events, ∃ readings scanCode, e = .keyboardIrq readings scanCode)
    {row column : ℕ} (hr : row < 4) (hc : column < 4)
    (hv : desktop.mouse.mouseFramebuffer.Visible
      (spot desktop.mouse.mouseOldX desktop.mouse.mouseOldY row column)) :
    desktop.mouse.mouseFramebuffer.picture desktop'.hidden
        (spot desktop.mouse.mouseOldX desktop.mouse.mouseOldY row column) =
      desktop.mouse.mouseFramebuffer.picture ui.console.pixels
        (spot desktop.mouse.mouseOldX desktop.mouse.mouseOldY row column) := by
  have hmouse : desktop'.mouse = desktop.mouse := by
    induction hrun with
    | nil => rfl
    | @snoc es e c c' _ hstep ih =>
      obtain ⟨readings, scanCode, rfl⟩ := hkeys e (List.mem_append_right _ List.mem_cons_self)
      rw [Desktop.step_mouse hstep]
      exact ih fun e' he' => hkeys e' (List.mem_append_left _ he')
  -- keys do not save anew, so what is put back is what was saved at the start
  rw [← h.covers.saved hshown row hr column hc hv]
  unfold Desktop.hidden mouseHideCursor
  rw [hmouse, if_neg hshown]
  exact restore_spot hr hc hv _

/-! ## Runs -/

/-- **The cursor never damages the picture**, in runs in which no key draws
where the cursor is: the bytes of the mouse, the keys and the updates of the
header may come in any order, and hiding the cursor afterwards leaves in
video memory what the keys and the updates alone have drawn. -/
theorem cursor_hides_clean (h : framebuffer.Roomy) (shell : Shell) (pixels : Pixels)
    (events : List UiEvent) (desktop : Desktop)
    (hrun : Run Desktop.UncoveredStep (Desktop.boot shell framebuffer pixels) events desktop) :
    ∃ ui, Run TextUi.Steps (TextUi.boot shell framebuffer pixels) events ui ∧
      desktop.hidden = ui.console.pixels := by
  have htracks : ∃ ui, Run TextUi.Steps (TextUi.boot shell framebuffer pixels) events ui ∧
      Tracks desktop ui := by
    induction hrun with
    | nil => exact ⟨_, .nil, tracks_boot h shell pixels⟩
    | snoc _ hstep ih =>
      obtain ⟨ui, hui, htracks⟩ := ih
      obtain ⟨ui', hstep', htracks'⟩ := htracks.step hstep
      exact ⟨ui', hui.snoc hstep', htracks'⟩
  obtain ⟨ui, hui, htracks⟩ := htracks
  exact ⟨ui, hui, htracks.hidden⟩

/-- The key of a letter that finds room in the line. -/
theorem TextUi.step_letter (hshift : ui.keyboardShiftDown = 0)
    (hroom : ui.shell.line.length < 63) (readings : Readings) : ∃ ui',
      ui.Steps (.keyboardIrq readings 0x1e) ui' ∧ ui'.keyboardShiftDown = 0 ∧
      ui'.shell.line.length = ui.shell.line.length + 1 ∧
      ui'.console = ui.console.perform (.writeCodepoint 'A'.toNat) := by
  have hcharacter : 'A'.toNat ≠ '\n'.toNat := by decide
  obtain ⟨shell, hreturns, hline⟩ := shellHandleCharacter_edit ui.shell readings hcharacter
  have hcalls : editCalls ui.shell.line 'A'.toNat = [.writeCodepoint 'A'.toNat] :=
    (if_neg (by decide)).trans (if_pos hroom)
  have hedit : editLine ui.shell.line 'A'.toNat = ui.shell.line ++ ['A'.toNat] :=
    (if_neg (by decide)).trans (if_pos hroom)
  have hirq : KbmOs.keyboardIrq ui.keyboardShiftDown ui.shell readings 0x1e =
      (0, .returns shell [.writeCodepoint 'A'.toNat]) := by
    rw [hshift, ← hcalls, ← hreturns]
    rfl
  refine ⟨⟨shell, ui.console.perform (.writeCodepoint 'A'.toNat), 0⟩, ?_, rfl, ?_, rfl⟩
  · unfold TextUi.Steps TextUi.step
    dsimp only
    rw [hirq]
    rfl
  · dsimp only
    rw [hline, hedit]
    exact List.length_append

/-- **Letters typed one after the other** are written one after the other. -/
theorem TextUi.run_letters (hshift : ui.keyboardShiftDown = 0) (readings : Readings) {n : ℕ}
    (hroom : ui.shell.line.length + n ≤ 63) : ∃ ui',
      Run TextUi.Steps ui (List.replicate n (.keyboardIrq readings 0x1e)) ui' ∧
      ui'.console = ui.console.performAll (List.replicate n (.writeCodepoint 'A'.toNat)) := by
  induction n generalizing ui with
  | zero => exact ⟨ui, .nil, rfl⟩
  | succ n ih =>
    obtain ⟨ui', hstep, hshift', hlength, hconsole⟩ :=
      TextUi.step_letter hshift (by omega) readings
    obtain ⟨last, hrun, hlast⟩ := ih hshift' (by omega)
    refine ⟨last, run_cons.2 ⟨ui', hstep, hrun⟩, ?_⟩
    rw [hlast, hconsole]
    rfl

/-- Five letters, of which the last goes where the cursor is. -/
def fiveLetters : List UiEvent := List.replicate 5 (.keyboardIrq idleReadings 0x1e)

/-- **Typing under the cursor on six columns**: the fifth letter is drawn
over the cursor, and hiding it puts the background back. -/
theorem cursor_damages : ∃ desktop ui,
    Run Desktop.Steps (Desktop.boot Shell.atBoot sampleFramebuffer fun _ => 0) fiveLetters desktop ∧
    Run TextUi.Steps (TextUi.boot Shell.atBoot sampleFramebuffer fun _ => 0) fiveLetters ui ∧
    sampleFramebuffer.Visible (48, 80) ∧
    sampleFramebuffer.picture desktop.hidden (48, 80) ≠
      sampleFramebuffer.picture ui.console.pixels (48, 80) := by
  have hboot := tracks_boot sampleFramebuffer_roomy Shell.atBoot fun _ => 0
  have hshows := boot_shows sampleFramebuffer_roomy Shell.atBoot fun _ => 0
  have hvisible : sampleFramebuffer.Visible (48, 80) := ⟨by decide, by decide⟩
  -- the desktop: what is put back at the corner of the cursor is the background of the boot
  have hrun : Run Desktop.Steps (Desktop.boot Shell.atBoot sampleFramebuffer fun _ => 0)
    fiveLetters _ := run_iff_foldlM.2 rfl
  have hspot : spot (Desktop.boot Shell.atBoot sampleFramebuffer fun _ => 0).mouse.mouseOldX
    (Desktop.boot Shell.atBoot sampleFramebuffer fun _ => 0).mouse.mouseOldY 0 0 = (48, 80) := rfl
  have hkept := hboot.damaged (by decide) hrun (fun e he => ⟨_, _, List.eq_of_mem_replicate he⟩)
    (by decide : 0 < 4) (by decide : 0 < 4) (by rw [hspot]; exact hvisible)
  rw [hspot] at hkept
  have hbackground : sampleFramebuffer.picture
      (TextUi.boot Shell.atBoot sampleFramebuffer fun _ => 0).console.pixels (48, 80) = 0x00101018 :=
    (hshows.content (48, 80) hvisible (by decide)).trans rfl
  -- without a mouse: the fifth letter's corner
  obtain ⟨ui, hrun', hconsole⟩ : ∃ ui, Run TextUi.Steps
      (TextUi.boot Shell.atBoot sampleFramebuffer fun _ => 0) fiveLetters ui ∧ ui.console =
        (TextUi.boot Shell.atBoot sampleFramebuffer fun _ => 0).console.performAll
          (List.replicate 5 (.writeCodepoint 'A'.toNat)) :=
    TextUi.run_letters rfl idleReadings (by decide)
  have hcalls : ∀ color,
      .setTextColor color ∈ List.replicate 5 (ConsoleCall.writeCodepoint 'A'.toNat) →
        color = (TextUi.boot Shell.atBoot sampleFramebuffer fun _ => 0).console.textColor :=
    fun color hmem => ConsoleCall.noConfusion (List.eq_of_mem_replicate hmem)
  obtain ⟨htyped, htext, -⟩ := hshows.performAll hcalls
  rw [← hconsole] at htyped htext
  have hletter : sampleFramebuffer.picture ui.console.pixels (48, 80) = 0x00ffffff := by
    rw [htyped.content (48, 80) hvisible (by decide), htext]
    rfl
  refine ⟨_, ui, hrun, hrun', hvisible, fun heq => ?_⟩
  have hwhite := (hkept.trans hbackground).symm.trans (heq.trans hletter)
  revert hwhite
  decide

/-- A letter that goes to the right of the prompt, above the cursor. -/
theorem letter_misses {console : Console} (hframebuffer : console.framebuffer = sampleFramebuffer)
    (hX : console.cursorX = 80) (hY : console.cursorY = 56) :
    Disjoint (callsFootprint console [.writeCodepoint 'A'.toNat])
      (sampleFramebuffer.words (cursorSquare 48 80)) := by
  have hstays : ¬ console.Wraps := by
    unfold Console.Wraps
    rw [hX, hframebuffer]
    decide
  have hglyph : fontGetGlyph 'A'.toNat = some fontGlyphA := rfl
  have hfootprint : ConsoleCall.footprint console (.writeCodepoint 'A'.toNat) =
      sampleFramebuffer.words (glyphPositions 80 56 fontGlyphA 2) := by
    unfold ConsoleCall.footprint
    dsimp only
    rw [if_neg (by decide), hglyph]
    refine (if_neg hstays).trans ?_
    unfold glyphFootprint
    rw [hX, hY, hframebuffer]
  unfold callsFootprint callsFootprint
  rw [hfootprint, Set.union_empty]
  refine Set.disjoint_left.2 fun k hletter hcursor => ?_
  obtain ⟨q, hq, hv, rfl⟩ := hletter
  obtain ⟨row, hr, column, hc, rfl⟩ := (mem_words hv).1 hcursor
  have hbottom := hq.1.2.2.2
  unfold spot wrap toUint64 at hbottom
  dsimp only at hbottom
  omega

theorem boot_misses_letter : (Desktop.boot Shell.atBoot sampleFramebuffer fun _ => 0).Misses
    (.keyboardIrq idleReadings 0x1e) := by
  have hshows := boot_shows sampleFramebuffer_roomy Shell.atBoot fun _ => 0
  obtain ⟨hframebuffer, hX, hY⟩ :=
    (tracks_boot sampleFramebuffer_roomy Shell.atBoot fun _ => 0).statics
  have hOldX : (Desktop.boot Shell.atBoot sampleFramebuffer fun _ => 0).mouse.mouseOldX = 48 := by
    decide
  have hOldY : (Desktop.boot Shell.atBoot sampleFramebuffer fun _ => 0).mouse.mouseOldY = 80 := by
    decide
  have hcover : (Desktop.boot Shell.atBoot sampleFramebuffer fun _ => 0).mouse.cover =
      sampleFramebuffer.words (cursorSquare 48 80) := by
    rw [← hOldX, ← hOldY]
    exact if_neg (by decide)
  intro shift shell calls hirq
  have hcalls : calls = [.writeCodepoint 'A'.toNat] := by
    have hletter : keyboardIrq 0 (shellInit Shell.atBoot) idleReadings 0x1e =
      (0, .returns _ [.writeCodepoint 'A'.toNat]) := rfl
    cases hletter.symm.trans hirq
    rfl
  rw [hcalls, hcover]
  exact letter_misses (hframebuffer.trans hshows.framebuffer_eq)
    (hX.trans (hshows.cursorX.trans (by decide))) (hY.trans (hshows.cursorY.trans (by decide)))

/-- A letter, a movement of the mouse and the first second. -/
theorem cursor_hides_clean_sampleFramebuffer : ∃ desktop ui,
    Run TextUi.Steps (TextUi.boot Shell.atBoot sampleFramebuffer fun _ => 0)
      [.keyboardIrq idleReadings 0x1e, .mouseIrq 8, .mouseIrq 4, .mouseIrq 0, .updateHeader 1] ui ∧
    Run Desktop.UncoveredStep (Desktop.boot Shell.atBoot sampleFramebuffer fun _ => 0)
      [.keyboardIrq idleReadings 0x1e, .mouseIrq 8, .mouseIrq 4, .mouseIrq 0, .updateHeader 1]
      desktop ∧
    desktop.hidden = ui.console.pixels := by
  have hrun : Run Desktop.UncoveredStep (Desktop.boot Shell.atBoot sampleFramebuffer fun _ => 0)
      [.keyboardIrq idleReadings 0x1e, .mouseIrq 8, .mouseIrq 4, .mouseIrq 0, .updateHeader 1] _ :=
    run_cons.2 ⟨_, ⟨boot_misses_letter, rfl⟩, run_cons.2 ⟨_, ⟨trivial, rfl⟩,
      run_cons.2 ⟨_, ⟨trivial, rfl⟩, run_cons.2 ⟨_, ⟨trivial, rfl⟩,
        run_cons.2 ⟨_, ⟨trivial, rfl⟩, .nil⟩⟩⟩⟩⟩
  obtain ⟨ui, hui, hhidden⟩ := cursor_hides_clean sampleFramebuffer_roomy Shell.atBoot (fun _ => 0)
    [.keyboardIrq idleReadings 0x1e, .mouseIrq 8, .mouseIrq 4, .mouseIrq 0, .updateHeader 1] _ hrun
  exact ⟨_, ui, hui, hrun, hhidden⟩

end KbmOs
