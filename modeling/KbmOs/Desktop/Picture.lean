import KbmOs.Console.Header
import KbmOs.Desktop.Cursor
import KbmOs.Mouse.Shown
/-!
# What is on the screen

Everything the screen shows follows from what the handlers were given: the
characters that the scan codes have typed make a session of the shell, whose
terminal is below the header; the header has the uptime of its last update;
and over both is the cursor, where the mouse is. `Pictures` says so of a
desktop, and the steps that draw beside the cursor keep it.
-/

namespace KbmOs

open Raster Framebuffer LabelledRuns

/-- What an event types: the shift flag, and the characters the shell has
been given. -/
def UiEvent.keysIn (keyed : ℕ × List (Readings × ℕ)) : UiEvent → ℕ × List (Readings × ℕ)
  | .keyboardIrq readings scanCode =>
    if scanCode = 0x2a ∨ scanCode = 0x36 then (1, keyed.2)
    else if scanCode = 0xaa ∨ scanCode = 0xb6 then (0, keyed.2)
    else if keyboardScancodeToCharacter keyed.1 scanCode = 0 then keyed
    else (keyed.1, keyed.2 ++ [(readings, keyboardScancodeToCharacter keyed.1 scanCode)])
  | _ => keyed

/-- **What has been typed.** -/
def keyedIn (events : List UiEvent) : ℕ × List (Readings × ℕ) :=
  events.foldl UiEvent.keysIn (0, [])

/-- The uptime the header shows after an event. -/
def UiEvent.uptimeAfter (uptimeSeconds : ℕ) : UiEvent → ℕ
  | .updateHeader uptimeSeconds => uptimeSeconds
  | _ => uptimeSeconds

/-- **The uptime that was shown last.** -/
def uptimeShown (events : List UiEvent) : ℕ := events.foldl UiEvent.uptimeAfter 0

/-- The characters of the events, typed into the shell. -/
def Typed (shell : Shell) (events : List UiEvent) (session : Session) : Prop :=
  (Session.boot shell).run (keyedIn events).2 = some session

/-- The face of a session. -/
def Session.face {framebuffer : Framebuffer} (session : Session) (h : framebuffer.Roomy)
    (uptimeSeconds : ℕ) : Face (contentGrid framebuffer h) where
  terminal := session.terminal h
  uptimeSeconds := uptimeSeconds

/-- **The UI is what the events make of it.** -/
structure TextUi.Follows (ui : TextUi) {framebuffer : Framebuffer} (h : framebuffer.Roomy)
    (events : List UiEvent) (session : Session) : Prop where
  shell : ui.shell = session.shell
  shift : ui.keyboardShiftDown = (keyedIn events).1
  displays : Displays (session.face h (uptimeShown events)) ui.console

variable {framebuffer : Framebuffer} {h : framebuffer.Roomy} {ui ui' : TextUi} {shell : Shell}
variable {events : List UiEvent} {event : UiEvent} {session : Session}
variable {desktop desktop' : Desktop} {calls : List ConsoleCall}

/-! ## The shell's calls -/

/-- The calls write or erase text, or set the colour. -/
def BelowHeader (calls : List ConsoleCall) : Prop := ∀ call ∈ calls, call.BelowHeader

/-- No call shows an uptime. -/
def LeavesHeader (calls : List ConsoleCall) : Prop :=
  ∀ uptimeSeconds, .updateHeader uptimeSeconds ∉ calls

theorem belowHeader_append {more : List ConsoleCall} :
    BelowHeader (calls ++ more) ↔ BelowHeader calls ∧ BelowHeader more := List.forall_mem_append

theorem belowHeader_write (text : List ℕ) : BelowHeader (text.map .writeCodepoint) := by
  intro call h
  obtain ⟨c, -, rfl⟩ := List.mem_map.1 h
  trivial

theorem belowHeader_consoleWrite (text : String) : BelowHeader (consoleWrite text) :=
  belowHeader_write _

theorem belowHeader_consoleWriteChar (c : Char) : BelowHeader (consoleWriteChar c) :=
  belowHeader_write [c.toNat]

theorem belowHeader_consoleWriteHex (value : ℕ) : BelowHeader (consoleWriteHex value) := by
  unfold consoleWriteHex
  rw [belowHeader_append]
  refine ⟨belowHeader_consoleWrite _, fun call h => ?_⟩
  obtain ⟨i, -, rfl⟩ := List.mem_map.1 h
  trivial

theorem belowHeader_consoleWriteDecimal (value : ℕ) : BelowHeader (consoleWriteDecimal value) := by
  unfold consoleWriteDecimal
  split
  · exact belowHeader_consoleWriteChar _
  · exact belowHeader_write _

theorem belowHeader_shellPrompt : BelowHeader shellPrompt :=
  List.forall_mem_cons.2 ⟨trivial, belowHeader_consoleWrite _⟩

/-- **The shell writes below the header**, or clears the screen where the line
says so. -/
theorem shellCalls_below {readings : Readings} {character : ℕ} {shell' : Shell}
    (hreturns : shellHandleCharacter shell readings character = .returns shell' calls) :
    BelowHeader calls ∨ character = '\n'.toNat ∧ shellCommandIs shell "CLEAR" = true ∧
      calls = consoleWriteChar '\n' ++ consoleWriteChar '\n' ++ [.clear] ++ shellPrompt := by
  have hwrite := belowHeader_consoleWrite
  have hchar := belowHeader_consoleWriteChar
  have hhex := belowHeader_consoleWriteHex
  have hdecimal := belowHeader_consoleWriteDecimal
  have hfinish : ∀ text, BelowHeader text → ∀ shell' calls,
      ShellResult.returns (shellInit shell) (consoleWriteChar '\n' ++ consoleWriteChar '\n' ++ text ++
        consoleWriteChar '\n' ++ shellPrompt) = .returns shell' calls → BelowHeader calls := by
    intro text htext shell' calls heq
    obtain ⟨-, rfl⟩ := ShellResult.returns.inj heq
    simp only [belowHeader_append, hchar, belowHeader_shellPrompt, htext, and_self]
  by_cases hline : character = '\n'.toNat
  · -- the commands in the order in which they are compared
    subst hline
    unfold shellHandleCharacter at hreturns
    rw [if_neg (by decide), if_pos rfl] at hreturns
    dsimp only at hreturns
    split at hreturns
    · exact Or.inl (hfinish _ (hwrite _) _ _ hreturns)
    split at hreturns
    · rename_i hclear
      obtain ⟨-, rfl⟩ := ShellResult.returns.inj hreturns
      exact Or.inr ⟨rfl, hclear, rfl⟩
    refine Or.inl ?_
    split at hreturns
    · cases hreturns
    split at hreturns
    · refine hfinish _ ?_ _ _ hreturns
      unfold memoryReport
      simp only [belowHeader_append, hwrite, hhex, hdecimal, and_self]
    split at hreturns
    · exact hfinish _ (by simp only [belowHeader_append, hwrite, hdecimal, and_self]) _ _ hreturns
    split at hreturns
    · exact hfinish _ (by simp only [belowHeader_append, hwrite, hdecimal, and_self]) _ _ hreturns
    split at hreturns
    · refine hfinish _ ?_ _ _ hreturns
      unfold echoText
      refine belowHeader_append.2 ⟨?_, hchar _⟩
      split
      · exact belowHeader_write _
      · exact belowHeader_write []
    split at hreturns
    · refine hfinish _ ?_ _ _ hreturns
      unfold helpText
      simp only [belowHeader_append, hwrite, and_self]
    · exact hfinish _ (hwrite _) _ _ hreturns
  · obtain ⟨shell', hedit, -⟩ := shellHandleCharacter_edit shell readings hline
    obtain ⟨-, rfl⟩ := ShellResult.returns.inj (hedit.symm.trans hreturns)
    refine Or.inl fun call h => ?_
    unfold editCalls at h
    split_ifs at h <;> simp at h <;> rw [h] <;> trivial

theorem BelowHeader.leavesHeader (h : BelowHeader calls) : LeavesHeader calls :=
  fun _ hmem => h _ hmem

/-- **The shell leaves the header to the main loop.** -/
theorem leavesHeader_shellCalls {readings : Readings} {character : ℕ} {shell' : Shell}
    (hreturns : shellHandleCharacter shell readings character = .returns shell' calls) :
    LeavesHeader calls := by
  rcases shellCalls_below hreturns with hbelow | ⟨-, -, rfl⟩
  · exact hbelow.leavesHeader
  · intro uptimeSeconds hmem
    rcases List.mem_append.1 hmem with hmem | hmem
    · rcases List.mem_append.1 hmem with hmem | hmem
      · exact (belowHeader_append.2 ⟨belowHeader_consoleWriteChar _, belowHeader_consoleWriteChar _⟩) _
          hmem
      · exact ConsoleCall.noConfusion (List.mem_singleton.1 hmem)
    · exact belowHeader_shellPrompt _ hmem

/-- Calls that leave the header are calls of the terminal. -/
theorem LeavesHeader.performAll {g : Grid} (hleaves : LeavesHeader calls) (face : Face g) :
    face.performAll calls = { face with terminal := terminalRun face.terminal calls } := by
  induction calls generalizing face with
  | nil => rfl
  | cons call calls ih =>
    have hcall : face.perform call = { face with terminal := terminalStep face.terminal call } := by
      cases call with
      | updateHeader uptimeSeconds => exact absurd List.mem_cons_self (hleaves uptimeSeconds)
      | _ => rfl
    refine (ih (fun uptimeSeconds hmem => hleaves uptimeSeconds (List.mem_cons_of_mem _ hmem))
      (face.perform call)).trans ?_
    rw [hcall]
    rfl

/-! ## The UI without a mouse -/

theorem keyedIn_concat (events : List UiEvent) (event : UiEvent) :
    keyedIn (events ++ [event]) = UiEvent.keysIn (keyedIn events) event := List.foldl_concat _ _ _ _

theorem uptimeShown_concat (events : List UiEvent) (event : UiEvent) :
    uptimeShown (events ++ [event]) = UiEvent.uptimeAfter (uptimeShown events) event :=
  List.foldl_concat _ _ _ _

/-- A key is a character for the shell, or none. -/
theorem keyboardIrq_keysIn (keyed : ℕ × List (Readings × ℕ)) (readings : Readings) (scanCode : ℕ) :
    (∃ shift, UiEvent.keysIn keyed (.keyboardIrq readings scanCode) = (shift, keyed.2) ∧
      ∀ shell, keyboardIrq keyed.1 shell readings scanCode = (shift, .returns shell [])) ∨
    ∃ character, UiEvent.keysIn keyed (.keyboardIrq readings scanCode) =
        (keyed.1, keyed.2 ++ [(readings, character)]) ∧
      ∀ shell, keyboardIrq keyed.1 shell readings scanCode =
        (keyed.1, shellHandleCharacter shell readings character) := by
  unfold UiEvent.keysIn keyboardIrq
  dsimp only
  by_cases hpress : scanCode = 0x2a ∨ scanCode = 0x36
  · rw [if_pos hpress]
    refine Or.inl ⟨1, rfl, fun shell => ?_⟩
    rw [if_pos hpress]
  by_cases hrelease : scanCode = 0xaa ∨ scanCode = 0xb6
  · rw [if_neg hpress, if_pos hrelease]
    refine Or.inl ⟨0, rfl, fun shell => ?_⟩
    rw [if_neg hpress, if_pos hrelease]
  rw [if_neg hpress, if_neg hrelease]
  by_cases hnone : keyboardScancodeToCharacter keyed.1 scanCode = 0
  · rw [if_pos hnone]
    refine Or.inl ⟨keyed.1, rfl, fun shell => ?_⟩
    rw [if_neg hpress, if_neg hrelease, if_neg (not_not.2 hnone)]
  · rw [if_neg hnone]
    refine Or.inr ⟨_, rfl, fun shell => ?_⟩
    rw [if_neg hpress, if_neg hrelease, if_pos hnone]

/-- **A character displays the session's next face.** -/
theorem Displays.handleCharacter {console : Console} {uptimeSeconds character : ℕ}
    {readings : Readings} {shell' : Shell} (hd : Displays (session.face h uptimeSeconds) console)
    (hreturns : shellHandleCharacter session.shell readings character = .returns shell' calls) :
    Displays (Session.face ⟨shell', session.calls ++ calls⟩ h uptimeSeconds)
      (console.performAll calls) := by
  have hplain : Plain calls := by
    have hsession : Session.handleCharacter ⟨session.shell, []⟩ (readings, character) =
        some ⟨shell', calls⟩ := by
      unfold Session.handleCharacter
      dsimp only
      rw [hreturns]
      rfl
    exact Session.handleCharacter_plain plain_nil hsession
  have hface : Session.face ⟨shell', session.calls ++ calls⟩ h uptimeSeconds =
      (session.face h uptimeSeconds).performAll calls := by
    rw [(leavesHeader_shellCalls hreturns).performAll]
    unfold Session.face Session.terminal terminalRun
    dsimp only
    rw [List.foldl_append]
  rw [hface]
  exact hd.performAll hplain

/-- **What a step of the UI keeps.** -/
theorem TextUi.Follows.step (hf : ui.Follows h events session) (htyped : Typed shell events session)
    (hstep : ui.Steps event ui') : ∃ session', Typed shell (events ++ [event]) session' ∧
      ui'.Follows h (events ++ [event]) session' := by
  cases event with
  | keyboardIrq readings scanCode =>
    have huptime : uptimeShown (events ++ [.keyboardIrq readings scanCode]) = uptimeShown events :=
      uptimeShown_concat _ _
    unfold TextUi.Steps TextUi.step at hstep
    dsimp only at hstep
    rw [hf.shift] at hstep
    rcases keyboardIrq_keysIn (keyedIn events) readings scanCode with ⟨shift, hkeys, hirq⟩ |
      ⟨character, hkeys, hirq⟩
    · rw [← keyedIn_concat] at hkeys
      rw [hirq] at hstep
      cases hstep
      refine ⟨session, ?_, hf.shell, by rw [hkeys], by rw [huptime]; exact hf.displays⟩
      unfold Typed
      rw [hkeys]
      exact htyped
    · rw [← keyedIn_concat] at hkeys
      rw [hirq, hf.shell] at hstep
      rcases hreturns : shellHandleCharacter session.shell readings character with
        ⟨shell', calls⟩ | calls
      · rw [hreturns] at hstep
        cases hstep
        refine ⟨⟨shell', session.calls ++ calls⟩, ?_, rfl, by rw [hkeys], ?_⟩
        · unfold Typed
          rw [hkeys, Session.run_concat, htyped]
          unfold Session.handleCharacter
          dsimp only [Option.bind_some]
          rw [hreturns]
        · rw [huptime]
          exact hf.displays.handleCharacter hreturns
      · rw [hreturns] at hstep
        cases hstep
  | mouseIrq mouseByte =>
    cases hstep
    have hkeys : keyedIn (events ++ [.mouseIrq mouseByte]) = keyedIn events := keyedIn_concat _ _
    have huptime : uptimeShown (events ++ [.mouseIrq mouseByte]) = uptimeShown events :=
      uptimeShown_concat _ _
    unfold Typed
    rw [hkeys]
    exact ⟨session, htyped, hf.shell, by rw [hkeys]; exact hf.shift, by rw [huptime]; exact hf.displays⟩
  | updateHeader uptimeSeconds =>
    cases hstep
    have hkeys : keyedIn (events ++ [.updateHeader uptimeSeconds]) = keyedIn events :=
      keyedIn_concat _ _
    have huptime : uptimeShown (events ++ [.updateHeader uptimeSeconds]) = uptimeSeconds :=
      uptimeShown_concat _ _
    unfold Typed
    rw [hkeys]
    refine ⟨session, htyped, hf.shell, by rw [hkeys]; exact hf.shift, ?_⟩
    rw [huptime]
    have hcolor : ∀ color, ConsoleCall.updateHeader uptimeSeconds = .setTextColor color →
        color = 0x00ffffff := fun color heq => by cases heq
    exact hf.displays.perform hcolor

/-- **The UI starts with the prompt.** -/
theorem follows_boot (h : framebuffer.Roomy) (shell : Shell) (pixels : Pixels) :
    Typed shell [] (Session.boot shell) ∧
      (TextUi.boot shell framebuffer pixels).Follows h [] (Session.boot shell) := by
  refine ⟨rfl, rfl, rfl, ?_⟩
  have hinit : Displays _ (consoleInit (Console.atBoot framebuffer pixels) framebuffer) :=
    displays_init framebuffer h rfl rfl
  have hprompt := hinit.performAll plain_shellPrompt
  have hface : (Session.boot shell).face h (uptimeShown []) =
      Face.performAll ⟨Terminal.empty (contentGrid framebuffer h) ℕ, 0⟩ shellPrompt := by
    rw [belowHeader_shellPrompt.leavesHeader.performAll]
    unfold Session.face Session.terminal Session.boot uptimeShown
    dsimp only [List.foldl_nil]
  rw [hface]
  exact hprompt

/-! ## The cursor over it -/

/-- A key that is drawn beside the cursor leaves the words under it. -/
theorem Desktop.step_cover {readings : Readings} {scanCode : ℕ} (hfits : desktop.console.Fits)
    (hstep : desktop.UncoveredStep (.keyboardIrq readings scanCode) desktop') :
    ∀ k ∈ desktop.mouse.cover, desktop'.console.pixels k = desktop.console.pixels k := by
  obtain ⟨hmiss, hstep⟩ := hstep
  obtain ⟨ui, hui, rfl⟩ := Option.map_eq_some_iff.1 hstep
  unfold TextUi.step at hui
  dsimp only at hui
  rcases hirq : keyboardIrq desktop.keyboardShiftDown desktop.shell readings scanCode with
    ⟨shift, ⟨shell, calls⟩ | calls⟩
  · rw [hirq] at hui
    cases hui
    obtain ⟨pixels, hrun, -, hon, -⟩ := Console.performAll_off hfits (hmiss shift shell calls hirq)
      fun k _ => (rfl : desktop.console.pixels k = desktop.console.pixels k)
    have hsame : ({ desktop.console with pixels := desktop.console.pixels } : Console) =
        desktop.console := rfl
    rw [hsame] at hrun
    intro k hk
    rw [← hon k hk]
    dsimp only
    rw [hrun]
  · rw [hirq] at hui
    cases hui

/-- The desktop is the UI's picture with the cursor at the mouse. -/
structure TracksShown (desktop : Desktop) (ui : TextUi) : Prop extends Tracks desktop ui where
  shown : Shown desktop.mouse desktop.console.pixels ui.console.pixels

/-- **What a step keeps of the cursor.** -/
theorem TracksShown.step (ht : TracksShown desktop ui)
    (hfb : desktop.mouse.mouseFramebuffer.HoldsCursor)
    (hstep : desktop.UncoveredStep event desktop') : ∃ ui', ui.Steps event ui' ∧
      TracksShown desktop' ui' ∧ desktop'.mouse.mouseFramebuffer = desktop.mouse.mouseFramebuffer := by
  have hs := ht.shown
  obtain ⟨ui', hui, htracks⟩ := ht.toTracks.step hstep
  refine ⟨ui', hui, ?_⟩
  cases event with
  | keyboardIrq readings scanCode =>
    have hmouse : desktop'.mouse = desktop.mouse := Desktop.step_mouse hstep.2
    have hcover := Desktop.step_cover ht.fits hstep
    have hcovers := htracks.covers
    rw [hmouse] at hcovers
    refine ⟨⟨htracks, ?_⟩, by rw [hmouse]⟩
    rw [hmouse]
    exact ⟨hcovers, hs.visible, hs.placed, hs.here, fun k hk => (hcover k hk).trans (hs.drawn k hk)⟩
  | mouseIrq mouseByte =>
    obtain ⟨-, hdesktop⟩ := hstep
    cases hdesktop
    cases hui
    exact ⟨⟨htracks, hs.mouseIrq hfb mouseByte⟩, mouseIrq_framebuffer _ _ _⟩
  | updateHeader uptimeSeconds =>
    obtain ⟨-, hdesktop⟩ := hstep
    cases hdesktop
    obtain ⟨mouse, hmouse⟩ : ∃ mouse, mouse =
        (mouseHideCursor desktop.mouse desktop.console.pixels).1 := ⟨_, rfl⟩
    have hhidden : mouse = { desktop.mouse with mouseCursorVisible := 0 } := by
      rw [hmouse, mouseHideCursor_fst]
    have hplaced : mouse.Placed := by
      rw [hhidden]
      exact ⟨hs.placed.width, hs.placed.height, hs.placed.x, hs.placed.y⟩
    have hshow := shown_show (by rw [hhidden]) hplaced (consoleUpdateHeader { desktop.console with
      pixels := (mouseHideCursor desktop.mouse desktop.console.pixels).2 } uptimeSeconds).pixels
    rw [hmouse] at hshow
    refine ⟨⟨htracks, htracks.covers, hshow.visible, hshow.placed, hshow.here, hshow.drawn⟩, ?_⟩
    unfold Desktop.withMouse
    dsimp only
    unfold mouseShowCursor
    rw [← hmouse, hhidden]
    rfl

/-! ## Runs -/

theorem tracksShown_boot (h : framebuffer.Roomy) (hfb : framebuffer.HoldsCursor) (shell : Shell)
    (pixels : Pixels) :
    TracksShown (Desktop.boot shell framebuffer pixels) (TextUi.boot shell framebuffer pixels) := by
  have hframebuffer : (TextUi.boot shell framebuffer pixels).console.framebuffer = framebuffer :=
    (boot_shows h shell pixels).framebuffer_eq
  exact ⟨tracks_boot h shell pixels, shown_init hfb _⟩

/-- **The desktop is what its events make of it**, in runs in which no key
draws where the cursor is. -/
theorem run_follows (h : framebuffer.Roomy) (hfb : framebuffer.HoldsCursor) {pixels : Pixels}
    (hrun : Run Desktop.UncoveredStep (Desktop.boot shell framebuffer pixels) events desktop) :
    ∃ ui session, TracksShown desktop ui ∧ desktop.mouse.mouseFramebuffer = framebuffer ∧
      Typed shell events session ∧ ui.Follows h events session := by
  induction hrun with
  | nil =>
    obtain ⟨htyped, hfollows⟩ := follows_boot h shell pixels
    exact ⟨_, _, tracksShown_boot h hfb shell pixels, rfl, htyped, hfollows⟩
  | snoc _ hstep ih =>
    obtain ⟨ui, session, htracks, hframebuffer, htyped, hfollows⟩ := ih
    obtain ⟨ui', hui, htracks', hsame⟩ := htracks.step (by rwa [hframebuffer]) hstep
    obtain ⟨session', htyped', hfollows'⟩ := hfollows.step htyped hui
    exact ⟨ui', session', htracks', hsame.trans hframebuffer, htyped', hfollows'⟩

/-- **What a screen shows**: the cursor at the mouse, and beside it a face. -/
structure ScreenShows {framebuffer : Framebuffer} {h : framebuffer.Roomy} (mouse : Mouse)
    (face : Face (contentGrid framebuffer h)) (screen : Pixels) : Prop where
  cursor : ∀ q, framebuffer.Visible q →
    q ∈ rectangle mouse.mouseX.toNat mouse.mouseY.toNat 4 4 →
      framebuffer.picture screen q = mouseCursorColor
  face : ∀ q, framebuffer.Visible q →
    q ∉ rectangle mouse.mouseX.toNat mouse.mouseY.toNat 4 4 →
      framebuffer.picture screen q = face.picture framebuffer 0x00ffffff 0x00101018 q

/-- **Of the desktop it is the face of the session.** -/
theorem TracksShown.screenShows (ht : TracksShown desktop ui)
    (hframebuffer : desktop.mouse.mouseFramebuffer = framebuffer) (hfb : framebuffer.HoldsCursor)
    (hf : ui.Follows h events session) :
    ScreenShows desktop.mouse (session.face h (uptimeShown events)) desktop.console.pixels := by
  subst hframebuffer
  have hover := ht.shown.cursorOver hfb
  exact ⟨hover.inside, fun q hq hbeside => (hover.outside q hq hbeside).trans (hf.displays.picture hq)⟩

/-! ## Where no key draws over the cursor -/

/-- **A key misses a cursor that is above the text**, unless it has the screen
cleared. -/
theorem TracksShown.misses_above (ht : TracksShown desktop ui)
    (hframebuffer : desktop.mouse.mouseFramebuffer = framebuffer) (hfb : framebuffer.HoldsCursor)
    (hf : ui.Follows h events session) (habove : desktop.mouse.mouseY + 4 ≤ 56)
    (hclear : shellCommandIs desktop.shell "CLEAR" = false) (readings : Readings) (scanCode : ℕ) :
    desktop.Misses (.keyboardIrq readings scanCode) := by
  subst hframebuffer
  intro shift shell calls hirq
  obtain ⟨hsame, -, hY⟩ := ht.statics
  have hconsole : desktop.console.framebuffer = desktop.mouse.mouseFramebuffer :=
    hsame.trans hf.displays.framebuffer_eq
  have hbelow : 56 ≤ desktop.console.cursorY := by
    rw [hY, hf.displays.cursorY]
    exact Nat.le_add_right _ _
  have hcalls : BelowHeader calls := by
    rcases keyboardIrq_keysIn (desktop.keyboardShiftDown, []) readings scanCode with
      ⟨shift', -, hkey⟩ | ⟨character, -, hkey⟩
    · obtain ⟨-, hreturns⟩ := Prod.mk.inj ((hkey desktop.shell).symm.trans hirq)
      obtain ⟨-, rfl⟩ := ShellResult.returns.inj hreturns
      exact belowHeader_write []
    · obtain ⟨-, hreturns⟩ := Prod.mk.inj ((hkey desktop.shell).symm.trans hirq)
      rcases shellCalls_below hreturns with hbelow | ⟨-, hcleared, -⟩
      · exact hbelow
      · rw [hclear] at hcleared
        cases hcleared
  have hcover : desktop.mouse.cover ⊆ desktop.console.framebuffer.words {q | q.2 < 56} := by
    unfold Mouse.cover
    rw [if_neg ht.shown.visible, ht.shown.here.1, ht.shown.here.2, hconsole,
      ht.shown.placed.square_eq hfb]
    refine words_mono fun q hq => ?_
    have hrow := hq.2.2.2
    rw [Set.mem_ofPred_eq]
    omega
  exact (ht.fits.callsFootprint_below hbelow hcalls).mono_right hcover

end KbmOs
