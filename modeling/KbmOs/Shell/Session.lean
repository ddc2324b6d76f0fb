import KbmOs.Shell.Line
/-!
# Sessions of the shell

From `console_init` and `shell_init` on, the shell is given characters one
after the other. A session keeps the calls it has made, so the console and
the terminal it shows are what these calls make of an initial one.
-/

namespace KbmOs

/-- The shell, and the calls made since `console_init`. -/
structure Session where
  shell : Shell
  calls : List ConsoleCall

/-- What `kmain` starts. -/
def Session.boot (shell : Shell) : Session where
  shell := shellInit shell
  calls := shellPrompt

/-- The shell is given a character; nothing comes after `reboot`. -/
def Session.handleCharacter (session : Session) (input : Readings × ℕ) : Option Session :=
  match shellHandleCharacter session.shell input.1 input.2 with
  | .returns shell calls => some ⟨shell, session.calls ++ calls⟩
  | .reboots _ => none

def Session.run (session : Session) (inputs : List (Readings × ℕ)) : Option Session :=
  inputs.foldlM Session.handleCharacter session

/-- The statics of the console as the kernel image has them. -/
def Console.atBoot (framebuffer : Framebuffer) (pixels : Pixels) : Console where
  framebuffer := framebuffer
  pixels := pixels

variable {framebuffer : Framebuffer}

/-- The console after the session's calls. -/
def Session.console (session : Session) (framebuffer : Framebuffer) (pixels : Pixels) : Console :=
  (consoleInit (Console.atBoot framebuffer pixels) framebuffer).performAll session.calls

/-- The terminal after them. -/
def Session.terminal (session : Session) (h : framebuffer.Roomy) :
    Terminal (contentGrid framebuffer h) ℕ :=
  terminalRun (Terminal.empty (contentGrid framebuffer h) ℕ) session.calls

/-- The character comes from the keyboard. -/
def KeyboardProduces (character : ℕ) : Prop :=
  character ≠ 0 ∧ ∃ keyboardShiftDown scanCode,
    keyboardScancodeToCharacter keyboardShiftDown scanCode = character

/-- The session has just printed a prompt. -/
def Prompted (inputs : List (Readings × ℕ)) : Prop :=
  inputs = [] ∨ ∃ earlier readings, inputs = earlier ++ [(readings, '\n'.toNat)]

variable {shell : Shell} {readings : Readings} {session : Session} {character : ℕ}
variable {calls calls' : List ConsoleCall} {g : Grid} {t : Terminal g ℕ}

/-- **What the keyboard produces the console can draw**, Enter and backspace
apart. -/
theorem KeyboardProduces.editing (h : KeyboardProduces character)
    (hline : character ≠ '\n'.toNat) : Editing character := by
  obtain ⟨hne, shift, scan, rfl⟩ := h
  have hall : keyboardScancodeToCharacter shift scan = 0 ∨
      keyboardScancodeToCharacter shift scan = backspaceCharacter ∨
      (fontGetGlyph (keyboardScancodeToCharacter shift scan)).isSome ∨
      keyboardScancodeToCharacter shift scan = '\n'.toNat := by
    unfold keyboardScancodeToCharacter
    -- entry by entry of the table
    by_cases hshift : shift ≠ 0
    · simp only [if_pos hshift]
      split <;> decide
    · simp only [if_neg hshift]
      split <;> decide
  rcases hall with h0 | hback | hglyph | henter
  · exact absurd h0 hne
  · exact Or.inl hback
  · exact Or.inr ⟨hline, hglyph⟩
  · exact absurd henter hline

/-! ## Colours -/

/-- The calls write in the shell's colour. -/
def Plain (calls : List ConsoleCall) : Prop :=
  ∀ color, .setTextColor color ∈ calls → color = shellColorText

@[simp] theorem plain_append : Plain (calls ++ calls') ↔ Plain calls ∧ Plain calls' := by
  unfold Plain
  simp only [List.mem_append]
  exact ⟨fun h => ⟨fun c hc => h c (Or.inl hc), fun c hc => h c (Or.inr hc)⟩,
    fun h c hc => hc.elim (h.1 c) (h.2 c)⟩

@[simp] theorem plain_nil : Plain [] := fun _ h => absurd h List.not_mem_nil

@[simp] theorem plain_backspace : Plain [.backspace] := fun _ h =>
  ConsoleCall.noConfusion (List.mem_singleton.1 h)

@[simp] theorem plain_clear : Plain [.clear] := fun _ h =>
  ConsoleCall.noConfusion (List.mem_singleton.1 h)

@[simp] theorem plain_write (text : List ℕ) : Plain (text.map .writeCodepoint) := fun color h => by
  obtain ⟨c, -, hc⟩ := List.mem_map.1 h
  exact ConsoleCall.noConfusion hc

@[simp] theorem plain_writeCodepoint (c : ℕ) : Plain [.writeCodepoint c] := plain_write [c]

@[simp] theorem plain_consoleWriteChar (c : Char) : Plain (consoleWriteChar c) :=
  plain_write [c.toNat]

@[simp] theorem plain_consoleWrite (text : String) : Plain (consoleWrite text) := plain_write _

@[simp] theorem plain_consoleWriteHex (value : ℕ) : Plain (consoleWriteHex value) := by
  unfold consoleWriteHex
  rw [plain_append]
  refine ⟨plain_consoleWrite _, fun color h => ?_⟩
  obtain ⟨i, -, hi⟩ := List.mem_map.1 h
  exact ConsoleCall.noConfusion hi

@[simp] theorem plain_consoleWriteDecimal (value : ℕ) : Plain (consoleWriteDecimal value) := by
  unfold consoleWriteDecimal
  split
  · exact plain_consoleWriteChar _
  · exact plain_write _

@[simp] theorem plain_shellPrompt : Plain shellPrompt := by
  intro color h
  rcases List.mem_cons.1 h with heq | hmem
  · cases heq
    rfl
  · exact plain_consoleWrite _ color hmem

@[simp] theorem plain_memoryReport (readings : Readings) : Plain (memoryReport readings) := by
  unfold memoryReport
  simp only [plain_append, plain_consoleWrite, plain_consoleWriteHex,
    plain_consoleWriteDecimal, and_self]

@[simp] theorem plain_helpText : Plain helpText := by
  unfold helpText
  simp only [plain_append, plain_consoleWrite, and_self]

@[simp] theorem plain_echoText (shell : Shell) : Plain (echoText shell) := by
  unfold echoText
  rw [plain_append]
  refine ⟨?_, plain_consoleWriteChar _⟩
  split
  · exact plain_write _
  · exact plain_nil

/-! ## Lines -/

/-- **What Enter does**, unless it reboots: after a new line or a cleared
screen comes a prompt, and the line is empty. -/
theorem shellHandleCharacter_enter (shell : Shell) (readings : Readings) :
    (∃ calls, shellHandleCharacter shell readings '\n'.toNat = .reboots calls) ∨
    ∃ output last, (last = .writeCodepoint '\n'.toNat ∨ last = .clear) ∧
      Plain (output ++ [last]) ∧
      shellHandleCharacter shell readings '\n'.toNat =
        .returns (shellInit shell) (output ++ [last] ++ shellPrompt) := by
  have hfinish : ∀ output : List ConsoleCall, Plain output → ∃ output' last,
      (last = .writeCodepoint '\n'.toNat ∨ last = .clear) ∧ Plain (output' ++ [last]) ∧
      ShellResult.returns (shellInit shell) (consoleWriteChar '\n' ++ consoleWriteChar '\n' ++
        output ++ consoleWriteChar '\n' ++ shellPrompt) =
          .returns (shellInit shell) (output' ++ [last] ++ shellPrompt) := fun output hplain =>
    ⟨_, _, Or.inl rfl, by simp [hplain], rfl⟩
  -- the commands in the order in which they are compared
  unfold shellHandleCharacter
  rw [if_neg (by decide), if_pos rfl]
  dsimp only
  split
  · exact Or.inr (hfinish _ (by simp))
  split
  · exact Or.inr ⟨consoleWriteChar '\n' ++ consoleWriteChar '\n', .clear, Or.inr rfl, by simp, rfl⟩
  split
  · exact Or.inl ⟨_, rfl⟩
  split
  · exact Or.inr (hfinish (memoryReport readings) (plain_memoryReport readings))
  split
  · exact Or.inr (hfinish _ (by simp))
  split
  · exact Or.inr (hfinish _ (by simp))
  split
  · exact Or.inr (hfinish (echoText shell) (plain_echoText shell))
  split
  · exact Or.inr (hfinish helpText plain_helpText)
  · exact Or.inr (hfinish _ (by simp))

/-- **What any other character does.** -/
theorem shellHandleCharacter_edit (shell : Shell) (readings : Readings)
    (hline : character ≠ '\n'.toNat) :
    ∃ shell', shellHandleCharacter shell readings character =
        .returns shell' (editCalls shell.line character) ∧
      shell'.line = editLine shell.line character := by
  have hle := shell.length_le
  have hlength : shell.line.length = shell.currentBufferLength := by
    unfold Shell.line
    rw [List.length_take, Vector.length_toList]
    omega
  unfold shellHandleCharacter editCalls editLine
  by_cases hback : character = backspaceCharacter
  · rw [if_pos hback, if_pos hback, if_pos hback]
    by_cases hzero : shell.currentBufferLength = 0
    · have hnil : shell.line = [] := List.length_eq_zero_iff.1 (by omega)
      rw [if_neg (not_not.2 hzero), if_pos hnil, hnil]
      exact ⟨shell, rfl, hnil⟩
    · have hne : shell.line ≠ [] := by
        intro h
        rw [h, List.length_nil] at hlength
        omega
      rw [if_pos hzero, if_neg hne]
      refine ⟨_, rfl, ?_⟩
      unfold Shell.line
      rw [List.dropLast_take]
      rw [Vector.length_toList]
      omega
  · rw [if_neg hback, if_neg hback, if_neg hback, if_neg hline, hlength]
    -- the buffer keeps its last place for the zero
    by_cases hroom : shell.currentBufferLength < 63
    · rw [dif_pos hroom, if_pos hroom, if_pos hroom]
      refine ⟨_, rfl, ?_⟩
      unfold Shell.line
      dsimp only
      rw [Vector.toList_set, List.take_succ_eq_append_getElem (by simp; omega), List.take_set_of_le,
        List.getElem_set_self]
      exact le_rfl
    · rw [dif_neg hroom, if_neg hroom, if_neg hroom]
      exact ⟨shell, rfl, rfl⟩

/-! ## Runs -/

theorem Editing.ne_enter (h : Editing character) : character ≠ '\n'.toNat := by
  rcases h with rfl | ⟨hline, -⟩
  · decide
  · exact hline

theorem plain_editCalls (line : List ℕ) (character : ℕ) : Plain (editCalls line character) := by
  unfold editCalls
  split
  · split
    · exact plain_nil
    · exact plain_backspace
  · split
    · exact plain_writeCodepoint character
    · exact plain_nil

/-- What is typed into the line goes to the terminal too. -/
theorem Session.handleCharacter_edit (session : Session) (readings : Readings)
    (hline : character ≠ '\n'.toNat) : ∃ shell',
      session.handleCharacter (readings, character) =
        some ⟨shell', session.calls ++ editCalls session.shell.line character⟩ ∧
      shell'.line = editLine session.shell.line character := by
  obtain ⟨shell', hreturns, hline'⟩ := shellHandleCharacter_edit session.shell readings hline
  refine ⟨shell', ?_, hline'⟩
  unfold Session.handleCharacter
  rw [hreturns]

theorem Session.handleCharacter_plain {session' : Session} {input : Readings × ℕ}
    (hplain : Plain session.calls) (hstep : session.handleCharacter input = some session') :
    Plain session'.calls := by
  obtain ⟨readings, character⟩ := input
  by_cases hline : character = '\n'.toNat
  · subst hline
    unfold Session.handleCharacter at hstep
    rcases shellHandleCharacter_enter session.shell readings with ⟨calls, hreboots⟩ |
      ⟨output, last, -, hcalls, hreturns⟩
    · rw [hreboots] at hstep
      cases hstep
    · rw [hreturns] at hstep
      cases hstep
      exact plain_append.2 ⟨hplain, plain_append.2 ⟨hcalls, plain_shellPrompt⟩⟩
  · obtain ⟨shell', hreturns, -⟩ := session.handleCharacter_edit readings hline
    rw [hreturns] at hstep
    cases hstep
    exact plain_append.2 ⟨hplain, plain_editCalls _ _⟩

/-- A run of one more character. -/
theorem Session.run_concat (session : Session) (inputs : List (Readings × ℕ))
    (input : Readings × ℕ) : session.run (inputs ++ [input]) =
      (session.run inputs).bind fun session => session.handleCharacter input := by
  unfold Session.run
  rw [List.foldlM_append]
  refine congrArg _ (funext fun session => ?_)
  rw [List.foldlM_cons]
  cases session.handleCharacter input <;> rfl

theorem Session.run_plain {inputs : List (Readings × ℕ)} {session' : Session}
    (hplain : Plain session.calls) (hrun : session.run inputs = some session') :
    Plain session'.calls := by
  induction inputs using List.reverseRecOn generalizing session' with
  | nil =>
    cases hrun
    exact hplain
  | append_singleton inputs input ih =>
    rw [Session.run_concat] at hrun
    obtain ⟨middle, hmiddle, hstep⟩ := Option.bind_eq_some_iff.1 hrun
    exact Session.handleCharacter_plain (ih hmiddle) hstep

/-- **A prompt stands at the start of a row**, after it the line is empty. -/
theorem Session.prompted {history : List (Readings × ℕ)} (hprompt : Prompted history)
    (hrun : (Session.boot shell).run history = some session) :
    session.shell.line = [] ∧ ∃ before, session.calls = before ++ shellPrompt ∧
      ∀ {g : Grid} (t : Terminal g ℕ), t.col = 0 → (terminalRun t before).col = 0 := by
  rcases hprompt with rfl | ⟨earlier, readings, rfl⟩
  · -- at boot nothing came before the prompt; later it was a new line or a cleared screen
    cases hrun
    exact ⟨rfl, [], rfl, fun t ht => ht⟩
  · rw [Session.run_concat] at hrun
    obtain ⟨middle, -, hstep⟩ := Option.bind_eq_some_iff.1 hrun
    unfold Session.handleCharacter at hstep
    rcases shellHandleCharacter_enter middle.shell readings with ⟨calls, hreboots⟩ |
      ⟨output, last, hlast, -, hreturns⟩
    · rw [hreboots] at hstep
      cases hstep
    · rw [hreturns] at hstep
      cases hstep
      refine ⟨rfl, middle.calls ++ (output ++ [last]), (List.append_assoc _ _ _).symm,
        fun t _ => ?_⟩
      unfold terminalRun
      rw [← List.append_assoc, List.foldl_concat]
      rcases hlast with rfl | rfl
      · exact Terminal.newLine_col _
      · rfl

/-- **Characters typed at a prompt** edit the line of the shell and of the
terminal. -/
theorem Session.run_typed (hline : session.shell.line = []) {typed : List (Readings × ℕ)}
    (htyped : ∀ input ∈ typed, Editing input.2) : ∃ session' calls,
      session.run typed = some session' ∧ session'.calls = session.calls ++ calls ∧
      session'.shell.line = editedLine (typed.map Prod.snd) ∧
      ∀ {g : Grid} (t : Terminal g ℕ) (start : ℕ), 6 ≤ g.cols → start % g.cols = 0 →
        LineState t start [] → LineState (terminalRun t calls) start (typed.map Prod.snd) := by
  induction typed using List.reverseRecOn with
  | nil => exact ⟨session, [], rfl, (List.append_nil _).symm, hline, fun t start _ _ hs => hs⟩
  | append_singleton typed input ih =>
    obtain ⟨readings, character⟩ := input
    obtain ⟨middle, calls, hrun, hcalls, hmiddle, hstate⟩ := ih fun input hmem =>
      htyped input (List.mem_append_left _ hmem)
    have hediting : Editing character := htyped (readings, character)
      (List.mem_append_right _ List.mem_cons_self)
    obtain ⟨shell', hstep, hline'⟩ := middle.handleCharacter_edit readings hediting.ne_enter
    refine ⟨⟨shell', middle.calls ++ editCalls middle.shell.line character⟩,
      calls ++ editCalls middle.shell.line character, ?_, ?_, ?_, ?_⟩
    · rw [Session.run_concat, hrun]
      exact hstep
    · rw [hcalls, List.append_assoc]
    · rw [List.map_append, List.map_singleton, editedLine_concat, hline', hmiddle]
    · intro g t start hcols hstart hs
      have hafter := (hstate t start hcols hstart hs).step hcols hstart hediting
      rw [List.map_append, List.map_singleton, hmiddle]
      unfold terminalRun at hafter ⊢
      rwa [List.foldl_append]

/-- The prompt, at the start of a row. -/
theorem lineState_prompt (t : Terminal g ℕ) (hcols : 6 ≤ g.cols) (hcol : t.col = 0) :
    t.position % g.cols = 0 ∧ LineState (terminalRun t shellPrompt) t.position [] ∧
      (terminalRun t shellPrompt).position = t.position + 5 := by
  have hrun : terminalRun t shellPrompt = promptText.foldl Terminal.put t :=
    terminalRun_write t (by decide)
  have hreads := (t.reads_nil).putAll promptText
  have hstart : t.position % g.cols = 0 := by
    unfold Terminal.position
    rw [hcol, Nat.add_zero]
    exact Nat.mul_mod_left _ _
  have hcells : 6 ≤ g.rows * g.cols := le_trans hcols (Nat.le_mul_of_pos_left _ g.rows_pos)
  have hnone : ∀ {earlier later : List ℕ} {c : ℕ}, [] ≠ earlier ++ c :: later := fun h =>
    List.cons_ne_nil _ _ (List.append_eq_nil_iff.1 h.symm).2
  rw [List.nil_append] at hreads
  rw [hrun]
  refine ⟨hstart, Or.inl ⟨?_, hreads, ?_, iff_of_true ?_ ?_⟩, ?_⟩
  · rintro ⟨earlier, later, heq, -⟩
    exact hnone heq
  · refine iff_of_false (Terminal.put_col_ne_zero _ _) ?_
    rintro ⟨⟨earlier, heq⟩, -, -⟩
    exact hnone heq
  · -- the prompt is shorter than the row it starts, so it drives nothing away
    have hrow : t.position / g.cols * g.cols = t.position :=
      Nat.div_mul_cancel (Nat.dvd_of_mod_eq_zero hstart)
    have hkept : t.Kept t.position := by
      unfold Terminal.Kept
      rw [Terminal.position_div (by omega)]
      omega
    refine hkept.putAll ?_
    rw [Nat.add_mul, hrow, promptText_length]
    omega
  · intro earlier hearlier
    rw [List.prefix_nil.1 hearlier, promptText_length]
    exact le_trans (by decide) hcells
  · rw [hreads.position, promptText_length]

/-- **The screen shows what the shell will execute**, exactly until a
backspace is lost or the line outgrows the screen: after any history up to a
prompt and any characters typed at it, the cells from the prompt's first to
the cursor are all on the screen and read the prompt and the shell's line,
if and only if none of the backspaces came right after one that had left the
line ending at the end of a row, and prompt and line never were longer than
the cells of the content. -/
theorem shell_line_shown_iff (h : framebuffer.Roomy) (hwidth : 96 ≤ framebuffer.width)
    (pixels : Pixels) (shell : Shell) (history typed : List (Readings × ℕ)) (prompted : Session)
    (hprompt : Prompted history) (hhistory : (Session.boot shell).run history = some prompted)
    (htyped : ∀ input ∈ typed, KeyboardProduces input.2 ∧ input.2 ≠ '\n'.toNat) :
    ∃ session, prompted.run typed = some session ∧
      Shows (session.terminal h) (session.console framebuffer pixels) ∧
      ((session.terminal h).Displays ((prompted.terminal h).position - 5)
          (promptText ++ session.shell.line) ↔
        ¬ LosesBackspace (framebuffer.width / 16) (typed.map Prod.snd) ∧
          Fits ((framebuffer.height - 56) / 16 * (framebuffer.width / 16))
            (typed.map Prod.snd)) := by
  obtain ⟨hline, before, hbefore, hcol⟩ := Session.prompted hprompt hhistory
  obtain ⟨session, calls, hrun, hcalls, hline', hstate⟩ := Session.run_typed hline
    fun input hmem => (htyped input hmem).1.editing (htyped input hmem).2
  have hplain := Session.run_plain (Session.run_plain plain_shellPrompt hhistory) hrun
  have hshows := (shows_init (Console.atBoot framebuffer pixels) h).performAll fun color hmem =>
    (hplain color hmem).trans rfl
  refine ⟨session, hrun, hshows.1, ?_⟩
  have hcols : 6 ≤ (contentGrid framebuffer h).cols := by
    change 6 ≤ framebuffer.width / 16
    omega
  obtain ⟨hstart, hline0, hposition⟩ := lineState_prompt
    (terminalRun (Terminal.empty (contentGrid framebuffer h) ℕ) before) hcols (hcol _ rfl)
  have hprompted : prompted.terminal h = terminalRun
      (terminalRun (Terminal.empty (contentGrid framebuffer h) ℕ) before) shellPrompt := by
    unfold Session.terminal
    rw [hbefore]
    exact List.foldl_append
  have hterminal : session.terminal h = terminalRun (prompted.terminal h) calls := by
    unfold Session.terminal
    rw [hcalls]
    exact List.foldl_append
  have hafter := hstate _ _ hcols hstart hline0
  rw [← hprompted] at hposition hafter
  rw [hposition, Nat.add_sub_cancel, hterminal, hline']
  have hsome : promptText ++ editedLine (typed.map Prod.snd) ≠ [] := by
    intro hnil
    have hlength := congrArg List.length hnil
    rw [List.length_append, promptText_length, List.length_nil] at hlength
    omega
  rw [Terminal.displays_iff hsome]
  rcases hafter with ⟨hkeeps, hreads, -, hkept⟩ | ⟨hlost, hfar⟩
  · rw [hkept, and_iff_right hreads]
    exact (and_iff_right hkeeps).symm
  · refine iff_of_false (fun hshown => ?_) fun hkeeps => hkeeps.1 hlost
    have hcursor := hshown.1.position
    omega

/-- A machine that reports nothing. -/
def idleReadings : Readings := ⟨0, 0, 0, 0, 0, 0⟩

/-- Characters typed on it. -/
def idleInputs (characters : List ℕ) : List (Readings × ℕ) :=
  characters.map fun character => (idleReadings, character)

/-- **Two letters and two backspaces on six columns**: the second letter
wraps, the first backspace erases it, the second erases the first letter in
the buffer and not on the screen. -/
theorem shell_line_not_shown : ∃ session,
    (Session.boot Shell.atBoot).run (idleInputs
      ['A'.toNat, 'A'.toNat, backspaceCharacter, backspaceCharacter]) = some session ∧
    Shows (session.terminal sampleFramebuffer_roomy)
      (session.console sampleFramebuffer fun _ => 0) ∧
    session.shell.line = [] ∧
    (session.terminal sampleFramebuffer_roomy).cells 0 5 = some 'A'.toNat ∧
    ¬ (session.terminal sampleFramebuffer_roomy).Displays
      (((Session.boot Shell.atBoot).terminal sampleFramebuffer_roomy).position - 5)
      (promptText ++ session.shell.line) := by
  refine ⟨_, rfl, ?_, rfl, rfl, fun hshown => ?_⟩
  · refine ((shows_init (Console.atBoot sampleFramebuffer fun _ => 0)
      sampleFramebuffer_roomy).performAll fun color hmem => ?_).1
    have hplain : Plain _ := Session.run_plain plain_shellPrompt
      (rfl : (Session.boot Shell.atBoot).run (idleInputs
        ['A'.toNat, 'A'.toNat, backspaceCharacter, backspaceCharacter]) = some _)
    exact hplain color hmem
  · have hcursor := hshown.position
    revert hcursor
    decide

/-- On a single row of six columns the second letter is one too many. -/
example : ∃ session, (Session.boot Shell.atBoot).run (idleInputs ['A'.toNat, 'A'.toNat]) =
      some session ∧
    session.shell.line = ['A'.toNat, 'A'.toNat] ∧
    (terminalRun (Terminal.empty ⟨1, 6, by decide, by decide⟩ ℕ) session.calls).cells 0 0 =
      some 'A'.toNat ∧
    ¬ (terminalRun (Terminal.empty ⟨1, 6, by decide, by decide⟩ ℕ) session.calls).Kept 0 :=
  ⟨_, rfl, rfl, rfl, by
    unfold Terminal.Kept
    decide⟩

/-- Three letters, the last of them erased, and one more. -/
def sampleKeys : List ℕ :=
  ['A'.toNat, 'B'.toNat, 'C'.toNat, backspaceCharacter, 'D'.toNat]

theorem sampleKeys_produced : ∀ input ∈ idleInputs sampleKeys,
    KeyboardProduces input.2 ∧ input.2 ≠ '\n'.toNat := by
  intro input hmem
  obtain ⟨character, hkey, rfl⟩ := List.mem_map.1 hmem
  have hscan : ∀ character ∈ sampleKeys, ∃ scanCode ∈ [0x1e, 0x30, 0x2e, 0x0e, 0x20],
      keyboardScancodeToCharacter 0 scanCode = character ∧ character ≠ 0 ∧
        character ≠ '\n'.toNat := by decide
  obtain ⟨scanCode, -, hproduced, hne, hline⟩ := hscan character hkey
  exact ⟨⟨hne, 0, scanCode, hproduced⟩, hline⟩

/-- The line wraps behind the prompt and the first letter, and is shown. -/
theorem shell_line_shown_iff_sampleFramebuffer : ∃ session,
    (Session.boot Shell.atBoot).run (idleInputs sampleKeys) = some session ∧
    Shows (session.terminal sampleFramebuffer_roomy)
      (session.console sampleFramebuffer fun _ => 0) ∧
    session.shell.line = ['A'.toNat, 'B'.toNat, 'D'.toNat] ∧
    (session.terminal sampleFramebuffer_roomy).Displays
      (((Session.boot Shell.atBoot).terminal sampleFramebuffer_roomy).position - 5)
      (promptText ++ session.shell.line) := by
  obtain ⟨session, hrun, hshows, hshown⟩ := shell_line_shown_iff sampleFramebuffer_roomy
    (by decide) (fun _ => 0) Shell.atBoot [] (idleInputs sampleKeys) (Session.boot Shell.atBoot)
    (Or.inl rfl) rfl sampleKeys_produced
  have hline : session.shell.line = ['A'.toNat, 'B'.toNat, 'D'.toNat] := by
    cases hrun
    rfl
  refine ⟨session, hrun, hshows, hline, hshown.2 ⟨?_, ?_⟩⟩
  · decide
  · decide

end KbmOs
