import KbmOs.Console.Numbers
import KbmOs.Shell.Accesses
/-!
# What a line does

`commandOf` says which command a line asks for, of the line alone, and
`answer` what the console is then to be given, character by character. Enter
takes that branch and answers so in every state a run of the shell reaches,
whatever is left in the buffer of earlier lines and of what was erased, and
no access of the run is outside the buffer.
-/

namespace KbmOs

open Positional

/-! ## Lines and commands -/

/-- The commands that are a name and nothing else. -/
def Command.name : Command → Option String
  | .kocaeli => some "KOCAELI"
  | .clear => some "CLEAR"
  | .reboot => some "REBOOT"
  | .mem => some "MEM"
  | .ticks => some "TICKS"
  | .uptime => some "UPTIME"
  | .help => some "HELP"
  | .echo => none
  | .unknown => none

/-- The command a line asks for. -/
def commandOf (line : List ℕ) : Command :=
  if line = letters "KOCAELI" then .kocaeli
  else if line = letters "CLEAR" then .clear
  else if line = letters "REBOOT" then .reboot
  else if line = letters "MEM" then .mem
  else if line = letters "TICKS" then .ticks
  else if line = letters "UPTIME" then .uptime
  else if BeginsWord (letters "ECHO") line then .echo
  else if line = letters "HELP" then .help
  else .unknown

/-! ## Answers -/

/-- The characters of a number in decimal … -/
def decimalText (value : ℕ) : List ℕ := (writtenDigits value).map ('0'.toNat + ·)

/-- … and in sixteen hexadecimal digits. -/
def hexText (value : ℕ) : List ℕ :=
  letters "0X" ++ (lowDigits 16 16 value).map fun d =>
    if d < 10 then '0'.toNat + d else 'A'.toNat + (d - 10)

/-- **The characters a command answers with**, of what the kernel reports
and, for `ECHO`, of the line. -/
def answerText (readings : Readings) (line : List ℕ) : Command → List ℕ
  | .kocaeli => letters "BELEDİYE MÜZESİ\n"
  | .clear => []
  | .reboot => letters "REBOOTING...\n"
  | .mem =>
    letters "MEMORY:\n" ++
    letters "TOTAL_FRAMES: " ++ decimalText readings.pmmGetFrameCount ++ letters "\n" ++
    letters "FREE_FRAMES: " ++ decimalText readings.pmmGetFreeFrameCount ++ letters "\n" ++
    letters "FREE_MEMORY_KIB: " ++ hexText (wrap (readings.pmmGetFreeFrameCount * 4)) ++
    letters "\n" ++
    letters "\nHEAP:\n" ++
    letters "HEAP_FRAMES: " ++ hexText readings.heapGetFrameCount ++ letters "\n" ++
    letters "HEAP_USED_BYTES: " ++ hexText readings.heapGetUsedBytes ++ letters "\n" ++
    letters "\nPMM_METADATA:\n" ++
    letters "BITMAP_BYTES: " ++ hexText readings.pmmGetBitmapByteCount ++ letters "\n"
  | .ticks => letters "TICKS: " ++ decimalText readings.timerGetTicks ++ letters "\n"
  | .uptime =>
    letters "UPTIME: " ++ decimalText (readings.timerGetTicks / 100) ++ letters " SECONDS\n"
  | .echo => line.drop 5 ++ letters "\n"
  | .help => letters "COMMANDS:\nHELP\nCLEAR\nREBOOT\nMEM\nTICKS\nUPTIME\nECHO <TEXT>\n"
  | .unknown => letters "UNKNOWN COMMAND\n"

/-- A text on the console. -/
def written (text : List ℕ) : List ConsoleCall := text.map .writeCodepoint

/-- The prompt, in white. -/
def promptCalls : List ConsoleCall := .setTextColor 0x00FFFFFF :: written (letters "kbm> ")

/-- **What Enter makes the console do**: two new lines and the answer, then
another new line, or for `CLEAR` an empty screen, and the prompt. -/
def answer (readings : Readings) (line : List ℕ) (command : Command) : List ConsoleCall :=
  written (letters "\n\n" ++ answerText readings line command) ++
    match command with
    | .clear => .clear :: promptCalls
    | .reboot => []
    | _ => written (letters "\n") ++ promptCalls

/-- The line is empty then, unless the machine reboots. -/
def answered (shell : Checked.Shell) (readings : Readings) (line : List ℕ) (command : Command) :
    Checked.ShellResult :=
  if command = .reboot then .reboots (answer readings line command)
  else .returns { shell with currentBufferLength := 0 } (answer readings line command)

/-- **What Enter is to do on a line**: a command is run exactly when the
line asks for it, and what it makes the console do is its answer; `ECHO`
writes the line from its sixth character on, and a line that asks for no
command is told so. The next line is empty unless the machine reboots. -/
structure Dispatches (shell : Checked.Shell) (readings : Readings) (line : List ℕ) : Prop where
  fixed : ∀ command name, Command.name command = some name →
    (Checked.enteredCommand shell = some command ↔ line = letters name)
  echo : Checked.enteredCommand shell = some .echo ↔ BeginsWord (letters "ECHO") line
  unknown : Checked.enteredCommand shell = some .unknown ↔
    (∀ command name, Command.name command = some name → line ≠ letters name) ∧
      ¬ BeginsWord (letters "ECHO") line
  ran : ∃ command, Checked.enteredCommand shell = some command ∧
    Checked.shellHandleCharacter shell readings '\n'.toNat =
      some (answered shell readings line command)
  echoed : BeginsWord (letters "ECHO") line →
    Checked.shellHandleCharacter shell readings '\n'.toNat =
      some (.returns { shell with currentBufferLength := 0 }
        (written (letters "\n\n" ++ line.drop 5 ++ letters "\n\n") ++ promptCalls))
  refused : (∀ command name, Command.name command = some name → line ≠ letters name) →
    ¬ BeginsWord (letters "ECHO") line →
      Checked.shellHandleCharacter shell readings '\n'.toNat =
        some (.returns { shell with currentBufferLength := 0 }
          (written (letters "\n\nUNKNOWN COMMAND\n\n") ++ promptCalls))
  next : Checked.enteredCommand shell ≠ some .reboot → ∃ shell' calls,
    Checked.shellHandleCharacter shell readings '\n'.toNat = some (.returns shell' calls) ∧
      shell'.currentBufferLength = 0

variable {line : List ℕ} {command : Command} {name : String}

/-- **The command of a line**, by kind. -/
theorem commandOf_cases (line : List ℕ) :
    (∃ name, (commandOf line).name = some name ∧ line = letters name) ∨
    (commandOf line = .echo ∧ BeginsWord (letters "ECHO") line) ∨
    commandOf line = .unknown ∧ (∀ command name, Command.name command = some name →
      line ≠ letters name) ∧ ¬ BeginsWord (letters "ECHO") line := by
  unfold commandOf
  split
  · rename_i h
    exact Or.inl ⟨_, rfl, h⟩
  rename_i hkocaeli
  split
  · rename_i h
    exact Or.inl ⟨_, rfl, h⟩
  rename_i hclear
  split
  · rename_i h
    exact Or.inl ⟨_, rfl, h⟩
  rename_i hreboot
  split
  · rename_i h
    exact Or.inl ⟨_, rfl, h⟩
  rename_i hmem
  split
  · rename_i h
    exact Or.inl ⟨_, rfl, h⟩
  rename_i hticks
  split
  · rename_i h
    exact Or.inl ⟨_, rfl, h⟩
  rename_i huptime
  split
  · rename_i h
    exact Or.inr (Or.inl ⟨rfl, h⟩)
  rename_i hecho
  split
  · rename_i h
    exact Or.inl ⟨_, rfl, h⟩
  rename_i hhelp
  refine Or.inr (Or.inr ⟨rfl, fun command name hname => ?_, hecho⟩)
  cases command with
  | kocaeli =>
    cases hname
    exact hkocaeli
  | clear =>
    cases hname
    exact hclear
  | reboot =>
    cases hname
    exact hreboot
  | mem =>
    cases hname
    exact hmem
  | ticks =>
    cases hname
    exact hticks
  | uptime =>
    cases hname
    exact huptime
  | help =>
    cases hname
    exact hhelp
  | echo => cases hname
  | unknown => cases hname

/-- A name asks for its command … -/
theorem commandOf_letters (h : command.name = some name) : commandOf (letters name) = command := by
  cases command <;> cases h <;> decide

/-- … and none of them is `ECHO`'s. -/
theorem not_beginsWord_letters (h : command.name = some name) :
    ¬ BeginsWord (letters "ECHO") (letters name) := by
  cases command <;> cases h <;> decide

theorem commandOf_eq_fixed (h : command.name = some name) :
    commandOf line = command ↔ line = letters name := by
  constructor
  · rintro rfl
    rcases commandOf_cases line with ⟨name', hname', hline⟩ | ⟨hecho, -⟩ | ⟨hunknown, -⟩
    · rw [h, Option.some_inj] at hname'
      rw [hline, hname']
    · rw [hecho] at h
      cases h
    · rw [hunknown] at h
      cases h
  · rintro rfl
    exact commandOf_letters h

theorem commandOf_eq_echo : commandOf line = .echo ↔ BeginsWord (letters "ECHO") line := by
  rcases commandOf_cases line with ⟨name, hname, rfl⟩ | h | ⟨hunknown, -, hword⟩
  · refine iff_of_false (fun hecho => ?_) (not_beginsWord_letters hname)
    rw [hecho] at hname
    cases hname
  · exact iff_of_true h.1 h.2
  · refine iff_of_false (fun hecho => ?_) hword
    rw [hecho] at hunknown
    cases hunknown

theorem commandOf_eq_unknown : commandOf line = .unknown ↔
    (∀ command name, Command.name command = some name → line ≠ letters name) ∧
      ¬ BeginsWord (letters "ECHO") line := by
  rcases commandOf_cases line with ⟨name, hname, rfl⟩ | h | ⟨hunknown, hrest⟩
  · refine iff_of_false (fun hunknown => ?_) fun hnone => hnone.1 _ name hname rfl
    rw [hunknown] at hname
    cases hname
  · refine iff_of_false (fun hunknown => ?_) fun hnone => hnone.2 h.2
    rw [h.1] at hunknown
    cases hunknown
  · exact iff_of_true hunknown hrest

/-! ## Enter -/

/-- The command's names as the comparisons get them. -/
theorem cString_letters : ∀ name ∈ ["KOCAELI", "CLEAR", "REBOOT", "MEM", "TICKS", "UPTIME", "ECHO",
    "HELP"], cString name = letters name ++ [0] ∧ 0 ∉ letters name := by
  decide

/-- **The branch Enter takes is found on the line alone.** -/
theorem enteredCommand_eq {shell : Checked.Shell} (hfits : shell.currentBufferLength ≤ 64) :
    Checked.enteredCommand shell = some (commandOf shell.line) := by
  have his : ∀ name ∈ ["KOCAELI", "CLEAR", "REBOOT", "MEM", "TICKS", "UPTIME", "ECHO", "HELP"],
      Checked.shellCommandIs shell name = some (decide (shell.line = letters name)) :=
    fun name hname => Checked.shellCommandIs_eq hfits (cString_letters name hname).1
      (cString_letters name hname).2
  have hstarts := Checked.shellCommandStartsWith_eq hfits (cString_letters "ECHO" (by decide)).1
    (cString_letters "ECHO" (by decide)).2
  unfold Checked.enteredCommand commandOf
  rw [his "KOCAELI" (by decide), his "CLEAR" (by decide), his "REBOOT" (by decide),
    his "MEM" (by decide), his "TICKS" (by decide), his "UPTIME" (by decide), hstarts,
    his "HELP" (by decide)]
  simp only [Checked.firstOf_cons, decide_eq_true_eq, apply_ite some]
  rfl

theorem runCommand_eq {shell : Checked.Shell} (hfits : shell.currentBufferLength ≤ 64)
    (readings : Readings) (command : Command) :
    Checked.runCommand shell readings command = some
      (Checked.commandResult shell readings ((shell.line.drop 5).map .writeCodepoint) command) := by
  unfold Checked.runCommand
  by_cases hecho : command = .echo
  · by_cases hlong : shell.currentBufferLength > 4
    · rw [if_pos ⟨hecho, hlong⟩, Checked.Shell.echoFrom_eq hfits]
      rfl
    · have hnil : shell.line.drop 5 = [] := by
        refine List.drop_eq_nil_of_le ?_
        rw [Checked.Shell.line_length hfits]
        omega
      rw [if_neg fun h => hlong h.2, hnil]
      rfl
  · -- no other branch looks at what was read
    rw [if_neg fun h => hecho h.1]
    cases command with
    | echo => exact absurd rfl hecho
    | _ => rfl

theorem written_append (text text' : List ℕ) : written (text ++ text') = written text ++ written text' :=
  List.map_append

/-- The texts the shell hands to `console_write`. -/
def shellTexts : List String := ["kbm> ", "BELEDİYE MÜZESİ\n", "REBOOTING...\n", "MEMORY:\n",
  "TOTAL_FRAMES: ", "FREE_FRAMES: ", "FREE_MEMORY_KIB: ", "\nHEAP:\n", "HEAP_FRAMES: ",
  "HEAP_USED_BYTES: ", "\nPMM_METADATA:\n", "BITMAP_BYTES: ", "TICKS: ", "UPTIME: ", " SECONDS\n",
  "COMMANDS:\n", "HELP\n", "CLEAR\n", "REBOOT\n", "MEM\n", "TICKS\n", "UPTIME\n", "ECHO <TEXT>\n",
  "UNKNOWN COMMAND\n", "\n", "0X"]

theorem consoleWrite_letters (text : String) (h : text ∈ shellTexts) :
    consoleWrite text = written (letters text) := by
  have hdecode : ∀ text ∈ shellTexts, decodeText (cString text) = letters text := by decide
  exact congrArg written (hdecode text h)

theorem consoleWriteDecimal_written (value : ℕ) :
    consoleWriteDecimal value = written (decimalText value) := by
  unfold written decimalText
  rw [consoleWriteDecimal_eq, List.map_map]
  rfl

theorem consoleWriteHex_written (value : ℕ) : consoleWriteHex value = written (hexText value) := by
  have hcharacter : ∀ d, d < 16 → (cString "0123456789ABCDEF").getD d 0 =
      if d < 10 then '0'.toNat + d else 'A'.toNat + (d - 10) := by decide
  have hdigits : (lowDigits 16 16 value).map ((cString "0123456789ABCDEF").getD · 0) =
      (lowDigits 16 16 value).map fun d => if d < 10 then '0'.toNat + d else 'A'.toNat + (d - 10) :=
    List.map_congr_left fun d hd => hcharacter d (lowDigits_lt (by decide) hd)
  unfold hexText
  rw [consoleWriteHex_eq, written_append, hdigits, consoleWrite_letters "0X" (by decide)]
  rfl

theorem shellPrompt_eq : shellPrompt = promptCalls := by
  unfold shellPrompt
  rw [consoleWrite_letters "kbm> " (by decide)]
  rfl

/-- What `MEM` writes is its answer … -/
theorem memoryReport_eq (readings : Readings) (line : List ℕ) :
    memoryReport readings = written (answerText readings line .mem) := by
  have htext := consoleWrite_letters
  simp only [shellTexts, List.forall_mem_cons] at htext
  unfold memoryReport answerText
  simp only [written_append, consoleWriteDecimal_written, consoleWriteHex_written, htext]

/-- … and what `HELP` does. -/
theorem helpText_eq (readings : Readings) (line : List ℕ) :
    helpText = written (answerText readings line .help) := by
  have htext := consoleWrite_letters
  simp only [shellTexts, List.forall_mem_cons] at htext
  unfold helpText
  simp only [htext]
  rfl

variable {shell : Checked.Shell} {readings : Readings}

/-- Most commands end in a new line and the prompt. -/
theorem answered_eq (hclear : command ≠ .clear) (hreboot : command ≠ .reboot) :
    answered shell readings line command = .returns (Checked.shellInit shell)
      (consoleWriteChar '\n' ++ consoleWriteChar '\n' ++ written (answerText readings line command) ++
        consoleWriteChar '\n' ++ shellPrompt) := by
  unfold answered answer
  rw [if_neg hreboot, shellPrompt_eq, written_append]
  cases command with
  | clear => exact absurd rfl hclear
  | reboot => exact absurd rfl hreboot
  | _ => exact congrArg (Checked.ShellResult.returns _) (List.append_assoc _ _ _).symm

/-- **Every branch gives its answer.** -/
theorem commandResult_eq (shell : Checked.Shell) (readings : Readings) (line : List ℕ)
    (command : Command) :
    Checked.commandResult shell readings ((line.drop 5).map .writeCodepoint) command =
      answered shell readings line command := by
  cases command with
  | kocaeli =>
    rw [answered_eq (by decide) (by decide)]
    unfold answerText
    rw [← consoleWrite_letters _ (by decide)]
    rfl
  | clear =>
    unfold Checked.commandResult
    rw [shellPrompt_eq]
    rfl
  | reboot =>
    unfold answered answer answerText
    rw [written_append, ← consoleWrite_letters "REBOOTING...\n" (by decide)]
    rfl
  | mem =>
    rw [answered_eq (by decide) (by decide), ← memoryReport_eq]
    rfl
  | ticks =>
    rw [answered_eq (by decide) (by decide)]
    unfold answerText
    rw [written_append, written_append, ← consoleWriteDecimal_written,
      ← consoleWrite_letters "TICKS: " (by decide), ← consoleWrite_letters "\n" (by decide)]
    rfl
  | uptime =>
    rw [answered_eq (by decide) (by decide)]
    unfold answerText
    rw [written_append, written_append, ← consoleWriteDecimal_written,
      ← consoleWrite_letters "UPTIME: " (by decide), ← consoleWrite_letters " SECONDS\n" (by decide)]
    rfl
  | echo =>
    rw [answered_eq (by decide) (by decide)]
    unfold answerText
    rw [written_append]
    rfl
  | help =>
    rw [answered_eq (by decide) (by decide), ← helpText_eq]
    rfl
  | unknown =>
    rw [answered_eq (by decide) (by decide)]
    unfold answerText
    rw [← consoleWrite_letters _ (by decide)]
    rfl

/-- **Enter does what the line asks for.** -/
theorem dispatches_line {shell : Checked.Shell} (hfits : shell.currentBufferLength ≤ 64)
    (readings : Readings) : Dispatches shell readings shell.line := by
  have hentered := enteredCommand_eq hfits
  have hran : Checked.shellHandleCharacter shell readings '\n'.toNat =
      some (answered shell readings shell.line (commandOf shell.line)) := by
    unfold Checked.shellHandleCharacter
    rw [if_neg (by decide), if_pos rfl, hentered, Option.bind_some, runCommand_eq hfits,
      commandResult_eq]
  refine ⟨fun command name hname => ?_, ?_, ?_, ⟨_, hentered, hran⟩, fun hecho => ?_,
    fun hnone hword => ?_, fun hreboot => ?_⟩
  · rw [hentered, Option.some_inj]
    exact commandOf_eq_fixed hname
  · rw [hentered, Option.some_inj]
    exact commandOf_eq_echo
  · rw [hentered, Option.some_inj]
    exact commandOf_eq_unknown
  · have hcalls : answer readings shell.line .echo =
        written (letters "\n\n" ++ shell.line.drop 5 ++ letters "\n\n") ++ promptCalls := by
      unfold answer answerText
      simp only [written_append, List.append_assoc]
      rfl
    rw [hran, commandOf_eq_echo.2 hecho, ← hcalls]
    rfl
  · rw [hran, commandOf_eq_unknown.2 ⟨hnone, hword⟩]
    rfl
  · rw [hran]
    rw [hentered, ne_eq, Option.some_inj] at hreboot
    unfold answered
    rw [if_neg hreboot]
    exact ⟨_, _, rfl, rfl⟩

/-! ## Runs -/

variable {shell : Shell} {readings : Readings} {inputs typed history : List (Readings × ℕ)}

/-- **No access of a run fails**, and the length fits in every state. -/
theorem shellRun_statics (shell : Shell) (inputs : List (Readings × ℕ)) :
    ∃ last : Option Shell,
      Checked.shellRun shell.statics inputs = some (last.map Shell.statics) := by
  induction inputs generalizing shell with
  | nil => exact ⟨some shell, rfl⟩
  | cons input inputs ih =>
    obtain ⟨readings, character⟩ := input
    unfold Checked.shellRun
    rw [shellHandleCharacter_statics, Option.bind_eq_bind, Option.bind_some]
    cases shellHandleCharacter shell readings character with
    | returns shell calls => exact ih shell
    | reboots calls => exact ⟨none, rfl⟩

/-- A run in two parts; nothing comes after `reboot`. -/
theorem shellRun_append (first : Checked.Shell) (history inputs : List (Readings × ℕ)) :
    Checked.shellRun first (history ++ inputs) = (Checked.shellRun first history).bind fun last =>
      last.elim (some none) fun middle => Checked.shellRun middle inputs := by
  induction history generalizing first with
  | nil => rfl
  | cons input history ih =>
    obtain ⟨readings, character⟩ := input
    rw [List.cons_append, Checked.shellRun, Checked.shellRun]
    cases Checked.shellHandleCharacter first readings character with
    | none => rfl
    | some result =>
      cases result with
      | reboots calls => rfl
      | returns shell calls => exact ih shell

/-- What is typed edits the line. -/
theorem shellRun_typed (htyped : ∀ input ∈ typed, input.2 ≠ '\n'.toNat) (shell : Shell) :
    ∃ shell' : Shell, Checked.shellRun shell.statics typed = some (some shell'.statics) ∧
      shell'.line = (typed.map Prod.snd).foldl editLine shell.line := by
  induction typed generalizing shell with
  | nil => exact ⟨shell, rfl, rfl⟩
  | cons input typed ih =>
    obtain ⟨readings, character⟩ := input
    have hcharacter : character ≠ '\n'.toNat := htyped (readings, character) List.mem_cons_self
    obtain ⟨middle, hreturns, hmiddle⟩ := shellHandleCharacter_edit shell readings hcharacter
    obtain ⟨shell', hrun, hline⟩ := ih
      (fun input hinput => htyped input (List.mem_cons_of_mem _ hinput)) middle
    refine ⟨shell', ?_, ?_⟩
    · unfold Checked.shellRun
      rw [shellHandleCharacter_statics, hreturns]
      exact hrun
    · rw [hline, hmiddle]
      rfl

/-- At a prompt the line is empty. -/
theorem shellRun_prompted (hprompt : Prompted history) {boot : Shell} (hboot : boot.line = [])
    {prompted : Checked.Shell}
    (hrun : Checked.shellRun boot.statics history = some (some prompted)) :
    ∃ shell : Shell, prompted = shell.statics ∧ shell.line = [] := by
  rcases hprompt with rfl | ⟨earlier, readings, rfl⟩
  · cases hrun
    exact ⟨boot, rfl, hboot⟩
  obtain ⟨last, hlast⟩ := shellRun_statics boot earlier
  rw [shellRun_append, hlast, Option.bind_some] at hrun
  cases last with
  | none => cases hrun
  | some middle =>
    change Checked.shellRun middle.statics [(readings, '\n'.toNat)] = _ at hrun
    unfold Checked.shellRun at hrun
    rw [shellHandleCharacter_statics, Option.bind_eq_bind, Option.bind_some] at hrun
    rcases shellHandleCharacter_enter middle readings with ⟨calls, hreboots⟩ |
      ⟨output, last, -, -, hreturns⟩
    · rw [hreboots] at hrun
      cases hrun
    · rw [hreturns] at hrun
      cases hrun
      exact ⟨shellInit middle, rfl, rfl⟩

/-- **The line is what was typed, and Enter does what it asks for.** From
`shell_init` on, whatever is in the buffer, no access of a run is outside
it and the length stays below `64`; and at a prompt, after any run that has
led to it, characters that are no Enter edit the line, and Enter then
dispatches on the edited line. -/
theorem shell_dispatches (statics : Checked.Shell) :
    (∀ inputs, ∃ last, Checked.shellRun (Checked.shellInit statics) inputs = some last ∧
      ∀ shell ∈ last, shell.currentBufferLength ≤ 63) ∧
    ∀ history typed prompted, Prompted history →
      Checked.shellRun (Checked.shellInit statics) history = some (some prompted) →
      (∀ input ∈ typed, input.2 ≠ '\n'.toNat) →
        ∃ shell, Checked.shellRun (Checked.shellInit statics) (history ++ typed) =
            some (some shell) ∧
          ∀ readings, Dispatches shell readings (editedLine (typed.map Prod.snd)) := by
  let boot : Shell := ⟨statics.commandBuffer, 0, Nat.zero_le _⟩
  have hboot : Checked.shellInit statics = boot.statics := rfl
  rw [hboot]
  constructor
  · intro inputs
    obtain ⟨last, hlast⟩ := shellRun_statics boot inputs
    refine ⟨_, hlast, fun shell hshell => ?_⟩
    obtain ⟨shell, -, rfl⟩ := Option.mem_map.1 hshell
    exact shell.length_le
  · intro history typed prompted hprompt hrun htyped
    obtain ⟨shell, rfl, hnil⟩ := shellRun_prompted hprompt rfl hrun
    obtain ⟨shell', hafter, hline⟩ := shellRun_typed htyped shell
    refine ⟨shell'.statics, ?_, fun readings => ?_⟩
    · rw [shellRun_append, hrun]
      exact hafter
    · have hdispatches := dispatches_line shell'.statics_fits readings
      have hedited : shell'.statics.line = editedLine (typed.map Prod.snd) := by
        rw [editedLine, ← hnil]
        exact hline
      rwa [hedited] at hdispatches

/-- `ECHO` mistyped and mended, after a line that was longer. -/
theorem shell_dispatches_echo : ∃ shell, Checked.shellRun (Checked.shellInit Shell.atBoot.statics)
      ((letters "ECHOES\n").map (idleReadings, ·) ++
        (letters "ECP\x08HO HI").map (idleReadings, ·)) = some (some shell) ∧
      Dispatches shell idleReadings (letters "ECHO HI") := by
  have hprompted : Prompted ((letters "ECHOES\n").map (idleReadings, ·)) :=
    Or.inr ⟨(letters "ECHOES").map (idleReadings, ·), idleReadings, rfl⟩
  have hrun : ∃ prompted, Checked.shellRun (Checked.shellInit Shell.atBoot.statics)
      ((letters "ECHOES\n").map (idleReadings, ·)) = some (some prompted) := ⟨_, rfl⟩
  obtain ⟨prompted, hrun⟩ := hrun
  obtain ⟨shell, hshell, hdispatches⟩ := (shell_dispatches Shell.atBoot.statics).2
    ((letters "ECHOES\n").map (idleReadings, ·)) ((letters "ECP\x08HO HI").map (idleReadings, ·))
    prompted hprompted hrun (by decide)
  refine ⟨shell, hshell, ?_⟩
  have hline : editedLine (((letters "ECP\x08HO HI").map (idleReadings, ·)).map Prod.snd) =
      letters "ECHO HI" := by decide
  rw [← hline]
  exact hdispatches idleReadings

end KbmOs
