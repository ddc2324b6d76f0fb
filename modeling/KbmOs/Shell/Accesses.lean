import KbmOs.Shell.Session
/-!
# The shell's buffer, access by access

`shell.c` once more, over statics of which nothing is known: the length is
any number, and a read or a write outside `command_buffer` fails. What Enter
does comes in two parts, the branch that is taken and what it writes. From a
shell whose length fits, no access fails, and the two models agree
(`handleCharacter_statics`).
-/

namespace KbmOs

/-- The branches behind Enter. -/
inductive Command
  | kocaeli
  | clear
  | reboot
  | mem
  | ticks
  | uptime
  | echo
  | help
  | unknown
deriving DecidableEq

/-- The characters of a command's name. -/
def letters (text : String) : List ℕ := text.toList.map Char.toNat

/-- The line is the command's word, or goes on behind it with a space. -/
def BeginsWord (command line : List ℕ) : Prop :=
  line = command ∨ command ++ [' '.toNat] <+: line

instance (command line : List ℕ) : Decidable (BeginsWord command line) :=
  inferInstanceAs (Decidable (_ ∨ _))

namespace Checked

structure Shell where
  commandBuffer : Vector ℕ 64
  currentBufferLength : ℕ

inductive ShellResult
  | returns (shell : Shell) (calls : List ConsoleCall)
  | reboots (calls : List ConsoleCall)

def Shell.line (shell : Shell) : List ℕ := shell.commandBuffer.toList.take shell.currentBufferLength

def shellInit (shell : Shell) : Shell := { shell with currentBufferLength := 0 }

/-! ## Comparing -/

/-- The loop of both comparisons: `some none` where it leaves with a `0`. -/
def Shell.matchCommand (shell : Shell) : List ℕ → ℕ → Option (Option ℕ)
  | [], index => some (some index)
  | letter :: command, index =>
    if letter = 0 then some (some index)
    else if index ≥ shell.currentBufferLength then some none
    else do
      let character ← shell.commandBuffer[index]?
      if character ≠ letter then some none else shell.matchCommand command (index + 1)

def shellCommandIs (shell : Shell) (command : String) : Option Bool := do
  match ← shell.matchCommand (cString command) 0 with
  | none => some false
  | some index => some (index = shell.currentBufferLength)

def shellCommandStartsWith (shell : Shell) (command : String) : Option Bool := do
  match ← shell.matchCommand (cString command) 0 with
  | none => some false
  | some index =>
    if index = shell.currentBufferLength then some true
    else
      let character ← shell.commandBuffer[index]?
      some (character = ' '.toNat)

/-- The first branch whose test holds; the tests behind it are not made. -/
def firstOf : List (Option Bool × Command) → Option Command
  | [] => some .unknown
  | (test, command) :: branches => do
    if ← test then some command else firstOf branches

/-- The branch Enter takes. -/
def enteredCommand (shell : Shell) : Option Command :=
  firstOf [
    (shellCommandIs shell "KOCAELI", .kocaeli),
    (shellCommandIs shell "CLEAR", .clear),
    (shellCommandIs shell "REBOOT", .reboot),
    (shellCommandIs shell "MEM", .mem),
    (shellCommandIs shell "TICKS", .ticks),
    (shellCommandIs shell "UPTIME", .uptime),
    (shellCommandStartsWith shell "ECHO", .echo),
    (shellCommandIs shell "HELP", .help)]

/-! ## Running -/

/-- The loop of `ECHO`. -/
def Shell.echoFrom (shell : Shell) (index : ℕ) : Option (List ConsoleCall) :=
  if index < shell.currentBufferLength then
    (shell.commandBuffer[index]?).bind fun character =>
      (shell.echoFrom (index + 1)).map (.writeCodepoint character :: ·)
  else some []
termination_by shell.currentBufferLength - index

/-- What a branch does, given what `ECHO` has read of the buffer. -/
def commandResult (shell : Shell) (readings : Readings) (echoed : List ConsoleCall)
    (command : Command) : ShellResult :=
  let gap := consoleWriteChar '\n' ++ consoleWriteChar '\n'
  let finish := fun output : List ConsoleCall =>
    ShellResult.returns (shellInit shell) (gap ++ output ++ consoleWriteChar '\n' ++ shellPrompt)
  match command with
  | .kocaeli => finish (KbmOs.consoleWrite "BELEDİYE MÜZESİ\n")
  | .clear => .returns (shellInit shell) (gap ++ [.clear] ++ shellPrompt)
  | .reboot => .reboots (gap ++ KbmOs.consoleWrite "REBOOTING...\n")
  | .mem => finish (memoryReport readings)
  | .ticks => finish (KbmOs.consoleWrite "TICKS: " ++ KbmOs.consoleWriteDecimal readings.timerGetTicks ++
      KbmOs.consoleWrite "\n")
  | .uptime => finish (KbmOs.consoleWrite "UPTIME: " ++
      KbmOs.consoleWriteDecimal (readings.timerGetTicks / 100) ++ KbmOs.consoleWrite " SECONDS\n")
  | .echo => finish (echoed ++ consoleWriteChar '\n')
  | .help => finish helpText
  | .unknown => finish (KbmOs.consoleWrite "UNKNOWN COMMAND\n")

/-- A branch is run; only `ECHO` reads the buffer, and only behind its
space. -/
def runCommand (shell : Shell) (readings : Readings) (command : Command) : Option ShellResult := do
  let echoed ←
    if command = .echo ∧ shell.currentBufferLength > 4 then shell.echoFrom 5 else some []
  some (commandResult shell readings echoed command)

/-- `shell_handle_character`. -/
def shellHandleCharacter (shell : Shell) (readings : Readings) (character : ℕ) :
    Option ShellResult :=
  if character = backspaceCharacter then
    if shell.currentBufferLength ≠ 0 then
      some (.returns { shell with currentBufferLength := shell.currentBufferLength - 1 }
        [.backspace])
    else some (.returns shell [])
  else if character = '\n'.toNat then (enteredCommand shell).bind (runCommand shell readings)
  else if shell.currentBufferLength < 63 then
    if h : shell.currentBufferLength < 64 then
      some (.returns
        { commandBuffer := shell.commandBuffer.set shell.currentBufferLength character h
          currentBufferLength := shell.currentBufferLength + 1 }
        [.writeCodepoint character])
    else none
  else some (.returns shell [])

/-- Characters one after the other, until one reboots: `some none`. -/
def shellRun (shell : Shell) : List (Readings × ℕ) → Option (Option Shell)
  | [] => some (some shell)
  | (readings, character) :: inputs => do
    match ← shellHandleCharacter shell readings character with
    | .reboots _ => some none
    | .returns shell _ => shellRun shell inputs

variable {shell : Shell} {readings : Readings} {index : ℕ} {command : List ℕ}

/-! ## What the accesses read -/

theorem Shell.line_length (hfits : shell.currentBufferLength ≤ 64) :
    shell.line.length = shell.currentBufferLength := by
  unfold Shell.line
  rw [List.length_take, Vector.length_toList]
  exact Nat.min_eq_left hfits

/-- Inside the line an access succeeds, and reads the line. -/
theorem Shell.drop_line (hfits : shell.currentBufferLength ≤ 64)
    (hlt : index < shell.currentBufferLength) : ∃ character,
      shell.commandBuffer[index]? = some character ∧
        shell.line.drop index = character :: shell.line.drop (index + 1) := by
  have hindex : index < shell.line.length := by rwa [Shell.line_length hfits]
  refine ⟨shell.line[index], ?_, List.drop_eq_getElem_cons hindex⟩
  rw [← Vector.getElem?_toList, ← List.getElem?_eq_getElem hindex]
  unfold Shell.line
  rw [List.getElem?_take_of_lt hlt]

/-- **The comparison reads inside the line**, and tells whether the command
begins it. -/
theorem Shell.matchCommand_eq (hfits : shell.currentBufferLength ≤ 64) :
    ∀ (command : List ℕ) (index : ℕ), 0 ∉ command →
      shell.matchCommand (command ++ [0]) index =
        some (if command <+: shell.line.drop index then some (index + command.length) else none)
  | [], index, _ => by
    rw [if_pos List.nil_prefix]
    rfl
  | letter :: command, index, hzero => by
    have hletter : letter ≠ 0 := by
      rintro rfl
      exact hzero List.mem_cons_self
    have hcommand : 0 ∉ command := fun h => hzero (List.mem_cons_of_mem letter h)
    rw [List.cons_append, Shell.matchCommand, if_neg hletter]
    by_cases hge : index ≥ shell.currentBufferLength
    · have hnil : shell.line.drop index = [] :=
        List.drop_eq_nil_of_le (by rwa [Shell.line_length hfits])
      rw [if_pos hge, hnil, if_neg fun h => List.cons_ne_nil _ _ (List.prefix_nil.1 h)]
    obtain ⟨character, hread, hdrop⟩ := Shell.drop_line hfits (Nat.lt_of_not_ge hge)
    rw [if_neg hge, hread, Option.bind_eq_bind, Option.bind_some, hdrop]
    by_cases hsame : character = letter
    · have hlength : index + 1 + command.length = index + (letter :: command).length := by
        rw [List.length_cons]
        omega
      rw [if_neg (not_not.2 hsame), Shell.matchCommand_eq hfits command (index + 1) hcommand,
        hlength, hsame]
      exact congrArg some (if_congr (List.prefix_cons_inj letter).symm rfl rfl)
    · rw [if_pos hsame, if_neg fun h => hsame (List.cons_prefix_cons.1 h).1.symm]

/-- The loop of `ECHO` reads the rest of the line. -/
theorem Shell.echoFrom_eq (hfits : shell.currentBufferLength ≤ 64) (index : ℕ) :
    shell.echoFrom index = some ((shell.line.drop index).map .writeCodepoint) := by
  rw [Shell.echoFrom]
  by_cases hlt : index < shell.currentBufferLength
  · obtain ⟨character, hread, hdrop⟩ := Shell.drop_line hfits hlt
    rw [if_pos hlt, hread, Option.bind_some, Shell.echoFrom_eq hfits (index + 1), hdrop]
    rfl
  · have hnil : shell.line.drop index = [] :=
      List.drop_eq_nil_of_le (by rw [Shell.line_length hfits]; omega)
    rw [if_neg hlt, hnil]
    rfl
termination_by shell.currentBufferLength - index

variable {text : String}

/-- **The first comparison** is with the whole line. -/
theorem shellCommandIs_eq (hfits : shell.currentBufferLength ≤ 64)
    (htext : cString text = command ++ [0]) (hzero : 0 ∉ command) :
    shellCommandIs shell text = some (decide (shell.line = command)) := by
  have hlength := Shell.line_length hfits
  unfold shellCommandIs
  rw [htext, Shell.matchCommand_eq hfits command 0 hzero, Option.bind_eq_bind, Option.bind_some,
    List.drop_zero]
  by_cases hbegins : command <+: shell.line
  · rw [if_pos hbegins]
    refine congrArg some (decide_eq_decide.2 ⟨fun h => ?_, fun h => ?_⟩)
    · exact (hbegins.eq_of_length (by omega)).symm
    · rw [← h]
      omega
  · rw [if_neg hbegins]
    refine congrArg some (decide_eq_false fun h => hbegins ?_).symm
    exact h.symm ▸ List.prefix_rfl

/-- **The second** is with its first word. -/
theorem shellCommandStartsWith_eq (hfits : shell.currentBufferLength ≤ 64)
    (htext : cString text = command ++ [0]) (hzero : 0 ∉ command) :
    shellCommandStartsWith shell text = some (decide (BeginsWord command shell.line)) := by
  have hlength := Shell.line_length hfits
  unfold shellCommandStartsWith
  rw [htext, Shell.matchCommand_eq hfits command 0 hzero, Option.bind_eq_bind, Option.bind_some,
    List.drop_zero]
  by_cases hbegins : command <+: shell.line
  · obtain ⟨rest, hline⟩ := hbegins
    have hlength' := congrArg List.length hline
    rw [List.length_append] at hlength'
    rw [if_pos ⟨rest, hline⟩]
    dsimp only
    by_cases hwhole : 0 + command.length = shell.currentBufferLength
    · have hrest : rest = [] := List.eq_nil_of_length_eq_zero (by omega)
      rw [hrest, List.append_nil] at hline
      rw [if_pos hwhole]
      exact congrArg some (decide_eq_true (Or.inl hline.symm)).symm
    -- behind the command stands a character of the line
    have hlt : 0 + command.length < shell.currentBufferLength := by omega
    obtain ⟨character, hread, hdrop⟩ := Shell.drop_line hfits hlt
    rw [if_neg hwhole, hread, Option.bind_eq_bind, Option.bind_some]
    rw [Nat.zero_add, ← hline, List.drop_left] at hdrop
    refine congrArg some (decide_eq_decide.2 ⟨fun h => Or.inr ?_, fun h => ?_⟩)
    · rw [← hline, hdrop, h]
      exact List.prefix_append_right_inj command |>.2 (by simp)
    · rcases h with h | h
      · exact absurd (by rw [← hlength, h]; omega) hwhole
      · rw [← hline, List.prefix_append_right_inj, hdrop] at h
        exact (List.cons_prefix_cons.1 h).1.symm
  · rw [if_neg hbegins]
    refine congrArg some (decide_eq_false fun h => hbegins ?_).symm
    rcases h with h | h
    · exact h.symm ▸ List.prefix_rfl
    · exact (List.prefix_append command _).trans h

theorem firstOf_cons (test : Bool) (branch : Command) (branches : List (Option Bool × Command)) :
    firstOf ((some test, branch) :: branches) =
      if test = true then some branch else firstOf branches := rfl

end Checked

/-! ## The two models -/

/-- The statics, with nothing said about the length. -/
def Shell.statics (shell : Shell) : Checked.Shell where
  commandBuffer := shell.commandBuffer
  currentBufferLength := shell.currentBufferLength

def ShellResult.statics : ShellResult → Checked.ShellResult
  | .returns shell calls => .returns shell.statics calls
  | .reboots calls => .reboots calls

variable {shell : Shell} {readings : Readings} {character : ℕ}

theorem Shell.statics_fits (shell : Shell) : shell.statics.currentBufferLength ≤ 64 :=
  Nat.le_succ_of_le shell.length_le

theorem Shell.matchCommand_cons (letter : ℕ) (command : List ℕ) (index : ℕ)
    (h : index ≤ shell.currentBufferLength) : shell.matchCommand (letter :: command) index h =
      if letter = 0 then some ⟨index, h⟩
      else if hlt : index < shell.currentBufferLength then
        if shell.commandBuffer.get
            ⟨index, Nat.lt_succ_of_lt (Nat.lt_of_lt_of_le hlt shell.length_le)⟩ = letter then
          shell.matchCommand command (index + 1) hlt
        else none
      else none := rfl

theorem Shell.matchCommand_statics : ∀ (command : List ℕ) (index : ℕ)
    (h : index ≤ shell.currentBufferLength), shell.statics.matchCommand command index =
      some ((shell.matchCommand command index h).map Subtype.val)
  | [], index, h => rfl
  | letter :: command, index, h => by
    have hle := shell.length_le
    rw [Checked.Shell.matchCommand, Shell.matchCommand_cons]
    by_cases hzero : letter = 0
    · rw [if_pos hzero, if_pos hzero]
      rfl
    by_cases hlt : index < shell.currentBufferLength
    · have hindex : index < 64 := by omega
      have hread : shell.statics.commandBuffer[index]? =
          some (shell.commandBuffer.get ⟨index, hindex⟩) := Vector.getElem?_eq_getElem hindex
      have hinside : ¬ index ≥ shell.statics.currentBufferLength := Nat.not_le_of_lt hlt
      rw [if_neg hzero, if_neg hzero, if_neg hinside, dif_pos hlt, hread, Option.bind_eq_bind,
        Option.bind_some]
      by_cases hsame : shell.commandBuffer.get ⟨index, hindex⟩ = letter
      · rw [if_neg (not_not.2 hsame), if_pos hsame]
        exact Shell.matchCommand_statics command (index + 1) hlt
      · rw [if_pos hsame, if_neg hsame]
        rfl
    · have houtside : index ≥ shell.statics.currentBufferLength := Nat.le_of_not_lt hlt
      rw [if_neg hzero, if_neg hzero, if_pos houtside, dif_neg hlt]
      rfl

theorem shellCommandIs_statics (command : String) :
    Checked.shellCommandIs shell.statics command = some (shellCommandIs shell command) := by
  unfold Checked.shellCommandIs shellCommandIs
  rw [Shell.matchCommand_statics (cString command) 0 (Nat.zero_le _), Option.bind_eq_bind,
    Option.bind_some]
  cases shell.matchCommand (cString command) 0 (Nat.zero_le _) with
  | none => rfl
  | some index => rfl

theorem shellCommandStartsWith_statics (command : String) :
    Checked.shellCommandStartsWith shell.statics command =
      some (shellCommandStartsWith shell command) := by
  unfold Checked.shellCommandStartsWith shellCommandStartsWith
  rw [Shell.matchCommand_statics (cString command) 0 (Nat.zero_le _), Option.bind_eq_bind,
    Option.bind_some]
  cases shell.matchCommand (cString command) 0 (Nat.zero_le _) with
  | none => rfl
  | some index =>
    have hle := shell.length_le
    have hindex : index.1 < 64 := by
      have := index.2
      omega
    have hread : shell.statics.commandBuffer[index.1]? =
        some (shell.commandBuffer.get ⟨index.1, hindex⟩) := Vector.getElem?_eq_getElem hindex
    change (if index.1 = shell.currentBufferLength then some true else _) = some (decide _)
    by_cases hwhole : index.1 = shell.currentBufferLength
    · rw [if_pos hwhole]
      exact congrArg some (decide_eq_true (Or.inl hwhole)).symm
    · rw [if_neg hwhole, hread, Option.bind_eq_bind, Option.bind_some]
      exact congrArg some (decide_eq_decide.2 (or_iff_right hwhole).symm)

/-- The branches are tried in the same order. -/
theorem enteredCommand_statics (shell : Shell) : Checked.enteredCommand shell.statics =
    if shellCommandIs shell "KOCAELI" then some .kocaeli
    else if shellCommandIs shell "CLEAR" then some .clear
    else if shellCommandIs shell "REBOOT" then some .reboot
    else if shellCommandIs shell "MEM" then some .mem
    else if shellCommandIs shell "TICKS" then some .ticks
    else if shellCommandIs shell "UPTIME" then some .uptime
    else if shellCommandStartsWith shell "ECHO" then some .echo
    else if shellCommandIs shell "HELP" then some .help
    else some .unknown := by
  unfold Checked.enteredCommand
  simp only [shellCommandIs_statics, shellCommandStartsWith_statics, Checked.firstOf_cons]
  rfl

theorem Shell.echoFrom_statics (shell : Shell) :
    shell.statics.echoFrom 5 = some ((shell.line.drop 5).map .writeCodepoint) :=
  Checked.Shell.echoFrom_eq shell.statics_fits 5

theorem runCommand_echo (shell : Shell) (readings : Readings) :
    Checked.runCommand shell.statics readings .echo =
      some (Checked.commandResult shell.statics readings
        (if shell.currentBufferLength > 4 then (shell.line.drop 5).map .writeCodepoint else [])
        .echo) := by
  unfold Checked.runCommand
  by_cases hlong : shell.currentBufferLength > 4
  · have hecho : (Command.echo = .echo) ∧ shell.statics.currentBufferLength > 4 := ⟨rfl, hlong⟩
    rw [if_pos hecho, if_pos hlong, Shell.echoFrom_statics]
    rfl
  · have hecho : ¬ ((Command.echo = .echo) ∧ shell.statics.currentBufferLength > 4) :=
      fun h => hlong h.2
    rw [if_neg hecho, if_neg hlong]
    rfl

/-- One test behind Enter, in both models. -/
theorem enter_branch {P : Prop} [Decidable P] {command : Command} {rest : Option Command}
    {result result' : ShellResult}
    (hrun : Checked.runCommand shell.statics readings command = some result.statics)
    (hrest : rest.bind (Checked.runCommand shell.statics readings) = some result'.statics) :
    (if P then some command else rest).bind (Checked.runCommand shell.statics readings) =
      some (if P then result else result').statics := by
  split
  · exact hrun
  · exact hrest

/-- **The two models agree**, so no access of the shell fails. -/
theorem shellHandleCharacter_statics (shell : Shell) (readings : Readings) (character : ℕ) :
    Checked.shellHandleCharacter shell.statics readings character =
      some (shellHandleCharacter shell readings character).statics := by
  unfold Checked.shellHandleCharacter shellHandleCharacter
  by_cases hback : character = backspaceCharacter
  · rw [if_pos hback, if_pos hback]
    by_cases hzero : shell.currentBufferLength ≠ 0
    · rw [if_pos hzero]
      exact if_pos hzero
    · rw [if_neg hzero]
      exact if_neg hzero
  by_cases henter : character = '\n'.toNat
  · rw [if_neg hback, if_neg hback, if_pos henter, if_pos henter, enteredCommand_statics]
    exact enter_branch rfl <| enter_branch rfl <| enter_branch rfl <| enter_branch rfl <|
      enter_branch rfl <| enter_branch rfl <| enter_branch (runCommand_echo shell readings) <|
      enter_branch rfl rfl
  · rw [if_neg hback, if_neg hback, if_neg henter, if_neg henter]
    by_cases hroom : shell.currentBufferLength < 63
    · have hindex : shell.statics.currentBufferLength < 64 := Nat.lt_succ_of_lt hroom
      rw [dif_pos hroom, dif_pos hindex]
      exact if_pos hroom
    · rw [dif_neg hroom]
      exact if_neg hroom

end KbmOs
