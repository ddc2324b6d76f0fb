import KbmOs.Console.Model
/-!
# The shell and the keyboard

`kernel/shell.c`, and the table of `drivers/keyboard.c` that turns scan
codes into characters. The shell draws through the console only, so what it
draws is a list of calls. What it reads of the other parts of the kernel is
given to it with the character.
-/

namespace KbmOs

/-- The statics of `shell.c`. The buffer is only filled while fewer than 63
characters are in it. -/
structure Shell where
  commandBuffer : Vector ℕ 64
  currentBufferLength : ℕ
  length_le : currentBufferLength ≤ 63

/-- What the commands report. -/
structure Readings where
  pmmGetFrameCount : ℕ
  pmmGetFreeFrameCount : ℕ
  pmmGetBitmapByteCount : ℕ
  heapGetFrameCount : ℕ
  heapGetUsedBytes : ℕ
  timerGetTicks : ℕ

/-- How the handling of a character ends: `reboot` does not return. -/
inductive ShellResult
  | returns (shell : Shell) (calls : List ConsoleCall)
  | reboots (calls : List ConsoleCall)

def shellColorText : UInt32 := 0x00FFFFFF

/-- The character `'\b'`. -/
abbrev backspaceCharacter : ℕ := 0x08

/-- The characters of the command line. -/
def Shell.line (shell : Shell) : List ℕ := shell.commandBuffer.toList.take shell.currentBufferLength

/-- The statics as the kernel image has them. -/
def Shell.atBoot : Shell where
  commandBuffer := Vector.replicate 64 0
  currentBufferLength := 0
  length_le := Nat.zero_le _

/-- `shell_init` empties the command line … -/
def shellInit (shell : Shell) : Shell :=
  { shell with
    currentBufferLength := 0
    length_le := Nat.zero_le _ }

/-- … and writes the prompt. -/
def shellPrompt : List ConsoleCall := .setTextColor shellColorText :: consoleWrite "kbm> "

/-- The loop the two comparisons share: the index behind the command's text
if the line starts with it. -/
def Shell.matchCommand (shell : Shell) (command : List ℕ) (index : ℕ)
    (h : index ≤ shell.currentBufferLength) : Option {i // i ≤ shell.currentBufferLength} :=
  match command with
  | [] => some ⟨index, h⟩
  | letter :: command =>
    if letter = 0 then some ⟨index, h⟩
    else if hlt : index < shell.currentBufferLength then
      if shell.commandBuffer.get ⟨index, by have := shell.length_le; omega⟩ = letter then
        shell.matchCommand command (index + 1) hlt
      else none
    else none

def shellCommandIs (shell : Shell) (command : String) : Bool :=
  match shell.matchCommand (cString command) 0 (Nat.zero_le _) with
  | none => false
  | some index => index.1 = shell.currentBufferLength

def shellCommandStartsWith (shell : Shell) (command : String) : Bool :=
  match shell.matchCommand (cString command) 0 (Nat.zero_le _) with
  | none => false
  | some index => index.1 = shell.currentBufferLength ∨
      shell.commandBuffer.get ⟨index.1, by have := shell.length_le; omega⟩ = ' '.toNat

/-- What `MEM` writes. -/
def memoryReport (readings : Readings) : List ConsoleCall :=
  consoleWrite "MEMORY:\n" ++
  consoleWrite "TOTAL_FRAMES: " ++ consoleWriteDecimal readings.pmmGetFrameCount ++
  consoleWrite "\n" ++
  consoleWrite "FREE_FRAMES: " ++ consoleWriteDecimal readings.pmmGetFreeFrameCount ++
  consoleWrite "\n" ++
  consoleWrite "FREE_MEMORY_KIB: " ++ consoleWriteHex (wrap (readings.pmmGetFreeFrameCount * 4)) ++
  consoleWrite "\n" ++
  consoleWrite "\nHEAP:\n" ++
  consoleWrite "HEAP_FRAMES: " ++ consoleWriteHex readings.heapGetFrameCount ++
  consoleWrite "\n" ++
  consoleWrite "HEAP_USED_BYTES: " ++ consoleWriteHex readings.heapGetUsedBytes ++
  consoleWrite "\n" ++
  consoleWrite "\nPMM_METADATA:\n" ++
  consoleWrite "BITMAP_BYTES: " ++ consoleWriteHex readings.pmmGetBitmapByteCount ++
  consoleWrite "\n"

/-- What `HELP` writes. -/
def helpText : List ConsoleCall :=
  consoleWrite "COMMANDS:\n" ++ consoleWrite "HELP\n" ++ consoleWrite "CLEAR\n" ++
  consoleWrite "REBOOT\n" ++ consoleWrite "MEM\n" ++ consoleWrite "TICKS\n" ++
  consoleWrite "UPTIME\n" ++ consoleWrite "ECHO <TEXT>\n"

/-- What `ECHO` writes: the line from its sixth character on. -/
def echoText (shell : Shell) : List ConsoleCall :=
  (if shell.currentBufferLength > 4 then (shell.line.drop 5).map .writeCodepoint else []) ++
    consoleWriteChar '\n'

def shellHandleCharacter (shell : Shell) (readings : Readings) (character : ℕ) : ShellResult :=
  if character = backspaceCharacter then
    if shell.currentBufferLength ≠ 0 then
      .returns
        { shell with
          currentBufferLength := shell.currentBufferLength - 1
          length_le := le_trans (Nat.sub_le _ _) shell.length_le }
        [.backspace]
    else .returns shell []
  else if character = '\n'.toNat then
    let gap := consoleWriteChar '\n' ++ consoleWriteChar '\n'
    let finish := fun output : List ConsoleCall =>
      ShellResult.returns (shellInit shell) (gap ++ output ++ consoleWriteChar '\n' ++ shellPrompt)
    if shellCommandIs shell "KOCAELI" then finish (consoleWrite "BELEDİYE MÜZESİ\n")
    else if shellCommandIs shell "CLEAR" then
      .returns (shellInit shell) (gap ++ [.clear] ++ shellPrompt)
    else if shellCommandIs shell "REBOOT" then .reboots (gap ++ consoleWrite "REBOOTING...\n")
    else if shellCommandIs shell "MEM" then finish (memoryReport readings)
    else if shellCommandIs shell "TICKS" then
      finish (consoleWrite "TICKS: " ++ consoleWriteDecimal readings.timerGetTicks ++
        consoleWrite "\n")
    else if shellCommandIs shell "UPTIME" then
      finish (consoleWrite "UPTIME: " ++ consoleWriteDecimal (readings.timerGetTicks / 100) ++
        consoleWrite " SECONDS\n")
    else if shellCommandStartsWith shell "ECHO" then finish (echoText shell)
    else if shellCommandIs shell "HELP" then finish helpText
    else finish (consoleWrite "UNKNOWN COMMAND\n")
  else if h : shell.currentBufferLength < 63 then
    .returns
      { commandBuffer := shell.commandBuffer.set shell.currentBufferLength character (by omega)
        currentBufferLength := shell.currentBufferLength + 1
        length_le := h }
      [.writeCodepoint character]
  else .returns shell []

/-- The character of a scan code, 0 for none. -/
def keyboardScancodeToCharacter (keyboardShiftDown scanCode : ℕ) : ℕ :=
  let shift := fun shifted plain : ℕ => if keyboardShiftDown ≠ 0 then shifted else plain
  match scanCode with
  | 0x02 => shift '!'.toNat '1'.toNat
  | 0x03 => '2'.toNat
  | 0x04 => '3'.toNat
  | 0x05 => shift '+'.toNat '4'.toNat
  | 0x06 => '5'.toNat
  | 0x07 => '6'.toNat
  | 0x08 => shift '/'.toNat '7'.toNat
  | 0x09 => '8'.toNat
  | 0x0a => '9'.toNat
  | 0x0b => shift '='.toNat '0'.toNat
  | 0x0c => shift '?'.toNat '*'.toNat
  | 0x0d => shift '_'.toNat '-'.toNat
  | 0x0e => backspaceCharacter
  | 0x10 => 'Q'.toNat
  | 0x11 => 'W'.toNat
  | 0x12 => 'E'.toNat
  | 0x13 => 'R'.toNat
  | 0x14 => 'T'.toNat
  | 0x15 => 'Y'.toNat
  | 0x16 => 'U'.toNat
  | 0x17 => 'I'.toNat
  | 0x18 => 'O'.toNat
  | 0x19 => 'P'.toNat
  | 0x1c => '\n'.toNat
  | 0x1e => 'A'.toNat
  | 0x1f => 'S'.toNat
  | 0x20 => 'D'.toNat
  | 0x21 => 'F'.toNat
  | 0x22 => 'G'.toNat
  | 0x23 => 'H'.toNat
  | 0x24 => 'J'.toNat
  | 0x25 => 'K'.toNat
  | 0x26 => 'L'.toNat
  | 0x2c => 'Z'.toNat
  | 0x2d => 'X'.toNat
  | 0x2e => 'C'.toNat
  | 0x2f => 'V'.toNat
  | 0x30 => 'B'.toNat
  | 0x31 => 'N'.toNat
  | 0x32 => 'M'.toNat
  | 0x1a => shift 0x011e 0x011f
  | 0x1b => shift 0x00dc 0x00fc
  | 0x27 => shift 0x015e 0x015f
  | 0x28 => shift 0x0130 'I'.toNat
  | 0x2b => shift '/'.toNat ','.toNat
  | 0x33 => shift 0x00d6 0x00f6
  | 0x34 => shift 0x00c7 0x00e7
  | 0x35 => shift ':'.toNat '.'.toNat
  | 0x56 => shift '>'.toNat '<'.toNat
  | 0x39 => ' '.toNat
  | _ => 0

end KbmOs
