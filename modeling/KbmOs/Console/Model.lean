import KbmOs.Console.Font
/-!
# The text console

`drivers/console.c`, function by function. The state is the file's statics
beside the words of video memory it draws into. The functions that write
text only call `console_write_codepoint`, so each of them is the list of
its calls; `perform` is what a call does to the console.
-/

namespace KbmOs

/-- The statics of `console.c`, and the framebuffer's words. -/
structure Console where
  framebuffer : Framebuffer
  pixels : Pixels
  cursorX : ℕ := 0
  cursorY : ℕ := 0
  textColor : UInt32 := 0x00ffffff
  backgroundColor : UInt32 := 0x00101018
  headerUptimeSeconds : ℕ := 0

/-- `console_glyph_scale`, which nothing sets. -/
abbrev consoleGlyphScale : ℕ := 2

abbrev consoleHeaderHeight : ℕ := 40
abbrev consoleContentTop : ℕ := 56
def consoleHeaderColor : UInt32 := 0x00161C24
def consoleAccentColor : UInt32 := 0x004DD9C8
def consoleHeaderLineColor : UInt32 := 0x002B3440
def consoleDimColor : UInt32 := 0x008B949E

/-- The console after something is drawn. -/
def Console.draw (console : Console) (drawing : Pixels → Pixels) : Console :=
  { console with pixels := drawing console.pixels }

def consoleSetTextColor (console : Console) (color : UInt32) : Console :=
  { console with textColor := color }

/-- A text in the header, character after character. -/
def consoleDrawHeaderText (console : Console) (xCoordinate yCoordinate : ℕ) (text : List ℕ)
    (scale : ℕ) (color : UInt32) : Console :=
  match text with
  | [] => console
  | character :: text =>
    let console := match fontGetGlyph character with
      | some glyph => console.draw
          (screenDrawGlyph console.framebuffer xCoordinate yCoordinate glyph scale color)
      | none => console
    consoleDrawHeaderText console (wrap (xCoordinate + 8 * scale)) yCoordinate text scale color

/-- `uptime_text`: two digits each of the hours, at most 99, the minutes and
the seconds. -/
def uptimeText (uptimeSeconds : ℕ) : List ℕ :=
  let hours := min (uptimeSeconds / 3600) 99
  let minutes := uptimeSeconds / 60 % 60
  let seconds := uptimeSeconds % 60
  let digit := fun n => '0'.toNat + n
  [digit (hours / 10), digit (hours % 10), ':'.toNat, digit (minutes / 10), digit (minutes % 10),
    ':'.toNat, digit (seconds / 10), digit (seconds % 10)]

def consoleUpdateHeader (console : Console) (uptimeSeconds : ℕ) : Console :=
  let framebuffer := console.framebuffer
  let console := { console with headerUptimeSeconds := uptimeSeconds }
  let console := console.draw
    (screenDrawRect framebuffer 0 0 framebuffer.width consoleHeaderHeight consoleHeaderColor)
  let console := console.draw
    (screenDrawRect framebuffer 0 (consoleHeaderHeight - 1) framebuffer.width 1
      consoleHeaderLineColor)
  let console := console.draw (screenDrawRect framebuffer 16 12 3 16 consoleAccentColor)
  let console := consoleDrawHeaderText console 28 12 ['k'.toNat, 'b'.toNat, 'm'.toNat] 2
    console.textColor
  let uptimeWidth := 8 * 16
  let uptimeX :=
    if framebuffer.width > uptimeWidth + 16 then framebuffer.width - uptimeWidth - 16 else 16
  consoleDrawHeaderText console uptimeX 12 (uptimeText uptimeSeconds) 2 consoleDimColor

def consoleInit (console : Console) (framebuffer : Framebuffer) : Console :=
  let console := { console with
    framebuffer := framebuffer
    cursorX := 0
    cursorY := consoleContentTop }
  consoleUpdateHeader (console.draw (screenFill framebuffer console.backgroundColor)) 0

def consoleNewLine (console : Console) (glyphHeight : ℕ) : Console :=
  let console := { console with cursorX := 0, cursorY := wrap (console.cursorY + glyphHeight) }
  if wrap (console.cursorY + glyphHeight) > console.framebuffer.height then
    let console := console.draw (screenScrollRegionUp console.framebuffer consoleContentTop
      glyphHeight console.backgroundColor)
    { console with cursorY := wrapSub console.cursorY glyphHeight }
  else console

def consoleWriteCodepoint (console : Console) (character : ℕ) : Console :=
  let glyphWidth := 8 * consoleGlyphScale
  let glyphHeight := 8 * consoleGlyphScale
  if character = '\n'.toNat then consoleNewLine console glyphHeight
  else match fontGetGlyph character with
    | none => console
    | some glyph =>
      let console :=
        if wrap (console.cursorX + glyphWidth) > console.framebuffer.width then
          consoleNewLine console glyphHeight
        else console
      let console := console.draw (screenDrawGlyph console.framebuffer console.cursorX
        console.cursorY glyph consoleGlyphScale console.textColor)
      { console with cursorX := wrap (console.cursorX + glyphWidth) }

def consoleBackspace (console : Console) : Console :=
  let glyphWidth := 8 * consoleGlyphScale
  let glyphHeight := 8 * consoleGlyphScale
  if console.cursorX = 0 then console
  else
    let console := { console with cursorX := wrapSub console.cursorX glyphWidth }
    console.draw (screenDrawRect console.framebuffer console.cursorX console.cursorY glyphWidth
      glyphHeight console.backgroundColor)

def consoleClear (console : Console) : Console :=
  let console := console.draw (screenFill console.framebuffer console.backgroundColor)
  let console := { console with cursorX := 0, cursorY := consoleContentTop }
  consoleUpdateHeader console console.headerUptimeSeconds

/-! ## Calls -/

/-- A call of a function that changes the console. -/
inductive ConsoleCall
  | setTextColor (color : UInt32)
  | writeCodepoint (character : ℕ)
  | backspace
  | clear
  | updateHeader (uptimeSeconds : ℕ)

def Console.perform (console : Console) : ConsoleCall → Console
  | .setTextColor color => consoleSetTextColor console color
  | .writeCodepoint character => consoleWriteCodepoint console character
  | .backspace => consoleBackspace console
  | .clear => consoleClear console
  | .updateHeader uptimeSeconds => consoleUpdateHeader console uptimeSeconds

/-- Calls in order. -/
def Console.performAll (console : Console) (calls : List ConsoleCall) : Console :=
  calls.foldl Console.perform console

def consoleWriteChar (character : Char) : List ConsoleCall := [.writeCodepoint character.toNat]

/-- The codepoints in the bytes of a text that ends in a zero: ASCII, and
two-byte sequences; any other byte is a question mark. -/
def decodeText : List ℕ → List ℕ
  | [] => []
  | firstByte :: text =>
    if firstByte = 0 then []
    else if firstByte < 0x80 then firstByte :: decodeText text
    else match text with
      | [] => ['?'.toNat]
      | secondByte :: text' =>
        if firstByte &&& 0xe0 = 0xc0 ∧ secondByte &&& 0xc0 = 0x80 then
          ((firstByte &&& 0x1f) <<< 6 ||| secondByte &&& 0x3f) :: decodeText text'
        else '?'.toNat :: decodeText (secondByte :: text')

/-- The bytes of a string literal. -/
def cString (text : String) : List ℕ := text.toUTF8.data.toList.map UInt8.toNat ++ [0]

def consoleWrite (text : String) : List ConsoleCall :=
  (decodeText (cString text)).map .writeCodepoint

/-- The hexadecimal digits from the bit `shift` down, four bits each. -/
def consoleWriteHex (value : ℕ) : List ConsoleCall :=
  consoleWrite "0X" ++ (List.range 16).map fun i =>
    .writeCodepoint ((cString "0123456789ABCDEF").getD (value >>> (60 - 4 * i) &&& 0x0f) 0)

/-- The decimal digits, the last one first, as the array `digits` gets them. -/
def decimalDigits (value : ℕ) : List ℕ :=
  if value = 0 then [] else ('0'.toNat + value % 10) :: decimalDigits (value / 10)

def consoleWriteDecimal (value : ℕ) : List ConsoleCall :=
  if value = 0 then consoleWriteChar '0'
  else (decimalDigits value).reverse.map .writeCodepoint

end KbmOs
