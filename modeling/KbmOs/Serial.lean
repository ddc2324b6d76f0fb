import KbmOs.Console.Model
/-!
# The serial port

What `drivers/serial.c` sends to COM1: the bytes in order. Before each the
driver waits until the transmit register is empty.
-/

namespace KbmOs

/-- `serial_putc` sends the character. -/
def serialPutc (character : ℕ) : List ℕ := [character]

/-- The loop of `serial_write` on the bytes of its text. -/
def serialWriteBytes : List ℕ → List ℕ
  | [] => []
  | character :: text =>
    if character = 0 then []
    else
      (if character = '\n'.toNat then serialPutc '\r'.toNat else []) ++ serialPutc character ++
        serialWriteBytes text

def serialWrite (text : String) : List ℕ := serialWriteBytes (cString text)

def serialWriteHex (value : ℕ) : List ℕ :=
  serialWrite "0x" ++ (List.range 16).flatMap fun i =>
    serialPutc ((cString "0123456789abcdef").getD (value >>> (60 - 4 * i) &&& 0x0f) 0)

end KbmOs
