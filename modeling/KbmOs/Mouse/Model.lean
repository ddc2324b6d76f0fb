import KbmOs.Screen.Model
import Mathlib.Algebra.Order.Ring.Int
/-!
# The mouse driver

`drivers/mouse.c`: the packet the controller sends byte by byte, and the
cursor, a square of 4 by 4 pixels that is drawn over the picture after the
pixels under it have been saved. The functions take the file's statics and
the words of video memory they draw into, and return both.
-/

namespace KbmOs

open Raster

/-- The value of an integer in an `int32_t`. -/
def int32 (n : ℤ) : ℤ := Int.bmod n (2 ^ 32)

/-- The value of a byte in an `int8_t`. -/
def int8 (byte : UInt8) : ℤ := Int.bmod byte.toNat (2 ^ 8)

/-- The value of an `int32_t` in a `uint64_t`. -/
def toUint64 (n : ℤ) : ℕ := (n % 2 ^ 64).toNat

abbrev mouseCursorSize : ℕ := 4
def mouseCursorColor : UInt32 := 0x00FF0000

/-- The statics of `mouse.c`. -/
structure Mouse where
  mousePacket : Vector UInt8 3
  mousePacketIndex : ℕ
  /-- The third byte starts the packet anew. -/
  index_lt : mousePacketIndex < 3
  mouseX : ℤ
  mouseY : ℤ
  mouseOldX : ℤ
  mouseOldY : ℤ
  mouseScreenWidth : ℕ
  mouseScreenHeight : ℕ
  mouseFramebuffer : Framebuffer
  pixels : Vector UInt32 16
  mouseCursorVisible : ℕ

/-- The statics as the kernel image has them. -/
def Mouse.atBoot (framebuffer : Framebuffer) : Mouse where
  mousePacket := Vector.replicate 3 0
  mousePacketIndex := 0
  index_lt := by decide
  mouseX := 0
  mouseY := 0
  mouseOldX := 0
  mouseOldY := 0
  mouseScreenWidth := 0
  mouseScreenHeight := 0
  mouseFramebuffer := framebuffer
  pixels := Vector.replicate 16 0
  mouseCursorVisible := 0

/-- The sixteen pixels at the cursor, row after row. -/
def mouseSaveCursorBackground (mouse : Mouse) (screen : Pixels) : Mouse :=
  { mouse with
    pixels := Vector.ofFn fun i : Fin 16 =>
      screenGetPixel mouse.mouseFramebuffer
        (wrap (toUint64 mouse.mouseX + i.val % mouseCursorSize))
        (wrap (toUint64 mouse.mouseY + i.val / mouseCursorSize)) screen }

/-- They are put back where they were taken from. -/
def mouseRestoreCursorBackground (mouse : Mouse) : Pixels → Pixels :=
  loop (fun row =>
    loop (fun column =>
      screenPutPixel mouse.mouseFramebuffer (wrap (toUint64 mouse.mouseOldX + column))
        (wrap (toUint64 mouse.mouseOldY + row))
        (mouse.pixels[row * mouseCursorSize + column]?.getD 0))
      mouseCursorSize)
    mouseCursorSize

def mouseHideCursor (mouse : Mouse) (screen : Pixels) : Mouse × Pixels :=
  if mouse.mouseCursorVisible = 0 then (mouse, screen)
  else ({ mouse with mouseCursorVisible := 0 }, mouseRestoreCursorBackground mouse screen)

def mouseShowCursor (mouse : Mouse) (screen : Pixels) : Mouse × Pixels :=
  if mouse.mouseCursorVisible ≠ 0 then (mouse, screen)
  else
    let mouse := { mouse with
      mouseOldX := mouse.mouseX
      mouseOldY := mouse.mouseY }
    let mouse := mouseSaveCursorBackground mouse screen
    ({ mouse with mouseCursorVisible := 1 },
      screenDrawRect mouse.mouseFramebuffer (toUint64 mouse.mouseX) (toUint64 mouse.mouseY)
        mouseCursorSize mouseCursorSize mouseCursorColor screen)

/-- `mouse_init` up to where it talks to the controller. -/
def mouseInit (mouse : Mouse) (framebuffer : Framebuffer) (screen : Pixels) : Mouse × Pixels :=
  mouseShowCursor
    { mouse with
      mouseFramebuffer := framebuffer
      mouseScreenWidth := framebuffer.width
      mouseScreenHeight := framebuffer.height
      mouseX := int32 (framebuffer.width / 2 : ℕ)
      mouseY := int32 (framebuffer.height / 2 : ℕ)
      mouseOldX := int32 (framebuffer.width / 2 : ℕ)
      mouseOldY := int32 (framebuffer.height / 2 : ℕ) }
    screen

/-- A coordinate kept on a screen of that dimension. -/
def mouseClamp (coordinate : ℤ) (dimension : ℕ) : ℤ :=
  let coordinate := if coordinate < 0 then 0 else coordinate
  if toUint64 coordinate > wrapSub dimension mouseCursorSize then
    int32 (wrapSub dimension mouseCursorSize)
  else coordinate

/-- The movement of a packet; sums wrap in 32 bits. -/
def mouseMove (mouse : Mouse) (xMovement yMovement : ℤ) : Mouse :=
  { mouse with
    mouseX := mouseClamp (int32 (mouse.mouseX + xMovement)) mouse.mouseScreenWidth
    mouseY := mouseClamp (int32 (mouse.mouseY - yMovement)) mouse.mouseScreenHeight }

def mouseIrq (mouse : Mouse) (mouseByte : UInt8) (screen : Pixels) : Mouse × Pixels :=
  if mouse.mousePacketIndex = 0 ∧ mouseByte = 0xFA then (mouse, screen)
  else if mouse.mousePacketIndex = 0 ∧ mouseByte &&& 0x08 = 0 then (mouse, screen)
  else
    let packet := mouse.mousePacket.set mouse.mousePacketIndex mouseByte mouse.index_lt
    let mouse := { mouse with mousePacket := packet }
    if h : mouse.mousePacketIndex + 1 < 3 then
      ({ mouse with
        mousePacketIndex := mouse.mousePacketIndex + 1
        index_lt := h }, screen)
    else
      let mouse := { mouse with
        mousePacketIndex := 0
        index_lt := by decide }
      if packet[0] &&& 0xC0 = 0 then
        let (mouse, screen) := mouseHideCursor mouse screen
        mouseShowCursor (mouseMove mouse (int8 packet[1]) (int8 packet[2])) screen
      else (mouse, screen)

end KbmOs
