import KbmOs.Kernel
import KbmOs.Lib.Raster
/-!
# The framebuffer

`drivers/framebuffer.c`, function by function, on the words of video
memory. A row of the framebuffer has `pitch / 4` words, of which the first
`width` are visible; every access goes through the row's start.
-/

namespace KbmOs

open Raster

/-- What Limine hands over: the visible size, and the bytes from one row
to the next. -/
structure Framebuffer where
  width : ℕ
  height : ℕ
  pitch : ℕ
  height_lt : height < 2 ^ 64
  pitch_lt : pitch < 2 ^ 64
  /-- A row holds its visible pixels. -/
  stride : width ≤ pitch / 4
  /-- The rows lie in memory. -/
  inMemory : height * pitch < 2 ^ 64

/-- The words at the framebuffer's address. -/
abbrev Pixels := ℕ → UInt32

/-- A bitmap of one character: a byte a row, the leftmost pixel its highest
bit. -/
abbrev Glyph := Vector (BitVec 8) 8

namespace Framebuffer

/-- `pitch / sizeof(*pixels)`. -/
def pixelsPerRow (framebuffer : Framebuffer) : ℕ := framebuffer.pitch / 4

/-- `y_coordinate * pixels_per_row + x_coordinate`. -/
def wordIndex (framebuffer : Framebuffer) (xCoordinate yCoordinate : ℕ) : ℕ :=
  wrap (yCoordinate * framebuffer.pixelsPerRow + xCoordinate)

end Framebuffer

variable (framebuffer : Framebuffer)

def screenPutPixel (xCoordinate yCoordinate : ℕ) (color : UInt32) (pixels : Pixels) : Pixels :=
  if xCoordinate ≥ framebuffer.width ∨ yCoordinate ≥ framebuffer.height then pixels
  else Function.update pixels (framebuffer.wordIndex xCoordinate yCoordinate) color

def screenFill (color : UInt32) : Pixels → Pixels :=
  loop (fun yCoordinate =>
    loop (fun xCoordinate => screenPutPixel framebuffer xCoordinate yCoordinate color)
      framebuffer.width)
    framebuffer.height

def screenDrawRect (xCoordinate yCoordinate width height : ℕ) (color : UInt32) : Pixels → Pixels :=
  loop (fun yOffset =>
    loop (fun xOffset =>
      screenPutPixel framebuffer (wrap (xCoordinate + xOffset)) (wrap (yCoordinate + yOffset)) color)
      width)
    height

/-- `(row & (1u << (7 - glyph_x))) != 0`, at the glyph's row `glyphY`. -/
def glyphBit (glyph : Glyph) (glyphX glyphY : ℕ) : Bool :=
  glyph.getD glyphY 0 &&& (1#8 <<< (7 - glyphX)) != 0

/-- A set bit becomes a `scale`-by-`scale` rectangle. -/
def screenDrawGlyph (xCoordinate yCoordinate : ℕ) (glyph : Glyph) (scale : ℕ) (color : UInt32) :
    Pixels → Pixels :=
  loop (fun glyphY =>
    loop (fun glyphX pixels =>
      if glyphBit glyph glyphX glyphY then
        screenDrawRect framebuffer (wrap (xCoordinate + wrap (glyphX * scale)))
          (wrap (yCoordinate + wrap (glyphY * scale))) scale scale color pixels
      else pixels)
      8)
    8

/-- Every word of the rows from `first` up to `last` is overwritten with
the one `pixelRows` rows below it. -/
def copyRows (first last pixelRows : ℕ) : Pixels → Pixels :=
  loop (fun i =>
    loop (fun x pixels =>
      Function.update pixels (framebuffer.wordIndex x (first + i))
        (pixels (framebuffer.wordIndex x (wrap (first + i + pixelRows)))))
      framebuffer.pixelsPerRow)
    (last - first)

/-- Every word of those rows takes the colour. -/
def clearRows (first last : ℕ) (color : UInt32) : Pixels → Pixels :=
  loop (fun i =>
    loop (fun x pixels => Function.update pixels (framebuffer.wordIndex x (first + i)) color)
      framebuffer.pixelsPerRow)
    (last - first)

def screenScrollUp (pixelRows : ℕ) (backgroundColor : UInt32) (pixels : Pixels) : Pixels :=
  if pixelRows ≥ framebuffer.height then screenFill framebuffer backgroundColor pixels
  else
    clearRows framebuffer (framebuffer.height - pixelRows) framebuffer.height backgroundColor
      (copyRows framebuffer 0 (framebuffer.height - pixelRows) pixelRows pixels)

def screenScrollRegionUp (topY pixelRows : ℕ) (backgroundColor : UInt32) (pixels : Pixels) :
    Pixels :=
  if topY ≥ framebuffer.height then pixels
  else
    let regionHeight := framebuffer.height - topY
    if pixelRows ≥ regionHeight then
      screenDrawRect framebuffer 0 topY framebuffer.width regionHeight backgroundColor pixels
    else
      clearRows framebuffer (framebuffer.height - pixelRows) framebuffer.height backgroundColor
        (copyRows framebuffer topY (framebuffer.height - pixelRows) pixelRows pixels)

def screenGetPixel (xCoordinate yCoordinate : ℕ) (pixels : Pixels) : UInt32 :=
  if xCoordinate ≥ framebuffer.width ∨ yCoordinate ≥ framebuffer.height then 0
  else pixels (framebuffer.wordIndex xCoordinate yCoordinate)

end KbmOs
