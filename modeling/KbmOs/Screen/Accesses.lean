import KbmOs.Screen.Painting
/-!
# The words that drawing touches

The drawing functions once more, with every read and every write of a word
of video memory checked: one outside a given area fails. None of them fails
where the area has the visible words, or, for those that move whole rows,
the words of all rows; and what they then do is what the functions of the
model do.
-/

namespace KbmOs

open Raster Framebuffer

/-- `pixels[k]`, which fails outside the area. -/
def readWord (area : ℕ → Prop) [DecidablePred area] (k : ℕ) (pixels : Pixels) : Option UInt32 :=
  if area k then some (pixels k) else none

/-- `pixels[k] = color`, which fails there. -/
def writeWord (area : ℕ → Prop) [DecidablePred area] (k : ℕ) (color : UInt32) (pixels : Pixels) :
    Option Pixels :=
  if area k then some (Function.update pixels k color) else none

/-- The word is one of the framebuffer's `height * pixels_per_row`. -/
def Framebuffer.InRows (framebuffer : Framebuffer) (k : ℕ) : Prop :=
  k < framebuffer.height * framebuffer.pixelsPerRow

/-- The word is a visible one: a column of its row less than the width. -/
def Framebuffer.InView (framebuffer : Framebuffer) (k : ℕ) : Prop :=
  framebuffer.InRows k ∧ k % framebuffer.pixelsPerRow < framebuffer.width

instance (framebuffer : Framebuffer) : DecidablePred framebuffer.InRows := fun _ =>
  Nat.decLt _ _

instance (framebuffer : Framebuffer) : DecidablePred framebuffer.InView := fun _ =>
  inferInstanceAs (Decidable (_ ∧ _))

variable (framebuffer : Framebuffer) (area : ℕ → Prop) [DecidablePred area]

namespace Checked

def screenPutPixel (xCoordinate yCoordinate : ℕ) (color : UInt32) (pixels : Pixels) :
    Option Pixels :=
  if xCoordinate ≥ framebuffer.width ∨ yCoordinate ≥ framebuffer.height then some pixels
  else writeWord area (framebuffer.wordIndex xCoordinate yCoordinate) color pixels

def screenFill (color : UInt32) : Pixels → Option Pixels :=
  loopM (fun yCoordinate =>
    loopM (fun xCoordinate => screenPutPixel framebuffer area xCoordinate yCoordinate color)
      framebuffer.width)
    framebuffer.height

def screenDrawRect (xCoordinate yCoordinate width height : ℕ) (color : UInt32) :
    Pixels → Option Pixels :=
  loopM (fun yOffset =>
    loopM (fun xOffset =>
      screenPutPixel framebuffer area (wrap (xCoordinate + xOffset)) (wrap (yCoordinate + yOffset)) color)
      width)
    height

def screenDrawGlyph (xCoordinate yCoordinate : ℕ) (glyph : Glyph) (scale : ℕ) (color : UInt32) :
    Pixels → Option Pixels :=
  loopM (fun glyphY =>
    loopM (fun glyphX pixels =>
      if glyphBit glyph glyphX glyphY then
        screenDrawRect framebuffer area (wrap (xCoordinate + wrap (glyphX * scale)))
          (wrap (yCoordinate + wrap (glyphY * scale))) scale scale color pixels
      else some pixels)
      8)
    8

def copyRows (first last pixelRows : ℕ) : Pixels → Option Pixels :=
  loopM (fun i =>
    loopM (fun x pixels => do
      let color ← readWord area
        (framebuffer.wordIndex x (wrap (first + i + pixelRows))) pixels
      writeWord area (framebuffer.wordIndex x (first + i)) color pixels)
      framebuffer.pixelsPerRow)
    (last - first)

def clearRows (first last : ℕ) (color : UInt32) : Pixels → Option Pixels :=
  loopM (fun i =>
    loopM (fun x => writeWord area (framebuffer.wordIndex x (first + i)) color)
      framebuffer.pixelsPerRow)
    (last - first)

def screenScrollUp (pixelRows : ℕ) (backgroundColor : UInt32) (pixels : Pixels) :
    Option Pixels :=
  if pixelRows ≥ framebuffer.height then screenFill framebuffer area backgroundColor pixels
  else do
    let pixels ← copyRows framebuffer area 0 (framebuffer.height - pixelRows) pixelRows pixels
    clearRows framebuffer area (framebuffer.height - pixelRows) framebuffer.height backgroundColor pixels

def screenScrollRegionUp (topY pixelRows : ℕ) (backgroundColor : UInt32) (pixels : Pixels) :
    Option Pixels :=
  if topY ≥ framebuffer.height then some pixels
  else
    let regionHeight := framebuffer.height - topY
    if pixelRows ≥ regionHeight then
      screenDrawRect framebuffer area 0 topY framebuffer.width regionHeight backgroundColor pixels
    else do
      let pixels ← copyRows framebuffer area topY (framebuffer.height - pixelRows) pixelRows pixels
      clearRows framebuffer area (framebuffer.height - pixelRows) framebuffer.height backgroundColor
        pixels

end Checked

variable {framebuffer} {area} {x y k first last n : ℕ} {q : Position} {c : UInt32}
variable {pixels : Pixels}

/-! ## Words -/

theorem Framebuffer.inRows_word (hx : q.1 < framebuffer.pixelsPerRow)
    (hy : q.2 < framebuffer.height) : framebuffer.InRows (framebuffer.word q) := word_lt hx hy

/-- **The words in view are those of the visible positions.** -/
theorem Framebuffer.inView_iff : framebuffer.InView k ↔ k ∈ framebuffer.words Set.univ := by
  constructor
  · rintro ⟨hrows, hcol⟩
    unfold InRows at hrows
    refine ⟨(k % framebuffer.pixelsPerRow, k / framebuffer.pixelsPerRow), trivial,
      ⟨hcol, Nat.div_lt_of_lt_mul (by rwa [Nat.mul_comm])⟩, ?_⟩
    exact (Nat.div_add_mod' k framebuffer.pixelsPerRow).symm
  · rintro ⟨q, -, hv, rfl⟩
    refine ⟨inRows_word hv.column_lt hv.2, ?_⟩
    unfold word
    rw [Nat.mul_comm, Nat.mul_add_mod, Nat.mod_eq_of_lt hv.column_lt]
    exact hv.1

theorem readWord_eq (h : area k) : readWord area k pixels = some (pixels k) := if_pos h

theorem writeWord_eq (h : area k) :
    writeWord area k c pixels = some (Function.update pixels k c) := if_pos h

/-! ## Pixels, rectangles, glyphs -/

section View

variable (hview : ∀ q, framebuffer.Visible q → area (framebuffer.word q))
include hview

theorem Checked.screenPutPixel_eq (x y : ℕ) (c : UInt32) (pixels : Pixels) :
    Checked.screenPutPixel framebuffer area x y c pixels =
      some (KbmOs.screenPutPixel framebuffer x y c pixels) := by
  unfold Checked.screenPutPixel KbmOs.screenPutPixel
  split
  · rfl
  · rename_i hin
    have hv : framebuffer.Visible (x, y) := ⟨by omega, by omega⟩
    refine writeWord_eq ?_
    rw [wordIndex_eq hv.column_lt hv.2]
    exact hview _ hv

theorem Checked.screenFill_eq (c : UInt32) (pixels : Pixels) :
    Checked.screenFill framebuffer area c pixels = some (KbmOs.screenFill framebuffer c pixels) :=
  loopM_eq_some (fun _ _ => loopM_eq_some fun _ _ => screenPutPixel_eq hview _ _ c) pixels

theorem Checked.screenDrawRect_eq (x y width height : ℕ) (c : UInt32) (pixels : Pixels) :
    Checked.screenDrawRect framebuffer area x y width height c pixels =
      some (KbmOs.screenDrawRect framebuffer x y width height c pixels) :=
  loopM_eq_some (fun _ _ => loopM_eq_some fun _ _ => screenPutPixel_eq hview _ _ c) pixels

/-- **A glyph touches visible words only.** -/
theorem Checked.screenDrawGlyph_eq (x y : ℕ) (glyph : Glyph) (scale : ℕ) (c : UInt32)
    (pixels : Pixels) : Checked.screenDrawGlyph framebuffer area x y glyph scale c pixels =
      some (KbmOs.screenDrawGlyph framebuffer x y glyph scale c pixels) := by
  refine loopM_eq_some (fun i _ => loopM_eq_some fun j _ pixels => ?_) pixels
  split
  · exact screenDrawRect_eq hview _ _ _ _ c pixels
  · rfl

end View

/-! ## Rows -/

section Rows

variable (hrows : ∀ k, framebuffer.InRows k → area k)
include hrows

omit [DecidablePred area] in
/-- The words of a row are in the rows. -/
theorem area_wordIndex (hx : x < framebuffer.pixelsPerRow) (hy : y < framebuffer.height) :
    area (framebuffer.wordIndex x y) := by
  rw [wordIndex_eq hx hy]
  exact hrows _ (inRows_word hx hy)

omit [DecidablePred area] in
theorem area_visible (q : Position) (hv : framebuffer.Visible q) : area (framebuffer.word q) :=
  hrows _ (inRows_word hv.column_lt hv.2)

theorem Checked.copyRows_eq (hlast : last + n ≤ framebuffer.height) (pixels : Pixels) :
    Checked.copyRows framebuffer area first last n pixels =
      some (KbmOs.copyRows framebuffer first last n pixels) := by
  have hheight := framebuffer.height_lt
  refine loopM_eq_some (fun i hi => loopM_eq_some fun x hx pixels => ?_) pixels
  have hsource : wrap (first + i + n) = first + i + n := wrap_of_lt (by omega)
  rw [readWord_eq (area_wordIndex hrows hx (by omega)), Option.bind_eq_bind, Option.bind_some,
    writeWord_eq (area_wordIndex hrows hx (by omega))]

theorem Checked.clearRows_eq (hlast : last ≤ framebuffer.height) (c : UInt32) (pixels : Pixels) :
    Checked.clearRows framebuffer area first last c pixels =
      some (KbmOs.clearRows framebuffer first last c pixels) :=
  loopM_eq_some (fun _ _ => loopM_eq_some fun _ hx _ =>
    writeWord_eq (area_wordIndex hrows hx (by omega))) pixels

/-- **Scrolling touches words of the rows only.** -/
theorem Checked.screenScrollUp_eq (n : ℕ) (c : UInt32) (pixels : Pixels) :
    Checked.screenScrollUp framebuffer area n c pixels =
      some (KbmOs.screenScrollUp framebuffer n c pixels) := by
  unfold Checked.screenScrollUp KbmOs.screenScrollUp
  split
  · exact screenFill_eq (area_visible hrows) c pixels
  · rename_i hsome
    rw [copyRows_eq hrows (by omega), Option.bind_eq_bind, Option.bind_some,
      clearRows_eq hrows le_rfl]

theorem Checked.screenScrollRegionUp_eq (top n : ℕ) (c : UInt32) (pixels : Pixels) :
    Checked.screenScrollRegionUp framebuffer area top n c pixels =
      some (KbmOs.screenScrollRegionUp framebuffer top n c pixels) := by
  unfold Checked.screenScrollRegionUp KbmOs.screenScrollRegionUp
  split
  · rfl
  · rename_i htop
    dsimp only
    split
    · exact screenDrawRect_eq (area_visible hrows) _ _ _ _ c pixels
    · rename_i hsome
      rw [copyRows_eq hrows (by omega), Option.bind_eq_bind, Option.bind_some,
        clearRows_eq hrows le_rfl]

end Rows

end KbmOs
