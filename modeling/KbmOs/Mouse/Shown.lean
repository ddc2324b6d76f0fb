import KbmOs.Mouse.Movement
/-!
# The cursor where the mouse is

`Covers` leaves open what the screen shows under the cursor. As long as only
the mouse draws, the cursor is always visible, its square lies on the
screen at the mouse's position, and there the screen shows its colour:
`Shown` holds after `mouse_init`, and every byte keeps it, whatever packets
the bytes make.
-/

namespace KbmOs

open Raster Framebuffer

/-- **The mouse is on its screen**: the cursor's square fits there. -/
structure Mouse.Placed (mouse : Mouse) : Prop where
  width : mouse.mouseScreenWidth = mouse.mouseFramebuffer.width
  height : mouse.mouseScreenHeight = mouse.mouseFramebuffer.height
  x : 0 ≤ mouse.mouseX ∧ mouse.mouseX ≤ mouse.mouseFramebuffer.width - 4
  y : 0 ≤ mouse.mouseY ∧ mouse.mouseY ≤ mouse.mouseFramebuffer.height - 4

/-- **The screen is the picture with the cursor at the mouse.** -/
structure Shown (mouse : Mouse) (screen picture : Pixels) : Prop
    extends Covers mouse screen picture where
  visible : mouse.mouseCursorVisible ≠ 0
  placed : mouse.Placed
  here : mouse.mouseOldX = mouse.mouseX ∧ mouse.mouseOldY = mouse.mouseY
  drawn : ∀ k ∈ mouse.cover, screen k = mouseCursorColor

/-- The sums that `mouse_irq` makes of the position and the bytes of a
packet do not overflow, nor do the positions it clamps to. -/
def Mouse.MovesFit (mouse : Mouse) : Prop :=
  ∀ xByte yByte : UInt8, int32 (mouse.mouseX + int8 xByte) = mouse.mouseX + int8 xByte ∧
    int32 (mouse.mouseY - int8 yByte) = mouse.mouseY - int8 yByte ∧
    int32 (wrapSub mouse.mouseScreenWidth mouseCursorSize) = mouse.mouseScreenWidth - 4 ∧
    int32 (wrapSub mouse.mouseScreenHeight mouseCursorSize) = mouse.mouseScreenHeight - 4

/-- The screens the cursor is for. -/
structure Framebuffer.HoldsCursor (framebuffer : Framebuffer) : Prop where
  width : 8 ≤ framebuffer.width ∧ framebuffer.width ≤ 2 ^ 30
  height : 8 ≤ framebuffer.height ∧ framebuffer.height ≤ 2 ^ 30

variable {mouse : Mouse} {framebuffer : Framebuffer} {screen picture : Pixels}
variable {row column : ℕ}

theorem int32_bounds (n : ℤ) : -2 ^ 31 ≤ int32 n ∧ int32 n < 2 ^ 31 := by
  unfold int32
  rw [Int.bmod_def]
  split <;> omega

/-! ## The square -/

theorem toUint64_of_nonneg {n : ℤ} (h : 0 ≤ n) (hlt : n < 2 ^ 64) : toUint64 n = n.toNat := by
  unfold toUint64
  omega

/-- On the screen the square's places do not wrap. -/
theorem Mouse.Placed.spot_eq (h : mouse.Placed) (hfb : mouse.mouseFramebuffer.HoldsCursor)
    (hr : row < 4) (hc : column < 4) : spot mouse.mouseX mouse.mouseY row column =
      (mouse.mouseX.toNat + column, mouse.mouseY.toNat + row) := by
  obtain ⟨hx, hx'⟩ := h.x
  obtain ⟨hy, hy'⟩ := h.y
  have hwidth := hfb.width
  have hheight := hfb.height
  unfold spot
  rw [toUint64_of_nonneg hx (by omega), toUint64_of_nonneg hy (by omega), wrap_of_lt (by omega),
    wrap_of_lt (by omega)]

theorem Mouse.Placed.visible (h : mouse.Placed) (hr : row < 4) (hc : column < 4) :
    mouse.mouseFramebuffer.Visible (mouse.mouseX.toNat + column, mouse.mouseY.toNat + row) := by
  obtain ⟨hx, hx'⟩ := h.x
  obtain ⟨hy, hy'⟩ := h.y
  exact ⟨by dsimp only; omega, by dsimp only; omega⟩

/-- **The square is the rectangle at the mouse.** -/
theorem Mouse.Placed.square_eq (h : mouse.Placed) (hfb : mouse.mouseFramebuffer.HoldsCursor) :
    cursorSquare mouse.mouseX mouse.mouseY =
      rectangle mouse.mouseX.toNat mouse.mouseY.toNat 4 4 := by
  ext q
  constructor
  · rintro ⟨row, hr, column, hc, rfl⟩
    rw [h.spot_eq hfb hr hc]
    exact ⟨Nat.le_add_right _ _, Nat.add_lt_add_left hc _, Nat.le_add_right _ _,
      Nat.add_lt_add_left hr _⟩
  · rintro ⟨h1, h2, h3, h4⟩
    refine ⟨q.2 - mouse.mouseY.toNat, by omega, q.1 - mouse.mouseX.toNat, by omega, ?_⟩
    rw [h.spot_eq hfb (by omega) (by omega), Nat.add_sub_cancel' h1, Nat.add_sub_cancel' h3]

theorem Mouse.Placed.movesFit (h : mouse.Placed) (hfb : mouse.mouseFramebuffer.HoldsCursor) :
    mouse.MovesFit := by
  intro xByte yByte
  obtain ⟨hx, hx'⟩ := h.x
  obtain ⟨hy, hy'⟩ := h.y
  have hwidth := hfb.width
  have hheight := hfb.height
  have hxByte := int8_eq xByte
  have hyByte := int8_eq yByte
  have hxLt := xByte.toNat_lt
  have hyLt := yByte.toNat_lt
  have hright : wrapSub mouse.mouseFramebuffer.width mouseCursorSize =
      mouse.mouseFramebuffer.width - 4 := wrapSub_of_le (by omega) (le_trans (by decide) hwidth.1)
  have hbottom : wrapSub mouse.mouseFramebuffer.height mouseCursorSize =
      mouse.mouseFramebuffer.height - 4 := wrapSub_of_le (by omega) (le_trans (by decide) hheight.1)
  rw [h.width, h.height, hright, hbottom]
  refine ⟨int32_of_lt ?_ ?_, int32_of_lt ?_ ?_, ?_, ?_⟩
  · split at hxByte <;> omega
  · split at hxByte <;> omega
  · split at hyByte <;> omega
  · split at hyByte <;> omega
  · rw [int32_of_lt (by omega) (by omega)]
    omega
  · rw [int32_of_lt (by omega) (by omega)]
    omega

/-! ## The mouse alone -/

/-- **Showing the cursor shows it at the mouse.** -/
theorem shown_show (hhidden : mouse.mouseCursorVisible = 0) (hplaced : mouse.Placed)
    (screen : Pixels) :
    Shown (mouseShowCursor mouse screen).1 (mouseShowCursor mouse screen).2 screen := by
  have hcovers := covers_show hhidden screen
  have hshow : mouseShowCursor mouse screen = _ := if_neg (not_not.2 hhidden)
  rw [hshow] at hcovers ⊢
  refine ⟨hcovers, one_ne_zero, ⟨hplaced.width, hplaced.height, hplaced.x, hplaced.y⟩, ⟨rfl, rfl⟩,
    fun k hk => ?_⟩
  have hcover : k ∈ mouse.mouseFramebuffer.words (cursorSquare mouse.mouseX mouse.mouseY) := hk
  dsimp only
  rw [screenDrawRect_eq_wrap]
  obtain ⟨q, ⟨row, hr, column, hc, rfl⟩, hv, rfl⟩ := hcover
  exact paint_of_mem ((mem_words hv).2 ⟨row, hr, column, hc, rfl⟩)

/-- **After `mouse_init` it is in the middle.** -/
theorem shown_init (hfb : framebuffer.HoldsCursor) (screen : Pixels) :
    Shown (mouseInit (Mouse.atBoot framebuffer) framebuffer screen).1
      (mouseInit (Mouse.atBoot framebuffer) framebuffer screen).2 screen := by
  have hwidth := hfb.width
  have hheight := hfb.height
  have hx : int32 (framebuffer.width / 2 : ℕ) = (framebuffer.width / 2 : ℕ) :=
    int32_of_lt (by omega) (by omega)
  have hy : int32 (framebuffer.height / 2 : ℕ) = (framebuffer.height / 2 : ℕ) :=
    int32_of_lt (by omega) (by omega)
  unfold mouseInit
  refine shown_show rfl ⟨rfl, rfl, ?_, ?_⟩ screen
  · dsimp only
    rw [hx]
    omega
  · dsimp only
    rw [hy]
    omega

theorem mouseClamp_bounds {coordinate : ℤ} {dimension : ℕ} (hlow : 8 ≤ dimension)
    (hhigh : dimension ≤ 2 ^ 30) (hfits : int32 coordinate = coordinate) :
    0 ≤ mouseClamp (int32 coordinate) dimension ∧
      mouseClamp (int32 coordinate) dimension ≤ dimension - 4 := by
  have hrange := int32_bounds coordinate
  rw [hfits] at hrange
  rw [mouseClamp_eq (by omega) hhigh hrange.1 hrange.2]
  unfold keptOn
  omega

/-- **A move stays on the screen.** -/
theorem Mouse.Placed.move (h : mouse.Placed) (hfb : mouse.mouseFramebuffer.HoldsCursor)
    (xByte yByte : UInt8) : (mouseMove mouse (int8 xByte) (int8 yByte)).Placed := by
  obtain ⟨hxFits, hyFits, -, -⟩ := h.movesFit hfb xByte yByte
  have hx := mouseClamp_bounds hfb.width.1 hfb.width.2 hxFits
  have hy := mouseClamp_bounds hfb.height.1 hfb.height.2 hyFits
  unfold mouseMove
  rw [h.width, h.height]
  exact ⟨rfl, rfl, hx, hy⟩

/-- The framebuffer is given to the driver once. -/
theorem mouseIrq_framebuffer (mouse : Mouse) (mouseByte : UInt8) (screen : Pixels) :
    (mouseIrq mouse mouseByte screen).1.mouseFramebuffer = mouse.mouseFramebuffer := by
  rcases mouseIrq_cases mouse mouseByte screen with ⟨packet, index, hlt, heq⟩ |
    ⟨packet, xByte, yByte, heq⟩
  · rw [heq]
  · rw [heq]
    rfl

/-- **A byte of the mouse keeps the cursor shown.** -/
theorem Shown.mouseIrq (h : Shown mouse screen picture)
    (hfb : mouse.mouseFramebuffer.HoldsCursor) (mouseByte : UInt8) :
    Shown (mouseIrq mouse mouseByte screen).1 (mouseIrq mouse mouseByte screen).2 picture := by
  rcases mouseIrq_cases mouse mouseByte screen with ⟨packet, index, hlt, heq⟩ |
    ⟨packet, xByte, yByte, heq⟩
  · rw [heq]
    exact ⟨⟨h.off, h.saved⟩, h.visible,
      ⟨h.placed.width, h.placed.height, h.placed.x, h.placed.y⟩, h.here, h.drawn⟩
  · rw [heq, h.hide]
    have hplaced : Mouse.Placed { mouse with
        mousePacket := packet
        mousePacketIndex := 0
        index_lt := by decide
        mouseCursorVisible := 0 } := ⟨h.placed.width, h.placed.height, h.placed.x, h.placed.y⟩
    refine shown_show ?_ (hplaced.move hfb xByte yByte) picture
    rfl

/-- Any number of bytes does. -/
theorem Shown.mouseIrqs (h : Shown mouse screen picture) (hfb : framebuffer.HoldsCursor)
    (hframebuffer : mouse.mouseFramebuffer = framebuffer) (bytes : List UInt8) :
    (mouseIrqs mouse screen bytes).1.mouseFramebuffer = framebuffer ∧
      Shown (mouseIrqs mouse screen bytes).1 (mouseIrqs mouse screen bytes).2 picture := by
  induction bytes generalizing mouse screen with
  | nil => exact ⟨hframebuffer, h⟩
  | cons byte bytes ih =>
    refine ih (h.mouseIrq (by rwa [hframebuffer]) byte) ?_
    rw [mouseIrq_framebuffer, hframebuffer]

/-! ## The screen -/

/-- **What the mouse and the screen look like** over a picture: the cursor
is a square of the screen in its colour, all else is the picture, and what
the square covers is saved. -/
structure CursorOver (mouse : Mouse) (screen picture : Pixels) : Prop where
  x : 0 ≤ mouse.mouseX ∧ mouse.mouseX ≤ mouse.mouseFramebuffer.width - 4
  y : 0 ≤ mouse.mouseY ∧ mouse.mouseY ≤ mouse.mouseFramebuffer.height - 4
  fits : mouse.MovesFit
  inside : ∀ q, mouse.mouseFramebuffer.Visible q →
    q ∈ rectangle mouse.mouseX.toNat mouse.mouseY.toNat 4 4 →
      mouse.mouseFramebuffer.picture screen q = mouseCursorColor
  outside : ∀ q, mouse.mouseFramebuffer.Visible q →
    q ∉ rectangle mouse.mouseX.toNat mouse.mouseY.toNat 4 4 →
      mouse.mouseFramebuffer.picture screen q = mouse.mouseFramebuffer.picture picture q
  saved : ∀ row, row < 4 → ∀ column, column < 4 →
    mouse.pixels[row * 4 + column]? = some (mouse.mouseFramebuffer.picture picture
      (mouse.mouseX.toNat + column, mouse.mouseY.toNat + row))
  restores : (mouseHideCursor mouse screen).2 = picture

/-- **It is what the driver keeps.** -/
theorem Shown.cursorOver (h : Shown mouse screen picture)
    (hfb : mouse.mouseFramebuffer.HoldsCursor) : CursorOver mouse screen picture := by
  have hsquare := h.placed.square_eq hfb
  have hcover : mouse.cover =
      mouse.mouseFramebuffer.words (rectangle mouse.mouseX.toNat mouse.mouseY.toNat 4 4) := by
    unfold Mouse.cover
    rw [if_neg h.visible, h.here.1, h.here.2, hsquare]
  refine ⟨h.placed.x, h.placed.y, h.placed.movesFit hfb, fun q hv hq => ?_, fun q hv hq => ?_,
    fun row hr column hc => ?_, h.hide⟩
  · refine h.drawn _ ?_
    rw [hcover]
    exact (mem_words hv).2 hq
  · refine h.off _ ?_
    rw [hcover]
    exact fun hmem => hq ((mem_words hv).1 hmem)
  · have hsaved := h.saved h.visible row hr column hc
    rw [h.here.1, h.here.2, h.placed.spot_eq hfb hr hc] at hsaved
    have hindex : row * 4 + column < 16 := by omega
    rw [← hsaved (h.placed.visible hr hc), Vector.getElem?_eq_getElem hindex, Option.getD_some]

/-- **The cursor overlay.** On every screen that holds the cursor, whatever
picture is on it at `mouse_init` and whatever bytes the mouse sends from
then on: after each byte the screen is the picture with the cursor over it
at the mouse's position. -/
theorem cursor_overlay (framebuffer : Framebuffer) (hfb : framebuffer.HoldsCursor)
    (picture : Pixels) (bytes : List UInt8) :
    let start := mouseInit (Mouse.atBoot framebuffer) framebuffer picture
    (mouseIrqs start.1 start.2 bytes).1.mouseFramebuffer = framebuffer ∧
      CursorOver (mouseIrqs start.1 start.2 bytes).1 (mouseIrqs start.1 start.2 bytes).2
        picture := by
  dsimp only
  obtain ⟨hframebuffer, hshown⟩ := (shown_init hfb picture).mouseIrqs hfb rfl bytes
  refine ⟨hframebuffer, hshown.cursorOver ?_⟩
  rwa [hframebuffer]

/-- A packet and a stray byte. -/
theorem cursor_overlay_wideScreen : CursorOver
    (mouseIrqs sampleMouse (mouseInit (Mouse.atBoot wideScreen) wideScreen fun _ => 0).2
      [0x08, 0x10, 0x10, 0x00]).1
    (mouseIrqs sampleMouse (mouseInit (Mouse.atBoot wideScreen) wideScreen fun _ => 0).2
      [0x08, 0x10, 0x10, 0x00]).2 fun _ => 0 :=
  (cursor_overlay wideScreen ⟨by decide, by decide⟩ (fun _ => 0) [0x08, 0x10, 0x10, 0x00]).2

end KbmOs
