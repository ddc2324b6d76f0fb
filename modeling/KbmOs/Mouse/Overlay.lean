import KbmOs.Mouse.Model
import KbmOs.Screen.Painting
/-!
# The cursor over the picture

`Covers` says that the screen is a picture with the cursor over it: off the
cursor's words the two agree, and what the picture has under the cursor is
saved. Hiding the cursor then gives the picture back, showing it covers
whatever is on the screen, and the mouse alone always covers the same
picture.
-/

namespace KbmOs

open Raster Framebuffer

/-- A place in the square at the coordinates. -/
def spot (x y : ℤ) (row column : ℕ) : Position :=
  (wrap (toUint64 x + column), wrap (toUint64 y + row))

/-- The square. -/
def cursorSquare (x y : ℤ) : Set Position :=
  {q | ∃ row, row < 4 ∧ ∃ column, column < 4 ∧ q = spot x y row column}

/-- The words the visible cursor is drawn over. -/
def Mouse.cover (mouse : Mouse) : Set ℕ :=
  if mouse.mouseCursorVisible = 0 then ∅
  else mouse.mouseFramebuffer.words (cursorSquare mouse.mouseOldX mouse.mouseOldY)

/-- **The screen is the picture under the cursor.** -/
structure Covers (mouse : Mouse) (screen picture : Pixels) : Prop where
  off : ∀ k, k ∉ mouse.cover → screen k = picture k
  saved : mouse.mouseCursorVisible ≠ 0 → ∀ row, row < 4 → ∀ column, column < 4 →
    mouse.mouseFramebuffer.Visible (spot mouse.mouseOldX mouse.mouseOldY row column) →
      mouse.pixels[row * 4 + column]?.getD 0 =
        mouse.mouseFramebuffer.picture picture (spot mouse.mouseOldX mouse.mouseOldY row column)

variable {mouse : Mouse} {screen picture : Pixels} {k : ℕ}

/-- Different places in the square are different. -/
theorem spot_inj {x y : ℤ} {row row' column column' : ℕ} (hr : row < 4) (hr' : row' < 4)
    (hc : column < 4) (hc' : column' < 4) (h : spot x y row column = spot x y row' column') :
    row = row' ∧ column = column' := by
  unfold spot wrap at h
  obtain ⟨hcolumn, hrow⟩ := Prod.mk.inj h
  omega

theorem mem_cursorSquare {x y : ℤ} {row column : ℕ} (hr : row < 4) (hc : column < 4) :
    spot x y row column ∈ cursorSquare x y := ⟨row, hr, column, hc, rfl⟩

/-! ## Putting back -/

/-- A pixel that is put elsewhere. -/
theorem screenPutPixel_of_ne {framebuffer : Framebuffer} {p q : Position} (c : UInt32)
    (hq : framebuffer.Visible q) (hne : q ≠ p) (screen : Pixels) :
    screenPutPixel framebuffer p.1 p.2 c screen (framebuffer.word q) =
      screen (framebuffer.word q) := by
  rw [screenPutPixel_eq]
  exact picture_paint_of_not_mem hq fun hmem => hne (Set.mem_singleton_iff.1 hmem)

/-- **Off the square nothing is put back.** -/
theorem restore_off (hk : k ∉ mouse.mouseFramebuffer.words
    (cursorSquare mouse.mouseOldX mouse.mouseOldY)) (screen : Pixels) :
    mouseRestoreCursorBackground mouse screen k = screen k := by
  refine loop_keeps (fun row hr => loop_keeps fun column hc screen => ?_) screen
  rw [screenPutPixel_eq]
  refine paint_of_not_mem fun hmem => hk ?_
  obtain ⟨q, hq, hv, rfl⟩ := hmem
  rw [Set.mem_singleton_iff.1 hq] at hv ⊢
  exact (mem_words hv).2 (mem_cursorSquare hr hc)

/-- **On it what was saved is.** -/
theorem restore_spot {row column : ℕ} (hr : row < 4) (hc : column < 4)
    (hv : mouse.mouseFramebuffer.Visible (spot mouse.mouseOldX mouse.mouseOldY row column))
    (screen : Pixels) : mouseRestoreCursorBackground mouse screen
      (mouse.mouseFramebuffer.word (spot mouse.mouseOldX mouse.mouseOldY row column)) =
        mouse.pixels[row * 4 + column]?.getD 0 := by
  refine loop_writes hr (fun screen => loop_writes hc (fun screen => ?_) ?_ screen)
    (fun row' hr' hne => loop_keeps fun column' hc' screen => ?_) screen
  · rw [screenPutPixel_eq]
    exact picture_paint hv rfl
  · intro column' hc' hne screen
    exact screenPutPixel_of_ne _ hv (fun heq => hne (spot_inj hr hr hc hc' heq).2.symm) screen
  · exact screenPutPixel_of_ne _ hv (fun heq => hne (spot_inj hr hr' hc hc' heq).1.symm) screen

/-! ## Hiding and showing -/

theorem mouseHideCursor_fst (mouse : Mouse) (screen : Pixels) :
    (mouseHideCursor mouse screen).1 = { mouse with mouseCursorVisible := 0 } := by
  unfold mouseHideCursor
  split
  · rename_i hhidden
    rw [← hhidden]
  · rfl

/-- **Hiding the cursor gives the picture back.** -/
theorem Covers.hide (h : Covers mouse screen picture) :
    (mouseHideCursor mouse screen).2 = picture := by
  funext k
  unfold mouseHideCursor
  by_cases hhidden : mouse.mouseCursorVisible = 0
  · rw [if_pos hhidden]
    refine h.off k ?_
    unfold Mouse.cover
    rw [if_pos hhidden]
    exact Set.notMem_empty k
  · rw [if_neg hhidden]
    dsimp only
    have hcover : mouse.cover = mouse.mouseFramebuffer.words
        (cursorSquare mouse.mouseOldX mouse.mouseOldY) := if_neg hhidden
    -- on the square what is put back was saved, off it nothing was drawn
    by_cases hk : k ∈ mouse.cover
    · rw [hcover] at hk
      obtain ⟨q, ⟨row, hr, column, hc, rfl⟩, hv, rfl⟩ := hk
      rw [restore_spot hr hc hv]
      exact h.saved hhidden row hr column hc hv
    · rw [restore_off (by rwa [hcover] at hk)]
      exact h.off k hk

/-- What is saved is what is on the screen. -/
theorem save_spot {row column : ℕ} (hr : row < 4) (hc : column < 4)
    (hv : mouse.mouseFramebuffer.Visible (spot mouse.mouseX mouse.mouseY row column))
    (screen : Pixels) : (mouseSaveCursorBackground mouse screen).pixels[row * 4 + column]?.getD 0 =
      mouse.mouseFramebuffer.picture screen (spot mouse.mouseX mouse.mouseY row column) := by
  have hindex : row * 4 + column < 16 := by omega
  have hrow : (row * 4 + column) / 4 = row := by omega
  have hcolumn : (row * 4 + column) % 4 = column := by omega
  unfold mouseSaveCursorBackground
  dsimp only
  rw [Vector.getElem?_eq_getElem hindex, Option.getD_some, Vector.getElem_ofFn]
  unfold mouseCursorSize
  rw [hrow, hcolumn]
  -- a visible pixel is read from video memory
  have hin : ¬ (wrap (toUint64 mouse.mouseX + column) ≥ mouse.mouseFramebuffer.width ∨
      wrap (toUint64 mouse.mouseY + row) ≥ mouse.mouseFramebuffer.height) := fun hout =>
    hout.elim (not_le.2 hv.1) (not_le.2 hv.2)
  unfold screenGetPixel
  rw [if_neg hin]
  exact congrArg screen (wordIndex_eq hv.column_lt hv.2)

/-- **Showing the cursor covers the screen.** -/
theorem covers_show (hhidden : mouse.mouseCursorVisible = 0) (screen : Pixels) :
    Covers (mouseShowCursor mouse screen).1 (mouseShowCursor mouse screen).2 screen := by
  have hshow : mouseShowCursor mouse screen = _ := if_neg (not_not.2 hhidden)
  rw [hshow]
  refine ⟨fun k hk => ?_, fun _ row hr column hc hv => ?_⟩
  · have hcover : k ∉ mouse.mouseFramebuffer.words (cursorSquare mouse.mouseX mouse.mouseY) := hk
    dsimp only
    rw [screenDrawRect_eq_wrap]
    refine paint_of_not_mem fun hmem => hcover ?_
    obtain ⟨q, ⟨row, hr, column, hc, rfl⟩, hv, rfl⟩ := hmem
    exact (mem_words hv).2 (mem_cursorSquare hr hc)
  · exact save_spot hr hc hv screen

/-! ## The mouse alone -/

theorem covers_init (mouse : Mouse) (framebuffer : Framebuffer)
    (hhidden : mouse.mouseCursorVisible = 0) (screen : Pixels) :
    Covers (mouseInit mouse framebuffer screen).1 (mouseInit mouse framebuffer screen).2
      screen := by
  unfold mouseInit
  refine covers_show ?_ screen
  exact hhidden

/-- **What a byte of the mouse does**: nothing to the screen, or the cursor
is hidden, moved and shown. -/
theorem mouseIrq_cases (mouse : Mouse) (mouseByte : UInt8) (screen : Pixels) :
    (∃ packet index, ∃ h : index < 3, mouseIrq mouse mouseByte screen =
      ({ mouse with mousePacket := packet, mousePacketIndex := index, index_lt := h }, screen)) ∨
    ∃ packet xByte yByte, mouseIrq mouse mouseByte screen =
      mouseShowCursor (mouseMove { mouse with
        mousePacket := packet
        mousePacketIndex := 0
        index_lt := by decide
        mouseCursorVisible := 0 } (int8 xByte) (int8 yByte)) (mouseHideCursor mouse screen).2 := by
  have hhide : ∀ packet, ∀ index, ∀ h : index < 3, (mouseHideCursor { mouse with
      mousePacket := packet, mousePacketIndex := index, index_lt := h } screen).2 =
        (mouseHideCursor mouse screen).2 := by
    intro packet index h
    unfold mouseHideCursor
    split <;> rfl
  obtain ⟨packet, hpacket⟩ : ∃ packet,
      packet = mouse.mousePacket.set mouse.mousePacketIndex mouseByte mouse.index_lt := ⟨_, rfl⟩
  unfold mouseIrq
  rw [← hpacket]
  split
  · exact Or.inl ⟨mouse.mousePacket, mouse.mousePacketIndex, mouse.index_lt, rfl⟩
  split
  · exact Or.inl ⟨mouse.mousePacket, mouse.mousePacketIndex, mouse.index_lt, rfl⟩
  dsimp only
  split
  · rename_i hnext
    exact Or.inl ⟨packet, mouse.mousePacketIndex + 1, hnext, rfl⟩
  split
  · -- a whole packet without overflow
    refine Or.inr ⟨packet, packet[1], packet[2], ?_⟩
    rw [mouseHideCursor_fst, hhide]
  · exact Or.inl ⟨packet, 0, by decide, rfl⟩

/-- **A byte of the mouse leaves the picture.** -/
theorem Covers.mouseIrq (h : Covers mouse screen picture) (mouseByte : UInt8) :
    Covers (mouseIrq mouse mouseByte screen).1 (mouseIrq mouse mouseByte screen).2 picture := by
  rcases mouseIrq_cases mouse mouseByte screen with ⟨packet, index, hlt, heq⟩ |
    ⟨packet, xByte, yByte, heq⟩
  · rw [heq]
    exact ⟨h.off, h.saved⟩
  · rw [heq, h.hide]
    exact covers_show rfl picture

end KbmOs
