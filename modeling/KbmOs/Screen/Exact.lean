import KbmOs.Screen.Accesses
/-!
# What scrolling and glyphs leave, pixel by pixel

The closed forms of `screen_scroll_region_up` and `screen_draw_glyph`, for
all positions, shifts and scales, and the words they touch on the way.
Scrolling the whole screen is scrolling the region from row 0.
-/

namespace KbmOs

open Raster Framebuffer PackedBits

variable {framebuffer : Framebuffer} {c : UInt32} {pixels : Pixels} {q : Position}
variable {x y scale n : ℕ} {glyph : Glyph}

/-! ## Scrolling -/

/-- A region below the screen is none. -/
theorem screenScrollRegionUp_below {top : ℕ} (htop : framebuffer.height ≤ top) :
    screenScrollRegionUp framebuffer top n c pixels = pixels := if_pos htop

/-- **Scrolling the screen is scrolling the region from row 0.** -/
theorem screenScrollUp_eq (framebuffer : Framebuffer) (n : ℕ) (c : UInt32) (pixels : Pixels) :
    screenScrollUp framebuffer n c pixels = screenScrollRegionUp framebuffer 0 n c pixels := by
  have hheight := framebuffer.height_lt
  have hwidth : framebuffer.width ≤ framebuffer.pixelsPerRow := width_le
  have hrow : framebuffer.pixelsPerRow < 2 ^ 62 := pixelsPerRow_lt
  unfold screenScrollUp screenScrollRegionUp
  dsimp only
  rw [Nat.sub_zero]
  by_cases hnone : framebuffer.height = 0
  · rw [if_pos (by omega), if_pos (by omega)]
    unfold screenFill
    rw [hnone]
    rfl
  · rw [if_neg (show ¬ 0 ≥ framebuffer.height by omega)]
    by_cases hall : n ≥ framebuffer.height
    · -- every visible position is repainted, by either
      rw [if_pos hall, if_pos hall, screenFill_eq, screenDrawRect_eq (by omega) (by omega)]
      congr 1
      refine words_congr fun q hq => ⟨fun _ => ?_, fun _ => trivial⟩
      obtain ⟨hcol, hrow⟩ := hq
      exact ⟨Nat.zero_le _, by omega, Nat.zero_le _, by omega⟩
    · rw [if_neg hall, if_neg hall]

/-- **In-place scrolling is exact.** Whatever the rows above the region, the
shift and the words in memory: no access leaves the rows; a pixel above the
region is as it was, one that has another the shift below it has that
one's colour, every other one the background. And the two versions leave
the same picture. -/
theorem scrolling_exact (framebuffer : Framebuffer) (top n : ℕ) (c : UInt32) (pixels : Pixels) :
    (∃ after, Checked.screenScrollRegionUp framebuffer framebuffer.InRows top n c pixels =
        some after ∧
      ∀ q, framebuffer.Visible q → framebuffer.picture after q =
        if q.2 < top then framebuffer.picture pixels q
        else if q.2 + n < framebuffer.height then framebuffer.picture pixels (q.1, q.2 + n)
        else c) ∧
    ∃ all region, Checked.screenScrollUp framebuffer framebuffer.InRows n c pixels = some all ∧
      Checked.screenScrollRegionUp framebuffer framebuffer.InRows 0 n c pixels = some region ∧
      ∀ q, framebuffer.Visible q → framebuffer.picture all q = framebuffer.picture region q := by
  refine ⟨⟨_, Checked.screenScrollRegionUp_eq (fun _ hk => hk) top n c pixels, fun q hq => ?_⟩,
    _, _, Checked.screenScrollUp_eq (fun _ hk => hk) n c pixels,
    Checked.screenScrollRegionUp_eq (fun _ hk => hk) 0 n c pixels, fun q _ => ?_⟩
  · by_cases htop : top < framebuffer.height
    · exact picture_scroll htop hq
    · have hrow := hq.2
      rw [screenScrollRegionUp_below (not_lt.1 htop), if_pos (by omega)]
  · rw [screenScrollUp_eq]

/-! ## Glyphs -/

/-- The mask selects the bit. -/
theorem glyphBit_eq (glyph : Glyph) {column : ℕ} (row : ℕ) (hc : column < 8) :
    glyphBit glyph column row = (glyph.getD row 0).getLsbD (7 - column) := by
  have hmask := and_maskBit_eq_zero_iff (b := glyph.getD row 0) (show 7 - column < 8 by omega)
  unfold glyphBit
  unfold maskBit at hmask
  cases hbit : (glyph.getD row 0).getLsbD (7 - column)
  · rw [hmask.2 hbit]
    rfl
  · refine bne_iff_ne.2 fun hzero => ?_
    rw [hmask.1 hzero] at hbit
    cases hbit

/-- **The glyph covers the pixel**: it is in the scaled square, and the bit
the pixel falls on is set. -/
def GlyphCovers (x y : ℕ) (glyph : Glyph) (scale : ℕ) (q : Position) : Prop :=
  (x ≤ q.1 ∧ q.1 < x + 8 * scale) ∧ (y ≤ q.2 ∧ q.2 < y + 8 * scale) ∧
    (glyph.getD ((q.2 - y) / scale) 0).getLsbD (7 - (q.1 - x) / scale) = true

theorem mem_glyphPositions : q ∈ glyphPositions x y glyph scale ↔ GlyphCovers x y glyph scale q := by
  have hcolumn : ∀ d, d < 8 * scale → d / scale < 8 := fun d hd => by
    rw [Nat.mul_comm] at hd
    exact Nat.div_lt_of_lt_mul hd
  constructor
  · rintro ⟨⟨h1, h2, h3, h4⟩, hset⟩
    rw [glyphBit_eq _ _ (hcolumn _ (by omega))] at hset
    exact ⟨⟨h1, h2⟩, ⟨h3, h4⟩, hset⟩
  · rintro ⟨⟨h1, h2⟩, ⟨h3, h4⟩, hset⟩
    refine ⟨⟨h1, h2, h3, h4⟩, ?_⟩
    rwa [glyphBit_eq _ _ (hcolumn _ (by omega))]

/-- A glyph of scale 0 is not there. -/
theorem screenDrawGlyph_zero (x y : ℕ) (glyph : Glyph) (c : UInt32) (pixels : Pixels) :
    screenDrawGlyph framebuffer x y glyph 0 c pixels = pixels := by
  funext k
  refine loop_keeps (fun i _ => loop_keeps fun j _ p => ?_) pixels
  split
  · rfl
  · rfl

/-- What a glyph paints, at every scale. -/
theorem screenDrawGlyph_eq_paint (hx : x + 8 * scale < 2 ^ 64) (hy : y + 8 * scale < 2 ^ 64) :
    screenDrawGlyph framebuffer x y glyph scale c pixels =
      paint (framebuffer.words (glyphPositions x y glyph scale)) c pixels := by
  rcases Nat.eq_zero_or_pos scale with rfl | hscale
  · have hnone : framebuffer.words (glyphPositions x y glyph 0) = ∅ := by
      refine Set.eq_empty_iff_forall_notMem.2 ?_
      rintro k ⟨q, ⟨⟨h1, h2, -⟩, -⟩, -⟩
      omega
    rw [screenDrawGlyph_zero, hnone, paint_empty]
  · rw [screenDrawGlyph_eq hscale hx.le hy.le]

/-- **Glyph drawing paints exactly the scaled, clipped bitmap.** For every
glyph, scale, colour and position within 64 bits: no access leaves the
visible words; a visible pixel has the colour if and only if the glyph
covers it or it had that colour before; one that is not covered is as it
was, and so is every word that is not visible. -/
theorem glyph_exact (framebuffer : Framebuffer) (x y : ℕ) (glyph : Glyph) (scale : ℕ) (c : UInt32)
    (pixels : Pixels) (hx : x + 8 * scale < 2 ^ 64) (hy : y + 8 * scale < 2 ^ 64) :
    ∃ after, Checked.screenDrawGlyph framebuffer framebuffer.InView x y glyph scale c pixels =
        some after ∧
      (∀ q, framebuffer.Visible q → (framebuffer.picture after q = c ↔
        GlyphCovers x y glyph scale q ∨ framebuffer.picture pixels q = c)) ∧
      (∀ q, framebuffer.Visible q → ¬ GlyphCovers x y glyph scale q →
        framebuffer.picture after q = framebuffer.picture pixels q) ∧
      ∀ k, ¬ framebuffer.InView k → after k = pixels k := by
  have hview : ∀ q, framebuffer.Visible q → framebuffer.InView (framebuffer.word q) :=
    fun q hv => inView_iff.2 ⟨q, trivial, hv, rfl⟩
  have hkept : ∀ q, framebuffer.Visible q → ¬ GlyphCovers x y glyph scale q →
      framebuffer.picture (paint (framebuffer.words (glyphPositions x y glyph scale)) c pixels) q =
        framebuffer.picture pixels q := fun q hv hno =>
    picture_paint_of_not_mem hv fun hmem => hno (mem_glyphPositions.1 hmem)
  refine ⟨_, Checked.screenDrawGlyph_eq hview x y glyph scale c pixels, ?_⟩
  rw [screenDrawGlyph_eq_paint hx hy]
  refine ⟨fun q hv => ?_, hkept, fun k hk => ?_⟩
  · by_cases hcovers : GlyphCovers x y glyph scale q
    · exact iff_of_true (picture_paint hv (mem_glyphPositions.2 hcovers)) (Or.inl hcovers)
    · rw [hkept q hv hcovers]
      exact (or_iff_right hcovers).symm
  · refine paint_of_not_mem fun hmem => hk (inView_iff.2 ?_)
    exact words_mono (Set.subset_univ _) hmem

/-- A screen of 20 by 10 pixels, with padding in its rows. -/
def paddedScreen : Framebuffer where
  width := 20
  height := 10
  pitch := 96
  height_lt := by decide
  pitch_lt := by decide
  stride := by decide
  inMemory := by decide

/-- A glyph that ends past two edges. -/
theorem glyph_exact_paddedScreen :
    ∃ after, Checked.screenDrawGlyph paddedScreen paddedScreen.InView 12 4
      (Vector.replicate 8 0xFF) 2 0x00FFFFFF (fun _ => 0) = some after ∧
      paddedScreen.picture after (19, 9) = 0x00FFFFFF := by
  obtain ⟨after, hrun, hcolour, -, -⟩ := glyph_exact paddedScreen 12 4 (Vector.replicate 8 0xFF) 2
    0x00FFFFFF (fun _ => 0) (by decide) (by decide)
  refine ⟨after, hrun, (hcolour (19, 9) ⟨by decide, by decide⟩).2 (Or.inl ?_)⟩
  exact ⟨⟨by decide, by decide⟩, ⟨by decide, by decide⟩, by decide⟩

end KbmOs
