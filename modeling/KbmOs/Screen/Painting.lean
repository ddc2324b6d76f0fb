import KbmOs.Screen.Model
import Mathlib.Tactic.Ring
/-!
# What the drawing functions leave

Each drawing function in closed form: a pixel, a rectangle and a glyph
paint the visible words of a set of positions, and scrolling moves the rows
of the region up and paints the last ones. `picture` reads video memory as
the colours of positions; what is drawn off the screen is not in it.
-/

namespace KbmOs

open Raster

/-- A column and a row. -/
abbrev Position := ℕ × ℕ

namespace Framebuffer

variable (framebuffer : Framebuffer)

/-- The position is on the screen. -/
def Visible (q : Position) : Prop := q.1 < framebuffer.width ∧ q.2 < framebuffer.height

/-- The word of a position. -/
def word (q : Position) : ℕ := q.2 * framebuffer.pixelsPerRow + q.1

/-- The words of the visible positions of `R`. -/
def words (R : Set Position) : Set ℕ :=
  {k | ∃ q ∈ R, framebuffer.Visible q ∧ k = framebuffer.word q}

/-- Video memory as the screen shows it. -/
def picture (pixels : Pixels) (q : Position) : UInt32 := pixels (framebuffer.word q)

/-- The words of the rows from `first` up to `last`, visible or not. -/
def rows (first last : ℕ) : Set ℕ :=
  {k | first * framebuffer.pixelsPerRow ≤ k ∧ k < last * framebuffer.pixelsPerRow}

end Framebuffer

/-- The positions of a rectangle. -/
def rectangle (x y width height : ℕ) : Set Position :=
  {q | x ≤ q.1 ∧ q.1 < x + width ∧ y ≤ q.2 ∧ q.2 < y + height}

/-- The positions a glyph paints: those of the set bits, each as a square. -/
def glyphPositions (x y : ℕ) (glyph : Glyph) (scale : ℕ) : Set Position :=
  {q | q ∈ rectangle x y (8 * scale) (8 * scale) ∧
    glyphBit glyph ((q.1 - x) / scale) ((q.2 - y) / scale) = true}

variable {framebuffer : Framebuffer} {q : Position} {R T : Set Position} {c : UInt32}
variable {pixels : Pixels} {x y w h scale : ℕ} {glyph : Glyph}

open Framebuffer

/-! ## Words and positions -/

theorem Framebuffer.width_le : framebuffer.width ≤ framebuffer.pixelsPerRow := framebuffer.stride

theorem Framebuffer.pixelsPerRow_lt : framebuffer.pixelsPerRow < 2 ^ 62 := by
  have hpitch := framebuffer.pitch_lt
  unfold pixelsPerRow
  omega

/-- The rows end below the top of memory. -/
theorem Framebuffer.words_lt : framebuffer.height * framebuffer.pixelsPerRow < 2 ^ 64 := by
  refine lt_of_le_of_lt (Nat.mul_le_mul_left _ ?_) framebuffer.inMemory
  unfold pixelsPerRow
  omega

/-- A word of a row lies before the next row. -/
theorem Framebuffer.word_lt {row column last : ℕ} (hcol : column < framebuffer.pixelsPerRow)
    (hrow : row < last) :
    row * framebuffer.pixelsPerRow + column < last * framebuffer.pixelsPerRow := by
  have hle : (row + 1) * framebuffer.pixelsPerRow ≤ last * framebuffer.pixelsPerRow :=
    Nat.mul_le_mul_right _ hrow
  rw [Nat.add_mul, Nat.one_mul] at hle
  omega

/-- The index of a word of the framebuffer does not wrap. -/
theorem Framebuffer.wordIndex_eq (hx : x < framebuffer.pixelsPerRow) (hy : y < framebuffer.height) :
    framebuffer.wordIndex x y = framebuffer.word (x, y) :=
  wrap_of_lt (lt_trans (word_lt hx hy) words_lt)

/-- **Different visible positions have different words.** -/
theorem Framebuffer.word_inj {p q : Position} (hp : p.1 < framebuffer.pixelsPerRow)
    (hq : q.1 < framebuffer.pixelsPerRow) (h : framebuffer.word p = framebuffer.word q) : p = q := by
  have hpos : 0 < framebuffer.pixelsPerRow := by omega
  have hrow : ∀ r : Position, r.1 < framebuffer.pixelsPerRow →
      framebuffer.word r / framebuffer.pixelsPerRow = r.2 := by
    intro r hr
    unfold word
    rw [Nat.add_comm, Nat.add_mul_div_right _ _ hpos, Nat.div_eq_of_lt hr, Nat.zero_add]
  have hsame : p.2 = q.2 := by rw [← hrow p hp, h, hrow q hq]
  unfold word at h
  rw [hsame] at h
  exact Prod.ext (by omega) hsame

theorem Framebuffer.Visible.column_lt (hq : framebuffer.Visible q) :
    q.1 < framebuffer.pixelsPerRow :=
  lt_of_lt_of_le hq.1 width_le

theorem Framebuffer.mem_words (hq : framebuffer.Visible q) :
    framebuffer.word q ∈ framebuffer.words R ↔ q ∈ R := by
  constructor
  · rintro ⟨p, hp, hpv, heq⟩
    rwa [word_inj hq.column_lt hpv.column_lt heq]
  · exact fun hmem => ⟨q, hmem, hq, rfl⟩

/-- Only visible positions count. -/
theorem Framebuffer.words_congr (h : ∀ q, framebuffer.Visible q → (q ∈ R ↔ q ∈ T)) :
    framebuffer.words R = framebuffer.words T := by
  ext k
  constructor
  · rintro ⟨q, hq, hv, rfl⟩
    exact ⟨q, (h q hv).1 hq, hv, rfl⟩
  · rintro ⟨q, hq, hv, rfl⟩
    exact ⟨q, (h q hv).2 hq, hv, rfl⟩

theorem Framebuffer.words_mono (h : R ⊆ T) : framebuffer.words R ⊆ framebuffer.words T := by
  rintro k ⟨q, hq, hv, rfl⟩
  exact ⟨q, h hq, hv, rfl⟩

/-- The visible words of rows from `first` on. -/
theorem Framebuffer.word_mem_rows {first last : ℕ} (hq : q.1 < framebuffer.pixelsPerRow) :
    framebuffer.word q ∈ framebuffer.rows first last ↔ first ≤ q.2 ∧ q.2 < last := by
  have hpos : 0 < framebuffer.pixelsPerRow := by omega
  unfold rows word
  rw [Set.mem_ofPred_eq]
  constructor
  · rintro ⟨hlo, hhi⟩
    constructor
    · by_contra hlt
      have hbelow := word_lt hq (not_le.1 hlt)
      omega
    · exact Nat.lt_of_mul_lt_mul_right (lt_of_le_of_lt (Nat.le_add_right _ _) hhi)
  · rintro ⟨hlo, hhi⟩
    exact ⟨le_trans (Nat.mul_le_mul_right _ hlo) (Nat.le_add_right _ _), word_lt hq hhi⟩

/-- **A painted position has the colour.** -/
theorem picture_paint (hq : framebuffer.Visible q) (hmem : q ∈ R) :
    framebuffer.picture (paint (framebuffer.words R) c pixels) q = c :=
  paint_of_mem ((mem_words hq).2 hmem)

/-- **And another is as it was.** -/
theorem picture_paint_of_not_mem (hq : framebuffer.Visible q) (hmem : q ∉ R) :
    framebuffer.picture (paint (framebuffer.words R) c pixels) q = framebuffer.picture pixels q :=
  paint_of_not_mem fun h => hmem ((mem_words hq).1 h)

/-! ## Pixels, rectangles, glyphs -/

theorem screenPutPixel_eq (x y : ℕ) (c : UInt32) :
    screenPutPixel framebuffer x y c = paint (framebuffer.words {(x, y)}) c := by
  funext pixels
  unfold screenPutPixel
  split
  · rename_i hout
    -- off the screen nothing is drawn, and no visible position is painted
    have hnone : framebuffer.words {(x, y)} = ∅ := by
      refine Set.eq_empty_iff_forall_notMem.2 ?_
      rintro k ⟨q, hq, hv, -⟩
      rw [Set.mem_singleton_iff.1 hq] at hv
      unfold Visible at hv
      dsimp only at hv
      omega
    rw [hnone, paint_empty]
  · rename_i hin
    have hv : framebuffer.Visible (x, y) := ⟨by omega, by omega⟩
    rw [wordIndex_eq hv.column_lt hv.2, update_eq_paint]
    congr 1
    ext k
    constructor
    · exact fun hk => ⟨_, rfl, hv, hk⟩
    · rintro ⟨q, hq, -, hk⟩
      rw [hk, Set.mem_singleton_iff.1 hq]
      exact Set.mem_singleton _

/-- **Loops that draw paint what their turns do.** -/
theorem loop_words {body : ℕ → Pixels → Pixels} {n : ℕ} {S : ℕ → Set Position}
    (hbody : ∀ i, i < n → body i = paint (framebuffer.words (S i)) c) :
    loop body n = paint (framebuffer.words {q | ∃ i, i < n ∧ q ∈ S i}) c := by
  funext pixels
  rw [loop_paint (fun i hi p => by rw [hbody i hi]) pixels]
  congr 1
  ext k
  constructor
  · rintro ⟨i, hi, q, hq, hv, hk⟩
    exact ⟨q, ⟨i, hi, hq⟩, hv, hk⟩
  · rintro ⟨q, ⟨i, hi, hq⟩, hv, hk⟩
    exact ⟨i, hi, q, hq, hv, hk⟩

theorem screenFill_eq (c : UInt32) :
    screenFill framebuffer c = paint (framebuffer.words Set.univ) c := by
  unfold screenFill
  rw [loop_words fun y _ => loop_words fun x _ => screenPutPixel_eq x y c]
  congr 1
  refine words_congr fun q hq => ⟨fun _ => trivial, fun _ => ⟨q.2, hq.2, q.1, hq.1, rfl⟩⟩

/-- **A rectangle**, wherever its coordinates wrap. -/
theorem screenDrawRect_eq_wrap (x y w h : ℕ) (c : UInt32) :
    screenDrawRect framebuffer x y w h c =
      paint (framebuffer.words
        {q | ∃ j, j < h ∧ ∃ i, i < w ∧ q = (wrap (x + i), wrap (y + j))}) c := by
  unfold screenDrawRect
  rw [loop_words fun j _ => loop_words fun i _ => screenPutPixel_eq (wrap (x + i)) (wrap (y + j)) c]
  rfl

/-- **A rectangle whose coordinates do not wrap.** -/
theorem screenDrawRect_eq (hx : x + w ≤ 2 ^ 64) (hy : y + h ≤ 2 ^ 64) :
    screenDrawRect framebuffer x y w h c = paint (framebuffer.words (rectangle x y w h)) c := by
  rw [screenDrawRect_eq_wrap]
  congr 1
  refine words_congr fun q _ => ⟨?_, fun hq => ?_⟩
  · rintro ⟨j, hj, i, hi, rfl⟩
    rw [wrap_of_lt (by omega), wrap_of_lt (by omega)]
    unfold rectangle
    dsimp only [Set.mem_ofPred_eq]
    omega
  · obtain ⟨h1, h2, h3, h4⟩ := hq
    refine ⟨q.2 - y, by omega, q.1 - x, by omega, ?_⟩
    rw [wrap_of_lt (by omega), wrap_of_lt (by omega)]
    exact Prod.ext (by dsimp only; omega) (by dsimp only; omega)

/-- **A glyph paints its set bits.** -/
theorem screenDrawGlyph_eq (hs : 0 < scale) (hx : x + 8 * scale ≤ 2 ^ 64)
    (hy : y + 8 * scale ≤ 2 ^ 64) :
    screenDrawGlyph framebuffer x y glyph scale c =
      paint (framebuffer.words (glyphPositions x y glyph scale)) c := by
  -- each set bit is a square of its own
  have hbit : ∀ i, i < 8 → ∀ j, j < 8 →
      (fun pixels => if glyphBit glyph j i then
        screenDrawRect framebuffer (wrap (x + wrap (j * scale))) (wrap (y + wrap (i * scale))) scale
          scale c pixels
        else pixels) =
      paint (framebuffer.words {q | glyphBit glyph j i = true ∧
        q ∈ rectangle (x + j * scale) (y + i * scale) scale scale}) c := by
    intro i hi j hj
    have hj' := Nat.mul_le_mul_right scale hj
    have hi' := Nat.mul_le_mul_right scale hi
    rw [Nat.succ_mul] at hi' hj'
    funext pixels
    by_cases hset : glyphBit glyph j i = true
    · rw [if_pos hset, wrap_of_lt (show j * scale < 2 ^ 64 by omega),
        wrap_of_lt (show i * scale < 2 ^ 64 by omega),
        wrap_of_lt (show x + j * scale < 2 ^ 64 by omega),
        wrap_of_lt (show y + i * scale < 2 ^ 64 by omega), screenDrawRect_eq (by omega) (by omega)]
      congr 1
      exact words_congr fun q _ => ⟨fun hq => ⟨hset, hq⟩, fun hq => hq.2⟩
    · rw [if_neg hset]
      have hnone : framebuffer.words {q | glyphBit glyph j i = true ∧
          q ∈ rectangle (x + j * scale) (y + i * scale) scale scale} = ∅ := by
        refine Set.eq_empty_iff_forall_notMem.2 ?_
        rintro k ⟨q, ⟨hbit, -⟩, -⟩
        exact hset hbit
      rw [hnone, paint_empty]
  unfold screenDrawGlyph
  rw [loop_words fun i hi => loop_words fun j hj => hbit i hi j hj]
  congr 1
  -- a position is in the square of the bit that dividing by the scale finds
  refine words_congr fun q _ => ⟨?_, fun hq => ?_⟩
  · rintro ⟨i, hi, j, hj, hset, h1, h2, h3, h4⟩
    have hj' := Nat.mul_le_mul_right scale hj
    have hi' := Nat.mul_le_mul_right scale hi
    rw [Nat.succ_mul] at hi' hj'
    refine ⟨⟨by omega, by omega, by omega, by omega⟩, ?_⟩
    rw [Nat.div_eq_of_lt_le (by omega : j * scale ≤ q.1 - x) (by rw [Nat.succ_mul]; omega),
      Nat.div_eq_of_lt_le (by omega : i * scale ≤ q.2 - y) (by rw [Nat.succ_mul]; omega)]
    exact hset
  · obtain ⟨⟨h1, h2, h3, h4⟩, hset⟩ := hq
    have hcol := Nat.div_add_mod (q.1 - x) scale
    have hrow := Nat.div_add_mod (q.2 - y) scale
    have hcolmod := Nat.mod_lt (q.1 - x) hs
    have hrowmod := Nat.mod_lt (q.2 - y) hs
    rw [Nat.mul_comm] at hcol hrow
    exact ⟨_, Nat.div_lt_of_lt_mul (by rw [Nat.mul_comm]; omega), _,
      Nat.div_lt_of_lt_mul (by rw [Nat.mul_comm]; omega), hset,
      by omega, by omega, by omega, by omega⟩

/-! ## Scrolling -/

theorem copyRows_eq {first last n : ℕ} (hle : first ≤ last)
    (hlast : last + n ≤ framebuffer.height) :
    copyRows framebuffer first last n =
      shiftDown (first * framebuffer.pixelsPerRow) (last * framebuffer.pixelsPerRow)
        (n * framebuffer.pixelsPerRow) := by
  have hheight := framebuffer.height_lt
  obtain ⟨P, hP⟩ : ∃ P, framebuffer.pixelsPerRow = P := ⟨_, rfl⟩
  -- one row is moved word by word
  have hrow : ∀ i, i < last - first → ∀ pixels : Pixels,
      loop (fun x pixels => Function.update pixels (framebuffer.wordIndex x (first + i))
        (pixels (framebuffer.wordIndex x (wrap (first + i + n))))) P pixels =
      shiftDown ((first + i) * P) ((first + (i + 1)) * P) (n * P) pixels := by
    intro i hi pixels
    have hword : ∀ x, x < P → ∀ pixels : Pixels,
        Function.update pixels (framebuffer.wordIndex x (first + i))
          (pixels (framebuffer.wordIndex x (wrap (first + i + n)))) =
        shiftDown ((first + i) * P + x) ((first + i) * P + (x + 1)) (n * P) pixels := by
      intro x hx pixels
      rw [wrap_of_lt (by omega), wordIndex_eq (by rw [hP]; exact hx) (by omega),
        wordIndex_eq (by rw [hP]; exact hx) (by omega)]
      unfold word
      rw [hP]
      dsimp only
      have hsource : (first + i + n) * P + x = (first + i) * P + x + n * P := by ring
      funext k
      by_cases hk : k = (first + i) * P + x
      · rw [hk, Function.update_self, shiftDown_of_mem (by omega), hsource]
      · rw [Function.update_of_ne hk, shiftDown_of_not_mem (by omega)]
    have hall := (loop_shiftDown (fun x _ => by omega) (fun x hx p => hword x hx p) pixels).2
    rw [hall, Nat.add_zero]
    congr 1
    ring
  -- and one row after the other, none of them written before it is read
  funext pixels
  unfold copyRows
  rw [hP]
  have hall := (loop_shiftDown (fun i _ => Nat.mul_le_mul_right P (by omega))
    (fun i hi p => hrow i hi p) pixels).2
  rw [hall, Nat.add_zero, Nat.add_sub_cancel' hle]

theorem clearRows_eq {first last : ℕ} (hle : first ≤ last) (hlast : last ≤ framebuffer.height) :
    clearRows framebuffer first last c = paint (framebuffer.rows first last) c := by
  have hword : ∀ i, i < last - first → ∀ x, x < framebuffer.pixelsPerRow → ∀ pixels : Pixels,
      Function.update pixels (framebuffer.wordIndex x (first + i)) c =
        paint {framebuffer.word (x, first + i)} c pixels := by
    intro i hi x hx pixels
    rw [wordIndex_eq hx (by omega), update_eq_paint]
  funext pixels
  unfold clearRows
  rw [loop_paint (fun i hi p => loop_paint (fun x hx p => hword i hi x hx p) p) pixels]
  congr 1
  ext k
  constructor
  · rintro ⟨i, hi, x, hx, rfl⟩
    exact (word_mem_rows (q := (x, first + i)) hx).2 ⟨by dsimp only; omega, by dsimp only; omega⟩
  · rintro ⟨hlo, hhi⟩
    -- a word of the rows is the one in row `k / pixelsPerRow`
    have hpos : 0 < framebuffer.pixelsPerRow := by
      rcases Nat.eq_zero_or_pos framebuffer.pixelsPerRow with hzero | hpos
      · rw [hzero, Nat.mul_zero] at hhi
        omega
      · exact hpos
    have hrow : first ≤ k / framebuffer.pixelsPerRow ∧ k / framebuffer.pixelsPerRow < last :=
      ⟨(Nat.le_div_iff_mul_le hpos).2 hlo, (Nat.div_lt_iff_lt_mul hpos).2 hhi⟩
    refine ⟨k / framebuffer.pixelsPerRow - first, by omega, k % framebuffer.pixelsPerRow,
      Nat.mod_lt _ hpos, ?_⟩
    have hsplit := Nat.div_add_mod' k framebuffer.pixelsPerRow
    unfold word
    dsimp only
    rw [Nat.add_sub_cancel' hrow.1, Set.mem_singleton_iff, hsplit]

variable {top n : ℕ}

/-- The two branches of the scrolling: either every row of the region is
repainted, or all but the last ones are moved. -/
theorem screenScrollRegionUp_eq (htop : top < framebuffer.height) :
    screenScrollRegionUp framebuffer top n c =
      if framebuffer.height - top ≤ n then
        paint (framebuffer.words (rectangle 0 top framebuffer.width (framebuffer.height - top))) c
      else fun pixels =>
        paint (framebuffer.rows (framebuffer.height - n) framebuffer.height) c
          (shiftDown (top * framebuffer.pixelsPerRow)
            ((framebuffer.height - n) * framebuffer.pixelsPerRow) (n * framebuffer.pixelsPerRow)
            pixels) := by
  have hheight := framebuffer.height_lt
  have hwidth : framebuffer.width ≤ framebuffer.pixelsPerRow := width_le
  have hrow : framebuffer.pixelsPerRow < 2 ^ 62 := pixelsPerRow_lt
  funext pixels
  unfold screenScrollRegionUp
  rw [if_neg (by omega)]
  dsimp only
  by_cases hall : framebuffer.height - top ≤ n
  · rw [if_pos hall, if_pos hall, screenDrawRect_eq (by omega) (by omega)]
  · rw [if_neg hall, if_neg hall, clearRows_eq (by omega) (by omega),
      copyRows_eq (by omega) (by omega)]

/-- **What scrolling shows**: above the region nothing changes, a row of it
shows the row `n` below, and where there is none, the background. -/
theorem picture_scroll (htop : top < framebuffer.height) (hq : framebuffer.Visible q) :
    framebuffer.picture (screenScrollRegionUp framebuffer top n c pixels) q =
      if q.2 < top then framebuffer.picture pixels q
      else if q.2 + n < framebuffer.height then framebuffer.picture pixels (q.1, q.2 + n)
      else c := by
  have hrow := hq.2
  rw [screenScrollRegionUp_eq htop]
  by_cases hall : framebuffer.height - top ≤ n
  · rw [if_pos hall]
    by_cases habove : q.2 < top
    · rw [if_pos habove, picture_paint_of_not_mem hq fun hmem => by have := hmem.2.2.1; omega]
    · rw [if_neg habove, if_neg (by omega)]
      have hcol := hq.1
      exact picture_paint hq ⟨by omega, by omega, by omega, by omega⟩
  · rw [if_neg hall]
    unfold picture
    -- the rows that moved in are background, the others come from below
    by_cases hlast : framebuffer.height - n ≤ q.2
    · rw [if_neg (by omega), if_neg (by omega)]
      exact paint_of_mem ((word_mem_rows hq.column_lt).2 ⟨hlast, hrow⟩)
    · have hkept : framebuffer.word q ∉
          framebuffer.rows (framebuffer.height - n) framebuffer.height :=
        fun hmem => hlast ((word_mem_rows hq.column_lt).1 hmem).1
      rw [paint_of_not_mem hkept]
      have hregion : framebuffer.word q ∈ framebuffer.rows top (framebuffer.height - n) ↔ _ :=
        word_mem_rows hq.column_lt
      by_cases habove : q.2 < top
      · rw [if_pos habove, shiftDown_of_not_mem fun hmem => by have := (hregion.1 hmem).1; omega]
      · rw [if_neg habove, if_pos (by omega), shiftDown_of_mem (hregion.2 ⟨by omega, by omega⟩)]
        congr 1
        unfold word
        dsimp only
        ring

/-- **Scrolling has to do with its region only.** -/
theorem confined_scroll (htop : top < framebuffer.height) :
    Confined (framebuffer.rows top framebuffer.height)
      (screenScrollRegionUp framebuffer top n c) := by
  obtain ⟨P, hP⟩ : ∃ P, framebuffer.pixelsPerRow = P := ⟨_, rfl⟩
  rw [screenScrollRegionUp_eq htop]
  by_cases hall : framebuffer.height - top ≤ n
  · rw [if_pos hall]
    refine (confined_paint _ c).mono ?_
    rintro k ⟨q, hq, hv, rfl⟩
    exact (word_mem_rows hv.column_lt).2 ⟨hq.2.2.1, hv.2⟩
  · rw [if_neg hall]
    have hpaint : Confined (framebuffer.rows top framebuffer.height)
        (paint (framebuffer.rows (framebuffer.height - n) framebuffer.height) c) := by
      refine (confined_paint _ c).mono ?_
      rintro k ⟨hlo, hhi⟩
      exact ⟨le_trans (Nat.mul_le_mul_right _ (by omega)) hlo, hhi⟩
    refine Confined.comp ⟨fun p k hk => shiftDown_of_not_mem fun hmem => hk ⟨hmem.1, ?_⟩,
      fun p q hpq k hk => ?_⟩ hpaint
    · exact lt_of_lt_of_le hmem.2 (Nat.mul_le_mul_right _ (Nat.sub_le _ _))
    · by_cases hin : top * framebuffer.pixelsPerRow ≤ k ∧
          k < (framebuffer.height - n) * framebuffer.pixelsPerRow
      · rw [shiftDown_of_mem hin, shiftDown_of_mem hin]
        refine hpq ⟨by omega, ?_⟩
        have hsum : (framebuffer.height - n) * framebuffer.pixelsPerRow +
            n * framebuffer.pixelsPerRow = framebuffer.height * framebuffer.pixelsPerRow := by
          rw [← Nat.add_mul, Nat.sub_add_cancel (by omega)]
        omega
      · rw [shiftDown_of_not_mem hin, shiftDown_of_not_mem hin]
        exact hpq hk

end KbmOs
