import KbmOs.Console.Model
import KbmOs.Screen.Painting
/-!
# What a call of the console touches

Where a call draws, and what it draws there, depends on the console's
statics and not on what is on the screen; all it reads of video memory are
the words it scrolls. `Draws` says so of an operation on the console, and
`footprint` gives each call the words it has to do with.
-/

namespace KbmOs

open Raster Framebuffer

/-- **The operation draws in `F`**, the same whatever is on the screen. -/
def Draws (op : Console → Console) (console : Console) (F : Set ℕ) : Prop :=
  ∃ drawing, Confined F drawing ∧
    ∀ pixels, op { console with pixels := pixels } = { op console with pixels := drawing pixels }

/-- The console's cursor is on a screen with room for the header and a line
of text. -/
structure Console.Fits (console : Console) : Prop where
  width : 16 ≤ console.framebuffer.width
  height : 72 ≤ console.framebuffer.height
  column : console.cursorX ≤ console.framebuffer.width
  cell : console.cursorX % 16 = 0
  row : console.cursorY + 16 ≤ console.framebuffer.height

/-- A new line scrolls. -/
def Console.Scrolls (console : Console) : Prop :=
  wrap (wrap (console.cursorY + 16) + 16) > console.framebuffer.height

/-- The next character wraps. -/
def Console.Wraps (console : Console) : Prop :=
  wrap (console.cursorX + 16) > console.framebuffer.width

instance (console : Console) : Decidable console.Scrolls := inferInstanceAs (Decidable (_ > _))

instance (console : Console) : Decidable console.Wraps := inferInstanceAs (Decidable (_ > _))

/-- The words a new line touches: the content region where it scrolls. -/
def newLineFootprint (console : Console) : Set ℕ :=
  if console.Scrolls then console.framebuffer.rows 56 console.framebuffer.height else ∅

/-- The words of a glyph at the cursor. -/
def glyphFootprint (console : Console) (glyph : Glyph) : Set ℕ :=
  console.framebuffer.words (glyphPositions console.cursorX console.cursorY glyph 2)

/-- **The words a call touches.** -/
def ConsoleCall.footprint (console : Console) : ConsoleCall → Set ℕ
  | .setTextColor _ => ∅
  | .writeCodepoint character =>
    if character = '\n'.toNat then newLineFootprint console
    else match fontGetGlyph character with
      | none => ∅
      | some glyph =>
        if console.Wraps then
          newLineFootprint console ∪ glyphFootprint (consoleNewLine console 16) glyph
        else glyphFootprint console glyph
  | .backspace =>
    if console.cursorX = 0 then ∅
    else console.framebuffer.words (rectangle (console.cursorX - 16) console.cursorY 16 16)
  | .clear => Set.univ
  | .updateHeader _ => console.framebuffer.words {q | q.2 < 40}

variable {console : Console} {op op' : Console → Console} {F G : Set ℕ} {x y : ℕ}
variable {drawing : Pixels → Pixels}

theorem Draws.congr (h : Draws op console F)
    (heq : ∀ pixels, op' { console with pixels := pixels } = op { console with pixels := pixels }) :
    Draws op' console F := by
  obtain ⟨drawing, hconfined, hdraws⟩ := h
  refine ⟨drawing, hconfined, fun pixels => ?_⟩
  have hself : op' console = op console := heq console.pixels
  rw [heq, hdraws, hself]

theorem Draws.mono (h : Draws op console F) (hsub : F ⊆ G) : Draws op console G := by
  obtain ⟨drawing, hconfined, hdraws⟩ := h
  exact ⟨drawing, hconfined.mono hsub, hdraws⟩

/-- **One operation after another.** -/
theorem Draws.comp (h : Draws op console F) (h' : Draws op' (op console) F) :
    Draws (fun c => op' (op c)) console F := by
  obtain ⟨drawing, hconfined, hdraws⟩ := h
  obtain ⟨drawing', hconfined', hdraws'⟩ := h'
  refine ⟨fun pixels => drawing' (drawing pixels), hconfined.comp hconfined', fun pixels => ?_⟩
  dsimp only
  rw [hdraws, hdraws']

theorem draws_draw (h : Confined F drawing) : Draws (fun c => c.draw drawing) console F :=
  ⟨drawing, h, fun _ => rfl⟩

/-- Setting a static draws nothing. -/
theorem draws_statics (h : ∀ (c : Console) (pixels : Pixels),
    op { c with pixels := pixels } = { op c with pixels := pixels }) : Draws op console F :=
  ⟨_, Confined.id F, h console⟩

/-- Off the footprint the screen stays as it is. -/
theorem Draws.keeps (h : Draws op console F) {k : ℕ} (hk : k ∉ F) :
    (op console).pixels k = console.pixels k := by
  obtain ⟨drawing, hconfined, hdraws⟩ := h
  have hself : op console = { op console with pixels := drawing console.pixels } :=
    hdraws console.pixels
  rw [hself]
  exact hconfined.keeps _ k hk

/-! ## The header -/

/-- A rectangle in the rows above `y + h`. -/
theorem confined_rect {w h : ℕ} {c : UInt32} {framebuffer : Framebuffer} (hx : x + w ≤ 2 ^ 64)
    (hy : y + h ≤ 40) :
    Confined (framebuffer.words {q | q.2 < 40}) (screenDrawRect framebuffer x y w h c) := by
  rw [screenDrawRect_eq hx (by omega)]
  refine (confined_paint _ c).mono (words_mono fun q hq => ?_)
  have hrow := hq.2.2.2
  exact lt_of_lt_of_le hrow hy

/-- A header text changes no static. -/
theorem consoleDrawHeaderText_statics (text : List ℕ) (console : Console) (x y scale : ℕ)
    (color : UInt32) : consoleDrawHeaderText console x y text scale color =
      { console with pixels := (consoleDrawHeaderText console x y text scale color).pixels } := by
  induction text generalizing console x with
  | nil => rfl
  | cons character text ih =>
    rw [consoleDrawHeaderText]
    refine (ih _ _).trans ?_
    cases fontGetGlyph character <;> rfl

/-- **A header text draws in the header.** -/
theorem consoleDrawHeaderText_draws (text : List ℕ) (color : UInt32)
    (hx : x + 16 * text.length ≤ 2 ^ 64) :
    Draws (fun c => consoleDrawHeaderText c x 12 text 2 color) console
      (console.framebuffer.words {q | q.2 < 40}) := by
  induction text generalizing console x with
  | nil => exact draws_statics fun _ _ => rfl
  | cons character text ih =>
    rw [List.length_cons] at hx
    have hnext : wrap (x + 8 * 2) + 16 * text.length ≤ 2 ^ 64 := by
      unfold wrap
      omega
    cases hglyph : fontGetGlyph character with
    | none =>
      refine (ih hnext).congr fun pixels => ?_
      rw [consoleDrawHeaderText, hglyph]
    | some glyph =>
      have hconfined : Confined (console.framebuffer.words {q | q.2 < 40})
          (screenDrawGlyph console.framebuffer x 12 glyph 2 color) := by
        rw [screenDrawGlyph_eq (by decide) (by omega) (by decide)]
        refine (confined_paint _ color).mono (words_mono fun q hq => ?_)
        have hrow := hq.1.2.2.2
        rw [Set.mem_ofPred_eq]
        omega
      refine ((draws_draw hconfined).comp (ih hnext)).congr fun pixels => ?_
      rw [consoleDrawHeaderText, hglyph]

/-- The header changes no static but the uptime it shows. -/
theorem consoleUpdateHeader_statics (console : Console) (uptimeSeconds : ℕ) :
    consoleUpdateHeader console uptimeSeconds = { console with
      headerUptimeSeconds := uptimeSeconds
      pixels := (consoleUpdateHeader console uptimeSeconds).pixels } := by
  unfold consoleUpdateHeader
  refine (consoleDrawHeaderText_statics _ _ _ _ _ _).trans ?_
  dsimp only
  rw [consoleDrawHeaderText_statics]
  rfl

/-- **Updating the header draws in the header.** -/
theorem consoleUpdateHeader_draws (uptimeSeconds : ℕ) :
    Draws (fun c => consoleUpdateHeader c uptimeSeconds) console
      (console.framebuffer.words {q | q.2 < 40}) := by
  have hwidth : console.framebuffer.width < 2 ^ 62 := lt_of_le_of_lt width_le pixelsPerRow_lt
  obtain ⟨F, hF⟩ : ∃ F, F = console.framebuffer.words {q | q.2 < 40} := ⟨_, rfl⟩
  obtain ⟨X, hX, hXlt⟩ : ∃ X, X = (if console.framebuffer.width > 8 * 16 + 16 then
      console.framebuffer.width - 8 * 16 - 16 else 16) ∧ X < 2 ^ 62 := ⟨_, rfl, by split <;> omega⟩
  have hstatics : Draws (fun c => { c with headerUptimeSeconds := uptimeSeconds }) console F :=
    draws_statics fun _ _ => rfl
  have hbar : Confined F (screenDrawRect console.framebuffer 0 0 console.framebuffer.width 40
      consoleHeaderColor) := hF ▸ confined_rect (by omega) (by decide)
  have hline : Confined F (screenDrawRect console.framebuffer 0 39 console.framebuffer.width 1
      consoleHeaderLineColor) := hF ▸ confined_rect (by omega) (by decide)
  have haccent : Confined F (screenDrawRect console.framebuffer 16 12 3 16 consoleAccentColor) :=
    hF ▸ confined_rect (by decide) (by decide)
  have hboxes := ((hstatics.comp (draws_draw hbar)).comp (draws_draw hline)).comp
    (draws_draw haccent)
  -- the two texts are drawn on whatever the boxes left
  have hname : ∀ c : Console, c.framebuffer = console.framebuffer →
      Draws (fun c => consoleDrawHeaderText c 28 12 ['k'.toNat, 'b'.toNat, 'm'.toNat] 2
        console.textColor) c F := by
    intro c hc
    rw [hF, ← hc]
    exact consoleDrawHeaderText_draws _ _ (by decide)
  have huptime : ∀ c : Console, c.framebuffer = console.framebuffer →
      Draws (fun c => consoleDrawHeaderText c X 12 (uptimeText uptimeSeconds) 2 consoleDimColor)
        c F := by
    intro c hc
    have hlength : (uptimeText uptimeSeconds).length = 8 := rfl
    rw [hF, ← hc]
    exact consoleDrawHeaderText_draws _ _ (by omega)
  have hall := (hboxes.comp (hname _ rfl)).comp (huptime _ ?_)
  · rw [← hF]
    refine hall.congr fun pixels => ?_
    unfold consoleUpdateHeader
    rw [hX]
    rfl
  · rw [consoleDrawHeaderText_statics]
    rfl

/-! ## Text -/

/-- The rows of a screen with room for a character end far below the top
of memory. -/
theorem Console.Fits.height_lt (hfits : console.Fits) : console.framebuffer.height < 2 ^ 58 := by
  have hwidth := hfits.width
  have hstride := console.framebuffer.stride
  have hrows : console.framebuffer.height * 64 ≤
      console.framebuffer.height * console.framebuffer.pitch := Nat.mul_le_mul_left _ (by omega)
  have hmemory := console.framebuffer.inMemory
  omega

/-- What is on the screen does not matter. -/
theorem Console.Fits.redrawn (hfits : console.Fits) (pixels : Pixels) :
    ({ console with pixels := pixels } : Console).Fits :=
  ⟨hfits.width, hfits.height, hfits.column, hfits.cell, hfits.row⟩

theorem Console.Fits.width_lt (_ : console.Fits) : console.framebuffer.width < 2 ^ 62 :=
  lt_of_le_of_lt width_le pixelsPerRow_lt

theorem Console.Fits.scrolls_iff (hfits : console.Fits) :
    console.Scrolls ↔ console.framebuffer.height < console.cursorY + 32 := by
  have hheight := hfits.height_lt
  have hrow := hfits.row
  unfold Console.Scrolls
  rw [wrap_of_lt (show console.cursorY + 16 < 2 ^ 64 by omega), wrap_of_lt (by omega)]

theorem Console.Fits.wraps_iff (hfits : console.Fits) :
    console.Wraps ↔ console.framebuffer.width < console.cursorX + 16 := by
  have hwidth := hfits.width_lt
  have hcolumn := hfits.column
  unfold Console.Wraps
  rw [wrap_of_lt (by omega)]

/-- **A new line**: the region scrolls under a cursor that stays, or the
cursor moves down. -/
theorem consoleNewLine_eq (hfits : console.Fits) : consoleNewLine console 16 =
    if console.Scrolls then
      { console.draw (screenScrollRegionUp console.framebuffer 56 16 console.backgroundColor) with
        cursorX := 0 }
    else { console with cursorX := 0, cursorY := console.cursorY + 16 } := by
  have hheight := hfits.height_lt
  have hrow := hfits.row
  have hdown : wrap (console.cursorY + 16) = console.cursorY + 16 := wrap_of_lt (by omega)
  unfold consoleNewLine
  dsimp only
  -- down and back up again is where the cursor was
  by_cases hscrolls : console.Scrolls
  · refine (if_pos hscrolls).trans (Eq.trans ?_ (if_pos hscrolls).symm)
    unfold Console.draw
    dsimp only
    rw [hdown, wrapSub_of_le (by omega) (Nat.le_add_left _ _), Nat.add_sub_cancel]
  · refine (if_neg hscrolls).trans (Eq.trans ?_ (if_neg hscrolls).symm)
    rw [hdown]

/-- **It draws where it scrolls.** -/
theorem consoleNewLine_draws (hfits : console.Fits) :
    Draws (fun c => consoleNewLine c 16) console (newLineFootprint console) := by
  have hheight := hfits.height
  have heq : ∀ pixels, consoleNewLine { console with pixels := pixels } 16 = _ := fun pixels =>
    consoleNewLine_eq (hfits.redrawn pixels)
  unfold newLineFootprint
  by_cases hscrolls : console.Scrolls
  · rw [if_pos hscrolls]
    have hdraws : Draws (fun c => { c.draw (screenScrollRegionUp console.framebuffer 56 16
        console.backgroundColor) with cursorX := 0 }) console
        (console.framebuffer.rows 56 console.framebuffer.height) :=
      ⟨_, confined_scroll (by omega), fun pixels => rfl⟩
    exact hdraws.congr fun pixels => (heq pixels).trans (if_pos hscrolls)
  · rw [if_neg hscrolls]
    have hdraws : Draws (fun c => { c with cursorX := 0, cursorY := c.cursorY + 16 }) console ∅ :=
      draws_statics fun _ _ => rfl
    exact hdraws.congr fun pixels => (heq pixels).trans (if_neg hscrolls)

/-- And leaves the cursor on the screen. -/
theorem Console.Fits.newLine (hfits : console.Fits) : (consoleNewLine console 16).Fits := by
  have hrow := hfits.row
  have hscrolls_iff := hfits.scrolls_iff
  rw [consoleNewLine_eq hfits]
  split
  · exact ⟨hfits.width, hfits.height, Nat.zero_le _, rfl, hrow⟩
  · rename_i hstays
    have hroom := (not_congr hscrolls_iff).1 hstays
    refine ⟨hfits.width, hfits.height, Nat.zero_le _, rfl, ?_⟩
    dsimp only
    omega

/-- The glyph at the cursor, and the cursor one to the right. -/
def Console.advance (console : Console) (glyph : Glyph) : Console :=
  { console.draw (screenDrawGlyph console.framebuffer console.cursorX console.cursorY glyph 2
      console.textColor) with cursorX := wrap (console.cursorX + 16) }

theorem Console.advance_draws {glyph : Glyph} (hfits : console.Fits) :
    Draws (fun c => c.advance glyph) console (glyphFootprint console glyph) := by
  have hcolumn := hfits.column
  have hrow := hfits.row
  have hheight := hfits.height_lt
  have hwidth := hfits.width_lt
  refine ⟨screenDrawGlyph console.framebuffer console.cursorX console.cursorY glyph 2
    console.textColor, ?_, fun pixels => rfl⟩
  rw [screenDrawGlyph_eq (by decide) (by omega) (by omega)]
  exact confined_paint _ _

/-- **What a codepoint does.** -/
theorem consoleWriteCodepoint_eq (console : Console) (character : ℕ) :
    consoleWriteCodepoint console character =
      if character = '\n'.toNat then consoleNewLine console 16
      else match fontGetGlyph character with
        | none => console
        | some glyph =>
          if console.Wraps then (consoleNewLine console 16).advance glyph
          else console.advance glyph := by
  unfold consoleWriteCodepoint
  dsimp only
  split
  · rfl
  · cases fontGetGlyph character with
    | none => rfl
    | some glyph =>
      dsimp only
      exact apply_ite (fun c : Console => c.advance glyph) console.Wraps _ _

/-- **Every call draws in its footprint.** -/
theorem Console.perform_draws (hfits : console.Fits) (call : ConsoleCall) :
    Draws (fun c => c.perform call) console (call.footprint console) := by
  cases call with
  | setTextColor color => exact draws_statics fun _ _ => rfl
  | writeCodepoint character =>
    have heq : ∀ pixels, _ := fun pixels =>
      consoleWriteCodepoint_eq { console with pixels := pixels } character
    unfold ConsoleCall.footprint
    dsimp only
    by_cases hline : character = '\n'.toNat
    · rw [if_pos hline]
      exact (consoleNewLine_draws hfits).congr fun pixels => (heq pixels).trans (if_pos hline)
    · rw [if_neg hline]
      cases hglyph : fontGetGlyph character with
      | none =>
        have hdraws : Draws (fun c => c) console ∅ := draws_statics fun _ _ => rfl
        refine hdraws.congr fun pixels => (heq pixels).trans ?_
        rw [if_neg hline, hglyph]
      | some glyph =>
        dsimp only
        -- a glyph that does not fit takes a new line first, which may scroll
        by_cases hwraps : console.Wraps
        · rw [if_pos hwraps]
          have hnext := (consoleNewLine_draws hfits).mono
            (Set.subset_union_left (t := glyphFootprint (consoleNewLine console 16) glyph))
          have hglyph' : Draws (fun c => c.advance glyph) (consoleNewLine console 16)
              (newLineFootprint console ∪ glyphFootprint (consoleNewLine console 16) glyph) :=
            (Console.advance_draws hfits.newLine).mono Set.subset_union_right
          refine (hnext.comp hglyph').congr fun pixels => (heq pixels).trans ?_
          rw [if_neg hline, hglyph]
          exact if_pos hwraps
        · rw [if_neg hwraps]
          refine (Console.advance_draws hfits).congr fun pixels => (heq pixels).trans ?_
          rw [if_neg hline, hglyph]
          exact if_neg hwraps
  | backspace =>
    have hcolumn := hfits.column
    have hcell := hfits.cell
    have hrow := hfits.row
    have hheight := hfits.height_lt
    have hwidth := hfits.width_lt
    unfold ConsoleCall.footprint
    dsimp only
    by_cases hzero : console.cursorX = 0
    · rw [if_pos hzero]
      have hdraws : Draws (fun c => c) console ∅ := draws_statics fun _ _ => rfl
      exact hdraws.congr fun pixels => if_pos hzero
    · rw [if_neg hzero]
      have hleft : wrapSub console.cursorX 16 = console.cursorX - 16 :=
        wrapSub_of_le (by omega) (by omega)
      have hconfined : Confined (console.framebuffer.words
          (rectangle (console.cursorX - 16) console.cursorY 16 16))
          (screenDrawRect console.framebuffer (wrapSub console.cursorX 16) console.cursorY 16 16
            console.backgroundColor) := by
        rw [hleft, screenDrawRect_eq (by omega) (by omega)]
        exact confined_paint _ _
      have hmoves : Draws (fun c => { c with cursorX := wrapSub console.cursorX 16 }) console
          (console.framebuffer.words (rectangle (console.cursorX - 16) console.cursorY 16 16)) :=
        draws_statics fun _ _ => rfl
      exact (hmoves.comp (draws_draw hconfined)).congr fun pixels => if_neg hzero
  | clear =>
    have hfill : Draws (fun c => c.draw (screenFill console.framebuffer console.backgroundColor))
        console Set.univ := draws_draw (confined_univ _)
    have hhome : ∀ c, Draws (fun c => { c with cursorX := 0, cursorY := 56 }) c Set.univ :=
      fun c => draws_statics fun _ _ => rfl
    have hheader : ∀ c, Draws (fun c => consoleUpdateHeader c console.headerUptimeSeconds) c
        Set.univ := fun c => (consoleUpdateHeader_draws _).mono (Set.subset_univ _)
    exact ((hfill.comp (hhome _)).comp (hheader _)).congr fun pixels => rfl
  | updateHeader uptimeSeconds => exact consoleUpdateHeader_draws uptimeSeconds

/-! ## Runs of calls -/

theorem Console.Fits.advance {glyph : Glyph} (hfits : console.Fits)
    (hroom : console.cursorX + 16 ≤ console.framebuffer.width) : (console.advance glyph).Fits := by
  have hcell := hfits.cell
  have hwidth := hfits.width_lt
  have hnext : (console.advance glyph).cursorX = console.cursorX + 16 := wrap_of_lt (by omega)
  exact ⟨hfits.width, hfits.height, hnext ▸ hroom, by omega, hfits.row⟩

/-- The header leaves the cursor where it is. -/
theorem Console.Fits.updateHeader (hfits : console.Fits) (uptimeSeconds : ℕ) :
    (consoleUpdateHeader console uptimeSeconds).Fits := by
  rw [consoleUpdateHeader_statics]
  exact ⟨hfits.width, hfits.height, hfits.column, hfits.cell, hfits.row⟩

/-- **Every call leaves the cursor on the screen.** -/
theorem Console.Fits.perform (hfits : console.Fits) (call : ConsoleCall) :
    (console.perform call).Fits := by
  have hwidth := hfits.width
  have hheight := hfits.height
  cases call with
  | setTextColor color => exact ⟨hwidth, hheight, hfits.column, hfits.cell, hfits.row⟩
  | writeCodepoint character =>
    change (consoleWriteCodepoint console character).Fits
    rw [consoleWriteCodepoint_eq]
    split
    · exact hfits.newLine
    · cases fontGetGlyph character with
      | none => exact hfits
      | some glyph =>
        dsimp only
        split
        · refine hfits.newLine.advance ?_
          have hstart : (consoleNewLine console 16).cursorX = 0 := by
            rw [consoleNewLine_eq hfits]
            split <;> rfl
          rw [hstart]
          exact hfits.newLine.width
        · rename_i hstays
          have hroom := (not_congr hfits.wraps_iff).1 hstays
          exact hfits.advance (by omega)
  | backspace =>
    change (consoleBackspace console).Fits
    have hcell := hfits.cell
    have hcolumn := hfits.column
    have hlt := hfits.width_lt
    unfold consoleBackspace
    dsimp only
    split
    · exact hfits
    · have hleft : wrapSub console.cursorX 16 = console.cursorX - 16 :=
        wrapSub_of_le (by omega) (by omega)
      refine ⟨hwidth, hheight, ?_, ?_, hfits.row⟩
      · change wrapSub console.cursorX 16 ≤ console.framebuffer.width
        omega
      · change wrapSub console.cursorX 16 % 16 = 0
        omega
  | clear =>
    have hhome : Console.Fits { console.draw (screenFill console.framebuffer
        console.backgroundColor) with
        cursorX := 0
        cursorY := 56 } := ⟨hwidth, hheight, Nat.zero_le _, rfl, hheight⟩
    exact hhome.updateHeader _
  | updateHeader uptimeSeconds => exact hfits.updateHeader uptimeSeconds

/-- **The words a list of calls touches**, one call after the other. -/
def callsFootprint (console : Console) : List ConsoleCall → Set ℕ
  | [] => ∅
  | call :: calls => call.footprint console ∪ callsFootprint (console.perform call) calls

/-- **Two screens that agree off `B`** agree off `B` after calls that have
nothing to do with `B`, and on `B` nothing changes. -/
theorem Console.performAll_off {B : Set ℕ} {calls : List ConsoleCall} {pixels : Pixels}
    (hfits : console.Fits) (hB : Disjoint (callsFootprint console calls) B)
    (hoff : ∀ k, k ∉ B → console.pixels k = pixels k) : ∃ pixels',
      ({ console with pixels := pixels } : Console).performAll calls =
        { console.performAll calls with pixels := pixels' } ∧
      (∀ k, k ∉ B → (console.performAll calls).pixels k = pixels' k) ∧
      (∀ k ∈ B, pixels' k = pixels k) ∧ (console.performAll calls).Fits := by
  induction calls generalizing console pixels with
  | nil => exact ⟨pixels, rfl, hoff, fun k _ => rfl, hfits⟩
  | cons call calls ih =>
    obtain ⟨hcall, hcalls⟩ := Set.disjoint_union_left.1 hB
    obtain ⟨drawing, hconfined, hdraws⟩ := console.perform_draws hfits call
    have hself : console.perform call =
        { console.perform call with pixels := drawing console.pixels } := hdraws console.pixels
    have hpixels : (console.perform call).pixels = drawing console.pixels :=
      congrArg Console.pixels hself
    -- the drawing is the same from both screens off `B`, and leaves `B` on either
    obtain ⟨hsame, -⟩ := hconfined.off hcall hoff
    obtain ⟨-, hkeeps⟩ := hconfined.off hcall fun k _ => (rfl : pixels k = pixels k)
    obtain ⟨pixels', hrun, hoff', hon, hfits'⟩ := ih (hfits.perform call) hcalls fun k hk =>
      (congrFun hpixels k).trans (hsame k hk)
    refine ⟨pixels', ?_, hoff', fun k hk => (hon k hk).trans (hkeeps k hk), hfits'⟩
    have hfirst : ({ console with pixels := pixels } : Console).perform call =
        { console.perform call with pixels := drawing pixels } := hdraws pixels
    change (({ console with pixels := pixels } : Console).perform call).performAll calls = _
    rw [hfirst]
    exact hrun

end KbmOs
