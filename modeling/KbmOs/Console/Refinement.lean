import KbmOs.Console.Effects
import KbmOs.Lib.Terminal
/-!
# The console is a text terminal

The content of the screen, the rows from 56 on, is at any time the picture
of a terminal whose cells are 16 pixels square: `Shows` says which pixel is
which cell's and where the cursor is. Every call of the console takes a
screen that shows a terminal to one that shows the terminal after the
step the call stands for.
-/

namespace KbmOs

open Raster Framebuffer

/-- A screen with room for the header and one line of text. -/
structure Framebuffer.Roomy (framebuffer : Framebuffer) : Prop where
  width : 16 ≤ framebuffer.width
  height : 72 ≤ framebuffer.height

/-- The cells of the content: 16 pixels square, below the header. -/
def contentGrid (framebuffer : Framebuffer) (h : framebuffer.Roomy) : Grid where
  rows := (framebuffer.height - 56) / 16
  cols := framebuffer.width / 16
  rows_pos := by
    have := h.height
    omega
  cols_pos := by
    have := h.width
    omega

/-- **What a call is to the terminal.** A character without a glyph, the
header and the colour are nothing to it. -/
def terminalStep {g : Grid} (t : Terminal g ℕ) : ConsoleCall → Terminal g ℕ
  | .setTextColor _ => t
  | .writeCodepoint character =>
    if character = '\n'.toNat then t.newLine
    else if (fontGetGlyph character).isSome then t.put character else t
  | .backspace => t.backspace
  | .clear => t.clear
  | .updateHeader _ => t

/-- The terminal after the calls. -/
def terminalRun {g : Grid} (t : Terminal g ℕ) (calls : List ConsoleCall) : Terminal g ℕ :=
  calls.foldl terminalStep t

/-- The colour of a pixel of a cell, from the cell's corner. -/
def cellColor (text background : UInt32) (cell : Option ℕ) (dx dy : ℕ) : UInt32 :=
  match cell.bind fontGetGlyph with
  | some glyph => if glyphBit glyph (dx / 2) (dy / 2) then text else background
  | none => background

/-- **The picture of a terminal**: its cells, and background where there is
none. -/
def render {g : Grid} (text background : UInt32) (t : Terminal g ℕ) (q : Position) : UInt32 :=
  if (q.2 - 56) / 16 < g.rows ∧ q.1 / 16 < g.cols then
    cellColor text background (t.cells ((q.2 - 56) / 16) (q.1 / 16)) (q.1 % 16) ((q.2 - 56) % 16)
  else background

variable {framebuffer : Framebuffer} {h : framebuffer.Roomy} {console : Console} {q : Position}
variable {t : Terminal (contentGrid framebuffer h) ℕ} {glyph : Glyph} {character : ℕ}

/-- **The console shows the terminal.** -/
structure Shows (t : Terminal (contentGrid framebuffer h) ℕ) (console : Console) : Prop where
  framebuffer_eq : console.framebuffer = framebuffer
  cursorX : console.cursorX = 16 * t.col
  cursorY : console.cursorY = 56 + 16 * t.row
  content : ∀ q, framebuffer.Visible q → 56 ≤ q.2 →
    framebuffer.picture console.pixels q = render console.textColor console.backgroundColor t q

theorem Shows.fits (hs : Shows t console) : console.Fits := by
  have hcol : t.col ≤ framebuffer.width / 16 := t.col_le
  have hrow : t.row < (framebuffer.height - 56) / 16 := t.row_lt
  have hwidth := h.width
  have hheight := h.height
  have hX := hs.cursorX
  have hY := hs.cursorY
  obtain rfl := hs.framebuffer_eq
  exact ⟨hwidth, hheight, by omega, by omega, by omega⟩

theorem render_empty (text background : UInt32) (t : Terminal (contentGrid framebuffer h) ℕ)
    (hempty : ∀ r c, t.cells r c = none) : render text background t q = background := by
  unfold render
  rw [hempty]
  exact ite_self _

/-- A cell that holds nothing is background. -/
theorem render_blank (text background : UInt32)
    (hblank : t.cells ((q.2 - 56) / 16) (q.1 / 16) = none) :
    render text background t q = background := by
  unfold render
  rw [hblank]
  exact ite_self _

/-- Where the cells are the same the picture is. -/
theorem render_congr (text background : UInt32) {t' : Terminal (contentGrid framebuffer h) ℕ}
    (hcell : t'.cells ((q.2 - 56) / 16) (q.1 / 16) = t.cells ((q.2 - 56) / 16) (q.1 / 16)) :
    render text background t' q = render text background t q := by
  unfold render
  rw [hcell]

/-! ## New lines -/

/-- **The picture of a terminal that scrolled** is the old one 16 pixels
further down. -/
theorem render_scrolled (text background : UInt32) (hcontent : 56 ≤ q.2)
    {t' : Terminal (contentGrid framebuffer h) ℕ}
    (hlast : t.row + 1 = (contentGrid framebuffer h).rows)
    (hcells : t'.cells = t.scrolledCells) : render text background t' q =
      if q.2 + 16 < framebuffer.height then render text background t (q.1, q.2 + 16)
      else background := by
  have hrows : (contentGrid framebuffer h).rows = (framebuffer.height - 56) / 16 := rfl
  have hnext : (q.2 + 16 - 56) / 16 = (q.2 - 56) / 16 + 1 := by omega
  have hmod : (q.2 + 16 - 56) % 16 = (q.2 - 56) % 16 := by omega
  -- the row that came up is the next one, and below the last there is none
  by_cases hin : (q.2 - 56) / 16 + 1 < (contentGrid framebuffer h).rows
  · have hcell : t'.cells ((q.2 - 56) / 16) (q.1 / 16) =
        t.cells ((q.2 - 56) / 16 + 1) (q.1 / 16) := by
      rw [hcells]
      exact if_pos hin
    rw [if_pos (by omega)]
    unfold render
    rw [hcell]
    dsimp only
    rw [hnext, hmod]
    by_cases hcol : q.1 / 16 < (contentGrid framebuffer h).cols
    · rw [if_pos ⟨by omega, hcol⟩, if_pos ⟨hin, hcol⟩]
    · rw [if_neg fun hor => hcol hor.2, if_neg fun hor => hcol hor.2]
  · have hcell : t'.cells ((q.2 - 56) / 16) (q.1 / 16) = none := by
      rw [hcells]
      exact if_neg hin
    rw [render_blank text background hcell]
    split
    · unfold render
      dsimp only
      rw [hnext, if_neg fun hor => hin hor.1]
    · rfl

/-- **A new line shows a new line.** -/
theorem Shows.newLine (hs : Shows t console) : Shows t.newLine (consoleNewLine console 16) := by
  have hfits := hs.fits
  have hscrolls := hfits.scrolls_iff
  have hheight := h.height
  have hrows : (contentGrid framebuffer h).rows = (framebuffer.height - 56) / 16 := rfl
  have hY := hs.cursorY
  rw [hs.framebuffer_eq] at hscrolls
  rw [consoleNewLine_eq hfits]
  -- the console scrolls exactly when the terminal is in its last row
  rcases t.newLine_cases with ⟨hnext, hcells, hrow, -⟩ | ⟨hlast, hcells, hrow, -⟩
  · rw [if_neg fun hsc => by
      have := hscrolls.1 hsc
      omega]
    exact {
      framebuffer_eq := hs.framebuffer_eq
      cursorX := by rw [Terminal.newLine_col]
      cursorY := by
        rw [hrow]
        dsimp only
        omega
      content := fun q hq hcontent =>
        (hs.content q hq hcontent).trans (render_congr _ _ (by rw [hcells])).symm }
  · rw [if_pos (hscrolls.2 (by omega))]
    exact {
      framebuffer_eq := hs.framebuffer_eq
      cursorX := by rw [Terminal.newLine_col]
      cursorY := by
        rw [hrow]
        exact hY
      content := by
        intro q hq hcontent
        change framebuffer.picture (screenScrollRegionUp console.framebuffer 56 16
          console.backgroundColor console.pixels) q =
            render console.textColor console.backgroundColor t.newLine q
        rw [hs.framebuffer_eq, picture_scroll (by omega) hq, if_neg (by omega),
          render_scrolled _ _ hcontent hlast hcells]
        by_cases hbelow : q.2 + 16 < framebuffer.height
        · rw [if_pos hbelow, if_pos hbelow]
          exact hs.content _ ⟨hq.1, hbelow⟩ (by dsimp only; omega)
        · rw [if_neg hbelow, if_neg hbelow] }

/-! ## Cells -/

/-- The pixels of a cell. -/
theorem mem_cell (hcontent : 56 ≤ q.2) (row col : ℕ) :
    q ∈ rectangle (16 * col) (56 + 16 * row) 16 16 ↔ (q.2 - 56) / 16 = row ∧ q.1 / 16 = col := by
  unfold rectangle
  rw [Set.mem_ofPred_eq]
  constructor
  · rintro ⟨hleft, hright, htop, hbottom⟩
    omega
  · rintro ⟨hrow, hcol⟩
    omega

/-- **A glyph shows its character**: the cell it is drawn into is blank. -/
theorem Shows.advance (hs : Shows t console) (hglyph : fontGetGlyph character = some glyph)
    (hroom : t.col < (contentGrid framebuffer h).cols) :
    Shows (t.write character hroom) (console.advance glyph) := by
  have hfits := hs.fits
  have hwidth := hfits.width_lt
  have hheight := hfits.height_lt
  have hcolumn := hfits.column
  have hbottom := hfits.row
  have hX := hs.cursorX
  have hrow := t.row_lt
  have hnext : wrap (console.cursorX + 16) = 16 * (t.col + 1) := by
    rw [wrap_of_lt (by omega)]
    omega
  refine ⟨hs.framebuffer_eq, hnext, hs.cursorY, fun q hq hcontent => ?_⟩
  change framebuffer.picture (screenDrawGlyph console.framebuffer console.cursorX console.cursorY
    glyph 2 console.textColor console.pixels) q =
      render console.textColor console.backgroundColor (t.write character hroom) q
  rw [screenDrawGlyph_eq (by decide) (by omega) (by omega), hs.framebuffer_eq, hX, hs.cursorY]
  by_cases hcell : (q.2 - 56) / 16 = t.row ∧ q.1 / 16 = t.col
  · -- the pixel is in the cell: it is painted if its bit is set, and was background
    have hsymbol : (t.write character hroom).cells ((q.2 - 56) / 16) (q.1 / 16) = some character :=
      if_pos hcell
    have hin := (mem_cell hcontent t.row t.col).2 hcell
    have hdx : q.1 - 16 * t.col = q.1 % 16 := by omega
    have hdy : q.2 - (56 + 16 * t.row) = (q.2 - 56) % 16 := by omega
    unfold render
    rw [if_pos ⟨by omega, by omega⟩, hsymbol]
    unfold cellColor
    rw [Option.bind_some, hglyph]
    dsimp only
    rw [← hdx, ← hdy]
    split
    · rename_i hbit
      exact picture_paint hq ⟨hin, hbit⟩
    · rename_i hbit
      rw [picture_paint_of_not_mem hq fun hmem => hbit hmem.2, hs.content q hq hcontent]
      exact render_blank _ _ (t.blank _ _ (by omega))
  · have hsymbol : (t.write character hroom).cells ((q.2 - 56) / 16) (q.1 / 16) =
        t.cells ((q.2 - 56) / 16) (q.1 / 16) := if_neg hcell
    rw [picture_paint_of_not_mem hq fun hmem => hcell ((mem_cell hcontent _ _).1 hmem.1),
      render_congr _ _ hsymbol]
    exact hs.content q hq hcontent

/-- **Erasing shows a backspace.** -/
theorem Shows.backspace (hs : Shows t console) : Shows t.backspace (consoleBackspace console) := by
  have hfits := hs.fits
  have hwidth := hfits.width_lt
  have hheight := hfits.height_lt
  have hcolumn := hfits.column
  have hbottom := hfits.row
  have hX := hs.cursorX
  by_cases hcol : t.col = 0
  · have hzero : console.cursorX = 0 := by omega
    have hsame : consoleBackspace console = console := if_pos hzero
    rw [hsame, Terminal.backspace_of_col_eq_zero hcol]
    exact hs
  · -- the cell before the cursor is painted over
    have hnonzero : console.cursorX ≠ 0 := by omega
    have hleft : wrapSub console.cursorX 16 = 16 * (t.col - 1) := by
      rw [wrapSub_of_le (by omega) (by omega)]
      omega
    have herase : consoleBackspace console = { console with
        cursorX := 16 * (t.col - 1)
        pixels := screenDrawRect console.framebuffer (16 * (t.col - 1)) console.cursorY 16 16
          console.backgroundColor console.pixels } := by
      rw [← hleft]
      exact if_neg hnonzero
    obtain ⟨hrow, hcolumn', -, hcells⟩ := Terminal.backspace_cells hcol
    rw [herase]
    refine ⟨hs.framebuffer_eq, by rw [hcolumn'], by rw [hrow]; exact hs.cursorY,
      fun q hq hcontent => ?_⟩
    dsimp only
    rw [screenDrawRect_eq (by omega) (by omega), hs.framebuffer_eq, hs.cursorY]
    by_cases hcell : (q.2 - 56) / 16 = t.row ∧ q.1 / 16 = t.col - 1
    · rw [picture_paint hq ((mem_cell hcontent _ _).2 hcell), render_blank]
      rw [hcells]
      exact if_pos hcell
    · have hsymbol : t.backspace.cells ((q.2 - 56) / 16) (q.1 / 16) =
          t.cells ((q.2 - 56) / 16) (q.1 / 16) := by
        rw [hcells]
        exact if_neg hcell
      rw [picture_paint_of_not_mem hq fun hmem => hcell ((mem_cell hcontent _ _).1 hmem),
        render_congr _ _ hsymbol]
      exact hs.content q hq hcontent

/-! ## Fills and the header -/

/-- The header is above the content. -/
theorem Shows.updateHeader (hs : Shows t console) (uptimeSeconds : ℕ) :
    Shows t (consoleUpdateHeader console uptimeSeconds) := by
  have hkeeps : ∀ q, framebuffer.Visible q → 56 ≤ q.2 →
      framebuffer.picture (consoleUpdateHeader console uptimeSeconds).pixels q =
        framebuffer.picture console.pixels q := by
    intro q hq hcontent
    refine (consoleUpdateHeader_draws uptimeSeconds).keeps fun hmem => ?_
    rw [hs.framebuffer_eq, mem_words hq, Set.mem_ofPred_eq] at hmem
    omega
  rw [consoleUpdateHeader_statics]
  exact ⟨hs.framebuffer_eq, hs.cursorX, hs.cursorY, fun q hq hcontent =>
    (hkeeps q hq hcontent).trans (hs.content q hq hcontent)⟩

/-- **A filled screen shows an empty terminal.** -/
theorem shows_home (hframebuffer : console.framebuffer = framebuffer) (hrow : t.row = 0)
    (hcol : t.col = 0) (hempty : ∀ r c, t.cells r c = none) :
    Shows t { console.draw (screenFill framebuffer console.backgroundColor) with
      cursorX := 0
      cursorY := 56 } := by
  refine ⟨hframebuffer, by rw [hcol], by rw [hrow], fun q hq hcontent => ?_⟩
  dsimp only
  rw [render_empty _ _ t hempty]
  unfold Console.draw
  dsimp only
  rw [screenFill_eq]
  exact picture_paint hq (Set.mem_univ q)

theorem Shows.clear (hs : Shows t console) : Shows t.clear (consoleClear console) := by
  have hhome : Shows t.clear { console.draw (screenFill framebuffer console.backgroundColor) with
      cursorX := 0
      cursorY := 56 } := shows_home hs.framebuffer_eq rfl rfl fun _ _ => rfl
  unfold consoleClear
  rw [hs.framebuffer_eq]
  exact hhome.updateHeader _

/-- **The console starts as the empty terminal.** -/
theorem shows_init (console : Console) (h : framebuffer.Roomy) :
    Shows (Terminal.empty (contentGrid framebuffer h) ℕ) (consoleInit console framebuffer) := by
  have hhome : Shows (Terminal.empty (contentGrid framebuffer h) ℕ)
      { ({ console with framebuffer := framebuffer } : Console).draw
          (screenFill framebuffer console.backgroundColor) with
        cursorX := 0
        cursorY := 56 } := shows_home rfl rfl rfl fun _ _ => rfl
  exact hhome.updateHeader 0

/-! ## Runs -/

/-- **Every call refines its step.** -/
theorem Shows.perform (hs : Shows t console) {call : ConsoleCall}
    (hcolor : ∀ color, call = .setTextColor color → color = console.textColor) :
    Shows (terminalStep t call) (console.perform call) := by
  cases call with
  | setTextColor color =>
    rw [hcolor color rfl]
    exact ⟨hs.framebuffer_eq, hs.cursorX, hs.cursorY, hs.content⟩
  | writeCodepoint character =>
    change Shows _ (consoleWriteCodepoint console character)
    rw [consoleWriteCodepoint_eq]
    unfold terminalStep
    dsimp only
    by_cases hline : character = '\n'.toNat
    · rw [if_pos hline, if_pos hline]
      exact hs.newLine
    · rw [if_neg hline, if_neg hline]
      cases hglyph : fontGetGlyph character with
      | none => exact hs
      | some glyph =>
        have hwraps := hs.fits.wraps_iff
        have hX := hs.cursorX
        have hcols : (contentGrid framebuffer h).cols = framebuffer.width / 16 := rfl
        have hcol := t.col_le
        rw [hs.framebuffer_eq] at hwraps
        dsimp only
        rw [Option.isSome_some, if_pos rfl]
        -- room is made on both sides before the glyph is drawn
        have hnext : Shows t.makeRoom
            (if console.Wraps then consoleNewLine console 16 else console) := by
          unfold Terminal.makeRoom
          by_cases hfull : t.col = (contentGrid framebuffer h).cols
          · rw [if_pos hfull, if_pos (hwraps.2 (by omega))]
            exact hs.newLine
          · rw [if_neg hfull, if_neg fun hw => by
              have := hwraps.1 hw
              omega]
            exact hs
        rw [← apply_ite (fun c : Console => c.advance glyph)]
        exact hnext.advance hglyph _
  | backspace => exact hs.backspace
  | clear => exact hs.clear
  | updateHeader uptimeSeconds => exact hs.updateHeader uptimeSeconds

/-- No call changes the background, and only one the text colour. -/
theorem Console.perform_colors (console : Console) {call : ConsoleCall}
    (hcolor : ∀ color, call = .setTextColor color → color = console.textColor) :
    (console.perform call).textColor = console.textColor ∧
      (console.perform call).backgroundColor = console.backgroundColor := by
  have hnewLine : ∀ c : Console, (consoleNewLine c 16).textColor = c.textColor ∧
      (consoleNewLine c 16).backgroundColor = c.backgroundColor := by
    intro c
    unfold consoleNewLine
    dsimp only
    split <;> exact ⟨rfl, rfl⟩
  cases call with
  | setTextColor color => exact ⟨hcolor color rfl, rfl⟩
  | writeCodepoint character =>
    change (consoleWriteCodepoint console character).textColor = _ ∧
      (consoleWriteCodepoint console character).backgroundColor = _
    rw [consoleWriteCodepoint_eq]
    split
    · exact hnewLine console
    · cases fontGetGlyph character with
      | none => exact ⟨rfl, rfl⟩
      | some glyph =>
        dsimp only
        split
        · exact hnewLine console
        · exact ⟨rfl, rfl⟩
  | backspace =>
    change (consoleBackspace console).textColor = _ ∧ (consoleBackspace console).backgroundColor = _
    unfold consoleBackspace
    dsimp only
    split <;> exact ⟨rfl, rfl⟩
  | clear =>
    change (consoleClear console).textColor = _ ∧ (consoleClear console).backgroundColor = _
    unfold consoleClear
    dsimp only
    rw [consoleUpdateHeader_statics]
    exact ⟨rfl, rfl⟩
  | updateHeader uptimeSeconds =>
    change (consoleUpdateHeader console uptimeSeconds).textColor = _ ∧
      (consoleUpdateHeader console uptimeSeconds).backgroundColor = _
    rw [consoleUpdateHeader_statics]
    exact ⟨rfl, rfl⟩

/-- **A run of calls refines the run of their steps.** -/
theorem Shows.performAll {calls : List ConsoleCall} (hs : Shows t console)
    (hcolor : ∀ color, .setTextColor color ∈ calls → color = console.textColor) :
    Shows (terminalRun t calls) (console.performAll calls) ∧
      (console.performAll calls).textColor = console.textColor ∧
      (console.performAll calls).backgroundColor = console.backgroundColor := by
  induction calls generalizing t console with
  | nil => exact ⟨hs, rfl, rfl⟩
  | cons call calls ih =>
    have hcall : ∀ color, call = .setTextColor color → color = console.textColor :=
      fun color heq => hcolor color (heq ▸ List.mem_cons_self)
    obtain ⟨htext, hbackground⟩ := console.perform_colors hcall
    obtain ⟨hshows, htext', hbackground'⟩ := ih (hs.perform hcall) fun color hmem =>
      (hcolor color (List.mem_cons_of_mem _ hmem)).trans htext.symm
    exact ⟨hshows, htext'.trans htext, hbackground'.trans hbackground⟩

/-- The call writes or erases text. -/
def ConsoleCall.IsText : ConsoleCall → Prop
  | .writeCodepoint _ => True
  | .backspace => True
  | _ => False

/-- **Text stays below the header.** -/
theorem Shows.text_keeps (hs : Shows t console) {call : ConsoleCall} (htext : call.IsText)
    (hq : framebuffer.Visible q) (hheader : q.2 < 56) :
    framebuffer.picture (console.perform call).pixels q = framebuffer.picture console.pixels q := by
  have hfits := hs.fits
  have hY := hs.cursorY
  have hnext : 56 ≤ (consoleNewLine console 16).cursorY := by
    rw [hs.newLine.cursorY]
    exact Nat.le_add_right _ _
  have hglyph : ∀ c : Console, c.framebuffer = framebuffer → 56 ≤ c.cursorY → ∀ glyph,
      framebuffer.word q ∉ glyphFootprint c glyph := by
    intro c hc hrow glyph hmem
    unfold glyphFootprint at hmem
    rw [hc, mem_words hq] at hmem
    have htop := hmem.1.2.2.1
    omega
  have hnewLine : framebuffer.word q ∉ newLineFootprint console := by
    intro hmem
    unfold newLineFootprint at hmem
    split at hmem
    · rw [hs.framebuffer_eq, word_mem_rows hq.column_lt] at hmem
      omega
    · exact hmem
  -- what a call of text touches starts at the cursor or at the content
  refine (console.perform_draws hfits call).keeps ?_
  cases call with
  | writeCodepoint character =>
    unfold ConsoleCall.footprint
    dsimp only
    split
    · exact hnewLine
    · cases fontGetGlyph character with
      | none => exact Set.notMem_empty _
      | some glyph =>
        dsimp only
        split
        · rintro (hmem | hmem)
          · exact hnewLine hmem
          · exact hglyph _ hs.newLine.framebuffer_eq hnext glyph hmem
        · exact hglyph console hs.framebuffer_eq (by omega) glyph
  | backspace =>
    unfold ConsoleCall.footprint
    dsimp only
    split
    · exact Set.notMem_empty _
    · rw [hs.framebuffer_eq, mem_words hq]
      rintro ⟨-, -, htop, -⟩
      omega
  | setTextColor _ => exact htext.elim
  | clear => exact htext.elim
  | updateHeader _ => exact htext.elim

/-- **The pixel console refines a text terminal**: after any calls the
content of the screen is the picture of the terminal after their steps, the
cursor stands at the terminal's cursor, and writing or erasing on leaves
the rows above the content as they are. -/
theorem console_refines_terminal (h : framebuffer.Roomy) (console : Console)
    (calls : List ConsoleCall)
    (hcolor : ∀ color, .setTextColor color ∈ calls → color = console.textColor) :
    Shows (terminalRun (Terminal.empty (contentGrid framebuffer h) ℕ) calls)
        ((consoleInit console framebuffer).performAll calls) ∧
      ((consoleInit console framebuffer).performAll calls).textColor = console.textColor ∧
      ((consoleInit console framebuffer).performAll calls).backgroundColor =
        console.backgroundColor ∧
      ∀ call : ConsoleCall, call.IsText → ∀ q, framebuffer.Visible q → q.2 < 56 →
        framebuffer.picture
            (((consoleInit console framebuffer).performAll calls).perform call).pixels q =
          framebuffer.picture ((consoleInit console framebuffer).performAll calls).pixels q := by
  have hinit : (consoleInit console framebuffer).textColor = console.textColor ∧
      (consoleInit console framebuffer).backgroundColor = console.backgroundColor := by
    unfold consoleInit
    dsimp only
    rw [consoleUpdateHeader_statics]
    exact ⟨rfl, rfl⟩
  obtain ⟨hshows, htext, hbackground⟩ := (shows_init console h).performAll fun color hmem =>
    (hcolor color hmem).trans hinit.1.symm
  exact ⟨hshows, htext.trans hinit.1, hbackground.trans hinit.2,
    fun call hcall q hq hheader => hshows.text_keeps hcall hq hheader⟩

/-- A small screen: six columns and six rows below the header. -/
def sampleFramebuffer : Framebuffer where
  width := 96
  height := 160
  pitch := 384
  height_lt := by decide
  pitch_lt := by decide
  stride := by decide
  inMemory := by decide

theorem sampleFramebuffer_roomy : sampleFramebuffer.Roomy := ⟨by decide, by decide⟩

/-- The statics before anything ran. -/
def sampleConsole : Console where
  framebuffer := sampleFramebuffer
  pixels _ := 0

theorem console_refines_terminal_sampleFramebuffer :
    Shows (terminalRun (Terminal.empty (contentGrid sampleFramebuffer sampleFramebuffer_roomy) ℕ)
        [.writeCodepoint 'A'.toNat, .backspace, .setTextColor 0x00ffffff, .clear, .updateHeader 1])
      ((consoleInit sampleConsole sampleFramebuffer).performAll
        [.writeCodepoint 'A'.toNat, .backspace, .setTextColor 0x00ffffff, .clear,
          .updateHeader 1]) :=
  (console_refines_terminal sampleFramebuffer_roomy sampleConsole
    [.writeCodepoint 'A'.toNat, .backspace, .setTextColor 0x00ffffff, .clear, .updateHeader 1]
    (by simp [sampleConsole])).1

end KbmOs
