import KbmOs.Console.Refinement
/-!
# The whole screen of the console

Above the content the screen has the header, a bar with the name and the
uptime on it, and below the bar a strip of background. A `Face` is what the
screen shows: a terminal, and the seconds in the header; `Displays` says
that the console's pixels are its picture, and every call of the console
keeps that.
-/

namespace KbmOs

open Raster Framebuffer

/-- Where the header has the uptime. -/
def uptimeColumn (framebuffer : Framebuffer) : ℕ :=
  if framebuffer.width > 144 then framebuffer.width - 144 else 16

/-- A set pixel of a header text that begins in this column. -/
def headerTextBit (column : ℕ) (text : List ℕ) (q : Position) : Bool :=
  if column ≤ q.1 ∧ 12 ≤ q.2 ∧ q.2 < 28 then
    match text[(q.1 - column) / 16]?.bind fontGetGlyph with
    | some glyph => glyphBit glyph ((q.1 - column) % 16 / 2) ((q.2 - 12) / 2)
    | none => false
  else false

/-- **The picture of the header**: the uptime over the name, the accent, the
line at the bottom and the bar. -/
def headerPicture (framebuffer : Framebuffer) (textColor : UInt32) (uptimeSeconds : ℕ)
    (q : Position) : UInt32 :=
  if headerTextBit (uptimeColumn framebuffer) (uptimeText uptimeSeconds) q then consoleDimColor
  else if headerTextBit 28 ['k'.toNat, 'b'.toNat, 'm'.toNat] q then textColor
  else if 16 ≤ q.1 ∧ q.1 < 19 ∧ 12 ≤ q.2 ∧ q.2 < 28 then consoleAccentColor
  else if q.2 = 39 then consoleHeaderLineColor
  else consoleHeaderColor

/-- What a console shows: a terminal and the uptime. -/
structure Face (g : Grid) where
  terminal : Terminal g ℕ
  uptimeSeconds : ℕ

/-- **What a call is to the face.** -/
def Face.perform {g : Grid} (face : Face g) : ConsoleCall → Face g
  | .updateHeader uptimeSeconds => { face with uptimeSeconds }
  | call => { face with terminal := terminalStep face.terminal call }

def Face.performAll {g : Grid} (face : Face g) (calls : List ConsoleCall) : Face g :=
  calls.foldl Face.perform face

/-- **The picture of a face**: the header, the strip below it, and the
terminal. -/
def Face.picture {g : Grid} (face : Face g) (framebuffer : Framebuffer)
    (text background : UInt32) (q : Position) : UInt32 :=
  if q.2 < 40 then headerPicture framebuffer text face.uptimeSeconds q
  else if q.2 < 56 then background
  else render text background face.terminal q

variable {framebuffer : Framebuffer} {h : framebuffer.Roomy} {console : Console} {q : Position}
variable {face : Face (contentGrid framebuffer h)} {x y width height : ℕ} {c : UInt32}

/-! ## Texts -/

/-- The first character of a text, and the others. -/
theorem headerTextBit_cons (character : ℕ) (text : List ℕ) :
    headerTextBit x (character :: text) q = true ↔ headerTextBit (x + 16) text q = true ∨
      ∃ glyph, fontGetGlyph character = some glyph ∧ q ∈ glyphPositions x 12 glyph 2 := by
  unfold headerTextBit glyphPositions rectangle
  simp only [Set.mem_ofPred_eq]
  by_cases hrow : 12 ≤ q.2 ∧ q.2 < 28
  · by_cases hfirst : x ≤ q.1 ∧ q.1 < x + 16
    · have hplace : (q.1 - x) / 16 = 0 := by omega
      have hcolumn : (q.1 - x) % 16 = q.1 - x := by omega
      rw [if_pos (by omega), if_neg (by omega), hplace, hcolumn, List.getElem?_cons_zero,
        Option.bind_some]
      rcases hglyph : fontGetGlyph character with _ | glyph
      · simp
      · have hin : x ≤ q.1 ∧ q.1 < x + 8 * 2 ∧ 12 ≤ q.2 ∧ q.2 < 12 + 8 * 2 := by omega
        simp [hin]
    · have hout : ¬ ∃ glyph, fontGetGlyph character = some glyph ∧
          (x ≤ q.1 ∧ q.1 < x + 8 * 2 ∧ 12 ≤ q.2 ∧ q.2 < 12 + 8 * 2) ∧
            glyphBit glyph ((q.1 - x) / 2) ((q.2 - 12) / 2) = true := by
        rintro ⟨glyph, -, hin, -⟩
        omega
      rw [or_iff_left hout]
      by_cases hright : x + 16 ≤ q.1
      · have hplace : (q.1 - x) / 16 = (q.1 - (x + 16)) / 16 + 1 := by omega
        have hcolumn : (q.1 - x) % 16 = (q.1 - (x + 16)) % 16 := by omega
        rw [if_pos (by omega), if_pos (by omega), hplace, hcolumn, List.getElem?_cons_succ]
      · rw [if_neg (by omega), if_neg (by omega)]
  · have hout : ¬ ∃ glyph, fontGetGlyph character = some glyph ∧
        (x ≤ q.1 ∧ q.1 < x + 8 * 2 ∧ 12 ≤ q.2 ∧ q.2 < 12 + 8 * 2) ∧
          glyphBit glyph ((q.1 - x) / 2) ((q.2 - 12) / 2) = true := by
      rintro ⟨glyph, -, hin, -⟩
      omega
    rw [if_neg (by omega), if_neg (by omega), or_iff_left hout]

/-- **A header text paints its set pixels.** -/
theorem picture_headerText (hframebuffer : console.framebuffer = framebuffer)
    (hq : framebuffer.Visible q) (text : List ℕ) (hx : x + 16 * text.length ≤ 2 ^ 63) :
    framebuffer.picture (consoleDrawHeaderText console x 12 text 2 c).pixels q =
      if headerTextBit x text q = true then c else framebuffer.picture console.pixels q := by
  induction text generalizing console x with
  | nil =>
    have hnone : ¬ headerTextBit x [] q = true := by
      unfold headerTextBit
      split <;> simp
    rw [if_neg hnone]
    rfl
  | cons character text ih =>
    rw [List.length_cons] at hx
    have hnext : wrap (x + 8 * 2) = x + 16 := wrap_of_lt (by omega)
    rw [consoleDrawHeaderText, hnext]
    have hrest := headerTextBit_cons (q := q) (x := x) character text
    rcases hglyph : fontGetGlyph character with _ | glyph
    · rw [hglyph] at hrest
      simp only [reduceCtorEq, false_and, exists_false, or_false] at hrest
      dsimp only
      rw [ih (x := x + 16) hframebuffer (by omega)]
      exact if_congr hrest.symm rfl rfl
    · rw [hglyph] at hrest
      simp only [Option.some.injEq, exists_eq_left'] at hrest
      dsimp only
      have hdrawn : (console.draw (screenDrawGlyph console.framebuffer x 12 glyph 2 c)).framebuffer =
          framebuffer := hframebuffer
      rw [ih (x := x + 16) hdrawn (by omega)]
      by_cases hlater : headerTextBit (x + 16) text q = true
      · rw [if_pos hlater, if_pos (hrest.2 (Or.inl hlater))]
      · unfold Console.draw
        dsimp only
        rw [if_neg hlater, screenDrawGlyph_eq (by decide) (by omega) (by decide), hframebuffer]
        by_cases hhere : q ∈ glyphPositions x 12 glyph 2
        · rw [if_pos (hrest.2 (Or.inr hhere)), picture_paint hq hhere]
        · rw [if_neg fun hbit => (hrest.1 hbit).elim hlater hhere,
            picture_paint_of_not_mem hq hhere]

/-- A rectangle paints what is in it. -/
theorem picture_rect (hx : x + width ≤ 2 ^ 64) (hy : y + height ≤ 2 ^ 64)
    (hq : framebuffer.Visible q) (pixels : Pixels) :
    framebuffer.picture (screenDrawRect framebuffer x y width height c pixels) q =
      if x ≤ q.1 ∧ q.1 < x + width ∧ y ≤ q.2 ∧ q.2 < y + height then c
      else framebuffer.picture pixels q := by
  rw [screenDrawRect_eq hx hy]
  split
  · rename_i hin
    exact picture_paint hq hin
  · rename_i hout
    exact picture_paint_of_not_mem hq hout

/-! ## The header -/

/-- **The header is drawn**, and nothing below it. -/
theorem picture_updateHeader (hframebuffer : console.framebuffer = framebuffer)
    (hq : framebuffer.Visible q) (uptimeSeconds : ℕ) :
    framebuffer.picture (consoleUpdateHeader console uptimeSeconds).pixels q =
      if q.2 < 40 then headerPicture framebuffer console.textColor uptimeSeconds q
      else framebuffer.picture console.pixels q := by
  subst hframebuffer
  have hwidth : console.framebuffer.width < 2 ^ 62 := lt_of_le_of_lt width_le pixelsPerRow_lt
  by_cases hheader : q.2 < 40
  · have hcolumn : uptimeColumn console.framebuffer + 16 * (uptimeText uptimeSeconds).length ≤
        2 ^ 63 := by
      have hlength : (uptimeText uptimeSeconds).length = 8 := rfl
      unfold uptimeColumn
      split <;> omega
    have hmargin : (if console.framebuffer.width > 8 * 16 + 16 then
        console.framebuffer.width - 8 * 16 - 16 else 16) = uptimeColumn console.framebuffer := by
      unfold uptimeColumn
      split <;> omega
    have hvisible := hq.1
    rw [if_pos hheader]
    unfold consoleUpdateHeader consoleHeaderHeight
    dsimp only
    rw [hmargin]
    -- from the last layer down to the first, which covers the whole bar
    rw [picture_headerText (by rw [consoleDrawHeaderText_statics]; rfl) hq _ hcolumn,
      picture_headerText (by rfl) hq _ (by decide)]
    unfold Console.draw
    dsimp only
    rw [picture_rect (by decide) (by decide) hq, picture_rect (by omega) (by decide) hq,
      picture_rect (by omega) (by decide) hq]
    unfold headerPicture
    refine ite_congr rfl (fun _ => rfl) fun _ => ite_congr rfl (fun _ => rfl) fun _ => ?_
    refine ite_congr rfl (fun _ => rfl) fun _ => ?_
    have hbar : 0 ≤ q.1 ∧ q.1 < 0 + console.framebuffer.width ∧ 0 ≤ q.2 ∧ q.2 < 0 + 40 := by omega
    rw [if_pos hbar]
    exact if_congr (by omega) rfl rfl
  · rw [if_neg hheader]
    refine (consoleUpdateHeader_draws uptimeSeconds).keeps fun hmem => hheader ?_
    exact (mem_words hq).1 hmem

/-! ## The screen -/

/-- **The console shows the face**, in the colours it has at boot. -/
structure Displays (face : Face (contentGrid framebuffer h)) (console : Console) : Prop
    extends Shows face.terminal console where
  textColor : console.textColor = 0x00ffffff
  backgroundColor : console.backgroundColor = 0x00101018
  uptime : console.headerUptimeSeconds = face.uptimeSeconds
  above : ∀ q, framebuffer.Visible q → q.2 < 56 → framebuffer.picture console.pixels q =
    face.picture framebuffer console.textColor console.backgroundColor q

/-- The screen is the picture of the face. -/
theorem Displays.picture (hd : Displays face console) (hq : framebuffer.Visible q) :
    framebuffer.picture console.pixels q = face.picture framebuffer 0x00ffffff 0x00101018 q := by
  rw [← hd.textColor, ← hd.backgroundColor]
  by_cases habove : q.2 < 56
  · exact hd.above q hq habove
  · unfold Face.picture
    rw [if_neg (by omega), if_neg habove]
    exact hd.content q hq (by omega)

/-- Updating the header displays the new uptime. -/
theorem Shows.displays (hs : Shows face.terminal console) (htext : console.textColor = 0x00ffffff)
    (hbackground : console.backgroundColor = 0x00101018) (uptimeSeconds : ℕ)
    (hstrip : ∀ q, framebuffer.Visible q → 40 ≤ q.2 → q.2 < 56 →
      framebuffer.picture console.pixels q = console.backgroundColor) :
    Displays { face with uptimeSeconds } (consoleUpdateHeader console uptimeSeconds) := by
  have hstatics := consoleUpdateHeader_statics console uptimeSeconds
  have hcolors : (consoleUpdateHeader console uptimeSeconds).textColor = console.textColor ∧
      (consoleUpdateHeader console uptimeSeconds).backgroundColor = console.backgroundColor ∧
      (consoleUpdateHeader console uptimeSeconds).headerUptimeSeconds = uptimeSeconds := by
    rw [hstatics]
    exact ⟨rfl, rfl, rfl⟩
  refine ⟨hs.updateHeader uptimeSeconds, hcolors.1.trans htext, hcolors.2.1.trans hbackground,
    hcolors.2.2, fun q hq habove => ?_⟩
  rw [hcolors.1, hcolors.2.1, picture_updateHeader hs.framebuffer_eq hq]
  unfold Face.picture
  dsimp only
  split
  · rfl
  · rename_i hbelow
    exact hstrip q hq (by omega) habove

theorem Displays.strip (hd : Displays face console) (hq : framebuffer.Visible q) (hlow : 40 ≤ q.2)
    (hhigh : q.2 < 56) : framebuffer.picture console.pixels q = console.backgroundColor := by
  rw [hd.above q hq hhigh]
  unfold Face.picture
  rw [if_neg (by omega), if_pos hhigh]

/-- Filling the screen and drawing the header displays an empty terminal. -/
theorem displays_home (hframebuffer : console.framebuffer = framebuffer)
    (htext : console.textColor = 0x00ffffff) (hbackground : console.backgroundColor = 0x00101018)
    {t : Terminal (contentGrid framebuffer h) ℕ} (hrow : t.row = 0) (hcol : t.col = 0)
    (hempty : ∀ r c, t.cells r c = none) (uptimeSeconds : ℕ) :
    Displays ⟨t, uptimeSeconds⟩ (consoleUpdateHeader
      { console.draw (screenFill framebuffer console.backgroundColor) with
        cursorX := 0
        cursorY := 56 } uptimeSeconds) := by
  have hshows := shows_home hframebuffer hrow hcol hempty
  refine (show Shows (Face.terminal ⟨t, uptimeSeconds⟩) _ from hshows).displays htext hbackground
    uptimeSeconds fun q hq _ _ => ?_
  unfold Console.draw
  dsimp only
  rw [screenFill_eq]
  exact picture_paint hq (Set.mem_univ q)

/-- **The console starts with an empty terminal and no time.** -/
theorem displays_init (framebuffer : Framebuffer) (h : framebuffer.Roomy)
    (htext : console.textColor = 0x00ffffff) (hbackground : console.backgroundColor = 0x00101018) :
    Displays ⟨Terminal.empty (contentGrid framebuffer h) ℕ, 0⟩ (consoleInit console framebuffer) :=
  @displays_home framebuffer h { console with framebuffer := framebuffer } rfl htext hbackground _
    rfl rfl (fun _ _ => rfl) 0

/-- The call writes or erases text, or sets the colour. -/
def ConsoleCall.BelowHeader : ConsoleCall → Prop
  | .clear => False
  | .updateHeader _ => False
  | _ => True

theorem ConsoleCall.IsText.belowHeader {call : ConsoleCall} (htext : call.IsText) :
    call.BelowHeader := by
  cases call <;> trivial

/-- Such a call leaves the statics of the header. -/
theorem Console.perform_statics (console : Console) {call : ConsoleCall} (hcall : call.BelowHeader) :
    (console.perform call).framebuffer = console.framebuffer ∧
      (console.perform call).headerUptimeSeconds = console.headerUptimeSeconds := by
  have hnewLine : ∀ c : Console, (consoleNewLine c 16).framebuffer = c.framebuffer ∧
      (consoleNewLine c 16).headerUptimeSeconds = c.headerUptimeSeconds := by
    intro c
    unfold consoleNewLine
    dsimp only
    split <;> exact ⟨rfl, rfl⟩
  cases call with
  | setTextColor color => exact ⟨rfl, rfl⟩
  | writeCodepoint character =>
    unfold Console.perform
    dsimp only
    rw [consoleWriteCodepoint_eq]
    split
    · exact hnewLine console
    · rcases fontGetGlyph character with _ | glyph
      · exact ⟨rfl, rfl⟩
      · dsimp only
        split
        · exact hnewLine console
        · exact ⟨rfl, rfl⟩
  | backspace =>
    unfold Console.perform consoleBackspace
    dsimp only
    split <;> exact ⟨rfl, rfl⟩
  | clear => exact hcall.elim
  | updateHeader _ => exact hcall.elim

/-- **A call of text keeps what is above.** -/
theorem Displays.text (hd : Displays face console) {call : ConsoleCall} (htext : call.IsText) :
    Displays { face with terminal := terminalStep face.terminal call } (console.perform call) := by
  have hcolor : ∀ color, call = .setTextColor color → color = console.textColor := by
    rintro color rfl
    exact htext.elim
  obtain ⟨hperformed, hback⟩ := console.perform_colors hcolor
  refine ⟨hd.toShows.perform hcolor, hperformed.trans hd.textColor, hback.trans hd.backgroundColor,
    (console.perform_statics htext.belowHeader).2.trans hd.uptime, fun q hq habove => ?_⟩
  rw [hd.toShows.text_keeps htext hq habove, hperformed, hback, hd.above q hq habove]
  unfold Face.picture
  rw [if_pos habove, if_pos habove]

/-- **Every call keeps the screen a picture of the face.** -/
theorem Displays.perform (hd : Displays face console) {call : ConsoleCall}
    (hcolor : ∀ color, call = .setTextColor color → color = 0x00ffffff) :
    Displays (face.perform call) (console.perform call) := by
  cases call with
  | setTextColor color =>
    have hsame : console.perform (.setTextColor color) = console := by
      rw [hcolor color rfl, ← hd.textColor]
      rfl
    rw [hsame]
    exact hd
  | writeCodepoint character => exact hd.text trivial
  | backspace => exact hd.text trivial
  | clear =>
    change Displays ⟨face.terminal.clear, face.uptimeSeconds⟩ (consoleClear console)
    unfold consoleClear
    dsimp only
    rw [← hd.uptime, hd.framebuffer_eq]
    exact displays_home hd.framebuffer_eq hd.textColor hd.backgroundColor rfl rfl (fun _ _ => rfl) _
  | updateHeader uptimeSeconds =>
    exact hd.toShows.displays hd.textColor hd.backgroundColor uptimeSeconds fun q hq => hd.strip hq

theorem Displays.performAll {calls : List ConsoleCall} (hd : Displays face console)
    (hcolor : ∀ color, .setTextColor color ∈ calls → color = 0x00ffffff) :
    Displays (face.performAll calls) (console.performAll calls) := by
  induction calls generalizing face console with
  | nil => exact hd
  | cons call calls ih =>
    exact ih (hd.perform fun color heq => hcolor color (heq ▸ List.mem_cons_self))
      fun color hmem => hcolor color (List.mem_cons_of_mem _ hmem)

/-! ## What text misses -/

/-- The cursor stays below the header. -/
theorem Console.Fits.perform_below (hfits : console.Fits) (hbelow : 56 ≤ console.cursorY)
    {call : ConsoleCall} (hcall : call.BelowHeader) : 56 ≤ (console.perform call).cursorY := by
  have hnewLine : 56 ≤ (consoleNewLine console 16).cursorY := by
    rw [consoleNewLine_eq hfits]
    split
    · exact hbelow
    · exact le_trans hbelow (Nat.le_add_right _ _)
  cases call with
  | setTextColor color => exact hbelow
  | writeCodepoint character =>
    change 56 ≤ (consoleWriteCodepoint console character).cursorY
    rw [consoleWriteCodepoint_eq]
    split
    · exact hnewLine
    · rcases fontGetGlyph character with _ | glyph
      · exact hbelow
      · dsimp only
        split
        · exact hnewLine
        · exact hbelow
  | backspace =>
    change 56 ≤ (consoleBackspace console).cursorY
    unfold consoleBackspace
    dsimp only
    split
    · exact hbelow
    · exact hbelow
  | clear => exact hcall.elim
  | updateHeader _ => exact hcall.elim

/-- **Text is drawn below the header.** -/
theorem Console.Fits.footprint_below (hfits : console.Fits) (hbelow : 56 ≤ console.cursorY)
    {call : ConsoleCall} (hcall : call.BelowHeader) :
    Disjoint (call.footprint console) (console.framebuffer.words {q | q.2 < 56}) := by
  have hnext : 56 ≤ (consoleNewLine console 16).cursorY := by
    rw [consoleNewLine_eq hfits]
    split
    · exact hbelow
    · exact le_trans hbelow (Nat.le_add_right _ _)
  have hframebuffer : (consoleNewLine console 16).framebuffer = console.framebuffer := by
    rw [consoleNewLine_eq hfits]
    split <;> rfl
  have hnewLine : ∀ q, console.framebuffer.Visible q → q.2 < 56 →
      console.framebuffer.word q ∉ newLineFootprint console := by
    intro q hq hheader hmem
    unfold newLineFootprint at hmem
    split at hmem
    · rw [word_mem_rows hq.column_lt] at hmem
      omega
    · exact hmem
  have hglyph : ∀ c : Console, c.framebuffer = console.framebuffer → 56 ≤ c.cursorY → ∀ glyph q,
      console.framebuffer.Visible q → q.2 < 56 →
        console.framebuffer.word q ∉ glyphFootprint c glyph := by
    intro c hc hrow glyph q hq hheader hmem
    unfold glyphFootprint at hmem
    rw [hc, mem_words hq] at hmem
    have htop := hmem.1.2.2.1
    omega
  refine Set.disjoint_right.2 ?_
  rintro k ⟨q, hheader, hq, rfl⟩
  rw [Set.mem_ofPred_eq] at hheader
  cases call with
  | setTextColor color => exact Set.notMem_empty _
  | writeCodepoint character =>
    unfold ConsoleCall.footprint
    dsimp only
    split
    · exact hnewLine q hq hheader
    · rcases fontGetGlyph character with _ | glyph
      · exact Set.notMem_empty _
      · dsimp only
        split
        · rintro (hmem | hmem)
          · exact hnewLine q hq hheader hmem
          · exact hglyph _ hframebuffer hnext glyph q hq hheader hmem
        · exact hglyph console rfl hbelow glyph q hq hheader
  | backspace =>
    unfold ConsoleCall.footprint
    dsimp only
    split
    · exact Set.notMem_empty _
    · rw [mem_words hq]
      rintro ⟨-, -, htop, -⟩
      omega
  | clear => exact hcall.elim
  | updateHeader _ => exact hcall.elim

/-- **And so are calls of text.** -/
theorem Console.Fits.callsFootprint_below {calls : List ConsoleCall} (hfits : console.Fits)
    (hbelow : 56 ≤ console.cursorY) (hcalls : ∀ call ∈ calls, call.BelowHeader) :
    Disjoint (callsFootprint console calls) (console.framebuffer.words {q | q.2 < 56}) := by
  induction calls generalizing console with
  | nil => exact Set.empty_disjoint _
  | cons call calls ih =>
    have hcall := hcalls call List.mem_cons_self
    have hframebuffer : (console.perform call).framebuffer = console.framebuffer :=
      (console.perform_statics hcall).1
    have hrest := ih (hfits.perform call) (hfits.perform_below hbelow hcall)
      fun c hc => hcalls c (List.mem_cons_of_mem _ hc)
    rw [hframebuffer] at hrest
    exact Set.disjoint_union_left.2 ⟨hfits.footprint_below hbelow hcall, hrest⟩

end KbmOs
