import Mathlib.Data.Nat.Basic
import Mathlib.Tactic.Ring
/-!
# Text terminals

A grid of cells with a cursor in it: a symbol is put at the cursor, a line
is started when the current one is full or on request, and the grid scrolls
by one row when there is none below. Wrapping is lazy, so the cursor may
stand behind the last column. The cursor's row holds nothing from the
cursor on and the rows below nothing at all; a terminal carries that as a
field, so a cell that is put into is always empty.

Counting the rows that have scrolled away, a terminal is a window on an
unbounded line of cells (`position`, `symbolAt`): putting a symbol appends
to the line whether or not it wraps or scrolls, and `kept_put` tells which
rows that drives off the screen.
-/

/-- The size of a screen of cells. -/
structure Grid where
  rows : ℕ
  cols : ℕ
  rows_pos : 0 < rows
  cols_pos : 0 < cols

/-- A screen of cells over the symbols `α`, with its cursor. -/
structure Terminal (g : Grid) (α : Type) where
  cells : ℕ → ℕ → Option α
  row : ℕ
  col : ℕ
  /-- The rows that have left the screen at the top. -/
  scrolled : ℕ
  row_lt : row < g.rows
  col_le : col ≤ g.cols
  /-- Nothing stands at the cursor or after it. -/
  blank : ∀ r c, row < r ∨ (r = row ∧ col ≤ c) → cells r c = none

namespace Terminal

variable {g : Grid} {α : Type}

/-- The empty screen. -/
def empty (g : Grid) (α : Type) : Terminal g α where
  cells _ _ := none
  row := 0
  col := 0
  scrolled := 0
  row_lt := g.rows_pos
  col_le := Nat.zero_le _
  blank _ _ _ := rfl

/-- The rows of the screen moved up by one. -/
def scrolledCells (t : Terminal g α) (r c : ℕ) : Option α :=
  if r + 1 < g.rows then t.cells (r + 1) c else none

/-- To the start of the next row, scrolling if there is none. -/
def newLine (t : Terminal g α) : Terminal g α :=
  if h : t.row + 1 < g.rows then
    { t with
      row := t.row + 1
      col := 0
      row_lt := h
      col_le := Nat.zero_le _
      blank := fun r c hrc => t.blank r c (by omega) }
  else
    { t with
      cells := t.scrolledCells
      col := 0
      scrolled := t.scrolled + 1
      col_le := Nat.zero_le _
      blank := by
        intro r c hrc
        have hrow := t.row_lt
        exact if_neg (by omega) }

/-- A new line if the current one is full. -/
def makeRoom (t : Terminal g α) : Terminal g α := if t.col = g.cols then t.newLine else t

/-- The symbol in the cell at the cursor, and one to the right. -/
def write (t : Terminal g α) (a : α) (h : t.col < g.cols) : Terminal g α :=
  { t with
    cells := fun r c => if r = t.row ∧ c = t.col then some a else t.cells r c
    col := t.col + 1
    col_le := h
    blank := by
      intro r c hrc
      rw [if_neg (by omega)]
      exact t.blank r c (by omega) }

@[simp] theorem newLine_col (t : Terminal g α) : t.newLine.col = 0 := by
  unfold newLine
  split <;> rfl

/-- **The two ways to start a line.** -/
theorem newLine_cases (t : Terminal g α) :
    (t.row + 1 < g.rows ∧ t.newLine.cells = t.cells ∧ t.newLine.row = t.row + 1 ∧
      t.newLine.scrolled = t.scrolled) ∨
    (t.row + 1 = g.rows ∧ t.newLine.cells = t.scrolledCells ∧ t.newLine.row = t.row ∧
      t.newLine.scrolled = t.scrolled + 1) := by
  have hrow := t.row_lt
  unfold newLine
  by_cases h : t.row + 1 < g.rows
  · rw [dif_pos h]
    exact Or.inl ⟨h, rfl, rfl, rfl⟩
  · rw [dif_neg h]
    exact Or.inr ⟨by omega, rfl, rfl, rfl⟩

theorem makeRoom_col_lt (t : Terminal g α) : t.makeRoom.col < g.cols := by
  unfold makeRoom
  split
  · rw [newLine_col]
    exact g.cols_pos
  · have := t.col_le
    omega

/-- **A symbol is put**, after wrapping when the line is full. -/
def put (t : Terminal g α) (a : α) : Terminal g α := t.makeRoom.write a t.makeRoom_col_lt

/-- The cell to the left is emptied; in column 0 nothing happens. -/
def backspace (t : Terminal g α) : Terminal g α :=
  if h : t.col = 0 then t
  else
    { t with
      cells := fun r c => if r = t.row ∧ c = t.col - 1 then none else t.cells r c
      col := t.col - 1
      col_le := le_trans (Nat.sub_le _ _) t.col_le
      blank := by
        intro r c hrc
        split
        · rfl
        · exact t.blank r c (by omega) }

/-- Every cell is emptied and the cursor goes home. -/
def clear (t : Terminal g α) : Terminal g α := { empty g α with scrolled := t.scrolled }

/-! ## The line of all cells -/

/-- The cursor's place in the line of all cells, those that have scrolled
away included. -/
def position (t : Terminal g α) : ℕ := (t.scrolled + t.row) * g.cols + t.col

/-- The cell `k` of the line is on the screen or has yet to come. -/
def Kept (t : Terminal g α) (k : ℕ) : Prop := t.scrolled ≤ k / g.cols

/-- What stands in the cell `k` of the line. -/
def symbolAt (t : Terminal g α) (k : ℕ) : Option α := t.cells (k / g.cols - t.scrolled) (k % g.cols)

variable {t : Terminal g α} {a : α} {k : ℕ}

theorem position_div (h : t.col < g.cols) : t.position / g.cols = t.scrolled + t.row := by
  unfold position
  rw [Nat.add_comm, Nat.add_mul_div_right _ _ g.cols_pos, Nat.div_eq_of_lt h, Nat.zero_add]

theorem position_mod (h : t.col < g.cols) : t.position % g.cols = t.col := by
  unfold position
  rw [Nat.mul_add_mod_self_right, Nat.mod_eq_of_lt h]

/-- Starting a line goes to the next multiple of the line's length. -/
theorem position_newLine (t : Terminal g α) :
    t.newLine.position = (t.scrolled + t.row + 1) * g.cols := by
  unfold position
  rw [newLine_col, Nat.add_zero]
  rcases t.newLine_cases with ⟨-, -, hrow, hscrolled⟩ | ⟨-, -, hrow, hscrolled⟩
  · rw [hrow, hscrolled]
    ring
  · rw [hrow, hscrolled]
    ring

/-- Scrolling takes a row away, and keeps the rest of the line. -/
theorem symbolAt_newLine (h : t.newLine.Kept k) :
    t.Kept k ∧ t.newLine.symbolAt k = t.symbolAt k := by
  unfold Kept symbolAt at *
  rcases t.newLine_cases with ⟨-, hcells, -, hscrolled⟩ | ⟨hlast, hcells, -, hscrolled⟩
  · rw [hscrolled] at h
    rw [hcells, hscrolled]
    exact ⟨h, rfl⟩
  · rw [hscrolled] at h
    rw [hcells, hscrolled]
    have hrow : k / g.cols - (t.scrolled + 1) + 1 = k / g.cols - t.scrolled := by omega
    refine ⟨by omega, ?_⟩
    unfold scrolledCells
    rw [hrow]
    split
    · rfl
    · exact (t.blank _ _ (by omega)).symm

/-- **Wrapping keeps the place and the line.** -/
theorem makeRoom_line (t : Terminal g α) : t.makeRoom.position = t.position ∧
    ∀ k, t.makeRoom.Kept k → t.Kept k ∧ t.makeRoom.symbolAt k = t.symbolAt k := by
  unfold makeRoom
  split
  · rename_i hfull
    refine ⟨?_, fun k hk => symbolAt_newLine hk⟩
    rw [position_newLine]
    unfold position
    rw [hfull]
    ring
  · exact ⟨rfl, fun k hk => ⟨hk, rfl⟩⟩

/-- The cells of the line and those of the screen. -/
theorem cell_eq_iff (h : t.col < g.cols) (hk : t.Kept k) :
    (k / g.cols - t.scrolled = t.row ∧ k % g.cols = t.col) ↔ k = t.position := by
  unfold Kept at hk
  constructor
  · rintro ⟨hrow, hcol⟩
    have hdiv := Nat.div_add_mod' k g.cols
    have hquot : k / g.cols = t.scrolled + t.row := by omega
    unfold position
    rw [← hdiv, hquot, hcol]
  · rintro rfl
    rw [position_div h, position_mod h]
    exact ⟨by omega, rfl⟩

/-- **Putting a symbol appends it to the line.** -/
theorem put_line (t : Terminal g α) (a : α) : (t.put a).position = t.position + 1 ∧
    ∀ k, (t.put a).Kept k → t.Kept k ∧
      (t.put a).symbolAt k = if k = t.position then some a else t.symbolAt k := by
  obtain ⟨hposition, hline⟩ := t.makeRoom_line
  refine ⟨?_, fun k hk => ?_⟩
  · rw [← hposition]
    rfl
  · have hkept : t.makeRoom.Kept k := hk
    obtain ⟨hbefore, hsame⟩ := hline k hkept
    refine ⟨hbefore, ?_⟩
    rw [← hposition, ← hsame]
    exact ite_congr (propext (cell_eq_iff t.makeRoom_col_lt hkept)) (fun _ => rfl) fun _ => rfl

/-- **What putting a symbol scrolls away**: a row leaves the screen when the
symbol falls below the last of the `g.rows` rows that start with it. -/
theorem kept_put : (t.put a).Kept k ↔
    t.Kept k ∧ t.position < (k / g.cols + g.rows) * g.cols := by
  have hscrolled : (t.put a).Kept k ↔ t.makeRoom.Kept k := Iff.rfl
  have hrow := t.row_lt
  have hcol := t.col_le
  have hpos := g.cols_pos
  rw [hscrolled]
  unfold Kept makeRoom position
  by_cases hfull : t.col = g.cols
  · have hend : (t.scrolled + t.row) * g.cols + t.col = (t.scrolled + t.row + 1) * g.cols := by
      rw [hfull]
      ring
    rw [if_pos hfull, hend, Nat.mul_lt_mul_right hpos]
    -- behind the last column of the last row the symbol needs a row that is not there
    rcases t.newLine_cases with ⟨hroom, -, -, hsame⟩ | ⟨hlast, -, -, hone⟩
    · rw [hsame]
      omega
    · rw [hone]
      omega
  · have hlt : (t.scrolled + t.row) * g.cols + t.col < (t.scrolled + t.row + 1) * g.cols := by
      rw [Nat.add_mul _ 1, Nat.one_mul]
      omega
    rw [if_neg hfull]
    refine ⟨fun hk => ⟨hk, lt_of_lt_of_le hlt ?_⟩, And.left⟩
    exact Nat.mul_le_mul_right _ (by omega)

theorem backspace_cells (h : t.col ≠ 0) : t.backspace.row = t.row ∧
    t.backspace.col = t.col - 1 ∧ t.backspace.scrolled = t.scrolled ∧ t.backspace.cells =
      fun r c => if r = t.row ∧ c = t.col - 1 then none else t.cells r c := by
  unfold backspace
  rw [dif_neg h]
  exact ⟨rfl, rfl, rfl, rfl⟩

/-- **Backspace takes the last symbol off the line**, but not at the start
of a row of the screen. -/
theorem backspace_line (h : t.col ≠ 0) : t.backspace.position + 1 = t.position ∧
    t.backspace.scrolled = t.scrolled ∧ t.backspace.col = t.col - 1 ∧
    ∀ k, t.backspace.Kept k → t.backspace.symbolAt k =
      if k = t.backspace.position then none else t.symbolAt k := by
  have hle := t.col_le
  obtain ⟨hrow, hcol, hscrolled, hcells⟩ := backspace_cells h
  refine ⟨?_, hscrolled, hcol, fun k hk => ?_⟩
  · unfold position
    rw [hscrolled, hrow, hcol]
    omega
  · have hiff := cell_eq_iff (t := t.backspace) (by omega) hk
    rw [hscrolled, hrow, hcol] at hiff
    unfold symbolAt
    rw [hcells, hscrolled]
    exact ite_congr (propext hiff) (fun _ => rfl) fun _ => rfl

theorem backspace_of_col_eq_zero (h : t.col = 0) : t.backspace = t := dif_pos h

/-! ## Reading the line -/

/-- **The line from `start` to the cursor reads `text`**, as far as it is
still on the screen. -/
structure Reads (t : Terminal g α) (start : ℕ) (text : List α) : Prop where
  position : t.position = start + text.length
  symbols : ∀ i, i < text.length → t.Kept (start + i) → t.symbolAt (start + i) = text[i]?

variable {start : ℕ} {text : List α}

theorem reads_nil (t : Terminal g α) : t.Reads t.position [] where
  position := rfl
  symbols := fun i hi => absurd hi (Nat.not_lt_zero i)

/-- A symbol that is put is read at the end. -/
theorem Reads.put (h : t.Reads start text) (a : α) : (t.put a).Reads start (text ++ [a]) := by
  obtain ⟨hposition, hline⟩ := t.put_line a
  have hlength : (text ++ [a]).length = text.length + 1 := List.length_append
  refine ⟨by rw [hposition, h.position, hlength, Nat.add_assoc], fun i hi hkept => ?_⟩
  obtain ⟨hbefore, hsymbol⟩ := hline _ hkept
  rw [hsymbol, h.position]
  by_cases hlast : i = text.length
  · rw [if_pos (by rw [hlast]), hlast, List.getElem?_concat_length]
  · rw [if_neg (by omega), List.getElem?_append_left (by omega)]
    exact h.symbols i (by omega) hbefore

/-- And one that is erased no longer. -/
theorem Reads.backspace (h : t.Reads start (text ++ [a])) (hcol : t.col ≠ 0) :
    t.backspace.Reads start text := by
  obtain ⟨hposition, hscrolled, -, hline⟩ := backspace_line hcol
  have hlength : (text ++ [a]).length = text.length + 1 := List.length_append
  have hbefore := h.position
  refine ⟨by omega, fun i hi hkept => ?_⟩
  have hkept' : t.Kept (start + i) := by
    unfold Kept at hkept ⊢
    rwa [hscrolled] at hkept
  rw [hline _ hkept, if_neg (by omega), h.symbols i (by omega) hkept', List.getElem?_append_left hi]

theorem put_col_ne_zero (t : Terminal g α) (a : α) : (t.put a).col ≠ 0 := Nat.succ_ne_zero _

theorem Reads.putAll (h : t.Reads start text) (symbols : List α) :
    (symbols.foldl Terminal.put t).Reads start (text ++ symbols) := by
  induction symbols generalizing t text with
  | nil =>
    rw [List.append_nil]
    exact h
  | cons a symbols ih =>
    have hrest := ih (h.put a)
    rwa [List.append_assoc] at hrest

/-- A row that the symbols do not run out of the screen from stays on it. -/
theorem Kept.putAll (h : t.Kept k) {symbols : List α}
    (hroom : t.position + symbols.length ≤ (k / g.cols + g.rows) * g.cols) :
    (symbols.foldl Terminal.put t).Kept k := by
  induction symbols generalizing t with
  | nil => exact h
  | cons a symbols ih =>
    rw [List.length_cons] at hroom
    have hput := (t.put_line a).1
    exact ih (kept_put.2 ⟨h, by omega⟩) (by omega)

/-- **The screen shows `text` from the cell `start` to the cursor**: none of
the cells has scrolled away. -/
structure Displays (t : Terminal g α) (start : ℕ) (text : List α) : Prop where
  position : t.position = start + text.length
  symbols : ∀ i, i < text.length → t.Kept (start + i) ∧ t.symbolAt (start + i) = text[i]?

/-- It does when the first of the cells is still there. -/
theorem displays_iff (hne : text ≠ []) :
    t.Displays start text ↔ t.Reads start text ∧ t.Kept start := by
  have hfirst := List.length_pos_iff.2 hne
  constructor
  · rintro ⟨hposition, hsymbols⟩
    exact ⟨⟨hposition, fun i hi _ => (hsymbols i hi).2⟩, (hsymbols 0 hfirst).1⟩
  · rintro ⟨⟨hposition, hsymbols⟩, hkept⟩
    refine ⟨hposition, fun i hi => ?_⟩
    have hafter : t.Kept (start + i) :=
      le_trans hkept (Nat.div_le_div_right (Nat.le_add_right start i))
    exact ⟨hafter, hsymbols i hi hafter⟩

end Terminal
