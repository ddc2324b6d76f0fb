import KbmOs.Console.Refinement
import KbmOs.Shell.Model
import Mathlib.Data.List.Basic
import Mathlib.Data.List.Induction
import Mathlib.Data.List.Infix
/-!
# The line on the screen

The shell edits its buffer and the console its cells, each by its own
rules. As long as no backspace is refused by the console alone, the line of
cells from the prompt to the cursor reads the prompt and the buffer. The
console refuses in column 0 while the shell still has a character to
erase: after a backspace that has left the line ending at the end of a
row. From there on the screen shows more than the shell holds, until the
next prompt. A line of more cells than the screen has drives its own first
row off the screen, and erasing brings none of it back.
-/

namespace KbmOs

/-- The prompt's characters. -/
def promptText : List ℕ := decodeText (cString "kbm> ")

/-- What a character other than Enter does to the line. -/
def editLine (line : List ℕ) (character : ℕ) : List ℕ :=
  if character = backspaceCharacter then line.dropLast
  else if line.length < 63 then line ++ [character]
  else line

/-- What it draws. -/
def editCalls (line : List ℕ) (character : ℕ) : List ConsoleCall :=
  if character = backspaceCharacter then if line = [] then [] else [.backspace]
  else if line.length < 63 then [.writeCodepoint character]
  else []

/-- The line after the characters typed since the prompt. -/
def editedLine (typed : List ℕ) : List ℕ := typed.foldl editLine []

/-- The last character typed is a backspace, and the line it leaves fills
its last row of `cols` columns. -/
def AtRowStart (cols : ℕ) (typed : List ℕ) : Prop :=
  (∃ earlier, typed = earlier ++ [backspaceCharacter]) ∧ editedLine typed ≠ [] ∧
    (promptText.length + (editedLine typed).length) % cols = 0

/-- **A backspace is lost**: it is typed at the start of a row. -/
def LosesBackspace (cols : ℕ) (typed : List ℕ) : Prop :=
  ∃ earlier later, typed = earlier ++ backspaceCharacter :: later ∧ AtRowStart cols earlier

/-- **The line fits** a screen of so many cells, the prompt before it, at
every moment since the prompt. -/
def Fits (cells : ℕ) (typed : List ℕ) : Prop :=
  ∀ earlier, earlier <+: typed → promptText.length + (editedLine earlier).length ≤ cells

instance (cols : ℕ) (typed : List ℕ) : Decidable (AtRowStart cols typed) :=
  decidable_of_iff (typed.getLast? = some backspaceCharacter ∧ editedLine typed ≠ [] ∧
    (promptText.length + (editedLine typed).length) % cols = 0)
    (and_congr_left' List.getLast?_eq_some_iff)

instance (cols : ℕ) (typed : List ℕ) : Decidable (LosesBackspace cols typed) :=
  decidable_of_iff
    (∃ earlier ∈ typed.inits, (earlier ++ [backspaceCharacter]) <+: typed ∧ AtRowStart cols earlier)
    ⟨fun ⟨earlier, _, ⟨later, heq⟩, hat⟩ =>
      ⟨earlier, later, by rw [← heq, List.append_assoc, List.singleton_append], hat⟩,
    fun ⟨earlier, later, heq, hat⟩ =>
      ⟨earlier, (List.mem_inits _ _).2 ⟨_, heq.symm⟩,
        ⟨later, by rw [heq, List.append_assoc, List.singleton_append]⟩, hat⟩⟩

instance (cells : ℕ) (typed : List ℕ) : Decidable (Fits cells typed) :=
  decidable_of_iff
    (∀ earlier ∈ typed.inits, promptText.length + (editedLine earlier).length ≤ cells)
    (forall_congr' fun earlier => imp_congr_left (List.mem_inits earlier typed))

/-- A character the console has a glyph for, or a backspace. -/
def Editing (character : ℕ) : Prop :=
  character = backspaceCharacter ∨
    character ≠ '\n'.toNat ∧ (fontGetGlyph character).isSome

variable {g : Grid} {t : Terminal g ℕ} {start cols character : ℕ} {typed line : List ℕ}
variable {shell : Shell} {readings : Readings} {calls : List ConsoleCall}

/-! ## Characters typed one after the other -/

theorem promptText_length : promptText.length = 5 := by decide

theorem editedLine_concat (typed : List ℕ) (character : ℕ) :
    editedLine (typed ++ [character]) = editLine (editedLine typed) character :=
  List.foldl_append

theorem editLine_backspace (line : List ℕ) : editLine line backspaceCharacter = line.dropLast :=
  if_pos rfl

theorem editedLine_length_le (typed : List ℕ) : (editedLine typed).length ≤ 63 := by
  induction typed using List.reverseRecOn with
  | nil => exact Nat.zero_le _
  | append_singleton typed character ih =>
    rw [editedLine_concat]
    unfold editLine
    split
    · rw [List.length_dropLast]
      omega
    · split
      · rename_i hroom
        rw [List.length_append]
        exact hroom
      · exact ih

/-- A line at the start of a row is not full. -/
theorem AtRowStart.length_lt (h : AtRowStart cols typed) : (editedLine typed).length < 63 := by
  obtain ⟨⟨earlier, rfl⟩, -, -⟩ := h
  have hle := editedLine_length_le earlier
  rw [editedLine_concat, editLine_backspace, List.length_dropLast]
  omega

theorem not_atRowStart_concat (h : character ≠ backspaceCharacter) :
    ¬ AtRowStart cols (typed ++ [character]) := by
  rintro ⟨⟨earlier, heq⟩, -, -⟩
  exact h (List.append_singleton_inj.1 heq).2

/-- After a backspace the line fills its rows or it does not: one with
nothing in it ends behind the prompt, which is shorter than a row. -/
theorem atRowStart_backspace (hcols : 6 ≤ cols) (typed : List ℕ) :
    AtRowStart cols (typed ++ [backspaceCharacter]) ↔
      (promptText.length + (editedLine (typed ++ [backspaceCharacter])).length) % cols = 0 := by
  refine ⟨fun hat => hat.2.2, fun hzero => ⟨⟨typed, rfl⟩, fun hnil => ?_, hzero⟩⟩
  rw [hnil, List.length_nil, promptText_length, Nat.mod_eq_of_lt (by omega)] at hzero
  cases hzero

/-- **What the next character loses.** -/
theorem losesBackspace_concat (cols : ℕ) (typed : List ℕ) (character : ℕ) :
    LosesBackspace cols (typed ++ [character]) ↔
      LosesBackspace cols typed ∨ (character = backspaceCharacter ∧ AtRowStart cols typed) := by
  constructor
  · rintro ⟨earlier, later, heq, hat⟩
    rcases List.eq_nil_or_concat' later with rfl | ⟨later, next, rfl⟩
    · obtain ⟨rfl, rfl⟩ := List.append_singleton_inj.1 heq
      exact Or.inr ⟨rfl, hat⟩
    · rw [← List.cons_append, ← List.append_assoc] at heq
      exact Or.inl ⟨earlier, later, (List.append_singleton_inj.1 heq).1, hat⟩
  · rintro (⟨earlier, later, rfl, hat⟩ | ⟨rfl, hat⟩)
    · exact ⟨earlier, later ++ [character], by rw [List.append_assoc, List.cons_append], hat⟩
    · exact ⟨typed, [], rfl, hat⟩

/-- Elsewhere than at the start of a row none is lost. -/
theorem losesBackspace_concat_of_not
    (h : ¬ (character = backspaceCharacter ∧ AtRowStart cols typed)) :
    LosesBackspace cols (typed ++ [character]) ↔ LosesBackspace cols typed := by
  rw [losesBackspace_concat]
  exact or_iff_left h

/-- The next character makes the line fit no better. -/
theorem fits_concat (cells : ℕ) (typed : List ℕ) (character : ℕ) :
    Fits cells (typed ++ [character]) ↔ Fits cells typed ∧
      promptText.length + (editedLine (typed ++ [character])).length ≤ cells := by
  unfold Fits
  constructor
  · intro h
    exact ⟨fun earlier hearlier => h earlier (hearlier.trans (List.prefix_append _ _)),
      h _ (List.prefix_refl _)⟩
  · rintro ⟨hbefore, hlast⟩ earlier hearlier
    rcases List.prefix_concat_iff.1 hearlier with rfl | hshorter
    · exact hlast
    · exact hbefore earlier hshorter

/-- And no worse where the line does not grow. -/
theorem fits_concat_of_le {cells : ℕ}
    (h : (editedLine (typed ++ [character])).length ≤ (editedLine typed).length) :
    Fits cells (typed ++ [character]) ↔ Fits cells typed := by
  rw [fits_concat]
  refine and_iff_left_of_imp fun hfits => ?_
  have hnow := hfits typed (List.prefix_refl _)
  omega

/-- A backspace makes no line longer. -/
theorem fits_backspace (cells : ℕ) (typed : List ℕ) :
    Fits cells (typed ++ [backspaceCharacter]) ↔ Fits cells typed := by
  refine fits_concat_of_le ?_
  rw [editedLine_concat, editLine_backspace, List.length_dropLast]
  exact Nat.sub_le _ _

/-! ## The terminal beside the line -/

/-- **The terminal after the characters typed**: either it reads the prompt
and the line, its cursor is in column 0 exactly at the start of a row and
the prompt is on the screen exactly while the line fits; or a backspace was
lost, and the cursor is too far right. -/
def LineState (t : Terminal g ℕ) (start : ℕ) (typed : List ℕ) : Prop :=
  (¬ LosesBackspace g.cols typed ∧ t.Reads start (promptText ++ editedLine typed) ∧
    (t.col = 0 ↔ AtRowStart g.cols typed) ∧
    (t.Kept start ↔ Fits (g.rows * g.cols) typed)) ∨
  (LosesBackspace g.cols typed ∧
    start + (promptText ++ editedLine typed).length < t.position)

theorem terminalRun_write (t : Terminal g ℕ) {text : List ℕ}
    (htext : ∀ c ∈ text, c ≠ '\n'.toNat ∧ (fontGetGlyph c).isSome) :
    terminalRun t (text.map .writeCodepoint) = text.foldl Terminal.put t := by
  induction text generalizing t with
  | nil => rfl
  | cons c text ih =>
    obtain ⟨hline, hglyph⟩ := htext c List.mem_cons_self
    have hstep : terminalStep t (.writeCodepoint c) = t.put c :=
      (if_neg hline).trans (if_pos hglyph)
    rw [List.foldl_cons, ← hstep]
    exact ih _ fun c' hc' => htext c' (List.mem_cons_of_mem c hc')

/-- A backspace with nothing in the line. -/
theorem LineState.idle (hs : LineState t start typed) (hnil : editedLine typed = []) :
    LineState t start (typed ++ [backspaceCharacter]) := by
  have hline : editedLine (typed ++ [backspaceCharacter]) = [] := by
    rw [editedLine_concat, editLine_backspace, hnil]
    rfl
  have hhere : ¬ AtRowStart g.cols typed := fun hat => hat.2.1 hnil
  have hthere : ¬ AtRowStart g.cols (typed ++ [backspaceCharacter]) := fun hat => hat.2.1 hline
  unfold LineState
  rw [losesBackspace_concat_of_not fun hat => hhere hat.2, hline, fits_backspace]
  unfold LineState at hs
  rw [hnil] at hs
  rcases hs with ⟨hkeeps, hreads, hcol, hkept⟩ | hlost
  · exact Or.inl ⟨hkeeps, hreads, hcol.trans (iff_of_false hhere hthere), hkept⟩
  · exact Or.inr hlost

/-- **A backspace takes a character off the line**, and off the screen
unless the cursor is in column 0. -/
theorem LineState.erase (hs : LineState t start typed) (hcols : 6 ≤ g.cols)
    (hstart : start % g.cols = 0) (hne : editedLine typed ≠ []) :
    LineState t.backspace start (typed ++ [backspaceCharacter]) := by
  obtain ⟨line, last, hlast⟩ := (List.eq_nil_or_concat' (editedLine typed)).resolve_left hne
  have hline : editedLine (typed ++ [backspaceCharacter]) = line := by
    rw [editedLine_concat, editLine_backspace, hlast, List.dropLast_concat]
  have hlength : (promptText ++ editedLine typed).length = (promptText ++ line).length + 1 := by
    rw [hlast, ← List.append_assoc, List.length_append]
    rfl
  unfold LineState
  rw [losesBackspace_concat, hline, fits_backspace]
  by_cases hcol : t.col = 0
  · -- the console refuses: the cursor stays while the line gets shorter
    right
    rw [Terminal.backspace_of_col_eq_zero hcol]
    rcases hs with ⟨-, hreads, hat, -⟩ | ⟨hlost, hposition⟩
    · have hposition := hreads.position
      exact ⟨Or.inr ⟨rfl, hat.1 hcol⟩, by omega⟩
    · exact ⟨Or.inl hlost, by omega⟩
  · obtain ⟨hback, hscrolled, hleft, -⟩ := Terminal.backspace_line hcol
    rcases hs with ⟨hkeeps, hreads, hat, hkept⟩ | ⟨hlost, hposition⟩
    · -- both take the character off, and the cursor is at the end of the shorter line
      left
      rw [hlast, ← List.append_assoc] at hreads
      have hreads' := hreads.backspace hcol
      have hcol_le := t.col_le
      have hmod := Terminal.position_mod (t := t.backspace) (by omega)
      have hlengths : (promptText ++ line).length = 5 + line.length := by
        rw [List.length_append, promptText_length]
      rw [hreads'.position, hlengths, Nat.add_mod, hstart, Nat.zero_add, Nat.mod_mod] at hmod
      refine ⟨fun h => ?_, hreads', ?_, ?_⟩
      · exact h.elim hkeeps fun hlost => hcol (hat.2 hlost.2)
      · rw [← hmod, atRowStart_backspace hcols, hline, promptText_length]
      · unfold Terminal.Kept at hkept ⊢
        rwa [hscrolled]
    · exact Or.inr ⟨Or.inl hlost, by omega⟩

/-- **A character is put at the end of both**, and the prompt scrolls away
when the line has grown longer than the screen. -/
theorem LineState.type (hs : LineState t start typed) (hstart : start % g.cols = 0)
    (hc : character ≠ backspaceCharacter) (hroom : (editedLine typed).length < 63) :
    LineState (t.put character) start (typed ++ [character]) := by
  have hline : editedLine (typed ++ [character]) = editedLine typed ++ [character] := by
    rw [editedLine_concat]
    exact (if_neg hc).trans (if_pos hroom)
  unfold LineState
  rw [losesBackspace_concat_of_not fun hat => hc hat.1, hline, ← List.append_assoc]
  rcases hs with ⟨hkeeps, hreads, -, hkept⟩ | ⟨hlost, hposition⟩
  · refine Or.inl ⟨hkeeps, hreads.put character,
      iff_of_false (t.put_col_ne_zero character) (not_atRowStart_concat hc), ?_⟩
    have hrow : start / g.cols * g.cols = start :=
      Nat.div_mul_cancel (Nat.dvd_of_mod_eq_zero hstart)
    have hposition := hreads.position
    rw [List.length_append] at hposition
    rw [Terminal.kept_put, fits_concat, hkept, hline, List.length_append, List.length_singleton,
      Nat.add_mul, hrow, hposition]
    exact and_congr_right fun _ => by omega
  · refine Or.inr ⟨hlost, ?_⟩
    have hput := (t.put_line character).1
    have hlength : (promptText ++ editedLine typed ++ [character]).length =
        (promptText ++ editedLine typed).length + 1 := List.length_append
    omega

/-- A character that finds the line full. -/
theorem LineState.full (hs : LineState t start typed) (hc : character ≠ backspaceCharacter)
    (hfull : ¬ (editedLine typed).length < 63) : LineState t start (typed ++ [character]) := by
  have hline : editedLine (typed ++ [character]) = editedLine typed := by
    rw [editedLine_concat]
    exact (if_neg hc).trans (if_neg hfull)
  have hhere : ¬ AtRowStart g.cols typed := fun hat => hfull hat.length_lt
  have hfits : Fits (g.rows * g.cols) (typed ++ [character]) ↔ Fits (g.rows * g.cols) typed :=
    fits_concat_of_le (by rw [hline])
  unfold LineState
  rw [losesBackspace_concat_of_not fun hat => hc hat.1, hline, hfits]
  rcases hs with ⟨hkeeps, hreads, hcol, hkept⟩ | hlost
  · exact Or.inl
      ⟨hkeeps, hreads, hcol.trans (iff_of_false hhere (not_atRowStart_concat hc)), hkept⟩
  · exact Or.inr hlost

/-- **What a character does to the terminal and to the line.** -/
theorem LineState.step (hs : LineState t start typed) (hcols : 6 ≤ g.cols)
    (hstart : start % g.cols = 0) (hc : Editing character) :
    LineState (terminalRun t (editCalls (editedLine typed) character)) start
      (typed ++ [character]) := by
  unfold editCalls
  by_cases hback : character = backspaceCharacter
  · rw [if_pos hback, hback]
    by_cases hnil : editedLine typed = []
    · rw [if_pos hnil]
      exact hs.idle hnil
    · rw [if_neg hnil]
      exact hs.erase hcols hstart hnil
  · obtain ⟨hline, hglyph⟩ := hc.resolve_left hback
    rw [if_neg hback]
    by_cases hroom : (editedLine typed).length < 63
    · rw [if_pos hroom]
      have hstep : terminalStep t (.writeCodepoint character) = t.put character :=
        (if_neg hline).trans (if_pos hglyph)
      change LineState (terminalStep t (.writeCodepoint character)) _ _
      rw [hstep]
      exact hs.type hstart hback hroom
    · rw [if_neg hroom]
      exact hs.full hback hroom

end KbmOs
