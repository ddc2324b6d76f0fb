import Mathlib.Data.List.Basic
/-!
# Texts that can be read back

A reader takes from the front of a text what it recognises and leaves the
rest. It `Takes` a text if it takes exactly that, whatever follows, and it
`Refuses` a text if it takes nothing from any text that starts so. Readers
are put together like the texts they read: what is written record by record
is read back record by record (`readText_records`), so no two lists of
records are written the same.
-/

namespace Reading

variable {α β γ : Type}

/-- A reader of texts over `β`. -/
abbrev Reader (β : Type) := StateT (List β) Option

/-- The reader takes exactly this text. -/
def Takes (r : Reader β α) (text : List β) (a : α) : Prop :=
  ∀ rest, r (text ++ rest) = some (a, rest)

/-- The reader does not recognise the text. -/
def Refuses (r : Reader β α) (text : List β) : Prop := ∀ rest, r (text ++ rest) = none

variable {r s : Reader β α} {q : α → Reader β γ} {text text' : List β} {a : α} {c : γ}

theorem Takes.pure (a : α) : Takes (pure a : Reader β α) [] a := fun _ => rfl

/-- **One text after the other.** -/
theorem Takes.bind (h : Takes r text a) (h' : Takes (q a) text' c) :
    Takes (r >>= q) (text ++ text') c := fun rest => by
  have hbind : (r >>= q) (text ++ text' ++ rest) =
      (r (text ++ text' ++ rest)).bind fun p => q p.1 p.2 := rfl
  rw [hbind, List.append_assoc, h]
  exact h' rest

/-- What the first part refuses the whole refuses. -/
theorem Refuses.bind (h : Refuses r text) : Refuses (r >>= q) text := fun rest => by
  have hbind : (r >>= q) (text ++ rest) = (r (text ++ rest)).bind fun p => q p.1 p.2 := rfl
  rw [hbind, h]
  rfl

theorem Refuses.append (h : Refuses r text) (text' : List β) : Refuses r (text ++ text') :=
  fun rest => by
    rw [List.append_assoc]
    exact h _

/-! ## Fixed texts -/

/-- The text itself. -/
def expect [DecidableEq β] : List β → Reader β Unit
  | [], input => some ((), input)
  | _ :: _, [] => none
  | b :: text, b' :: input => if b = b' then expect text input else none

theorem takes_expect [DecidableEq β] (text : List β) : Takes (expect text) text () := fun rest => by
  induction text with
  | nil => rfl
  | cons b text ih => exact (if_pos rfl).trans ih

/-- Texts that differ somewhere. -/
theorem refuses_expect [DecidableEq β] {b b' : β} (i : ℕ) (h : text[i]? = some b)
    (h' : text'[i]? = some b') (hne : b ≠ b') : Refuses (expect text) text' := fun rest => by
  induction text generalizing i text' with
  | nil => cases h
  | cons x text ih =>
    cases text' with
    | nil => cases h'
    | cons x' text' =>
      cases i with
      | zero =>
        rw [List.getElem?_cons_zero, Option.some.injEq] at h h'
        refine if_neg fun heq => hne ?_
        rw [← h, ← h', heq]
      | succ i =>
        rw [List.getElem?_cons_succ] at h h'
        by_cases hx : x = x'
        · exact (if_pos hx).trans (ih i h h')
        · exact if_neg hx

/-! ## Single symbols -/

/-- A symbol with a meaning. -/
def symbol (meaning : β → Option α) : Reader β α
  | [] => none
  | b :: input => (meaning b).map fun a => (a, input)

theorem takes_symbol {meaning : β → Option α} {b : β} (h : meaning b = some a) :
    Takes (symbol meaning) [b] a := fun rest => by
  change (meaning b).map _ = _
  rw [h]
  rfl

/-- A number of symbols. -/
def symbols (meaning : β → Option α) : ℕ → Reader β (List α)
  | 0 => pure []
  | n + 1 => do
    let a ← symbol meaning
    let as ← symbols meaning n
    pure (a :: as)

theorem takes_symbols {meaning : β → Option α} {as : List α} (h : text.map meaning = as.map some) :
    Takes (symbols meaning as.length) text as := by
  induction as generalizing text with
  | nil =>
    rw [List.map_eq_nil_iff.1 h]
    exact Takes.pure []
  | cons a as ih =>
    obtain ⟨b, text, rfl, hb, htext⟩ := List.map_eq_cons_iff.1 h
    have htail : Takes (symbols meaning as.length >>= fun as => pure (a :: as)) (text ++ [])
        (a :: as) := (ih htext).bind (Takes.pure (a :: as))
    rw [List.append_nil] at htail
    exact (takes_symbol hb).bind htail

/-! ## Choices -/

/-- The first reader, or else the second. -/
def either (r s : Reader β α) : Reader β α := fun input => (r input).or (s input)

theorem Takes.left (h : Takes r text a) : Takes (either r s) text a := fun rest => by
  unfold either
  rw [h]
  rfl

theorem Takes.right (hr : Refuses r text) (h : Takes s text a) : Takes (either r s) text a :=
  fun rest => by
    unfold either
    rw [hr, h]
    rfl

/-! ## Records -/

/-- Record after record, `n` at most, to the end of the text. -/
def readRecords (r : Reader β α) : ℕ → List β → Option (List α)
  | _, [] => some []
  | 0, _ :: _ => none
  | n + 1, b :: input => (r (b :: input)).bind fun p =>
      (readRecords r n p.2).map fun as => p.1 :: as

/-- Record after record; none is empty. -/
def readText (r : Reader β α) (text : List β) : Option (List α) := readRecords r text.length text

/-- **What is written record by record is read back.** -/
theorem readText_records {write : α → List β} {as : List α}
    (h : ∀ a ∈ as, Takes r (write a) a) (hne : ∀ a, write a ≠ []) :
    readText r (as.flatMap write) = some as := by
  have hread : ∀ n, (as.flatMap write).length ≤ n → readRecords r n (as.flatMap write) = some as := by
    induction as with
    | nil => exact fun n _ => by cases n <;> rfl
    | cons a as ih =>
      intro n hn
      rw [List.flatMap_cons] at hn ⊢
      obtain ⟨b, text, htext⟩ := List.exists_cons_of_ne_nil (hne a)
      have hfirst := h a List.mem_cons_self (as.flatMap write)
      rw [htext] at hn hfirst ⊢
      rw [List.length_append, List.length_cons] at hn
      obtain ⟨m, rfl⟩ : ∃ m, n = m + 1 := ⟨n - 1, by omega⟩
      have hrest := ih (fun x hx => h x (List.mem_cons_of_mem a hx)) m (by omega)
      change (r ((b :: text) ++ as.flatMap write)).bind _ = _
      rw [hfirst, Option.bind_some, hrest]
      rfl
  exact hread _ (Nat.le_refl _)

end Reading
