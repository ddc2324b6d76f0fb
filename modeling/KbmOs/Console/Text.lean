import KbmOs.Console.Model
/-!
# The bytes of a text

`console_write` turn by turn: at an index of its text it reads one byte or
two, writes a codepoint and goes on behind what it has read. A read outside
the text fails here. On a text that ends in a zero the loop ends at the
first one, and what it writes is `decodeText` of the bytes.
-/

namespace KbmOs

/-- What a turn of the loop does. -/
inductive TextTurn
  /-- The byte is the zero: nothing more. -/
  | ends
  /-- A codepoint is written, and so many bytes are passed over. -/
  | writes (codepoint bytes : ℕ)
deriving DecidableEq

/-- The turn at an index; only a first byte that is not ASCII is looked
behind. -/
def textTurn (text : List UInt8) (index : ℕ) : Option TextTurn := do
  let firstByte ← text[index]?
  if firstByte = 0 then some .ends
  else if firstByte < 0x80 then some (.writes firstByte.toNat 1)
  else
    let secondByte ← text[index + 1]?
    if firstByte &&& 0xe0 = 0xc0 ∧ secondByte &&& 0xc0 = 0x80 then
      some (.writes ((firstByte &&& 0x1f).toNat <<< 6 ||| (secondByte &&& 0x3f).toNat) 2)
    else some (.writes '?'.toNat 1)

/-- The indices the loop comes to. -/
inductive Reaches (text : List UInt8) : ℕ → Prop
  | start : Reaches text 0
  | turn {index codepoint bytes : ℕ} (h : Reaches text index)
      (hturn : textTurn text index = some (.writes codepoint bytes)) : Reaches text (index + bytes)

variable {text bytes : List UInt8} {index codepoint count : ℕ} {b b' : UInt8}

/-! ## One turn -/

theorem textTurn_nil (h : text[index]? = none) : textTurn text index = none := by
  unfold textTurn
  rw [h]
  rfl

theorem textTurn_zero (h : text[index]? = some 0) : textTurn text index = some .ends := by
  unfold textTurn
  rw [h]
  rfl

theorem textTurn_ascii (h : text[index]? = some b) (hne : b ≠ 0) (hlt : b < 0x80) :
    textTurn text index = some (.writes b.toNat 1) := by
  unfold textTurn
  rw [h, Option.bind_eq_bind, Option.bind_some, if_neg hne, if_pos hlt]

/-- **A byte that is not ASCII** is looked at with the one behind it. -/
theorem textTurn_pair (h : text[index]? = some b) (hge : 0x80 ≤ b) (h' : text[index + 1]? = some b') :
    textTurn text index = some (if b &&& 0xe0 = 0xc0 ∧ b' &&& 0xc0 = 0x80 then
      .writes ((b &&& 0x1f).toNat <<< 6 ||| (b' &&& 0x3f).toNat) 2 else .writes '?'.toNat 1) := by
  have hne : b ≠ 0 := by
    rintro rfl
    cases hge
  unfold textTurn
  rw [h, Option.bind_eq_bind, Option.bind_some, if_neg hne, if_neg (UInt8.not_lt.2 hge), h',
    Option.bind_some]
  split <;> rfl

/-- **What a turn that writes has read**: one byte of ASCII, or the bytes
of a sequence, or a byte that begins none. -/
theorem textTurn_cases (h : textTurn text index = some (.writes codepoint count)) :
    ∃ b, text[index]? = some b ∧ b ≠ 0 ∧
      (b < 0x80 ∧ codepoint = b.toNat ∧ count = 1 ∨
      ∃ b', 0x80 ≤ b ∧ text[index + 1]? = some b' ∧
        ((b &&& 0xe0 = 0xc0 ∧ b' &&& 0xc0 = 0x80) ∧
          codepoint = (b &&& 0x1f).toNat <<< 6 ||| (b' &&& 0x3f).toNat ∧ count = 2 ∨
        ¬ (b &&& 0xe0 = 0xc0 ∧ b' &&& 0xc0 = 0x80) ∧ codepoint = '?'.toNat ∧ count = 1)) := by
  cases hb : text[index]? with
  | none =>
    rw [textTurn_nil hb] at h
    cases h
  | some b =>
    refine ⟨b, rfl, ?_⟩
    by_cases hzero : b = 0
    · rw [hzero] at hb
      rw [textTurn_zero hb] at h
      cases h
    refine ⟨hzero, ?_⟩
    by_cases hascii : b < 0x80
    · rw [textTurn_ascii hb hzero hascii] at h
      cases h
      exact Or.inl ⟨hascii, rfl, rfl⟩
    have hge := UInt8.not_lt.1 hascii
    cases hb' : text[index + 1]? with
    | none =>
      unfold textTurn at h
      rw [hb, Option.bind_eq_bind, Option.bind_some, if_neg hzero, if_neg hascii, hb'] at h
      cases h
    | some b' =>
      rw [textTurn_pair hb hge hb', Option.some_inj] at h
      refine Or.inr ⟨b', hge, rfl, ?_⟩
      split at h
      · rename_i hpair
        cases h
        exact Or.inl ⟨hpair, rfl, rfl⟩
      · rename_i hpair
        cases h
        exact Or.inr ⟨hpair, rfl, rfl⟩

/-- A turn that writes goes on, inside the text. -/
theorem textTurn_bounds (h : textTurn text index = some (.writes codepoint count)) :
    index < text.length ∧ 0 < count := by
  obtain ⟨b, hb, -, hcases⟩ := textTurn_cases h
  refine ⟨(List.getElem?_eq_some_iff.1 hb).1, ?_⟩
  rcases hcases with ⟨-, -, rfl⟩ | ⟨b', -, -, ⟨-, -, rfl⟩ | ⟨-, -, rfl⟩⟩
  · decide
  · decide
  · decide

/-! ## The loop -/

/-- The loop from an index on; a failed read fails it. -/
def writeFrom (text : List UInt8) (index : ℕ) : Option (List ConsoleCall) :=
  match _h : textTurn text index with
  | none => none
  | some .ends => some []
  | some (.writes codepoint count) =>
    (writeFrom text (index + count)).map (.writeCodepoint codepoint :: ·)
termination_by text.length - index
decreasing_by
  have hbounds := textTurn_bounds _h
  omega

/-- `console_write`. -/
def Checked.consoleWrite (text : List UInt8) : Option (List ConsoleCall) := writeFrom text 0

theorem writeFrom_ends (h : textTurn text index = some .ends) : writeFrom text index = some [] := by
  rw [writeFrom]
  split
  · rename_i hnone
    rw [h] at hnone
    cases hnone
  · rfl
  · rename_i hwrites
    rw [h] at hwrites
    cases hwrites

theorem writeFrom_writes (h : textTurn text index = some (.writes codepoint count)) :
    writeFrom text index =
      (writeFrom text (index + count)).map (.writeCodepoint codepoint :: ·) := by
  rw [writeFrom]
  split
  · rename_i hnone
    rw [h] at hnone
    cases hnone
  · rename_i hends
    rw [h] at hends
    cases hends
  · rename_i hwrites
    rw [h, Option.some_inj] at hwrites
    cases hwrites
    rfl

/-! ## Its bits -/

/-- The masks pick the bytes that lead a sequence of two. -/
theorem and_0xe0_eq_iff (b : UInt8) : b &&& 0xe0 = 0xc0 ↔ 0xC0 ≤ b ∧ b ≤ 0xDF := by
  have hall : ∀ i : Fin 256, UInt8.ofNat i &&& 0xe0 = 0xc0 ↔
      0xC0 ≤ UInt8.ofNat i ∧ UInt8.ofNat i ≤ 0xDF := by decide +kernel
  have hb := hall ⟨b.toNat, b.toNat_lt⟩
  rwa [UInt8.ofNat_toNat] at hb

/-- And those that continue one. -/
theorem and_0xc0_eq_iff (b : UInt8) : b &&& 0xc0 = 0x80 ↔ 0x80 ≤ b ∧ b ≤ 0xBF := by
  have hall : ∀ i : Fin 256, UInt8.ofNat i &&& 0xc0 = 0x80 ↔
      0x80 ≤ UInt8.ofNat i ∧ UInt8.ofNat i ≤ 0xBF := by decide +kernel
  have hb := hall ⟨b.toNat, b.toNat_lt⟩
  rwa [UInt8.ofNat_toNat] at hb

/-- **The codepoint of a sequence**, in its bytes. -/
theorem sequence_codepoint (hb : 0xC0 ≤ b ∧ b ≤ 0xDF) (hb' : 0x80 ≤ b' ∧ b' ≤ 0xBF) :
    (b &&& 0x1f).toNat <<< 6 ||| (b' &&& 0x3f).toNat =
      (b.toNat - 0xC0) * 64 + (b'.toNat - 0x80) := by
  have h₁ : 0xC0 ≤ b.toNat ∧ b.toNat ≤ 0xDF := hb
  have h₂ : 0x80 ≤ b'.toNat ∧ b'.toNat ≤ 0xBF := hb'
  have hhigh : (b &&& 0x1f).toNat = b.toNat % 2 ^ 5 := by
    rw [UInt8.toNat_and, ← Nat.and_two_pow_sub_one_eq_mod]
    rfl
  have hlow : (b' &&& 0x3f).toNat = b'.toNat % 2 ^ 6 := by
    rw [UInt8.toNat_and, ← Nat.and_two_pow_sub_one_eq_mod]
    rfl
  rw [hhigh, hlow, ← Nat.shiftLeft_add_eq_or_of_lt (Nat.mod_lt _ (by decide)), Nat.shiftLeft_eq]
  omega

/-! ## All of it -/

theorem decodeText_zero (rest : List ℕ) : decodeText (0 :: rest) = [] := by
  rw [decodeText.eq_def]
  exact if_pos rfl

theorem decodeText_ascii {first : ℕ} (hne : first ≠ 0) (hlt : first < 0x80) (rest : List ℕ) :
    decodeText (first :: rest) = first :: decodeText rest := by
  rw [decodeText.eq_def]
  dsimp only
  rw [if_neg hne, if_pos hlt]

/-- The masks on a byte are those on its value. -/
theorem decodeText_pair (hge : 0x80 ≤ b) (b' : UInt8) (rest : List ℕ) :
    decodeText (b.toNat :: b'.toNat :: rest) =
      if b &&& 0xe0 = 0xc0 ∧ b' &&& 0xc0 = 0x80 then
        ((b &&& 0x1f).toNat <<< 6 ||| (b' &&& 0x3f).toNat) :: decodeText rest
      else '?'.toNat :: decodeText (b'.toNat :: rest) := by
  have hge' : 0x80 ≤ b.toNat := hge
  have hmasks : (b.toNat &&& 0xe0 = 0xc0 ∧ b'.toNat &&& 0xc0 = 0x80) ↔
      (b &&& 0xe0 = 0xc0 ∧ b' &&& 0xc0 = 0x80) := by
    rw [← UInt8.toNat_inj, ← UInt8.toNat_inj, UInt8.toNat_and, UInt8.toNat_and]
    rfl
  rw [decodeText.eq_def, UInt8.toNat_and, UInt8.toNat_and]
  dsimp only
  rw [if_neg (by omega), if_neg (by omega)]
  exact if_congr hmasks rfl rfl

/-- **On a text with a zero in it** the loop reads no byte behind the first
one, and writes `decodeText` of the bytes. -/
theorem writeFrom_append {rest : List UInt8} (hzero : 0 ∈ rest) (read : List UInt8) :
    writeFrom (read ++ rest) read.length =
      some ((decodeText (rest.map UInt8.toNat)).map .writeCodepoint) := by
  obtain ⟨b, rest, rfl⟩ := List.exists_cons_of_ne_nil (List.ne_nil_of_mem hzero)
  have hfirst : (read ++ b :: rest)[read.length]? = some b := by simp
  by_cases hb : b = 0
  · rw [hb] at hfirst ⊢
    rw [writeFrom_ends (textTurn_zero hfirst), List.map_cons, UInt8.toNat_zero, decodeText_zero]
    rfl
  have hrest : 0 ∈ rest := by
    rcases List.mem_cons.1 hzero with h | h
    · exact absurd h.symm hb
    · exact h
  have hone := writeFrom_append hrest (read ++ [b])
  rw [List.append_assoc, List.singleton_append, List.length_append, List.length_singleton] at hone
  by_cases hascii : b < 0x80
  · rw [writeFrom_writes (textTurn_ascii hfirst hb hascii), hone, List.map_cons,
      decodeText_ascii (fun h => hb (UInt8.toNat_inj.1 h)) hascii]
    rfl
  have hge := UInt8.not_lt.1 hascii
  obtain ⟨b', rest, rfl⟩ := List.exists_cons_of_ne_nil (List.ne_nil_of_mem hrest)
  have hsecond : (read ++ b :: b' :: rest)[read.length + 1]? = some b' := by simp
  have hturn := textTurn_pair hfirst hge hsecond
  rw [List.map_cons, List.map_cons, decodeText_pair hge]
  by_cases hpair : b &&& 0xe0 = 0xc0 ∧ b' &&& 0xc0 = 0x80
  · have hbehind : 0 ∈ rest := by
      rcases List.mem_cons.1 hrest with h | h
      · rw [← h] at hpair
        exact absurd hpair.2 (by decide)
      · exact h
    have htwo := writeFrom_append hbehind (read ++ [b, b'])
    rw [List.append_assoc, List.length_append] at htwo
    rw [if_pos hpair] at hturn
    rw [writeFrom_writes hturn, if_pos hpair]
    exact congrArg _ htwo
  · rw [if_neg hpair] at hturn
    rw [writeFrom_writes hturn, hone, if_neg hpair]
    rfl
termination_by rest.length

/-- `console_write` of a text, byte after byte, is what the shell's and the
kernel's calls of it are taken to be. -/
theorem Checked.consoleWrite_eq (text : String) :
    Checked.consoleWrite (text.toUTF8.data.toList ++ [0]) = some (KbmOs.consoleWrite text) := by
  have hall := writeFrom_append
    (List.mem_append_right text.toUTF8.data.toList (List.mem_singleton_self 0)) []
  rw [List.map_append] at hall
  exact hall

end KbmOs
