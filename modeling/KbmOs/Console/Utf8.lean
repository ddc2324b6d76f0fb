import KbmOs.Console.Text
/-!
# What `console_write` makes of UTF-8

The encoding of codepoints below `0x800` comes back as it was. A byte that
begins neither ASCII nor a sequence in its shortest form is a question mark
and stands alone — but for the two leads `0xC0` and `0xC1`, which the masks
take, so a sequence that is too long writes the ASCII it hides.
-/

namespace KbmOs

variable {text bytes : List UInt8} {index codepoint count : ℕ} {b b' : UInt8}

/-! ## Decoding the encoding -/

/-- The bytes of codepoints. -/
def utf8 (codepoints : List ℕ) : List UInt8 :=
  codepoints.flatMap fun codepoint => String.utf8EncodeChar (Char.ofNat codepoint)

theorem toNat_char (h : codepoint ≤ 0x7FF) : (Char.ofNat codepoint).val.toNat = codepoint := by
  have hvalid : codepoint.isValidChar := Or.inl (by omega)
  rw [Char.ofNat, dif_pos hvalid]
  rfl

theorem utf8_ascii (h : codepoint < 0x80) :
    String.utf8EncodeChar (Char.ofNat codepoint) = [UInt8.ofNat codepoint] := by
  rw [String.utf8EncodeChar, toNat_char (by omega), if_pos (by omega)]

theorem utf8_sequence (hge : 0x80 ≤ codepoint) (hle : codepoint ≤ 0x7FF) :
    String.utf8EncodeChar (Char.ofNat codepoint) =
      [UInt8.ofNat (codepoint / 64 + 0xC0), UInt8.ofNat (codepoint % 64 + 0x80)] := by
  rw [String.utf8EncodeChar, toNat_char hle, if_neg (by omega), if_pos hle,
    Nat.mod_eq_of_lt (show codepoint / 64 < 0x20 by omega)]

/-- One codepoint before the rest of a text. -/
theorem decodeText_utf8 (hge : 1 ≤ codepoint) (hle : codepoint ≤ 0x7FF) (rest : List ℕ) :
    decodeText ((String.utf8EncodeChar (Char.ofNat codepoint)).map UInt8.toNat ++ rest) =
      codepoint :: decodeText rest := by
  by_cases hascii : codepoint < 0x80
  · rw [utf8_ascii hascii, List.map_singleton, List.singleton_append,
      UInt8.toNat_ofNat_of_lt' (by change _ < 256; omega), decodeText_ascii (by omega) hascii]
  have hlead : (UInt8.ofNat (codepoint / 64 + 0xC0)).toNat = codepoint / 64 + 0xC0 :=
    UInt8.toNat_ofNat_of_lt' (by change _ < 256; omega)
  have htail : (UInt8.ofNat (codepoint % 64 + 0x80)).toNat = codepoint % 64 + 0x80 :=
    UInt8.toNat_ofNat_of_lt' (by change _ < 256; omega)
  rw [utf8_sequence (by omega) hle, List.map_cons, List.map_singleton, List.cons_append,
    List.singleton_append]
  generalize UInt8.ofNat (codepoint / 64 + 0xC0) = b at hlead
  generalize UInt8.ofNat (codepoint % 64 + 0x80) = b' at htail
  have hleads : 0xC0 ≤ b ∧ b ≤ 0xDF := by
    change 0xC0 ≤ b.toNat ∧ b.toNat ≤ 0xDF
    omega
  have hcontinues : 0x80 ≤ b' ∧ b' ≤ 0xBF := by
    change 0x80 ≤ b'.toNat ∧ b'.toNat ≤ 0xBF
    omega
  have hbyte : 0x80 ≤ b := UInt8.le_trans (by decide) hleads.1
  have hvalue : (b.toNat - 0xC0) * 64 + (b'.toNat - 0x80) = codepoint := by omega
  rw [decodeText_pair hbyte, if_pos ⟨(and_0xe0_eq_iff b).2 hleads,
    (and_0xc0_eq_iff b').2 hcontinues⟩, sequence_codepoint hleads hcontinues, hvalue]

theorem decodeText_utf8_all : ∀ codepoints : List ℕ,
    (∀ codepoint ∈ codepoints, 1 ≤ codepoint ∧ codepoint ≤ 0x7FF) →
      decodeText ((utf8 codepoints ++ [0]).map UInt8.toNat) = codepoints
  | [], _ => decodeText_zero []
  | codepoint :: codepoints, hcodepoints => by
    have hfirst := hcodepoints codepoint List.mem_cons_self
    have hrest := decodeText_utf8_all codepoints
      (fun c hc => hcodepoints c (List.mem_cons_of_mem codepoint hc))
    rw [utf8, List.flatMap_cons, ← utf8, List.append_assoc, List.map_append,
      decodeText_utf8 hfirst.1 hfirst.2, hrest]

/-- **Decoding undoes encoding.** On the encoding of codepoints from `1` to
`0x7FF`, with a zero behind it, the loop comes to its end with no byte read
behind the zero, and writes those codepoints in order. -/
theorem utf8_written (codepoints : List ℕ)
    (hcodepoints : ∀ codepoint ∈ codepoints, 1 ≤ codepoint ∧ codepoint ≤ 0x7FF) :
    Checked.consoleWrite (utf8 codepoints ++ [0]) =
      some (codepoints.map .writeCodepoint) := by
  have hall := writeFrom_append
    (List.mem_append_right (utf8 codepoints) (List.mem_singleton_self 0)) []
  rw [decodeText_utf8_all codepoints hcodepoints] at hall
  exact hall

/-- ASCII, a letter of Turkish, and the ends of the range. -/
theorem utf8_written_letters :
    Checked.consoleWrite (utf8 [1, 'k'.toNat, 'ş'.toNat, 0x7F, 0x80, 0x7FF] ++ [0]) =
      some ([1, 'k'.toNat, 'ş'.toNat, 0x7F, 0x80, 0x7FF].map .writeCodepoint) :=
  utf8_written [1, 'k'.toNat, 'ş'.toNat, 0x7F, 0x80, 0x7FF] (by decide)

/-! ## Malformed bytes -/

/-- Neither ASCII nor a sequence in its shortest form begins at the index. -/
def Malformed (text : List UInt8) (index : ℕ) : Prop :=
  ∃ b, text[index]? = some b ∧ 0x80 ≤ b ∧
    ¬ (0xC2 ≤ b ∧ b ≤ 0xDF ∧ ∃ b', text[index + 1]? = some b' ∧ 0x80 ≤ b' ∧ b' ≤ 0xBF)

/-- **What malformed bytes are promised to do**: each the loop comes to is
one question mark and nothing else is passed over with it, so no sequence
stands for ASCII or takes ASCII with it, and the loop stays in front of the
zero until it ends there. -/
structure MalformedVisible (text : List UInt8) : Prop where
  marked : ∀ index, Reaches text index → Malformed text index →
    textTurn text index = some (.writes '?'.toNat 1)
  noAlias : ∀ index codepoint, Reaches text index →
    textTurn text index = some (.writes codepoint 2) → 0x80 ≤ codepoint
  keepsAscii : ∀ index codepoint, Reaches text index →
    textTurn text index = some (.writes codepoint 2) →
      ∃ b', text[index + 1]? = some b' ∧ 0x80 ≤ b'
  stops : ∀ index, Reaches text index → index < text.length
  ends : ∃ calls, Checked.consoleWrite text = some calls

/-- A lead that only sequences too long begin with, and a byte that
continues it. -/
def OverlongAt (text : List UInt8) (index : ℕ) : Prop :=
  ∃ b b', text[index]? = some b ∧ (b = 0xC0 ∨ b = 0xC1) ∧
    text[index + 1]? = some b' ∧ 0x80 ≤ b' ∧ b' ≤ 0xBF

/-- The masks take more leads than there are. -/
theorem lead_cases (h : 0xC0 ≤ b ∧ b ≤ 0xDF) : b = 0xC0 ∨ b = 0xC1 ∨ 0xC2 ≤ b ∧ b ≤ 0xDF := by
  have h₁ : 0xC0 ≤ b.toNat := h.1
  have h₂ : b.toNat ≤ 0xDF := h.2
  by_cases hzero : b.toNat = 0xC0
  · exact Or.inl (UInt8.toNat_inj.1 hzero)
  by_cases hone : b.toNat = 0xC1
  · exact Or.inr (Or.inl (UInt8.toNat_inj.1 hone))
  refine Or.inr (Or.inr ⟨?_, h.2⟩)
  change 0xC2 ≤ b.toNat
  omega

/-- **A turn over two bytes** has read a lead and a byte that continues
it. -/
theorem textTurn_two (h : textTurn text index = some (.writes codepoint 2)) :
    ∃ b b', text[index]? = some b ∧ text[index + 1]? = some b' ∧ (0xC0 ≤ b ∧ b ≤ 0xDF) ∧
      (0x80 ≤ b' ∧ b' ≤ 0xBF) ∧ codepoint = (b.toNat - 0xC0) * 64 + (b'.toNat - 0x80) := by
  obtain ⟨b, hb, -, ⟨-, -, hcount⟩ | ⟨b', -, hb', ⟨hmasks, hvalue, -⟩ | ⟨-, -, hcount⟩⟩⟩ :=
    textTurn_cases h
  · cases hcount
  · have hleads := (and_0xe0_eq_iff b).1 hmasks.1
    have hcontinues := (and_0xc0_eq_iff b').1 hmasks.2
    exact ⟨b, b', hb, hb', hleads, hcontinues,
      hvalue.trans (sequence_codepoint hleads hcontinues)⟩
  · cases hcount

/-! ## Every place is come to -/

/-- A byte that is not the zero is written, with the one behind it or
alone. -/
theorem textTurn_writes (hzero : 0 ∉ bytes) (hlt : index < bytes.length) :
    ∃ codepoint count, textTurn (bytes ++ [0]) index = some (.writes codepoint count) ∧
      (count = 1 ∨ count = 2) := by
  have hb : (bytes ++ [0])[index]? = some bytes[index] := by
    rw [List.getElem?_append_left hlt, List.getElem?_eq_getElem hlt]
  have hne : bytes[index] ≠ 0 := fun h => hzero (h ▸ List.getElem_mem hlt)
  by_cases hascii : bytes[index] < 0x80
  · exact ⟨_, 1, textTurn_ascii hb hne hascii, Or.inl rfl⟩
  have hlt' : index + 1 < (bytes ++ [0]).length := by
    rw [List.length_append, List.length_singleton]
    omega
  have hturn := textTurn_pair hb (UInt8.not_lt.1 hascii) (List.getElem?_eq_getElem hlt')
  split at hturn
  · exact ⟨_, 2, hturn, Or.inr rfl⟩
  · exact ⟨_, 1, hturn, Or.inl rfl⟩

/-- **No index is jumped over but the second of a sequence.** -/
theorem reaches_or_second (hzero : 0 ∉ bytes) : ∀ index, index ≤ bytes.length →
    Reaches (bytes ++ [0]) index ∨ ∃ before codepoint, index = before + 1 ∧
      Reaches (bytes ++ [0]) before ∧
        textTurn (bytes ++ [0]) before = some (.writes codepoint 2)
  | 0, _ => Or.inl .start
  | index + 1, hle => by
    rcases reaches_or_second hzero index (by omega) with h | ⟨before, codepoint, rfl, h, hturn⟩
    · obtain ⟨codepoint, count, hturn, rfl | rfl⟩ := textTurn_writes hzero (Nat.lt_of_succ_le hle)
      · exact Or.inl (.turn h hturn)
      · exact Or.inr ⟨index, codepoint, rfl, h, hturn⟩
    · have hnext := Reaches.turn h hturn
      exact Or.inl hnext

/-- So a byte that continues nothing is always come to. -/
theorem reaches_of_not_continues (hzero : 0 ∉ bytes) (hlt : index < bytes.length)
    (hb : bytes[index]? = some b) (hcontinues : ¬ (0x80 ≤ b ∧ b ≤ 0xBF)) :
    Reaches (bytes ++ [0]) index := by
  rcases reaches_or_second hzero index (by omega) with h | ⟨before, codepoint, rfl, -, hturn⟩
  · exact h
  · obtain ⟨-, b', -, hb', -, hcontinues', -⟩ := textTurn_two hturn
    rw [List.getElem?_append_left hlt, hb, Option.some_inj] at hb'
    rw [← hb'] at hcontinues'
    exact absurd hcontinues' hcontinues

/-- The loop stays in front of the zero, or at it. -/
theorem reaches_le (hzero : 0 ∉ bytes) (h : Reaches (bytes ++ [0]) index) :
    index ≤ bytes.length := by
  induction h with
  | start => exact Nat.zero_le _
  | @turn index codepoint count h hturn ih =>
    have hlt : index < bytes.length := by
      by_contra hge
      have hat : (bytes ++ [0])[index]? = some 0 := by
        rw [show index = bytes.length by omega]
        simp
      rw [textTurn_zero hat] at hturn
      cases hturn
    obtain ⟨c, n, hwrites, hcount⟩ := textTurn_writes hzero hlt
    rw [hwrites] at hturn
    cases hturn
    rcases hcount with rfl | rfl
    · omega
    -- the second byte is none of zero, so it is in front of it
    obtain ⟨-, b', -, hb', -, hcontinues, -⟩ := textTurn_two hwrites
    by_contra hgt
    rw [show index + 1 = bytes.length by omega] at hb'
    simp only [List.getElem?_concat_length, Option.some_inj] at hb'
    rw [← hb'] at hcontinues
    exact absurd hcontinues.1 (by decide)

/-! ## Sequences too long -/

/-- Such a sequence is malformed, and the masks take it. -/
theorem OverlongAt.taken (h : OverlongAt text index) :
    Malformed text index ∧ ∃ codepoint, textTurn text index = some (.writes codepoint 2) := by
  obtain ⟨b, b', hb, hlead, hb', hcontinues⟩ := h
  have hleads : (0xC0 ≤ b ∧ b ≤ 0xDF) ∧ ¬ 0xC2 ≤ b := by
    rcases hlead with rfl | rfl
    · decide
    · decide
  have hge : 0x80 ≤ b := UInt8.le_trans (by decide) hleads.1.1
  refine ⟨⟨b, hb, hge, fun hshort => hleads.2 hshort.1⟩, ?_⟩
  have hturn := textTurn_pair hb hge hb'
  rw [if_pos ⟨(and_0xe0_eq_iff b).2 hleads.1, (and_0xc0_eq_iff b').2 hcontinues⟩] at hturn
  exact ⟨_, hturn⟩

/-- The loop comes to it. -/
theorem OverlongAt.reached (h : OverlongAt (bytes ++ [0]) index) (hzero : 0 ∉ bytes) :
    Reaches (bytes ++ [0]) index := by
  obtain ⟨b, b', hb, hlead, hb', hcontinues, -⟩ := h
  have hlt : index + 1 < (bytes ++ [0]).length := (List.getElem?_eq_some_iff.1 hb').1
  rw [List.length_append, List.length_singleton] at hlt
  rw [List.getElem?_append_left (by omega)] at hb
  refine reaches_of_not_continues hzero (by omega) hb ?_
  rcases hlead with rfl | rfl
  · decide
  · decide

/-- **Where there is none**, a turn over two bytes is over a sequence in its
shortest form. -/
theorem textTurn_shortest (hnone : ¬ OverlongAt text index)
    (h : textTurn text index = some (.writes codepoint 2)) :
    0x80 ≤ codepoint ∧ ¬ Malformed text index := by
  obtain ⟨b, b', hb, hb', hleads, hcontinues, hvalue⟩ := textTurn_two h
  have hshort : 0xC2 ≤ b ∧ b ≤ 0xDF := by
    rcases lead_cases hleads with h | h | h
    · exact absurd ⟨b, b', hb, Or.inl h, hb', hcontinues⟩ hnone
    · exact absurd ⟨b, b', hb, Or.inr h, hb', hcontinues⟩ hnone
    · exact h
  constructor
  · have hlead : 0xC2 ≤ b.toNat := hshort.1
    rw [hvalue]
    omega
  · rintro ⟨c, hc, -, hmalformed⟩
    rw [hb, Option.some_inj] at hc
    subst hc
    exact hmalformed ⟨hshort.1, hshort.2, b', hb', hcontinues⟩

/-- And every malformed byte is a question mark. -/
theorem textTurn_malformed (hnone : ¬ OverlongAt (bytes ++ [0]) index)
    (h : Malformed (bytes ++ [0]) index) :
    textTurn (bytes ++ [0]) index = some (.writes '?'.toNat 1) := by
  have hmalformed := h
  obtain ⟨b, hb, hge, -⟩ := h
  have hlt : index + 1 < (bytes ++ [0]).length := by
    have hindex := (List.getElem?_eq_some_iff.1 hb).1
    rw [List.length_append, List.length_singleton] at hindex ⊢
    by_contra hlast
    rw [show index = bytes.length by omega, List.getElem?_concat_length, Option.some_inj] at hb
    rw [← hb] at hge
    exact absurd hge (by decide)
  have hturn := textTurn_pair hb hge (List.getElem?_eq_getElem hlt)
  split at hturn
  · exact absurd hmalformed (textTurn_shortest hnone hturn).2
  · exact hturn

/-- **Malformed bytes are visible exactly where no sequence is too long.**
A lead `0xC0` or `0xC1` with a byte behind it that continues it is taken for
a sequence, and is the ASCII it hides. -/
theorem malformed_visible (bytes : List UInt8) (hzero : 0 ∉ bytes) :
    MalformedVisible (bytes ++ [0]) ↔ ∀ index, ¬ OverlongAt (bytes ++ [0]) index := by
  constructor
  · intro hvisible index hoverlong
    obtain ⟨hmalformed, codepoint, hturn⟩ := hoverlong.taken
    rw [hvisible.marked index (hoverlong.reached hzero) hmalformed] at hturn
    cases hturn
  · intro hnone
    refine ⟨fun index _ => textTurn_malformed (hnone index), ?_, ?_, ?_, ?_⟩
    · intro index codepoint _ hturn
      exact (textTurn_shortest (hnone index) hturn).1
    · intro index codepoint _ hturn
      obtain ⟨-, b', -, hb', -, hcontinues, -⟩ := textTurn_two hturn
      exact ⟨b', hb', hcontinues.1⟩
    · intro index hreaches
      rw [List.length_append, List.length_singleton]
      exact Nat.lt_succ_of_le (reaches_le hzero hreaches)
    · exact ⟨_, writeFrom_append (List.mem_append_right bytes (List.mem_singleton_self 0)) []⟩

/-- A sequence too long writes a new line. -/
theorem malformed_invisible :
    0 ∉ [(0xC0 : UInt8), 0x8A] ∧ ¬ MalformedVisible ([0xC0, 0x8A] ++ [0]) := by
  refine ⟨by decide, fun hvisible => ?_⟩
  have halias := hvisible.noAlias 0 '\n'.toNat .start (by decide)
  exact absurd halias (by decide)

/-- A lead alone, a continuation alone, a lead before the zero. -/
theorem malformed_visible_leads : MalformedVisible ([0xC5, 0x41, 0x9F, 0xC4] ++ [0]) :=
  (malformed_visible [0xC5, 0x41, 0x9F, 0xC4] (by decide)).2 (by
    rintro index ⟨b, b', hb, hlead, -⟩
    have hmem := List.mem_of_getElem? hb
    rcases hlead with rfl | rfl
    · exact absurd hmem (by decide)
    · exact absurd hmem (by decide))

end KbmOs
