import KbmOs.Lib.Positional
import KbmOs.Serial
/-!
# Numbers on the console and on the serial port

`console_write_decimal` stores the digits in an array of 20 slots, the
lowest first, and then writes them from the last one down. Here the stores
and the reads are checked against the array: for a 64-bit number none falls
outside, and what is written reads as the number. The two hexadecimal
writers write the same sixteen digits in different cases.
-/

namespace KbmOs

open Positional

namespace Checked

/-- The first loop: `digits[digit_count] = '0' + value % 10`, which fails
beyond the array. -/
def storeDigits (digits : Vector ℕ 20) (digitCount value : ℕ) : Option (Vector ℕ 20 × ℕ) :=
  if value = 0 then some (digits, digitCount)
  else if h : digitCount < 20 then
    storeDigits (digits.set digitCount ('0'.toNat + value % 10) h) (digitCount + 1) (value / 10)
  else none
termination_by value

/-- The second: the digits from `digits[digit_count - 1]` down. -/
def writeDigits (digits : Vector ℕ 20) : ℕ → Option (List ConsoleCall)
  | 0 => some []
  | digitCount + 1 => do
    let character ← digits[digitCount]?
    let calls ← writeDigits digits digitCount
    some (.writeCodepoint character :: calls)

/-- What the array holds at first is not known. -/
def consoleWriteDecimal (digits : Vector ℕ 20) (value : ℕ) : Option (List ConsoleCall) :=
  if value = 0 then some (consoleWriteChar '0')
  else do
    let (digits, digitCount) ← storeDigits digits 0 value
    writeDigits digits digitCount

end Checked

/-- The digit a character stands for, in either case. -/
def hexDigit (character : ℕ) : Option ℕ :=
  if '0'.toNat ≤ character ∧ character ≤ '9'.toNat then some (character - '0'.toNat)
  else if 'A'.toNat ≤ character ∧ character ≤ 'F'.toNat then some (character - 'A'.toNat + 10)
  else if 'a'.toNat ≤ character ∧ character ≤ 'f'.toNat then some (character - 'a'.toNat + 10)
  else none

/-- The lower case of a character of ASCII. -/
def lowerCase (character : ℕ) : ℕ :=
  if 'A'.toNat ≤ character ∧ character ≤ 'Z'.toNat then character + 32 else character

variable {value n : ℕ} {digits digits' : Vector ℕ 20}

/-! ## Decimal -/

theorem decimalDigits_eq (value : ℕ) :
    decimalDigits value = (Nat.digits 10 value).map ('0'.toNat + ·) := by
  induction value using Nat.strong_induction_on with
  | _ value ih =>
    rw [decimalDigits]
    by_cases hzero : value = 0
    · rw [if_pos hzero, hzero, Nat.digits_zero, List.map_nil]
    · have hpos : 0 < value := Nat.pos_of_ne_zero hzero
      rw [if_neg hzero, Nat.digits_def' (by decide) hpos, List.map_cons,
        ih _ (Nat.div_lt_self hpos (by decide))]

/-- **Twenty digits are enough.** -/
theorem length_decimalDigits (hvalue : value < 2 ^ 64) : (decimalDigits value).length ≤ 20 := by
  rw [decimalDigits_eq, List.length_map, Nat.digits_length_le_iff (by decide)]
  omega

/-- A slot filled behind the ones in use. -/
theorem take_set {x : ℕ} (hn : n < 20) :
    (digits.set n x hn).toList.take (n + 1) = digits.toList.take n ++ [x] := by
  rw [Vector.toList_set, List.take_succ_eq_append_getElem (by simpa using hn),
    List.take_set_of_le le_rfl, List.getElem_set_self]

/-- **The stores stay in the array** as long as the digits fit behind those
already there, and put them there. -/
theorem Checked.storeDigits_eq (digits : Vector ℕ 20) (n value : ℕ)
    (hroom : n + (decimalDigits value).length ≤ 20) :
    ∃ digits', Checked.storeDigits digits n value =
        some (digits', n + (decimalDigits value).length) ∧
      digits'.toList.take (n + (decimalDigits value).length) =
        digits.toList.take n ++ decimalDigits value := by
  induction value using Nat.strong_induction_on generalizing digits n with
  | _ value ih =>
    rw [decimalDigits] at hroom ⊢
    rw [Checked.storeDigits]
    by_cases hzero : value = 0
    · rw [if_pos hzero, if_pos hzero, List.append_nil]
      exact ⟨digits, rfl, rfl⟩
    · rw [if_neg hzero] at hroom ⊢
      rw [List.length_cons] at hroom
      have hlt : n < 20 := by omega
      rw [if_neg hzero, dif_pos hlt, List.length_cons]
      obtain ⟨digits', hstore, htake⟩ := ih (value / 10)
        (Nat.div_lt_self (Nat.pos_of_ne_zero hzero) (by decide))
        (digits.set n ('0'.toNat + value % 10) hlt) (n + 1) (by omega)
      rw [Nat.add_right_comm, Nat.add_assoc] at hstore htake
      refine ⟨digits', hstore, ?_⟩
      rw [htake, take_set hlt, List.append_assoc, List.singleton_append]

/-- **The digits in use are written**, the last one first. -/
theorem Checked.writeDigits_eq (hn : n ≤ 20) :
    Checked.writeDigits digits n =
      some ((digits.toList.take n).reverse.map .writeCodepoint) := by
  induction n with
  | zero => rfl
  | succ n ih =>
    have hlt : n < 20 := hn
    rw [Checked.writeDigits, Vector.getElem?_eq_getElem hlt, ih hlt.le,
      List.take_succ_eq_append_getElem (by simpa using hlt), List.reverse_append,
      List.reverse_singleton, List.singleton_append, List.map_cons, Vector.getElem_toList]
    rfl

/-- **No access leaves the array**, and what is written is what the model
writes. -/
theorem Checked.consoleWriteDecimal_eq (digits : Vector ℕ 20) (hvalue : value < 2 ^ 64) :
    Checked.consoleWriteDecimal digits value = some (KbmOs.consoleWriteDecimal value) := by
  unfold Checked.consoleWriteDecimal KbmOs.consoleWriteDecimal
  have hlength := length_decimalDigits hvalue
  split
  · rfl
  · obtain ⟨digits', hstore, htake⟩ :=
      Checked.storeDigits_eq digits 0 value (by omega)
    rw [Nat.zero_add] at hstore htake
    rw [hstore, Option.bind_eq_bind, Option.bind_some]
    dsimp only
    rw [Checked.writeDigits_eq hlength, htake]
    rfl

/-- The digits of a number as they are written, the highest first. -/
def writtenDigits (value : ℕ) : List ℕ := if value = 0 then [0] else (Nat.digits 10 value).reverse

theorem consoleWriteDecimal_eq (value : ℕ) : consoleWriteDecimal value =
    (writtenDigits value).map fun d => .writeCodepoint ('0'.toNat + d) := by
  unfold consoleWriteDecimal writtenDigits
  split
  · rfl
  · rw [decimalDigits_eq, ← List.map_reverse, List.map_map]
    rfl

theorem readNumber_writtenDigits (value : ℕ) : readNumber 10 (writtenDigits value) = value := by
  unfold writtenDigits
  split
  · rename_i hzero
    rw [hzero]
    rfl
  · exact readNumber_digits 10 value

theorem writtenDigits_lt {d : ℕ} (hd : d ∈ writtenDigits value) : d < 10 := by
  unfold writtenDigits at hd
  split at hd
  · rw [List.mem_singleton.1 hd]
    decide
  · exact Nat.digits_lt_base (by decide) (List.mem_reverse.1 hd)

/-- **No number starts with a zero**, but zero. -/
theorem writtenDigits_head (value : ℕ) :
    ∃ d rest, writtenDigits value = d :: rest ∧ (d = 0 → value = 0 ∧ rest = []) := by
  unfold writtenDigits
  split
  · rename_i hzero
    exact ⟨0, [], rfl, fun _ => ⟨hzero, rfl⟩⟩
  · rename_i hne
    have hnil : Nat.digits 10 value ≠ [] := Nat.digits_ne_nil_iff_ne_zero.2 hne
    have hlast := Nat.getLast_digit_ne_zero 10 hne
    refine ⟨(Nat.digits 10 value).getLast hnil, (Nat.digits 10 value).dropLast.reverse, ?_,
      fun h => absurd h hlast⟩
    rw [← List.reverse_concat, List.dropLast_append_getLast]

/-! ## Hexadecimal -/

/-- Shifting and masking gives the digit. -/
theorem nibble_eq (value : ℕ) {i : ℕ} (hi : i < 16) :
    value >>> (60 - 4 * i) &&& 0x0f = value / 16 ^ (16 - 1 - i) % 16 := by
  have hpow : (2 : ℕ) ^ (60 - 4 * i) = 16 ^ (16 - 1 - i) := by
    rw [show (16 : ℕ) = 2 ^ 4 by rfl, ← Nat.pow_mul]
    congr 1
    omega
  rw [Nat.shiftRight_eq_div_pow, hpow, show 0x0f = 2 ^ 4 - 1 by rfl, Nat.and_two_pow_sub_one_eq_mod]

/-- The characters the two writers have for a digit. -/
theorem hexCharacters : ∀ d, d < 16 →
    hexDigit ((cString "0123456789ABCDEF").getD d 0) = some d ∧
    hexDigit ((cString "0123456789abcdef").getD d 0) = some d ∧
    lowerCase ((cString "0123456789ABCDEF").getD d 0) = (cString "0123456789abcdef").getD d 0 := by
  decide

theorem consoleWriteHex_eq (value : ℕ) : consoleWriteHex value = consoleWrite "0X" ++
    ((lowDigits 16 16 value).map ((cString "0123456789ABCDEF").getD · 0)).map .writeCodepoint := by
  unfold consoleWriteHex lowDigits
  rw [List.map_map, List.map_map]
  congr 1
  refine List.map_congr_left fun i hi => ?_
  rw [nibble_eq value (List.mem_range.1 hi)]
  rfl

theorem serialWriteHex_eq (value : ℕ) : serialWriteHex value = serialWrite "0x" ++
    (lowDigits 16 16 value).map ((cString "0123456789abcdef").getD · 0) := by
  unfold serialWriteHex serialPutc lowDigits
  rw [List.map_map, ← List.map_eq_flatMap]
  congr 1
  refine List.map_congr_left fun i hi => ?_
  rw [nibble_eq value (List.mem_range.1 hi)]
  rfl

/-! ## Reading back -/

/-- What the decimal writer writes, whatever the array held. -/
theorem Checked.consoleWriteDecimal_written (digits : Vector ℕ 20) (value : UInt64) :
    Checked.consoleWriteDecimal digits value.toNat =
      some ((writtenDigits value.toNat).map fun d => .writeCodepoint ('0'.toNat + d)) := by
  rw [Checked.consoleWriteDecimal_eq digits value.toNat_lt, KbmOs.consoleWriteDecimal_eq]

theorem decimal_reads (digits : Vector ℕ 20) (value : UInt64) : ∃ d rest,
    Checked.consoleWriteDecimal digits value.toNat =
      some ((d :: rest).map fun d => .writeCodepoint ('0'.toNat + d)) ∧
    (∀ e ∈ d :: rest, e < 10) ∧ (d = 0 → value = 0 ∧ rest = []) ∧
    readNumber 10 (d :: rest) = value.toNat := by
  obtain ⟨d, rest, hdigits, hlead⟩ := writtenDigits_head value.toNat
  have hrun := Checked.consoleWriteDecimal_written digits value
  have hlt : ∀ e ∈ writtenDigits value.toNat, e < 10 := fun e he => writtenDigits_lt he
  have hread := readNumber_writtenDigits value.toNat
  rw [hdigits] at hrun hlt hread
  refine ⟨d, rest, hrun, hlt, fun hzero => ?_, hread⟩
  obtain ⟨hvalue, hrest⟩ := hlead hzero
  exact ⟨UInt64.toNat_inj.1 hvalue, hrest⟩

theorem decimal_injective {digits digits' : Vector ℕ 20} {v w : UInt64}
    (hsame : Checked.consoleWriteDecimal digits v.toNat =
      Checked.consoleWriteDecimal digits' w.toNat) : v = w := by
  rw [Checked.consoleWriteDecimal_written, Checked.consoleWriteDecimal_written,
    Option.some_inj] at hsame
  have hinj : Function.Injective fun d => ConsoleCall.writeCodepoint ('0'.toNat + d) := by
    intro d e hde
    exact Nat.add_left_cancel (ConsoleCall.writeCodepoint.inj hde)
  have hdigits := List.map_injective_iff.2 hinj hsame
  refine UInt64.toNat_inj.1 ?_
  rw [← readNumber_writtenDigits v.toNat, hdigits, readNumber_writtenDigits]

theorem hexadecimal_reads (value : UInt64) : ∃ upper lower ds : List ℕ,
    consoleWriteHex value.toNat = consoleWrite "0X" ++ upper.map .writeCodepoint ∧
    serialWriteHex value.toNat = serialWrite "0x" ++ lower ∧
    upper.length = 16 ∧ upper.map lowerCase = lower ∧
    upper.map hexDigit = ds.map some ∧ lower.map hexDigit = ds.map some ∧
    readNumber 16 ds = value.toNat := by
  have hdigit : ∀ d ∈ lowDigits 16 16 value.toNat, d < 16 := fun d hd =>
    lowDigits_lt (by decide) hd
  refine ⟨_, _, lowDigits 16 16 value.toNat, consoleWriteHex_eq _, serialWriteHex_eq _, ?_, ?_, ?_,
    ?_, ?_⟩
  · rw [List.length_map, length_lowDigits]
  · rw [List.map_map]
    exact List.map_congr_left fun d hd => (hexCharacters d (hdigit d hd)).2.2
  · rw [List.map_map]
    exact List.map_congr_left fun d hd => (hexCharacters d (hdigit d hd)).1
  · rw [List.map_map]
    exact List.map_congr_left fun d hd => (hexCharacters d (hdigit d hd)).2.1
  · rw [readNumber_lowDigits]
    exact Nat.mod_eq_of_lt value.toNat_lt

/-- **Number output can be read back.** For every 64-bit number, whatever
the digit array held: the decimal writer stays in it and writes digits
without a leading zero that read as the number, so that no two numbers are
written the same; and the hexadecimal writers write, after their prefixes,
sixteen digits that read as it, the one in the other's lower case. -/
theorem numbers_read_back :
    (∀ (digits : Vector ℕ 20) (value : UInt64), ∃ d rest,
      Checked.consoleWriteDecimal digits value.toNat =
        some ((d :: rest).map fun d => .writeCodepoint ('0'.toNat + d)) ∧
      (∀ e ∈ d :: rest, e < 10) ∧ (d = 0 → value = 0 ∧ rest = []) ∧
      readNumber 10 (d :: rest) = value.toNat) ∧
    (∀ (digits digits' : Vector ℕ 20) (v w : UInt64),
      Checked.consoleWriteDecimal digits v.toNat = Checked.consoleWriteDecimal digits' w.toNat →
        v = w) ∧
    ∀ value : UInt64, ∃ upper lower ds : List ℕ,
      consoleWriteHex value.toNat = consoleWrite "0X" ++ upper.map .writeCodepoint ∧
      serialWriteHex value.toNat = serialWrite "0x" ++ lower ∧
      upper.length = 16 ∧ upper.map lowerCase = lower ∧
      upper.map hexDigit = ds.map some ∧ lower.map hexDigit = ds.map some ∧
      readNumber 16 ds = value.toNat := by
  refine ⟨decimal_reads, ?_, hexadecimal_reads⟩
  intro digits digits' v w hsame
  exact decimal_injective hsame

end KbmOs
