import KbmOs.Console.Numbers
import KbmOs.Lib.Reading
import KbmOs.SerialPort
/-!
# Reading the serial log

The log is made of texts and of numbers in sixteen hexadecimal digits, so
what a line was written from can be read off it again.
-/

namespace KbmOs

open Positional Reading SerialPort

/-- A text of the log. -/
def readWords (text : String) : Reader ℕ Unit := expect (serialWrite text)

/-- A number of the log. -/
def readHex : Reader ℕ ℕ := do
  readWords "0x"
  let digits ← symbols hexDigit 16
  pure (readNumber 16 digits)

theorem takes_words (text : String) : Takes (readWords text) (LogItem.words text).characters () :=
  takes_expect _

/-- **A 64-bit number is read back.** -/
theorem takes_hex {value : ℕ} (h : value < 2 ^ 64) :
    Takes readHex (LogItem.hex value).characters value := by
  have hdigit : ∀ d ∈ lowDigits 16 16 value, d < 16 := fun d hd => lowDigits_lt (by decide) hd
  have hmeaning : ((lowDigits 16 16 value).map ((cString "0123456789abcdef").getD · 0)).map hexDigit =
      (lowDigits 16 16 value).map some := by
    rw [List.map_map]
    exact List.map_congr_left fun d hd => (hexCharacters d (hdigit d hd)).2.1
  have hdigits := takes_symbols hmeaning
  rw [length_lowDigits] at hdigits
  have hnumber : readNumber 16 (lowDigits 16 16 value) = value := by
    rw [readNumber_lowDigits]
    exact Nat.mod_eq_of_lt h
  have hread : Takes (symbols hexDigit 16 >>= fun digits => pure (readNumber 16 digits))
      ((lowDigits 16 16 value).map ((cString "0123456789abcdef").getD · 0) ++ []) value := by
    have hpure := Takes.pure (β := ℕ) (readNumber 16 (lowDigits 16 16 value))
    rw [hnumber] at hpure
    refine hdigits.bind ?_
    rw [hnumber]
    exact hpure
  rw [List.append_nil] at hread
  unfold LogItem.characters
  dsimp only
  rw [serialWriteHex_eq]
  exact (takes_words "0x").bind hread

/-- What the calls of a log write. -/
def logCharacters (log : List LogItem) : List ℕ := log.flatMap LogItem.characters

variable {α : Type} {item : LogItem} {log : List LogItem}

/-- **The log is read item by item.** -/
theorem takes_item {β : Type} {r : Reader ℕ α} {q : α → Reader ℕ β} {a : α} {b : β}
    (h : Takes r item.characters a) (h' : Takes (q a) (logCharacters log) b) :
    Takes (r >>= q) (logCharacters (item :: log)) b := h.bind h'

/-- The last part is read. -/
theorem takes_log {β : Type} {r : Reader ℕ α} {q : α → Reader ℕ β} {a : α} {b : β}
    (h : Takes r (logCharacters log) a) (h' : Takes (q a) [] b) :
    Takes (r >>= q) (logCharacters log) b := by
  have hread := h.bind h'
  rwa [List.append_nil] at hread

/-- A reader that refuses the first item refuses the log. -/
theorem refuses_item {r : Reader ℕ α} (h : Refuses r item.characters) :
    Refuses r (logCharacters (item :: log)) := h.append _

/-- **Record after record.** -/
theorem readText_items {r : Reader ℕ α} {items : α → List LogItem} {as : List α}
    (h : ∀ a ∈ as, Takes r (logCharacters (items a)) a) (hne : ∀ a, logCharacters (items a) ≠ []) :
    readText r (logCharacters (as.flatMap items)) = some as := by
  unfold logCharacters at h hne ⊢
  rw [List.flatMap_assoc]
  exact readText_records h hne

theorem cString_lt (text : String) : ∀ c ∈ cString text, c < 256 := by
  intro c hc
  unfold cString at hc
  rcases List.mem_append.1 hc with hc | hc
  · obtain ⟨byte, -, rfl⟩ := List.mem_map.1 hc
    exact byte.toNat_lt
  · rw [List.mem_singleton.1 hc]
    decide

theorem serialWriteBytes_lt (text : List ℕ) (h : ∀ c ∈ text, c < 256) :
    ∀ c ∈ serialWriteBytes text, c < 256 := by
  induction text with
  | nil => exact fun c hc => absurd hc List.not_mem_nil
  | cons character text ih =>
    have hrest := ih fun c hc => h c (List.mem_cons_of_mem character hc)
    have hfirst := h character List.mem_cons_self
    intro c hc
    unfold serialWriteBytes serialPutc at hc
    split at hc
    · exact absurd hc List.not_mem_nil
    · rcases List.mem_append.1 hc with hc | hc
      · rcases List.mem_append.1 hc with hc | hc
        · split at hc
          · rw [List.mem_singleton.1 hc]
            decide
          · exact absurd hc List.not_mem_nil
        · rw [List.mem_singleton.1 hc]
          exact hfirst
      · exact hrest c hc

/-- The characters of a log are bytes. -/
theorem characters_lt (item : LogItem) : ∀ c ∈ item.characters, c < 256 := by
  intro c hc
  cases item with
  | words text => exact serialWriteBytes_lt _ (cString_lt text) c hc
  | hex value =>
    unfold LogItem.characters at hc
    dsimp only at hc
    rw [serialWriteHex_eq] at hc
    rcases List.mem_append.1 hc with hc | hc
    · exact serialWriteBytes_lt _ (cString_lt "0x") c hc
    · have hdigits : ∀ d, d < 16 → (cString "0123456789abcdef").getD d 0 < 256 := by decide
      obtain ⟨d, hd, rfl⟩ := List.mem_map.1 hc
      exact hdigits d (lowDigits_lt (by decide) hd)

/-- **The log can be read off the line.** -/
theorem onLine_logCharacters (log : List LogItem) :
    (onLine (logCharacters log)).map BitVec.toNat = logCharacters log := by
  unfold onLine
  rw [List.map_map]
  refine (List.map_congr_left fun c hc => ?_).trans (List.map_id _)
  obtain ⟨item, -, hmem⟩ := List.mem_flatMap.1 hc
  exact (BitVec.toNat_ofNat c 8).trans (Nat.mod_eq_of_lt (characters_lt item c hmem))

end KbmOs
