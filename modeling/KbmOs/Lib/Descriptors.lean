import KbmOs.Lib.Fields
/-!
# The processor's descriptor tables

In 64-bit mode the processor finds the code behind an interrupt through a
table of 16-byte gates, and what a selector means through a table of 8-byte
segment descriptors. `gateAt` and `segmentAt` read the tables as the
processor does: an entry beyond the limit, or one that is not present,
is a fault and not an entry.
-/

namespace Descriptors

open ByteMemory

/-- What `lgdt` and `lidt` load: the last byte's offset, and the address. -/
structure TableRegister where
  limit : ℕ
  base : ℕ
deriving DecidableEq

/-- The ten bytes of the operand. -/
def tableRegister (m : Mem) (a : ℕ) : TableRegister := ⟨loadBytes m a 2, loadBytes m (a + 2) 8⟩

/-- An interrupt gate, or a trap gate. -/
structure Gate where
  target : ℕ
  selector : ℕ
  ist : ℕ
  privilege : ℕ
  /-- Interrupts are off where it leads: it is no trap gate. -/
  masks : Bool
deriving DecidableEq

/-- The gate of a vector. -/
def gateAt (m : Mem) (idtr : TableRegister) (vector : ℕ) : Option Gate :=
  let a := idtr.base + 16 * vector
  let attributes := loadBytes m (a + 5) 1
  if 16 * vector + 15 ≤ idtr.limit ∧ attributes / 0x80 = 1 ∧
      (attributes % 0x20 = 0xE ∨ attributes % 0x20 = 0xF) then
    some {
      target := loadBytes m a 2 + 2 ^ 16 * loadBytes m (a + 6) 2 + 2 ^ 32 * loadBytes m (a + 8) 4
      selector := loadBytes m (a + 2) 2
      ist := loadBytes m (a + 4) 1 % 8
      privilege := attributes / 0x20 % 4
      masks := decide (attributes % 0x20 = 0xE) }
  else none

/-- A segment of code or data. -/
structure Segment where
  code : Bool
  /-- Code may be read, or data written. -/
  accessible : Bool
  long : Bool
  privilege : ℕ
deriving DecidableEq

/-- The segment a selector stands for; the first entry stands for none. -/
def segmentAt (m : Mem) (gdtr : TableRegister) (selector : ℕ) : Option Segment :=
  let a := gdtr.base + 8 * (selector / 8)
  let access := loadBytes m (a + 5) 1
  if selector / 8 ≠ 0 ∧ 8 * (selector / 8) + 7 ≤ gdtr.limit ∧
      access / 0x80 = 1 ∧ access / 0x10 % 2 = 1 then
    some {
      code := decide (access / 8 % 2 = 1)
      accessible := decide (access / 2 % 2 = 1)
      long := decide (loadBytes m (a + 6) 1 / 0x20 % 2 = 1)
      privilege := access / 0x20 % 4 }
  else none

variable {m m' : Mem} {table : TableRegister} {vector selector target : ℕ}

/-- A gate is read from its own sixteen bytes. -/
theorem gateAt_congr (h : ∀ x, table.base + 16 * vector ≤ x → x < table.base + 16 * vector + 16 →
    m' x = m x) : gateAt m' table vector = gateAt m table vector := by
  have hsame : ∀ i n, i + n ≤ 16 → loadBytes m' (table.base + 16 * vector + i) n =
      loadBytes m (table.base + 16 * vector + i) n := fun i n hin =>
    loadBytes_congr n _ fun y h1 h2 => h y (by omega) (by omega)
  have hlow := hsame 0 2 (by decide)
  rw [Nat.add_zero] at hlow
  unfold gateAt
  dsimp only
  rw [hlow, hsame 2 2 (by decide), hsame 4 1 (by decide), hsame 5 1 (by decide),
    hsame 6 2 (by decide), hsame 8 4 (by decide)]

/-- **An entry that is all zero is no gate.** -/
theorem gateAt_of_zero (h : m (table.base + 16 * vector + 5) = 0) :
    gateAt m table vector = none := by
  have hzero : loadBytes m (table.base + 16 * vector + 5) 1 = 0 := by
    unfold loadBytes loadBytes
    rw [h]
    rfl
  unfold gateAt
  dsimp only
  rw [hzero]
  exact if_neg fun hand => absurd hand.2.1 (by decide)

/-- An address in the three pieces of a gate. -/
theorem target_pieces (h : target < 2 ^ 64) :
    target % 2 ^ 16 + 2 ^ 16 * (target / 2 ^ 16 % 2 ^ 16) + 2 ^ 32 * (target / 2 ^ 32 % 2 ^ 32) =
      target := by
  omega

/-- A segment is read from its own eight bytes. -/
theorem segmentAt_congr (h : ∀ x, table.base + 8 * (selector / 8) ≤ x →
    x < table.base + 8 * (selector / 8) + 8 → m' x = m x) :
    segmentAt m' table selector = segmentAt m table selector := by
  have haccess : loadBytes m' (table.base + 8 * (selector / 8) + 5) 1 =
      loadBytes m (table.base + 8 * (selector / 8) + 5) 1 :=
    loadBytes_congr 1 _ fun y h1 h2 => h y (by omega) (by omega)
  have hflags : loadBytes m' (table.base + 8 * (selector / 8) + 6) 1 =
      loadBytes m (table.base + 8 * (selector / 8) + 6) 1 :=
    loadBytes_congr 1 _ fun y h1 h2 => h y (by omega) (by omega)
  unfold segmentAt
  dsimp only
  rw [haccess, hflags]

/-- **A gate is read back**, its address put together from the three
pieces. -/
theorem gateAt_eq (hlimit : 16 * vector + 15 ≤ table.limit) (htarget : target < 2 ^ 64)
    (hlow : loadBytes m (table.base + 16 * vector) 2 = target % 2 ^ 16)
    (hselector : loadBytes m (table.base + 16 * vector + 2) 2 = selector)
    (hist : loadBytes m (table.base + 16 * vector + 4) 1 = 0)
    (hattributes : loadBytes m (table.base + 16 * vector + 5) 1 = 0x8E)
    (hmiddle : loadBytes m (table.base + 16 * vector + 6) 2 = target / 2 ^ 16 % 2 ^ 16)
    (hhigh : loadBytes m (table.base + 16 * vector + 8) 4 = target / 2 ^ 32 % 2 ^ 32) :
    gateAt m table vector = some { target, selector, ist := 0, privilege := 0, masks := true } := by
  unfold gateAt
  dsimp only
  rw [hlow, hselector, hist, hattributes, hmiddle, hhigh, if_pos ⟨hlimit, by decide, by decide⟩,
    target_pieces htarget]
  rfl

end Descriptors
