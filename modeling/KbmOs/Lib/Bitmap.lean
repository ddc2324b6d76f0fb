import KbmOs.Lib.Bytes
/-!
# Bitmaps packed in byte memory

A bitmap is a sequence of bytes of a memory, the `k`-th at `addr k`, and
its bit `i` is bit `i % 8` of byte `i / 8`. Setting or clearing a bit is a
read, a mask and a write of one byte. Where `addr` names every byte once,
that changes the one bit and no other (`bit_setBit`, `bit_clearBit`), and
a bitmap none of whose bytes is written keeps all its bits.
-/

namespace PackedBits

open ByteMemory

/-- The byte with bit `k` set and no other: `1 << k`. -/
def maskBit (k : ℕ) : BitVec 8 := 1#8 <<< k

/-- Bit `i` of the bitmap with bytes at `addr`. -/
def bit (m : Mem) (addr : ℕ → ℕ) (i : ℕ) : Bool := (m (addr (i / 8))).getLsbD (i % 8)

/-- Memory after bit `i` is set: one byte is or-ed with its mask. -/
def setBit (m : Mem) (addr : ℕ → ℕ) (i : ℕ) : Mem :=
  store8 m (addr (i / 8)) (m (addr (i / 8)) ||| maskBit (i % 8))

/-- Memory after bit `i` is cleared: one byte is and-ed with the
complement of its mask. -/
def clearBit (m : Mem) (addr : ℕ → ℕ) (i : ℕ) : Mem :=
  store8 m (addr (i / 8)) (m (addr (i / 8)) &&& ~~~ maskBit (i % 8))

variable {m m' : Mem} {addr addr' : ℕ → ℕ} {i j k x : ℕ}

theorem getLsbD_maskBit (hk : k < 8) (i : ℕ) : (maskBit k).getLsbD i = decide (i = k) := by
  unfold maskBit
  simp only [BitVec.getLsbD_shiftLeft, BitVec.getLsbD_one]
  grind

/-- Testing a byte against a mask reads the one bit. -/
theorem and_maskBit_eq_zero_iff {b : BitVec 8} (hk : k < 8) :
    b &&& maskBit k = 0#8 ↔ b.getLsbD k = false := by
  constructor
  · intro h
    have := congrArg (·.getLsbD k) h
    simpa [getLsbD_maskBit hk] using this
  · intro h
    refine BitVec.eq_of_getLsbD_eq fun i _ => ?_
    rw [BitVec.getLsbD_and, getLsbD_maskBit hk]
    by_cases hik : i = k
    · simp [hik, h]
    · simp [hik]

/-! ## One bit changes -/

/-- **Setting a bit sets that bit and no other.** -/
theorem bit_setBit (hinj : addr (i / 8) = addr (j / 8) → i / 8 = j / 8) :
    bit (setBit m addr j) addr i = (decide (i = j) || bit m addr i) := by
  unfold bit setBit
  by_cases h : i / 8 = j / 8
  · rw [h, store8_same, BitVec.getLsbD_or, getLsbD_maskBit (Nat.mod_lt _ (by omega)), Bool.or_comm]
    congr 1
    exact decide_eq_decide.2 (by omega)
  · rw [store8_of_ne fun h' => h (hinj h'), decide_eq_false (by rintro rfl; exact h rfl),
      Bool.false_or]

/-- **Clearing a bit clears that bit and no other.** -/
theorem bit_clearBit (hinj : addr (i / 8) = addr (j / 8) → i / 8 = j / 8) :
    bit (clearBit m addr j) addr i = (!decide (i = j) && bit m addr i) := by
  unfold bit clearBit
  by_cases h : i / 8 = j / 8
  · have hi : i % 8 < 8 := Nat.mod_lt _ (by omega)
    rw [h, store8_same, BitVec.getLsbD_and, BitVec.getLsbD_not,
      getLsbD_maskBit (Nat.mod_lt _ (by omega)), Bool.and_comm]
    congr 1
    simp only [hi, decide_true, Bool.true_and]
    exact congrArg _ (decide_eq_decide.2 (by omega))
  · rw [store8_of_ne fun h' => h (hinj h'), decide_eq_false (by rintro rfl; exact h rfl)]
    simp

/-- A bitmap whose byte is not the one written keeps the bit. -/
theorem bit_store8_of_ne {b : BitVec 8} (h : addr (i / 8) ≠ x) :
    bit (store8 m x b) addr i = bit m addr i := by
  unfold bit
  rw [store8_of_ne h]

theorem bit_setBit_of_ne (h : addr (i / 8) ≠ addr' (j / 8)) :
    bit (setBit m addr' j) addr i = bit m addr i := bit_store8_of_ne h

theorem bit_clearBit_of_ne (h : addr (i / 8) ≠ addr' (j / 8)) :
    bit (clearBit m addr' j) addr i = bit m addr i := bit_store8_of_ne h

/-- A bitmap is read from its bytes and no others. -/
theorem bit_congr (h : m' (addr (i / 8)) = m (addr (i / 8))) : bit m' addr i = bit m addr i := by
  unfold bit
  rw [h]

/-- A byte of ones holds only set bits. -/
theorem bit_of_ones (h : m (addr (i / 8)) = BitVec.allOnes 8) : bit m addr i = true := by
  unfold bit
  rw [h, BitVec.getLsbD_allOnes, decide_eq_true (Nat.mod_lt _ (by decide))]

theorem bit_of_zeros (h : m (addr (i / 8)) = 0#8) : bit m addr i = false := by
  unfold bit
  rw [h]
  exact BitVec.getLsbD_zero

/-- Only the byte of the bit is written. -/
theorem setBit_of_ne (h : x ≠ addr (i / 8)) : setBit m addr i x = m x := store8_of_ne h

theorem clearBit_of_ne (h : x ≠ addr (i / 8)) : clearBit m addr i x = m x := store8_of_ne h

/-! ## Two changes -/

/-- **Clearing what setting set** leaves the byte as it was. -/
theorem clearBit_setBit (h : bit m addr i = false) : clearBit (setBit m addr i) addr i = m := by
  funext x
  by_cases hx : x = addr (i / 8)
  · subst hx
    unfold clearBit setBit
    rw [store8_same, store8_same]
    have hi : i % 8 < 8 := Nat.mod_lt _ (by omega)
    refine BitVec.eq_of_getLsbD_eq fun k hk => ?_
    rw [BitVec.getLsbD_and, BitVec.getLsbD_not, BitVec.getLsbD_or, getLsbD_maskBit hi]
    by_cases hk' : k = i % 8
    · subst hk'
      simpa [bit] using h.symm
    · simp [hk', hk]
  · rw [clearBit_of_ne hx, setBit_of_ne hx]

theorem store8_comm {a b : ℕ} {v w : BitVec 8} (h : a ≠ b) :
    store8 (store8 m a v) b w = store8 (store8 m b w) a v := by
  funext x
  unfold store8
  by_cases ha : x = a
  · rw [if_neg (ha ▸ h), if_pos ha, if_pos ha]
  · rw [if_neg ha, if_neg ha]

theorem clearBit_setBit_comm (h : addr (i / 8) ≠ addr' (j / 8)) :
    clearBit (setBit m addr i) addr' j = setBit (clearBit m addr' j) addr i := by
  unfold clearBit setBit
  rw [store8_of_ne h.symm, store8_of_ne h, store8_comm h]

/-- **Clearing two bits** leads to one memory in both orders, whatever bytes
they share. -/
theorem clearBit_comm (m : Mem) (addr addr' : ℕ → ℕ) (i j : ℕ) :
    clearBit (clearBit m addr i) addr' j = clearBit (clearBit m addr' j) addr i := by
  by_cases h : addr (i / 8) = addr' (j / 8)
  · funext x
    unfold clearBit
    rw [h]
    by_cases hx : x = addr' (j / 8)
    · rw [hx, store8_same, store8_same, store8_same, store8_same, BitVec.and_assoc,
        BitVec.and_assoc, BitVec.and_comm (~~~maskBit (i % 8))]
    · rw [store8_of_ne hx, store8_of_ne hx, store8_of_ne hx, store8_of_ne hx]
  · unfold clearBit
    rw [store8_of_ne (Ne.symm h), store8_of_ne h, store8_comm h]

end PackedBits
