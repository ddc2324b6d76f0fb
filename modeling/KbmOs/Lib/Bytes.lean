import Mathlib.Data.Nat.Bitwise
import Mathlib.Tactic.Ring
/-!
# Byte memory, and the words in it

Memory is a byte at every address. A 64-bit word is eight bytes in
little-endian order; a word is read and written through `load64` and
`store64`, and the lemmas say that a word written is the word read
(`load64_store64_same`), that words apart do not meet
(`load64_store64_of_apart`) and which bytes a write touches. The masks
that round an address to a power of two are here too, since they are
what addresses are computed with.
-/

namespace ByteMemory

/-- A byte at every address. -/
abbrev Mem := ℕ → BitVec 8

/-- The word of the `n` bytes from `a` on, least significant byte first. -/
def loadBytes (m : Mem) (a : ℕ) : ℕ → ℕ
  | 0 => 0
  | n + 1 => (m a).toNat + 2 ^ 8 * loadBytes m (a + 1) n

/-- The 64-bit word at `a`. -/
def load64 (m : Mem) (a : ℕ) : ℕ := loadBytes m a 8

/-- Memory after the 64-bit word `v` is written at `a`. -/
def store64 (m : Mem) (a v : ℕ) : Mem := fun x =>
  if a ≤ x ∧ x < a + 8 then BitVec.ofNat 8 (v / 2 ^ (8 * (x - a))) else m x

/-- Memory after the byte `b` is written at `a`. -/
def store8 (m : Mem) (a : ℕ) (b : BitVec 8) : Mem := fun x => if x = a then b else m x

/-- The bytes of the 64-bit word `v` at `a`, each with its address. -/
def wordBytes (a v : ℕ) : List (ℕ × BitVec 8) :=
  (List.range 8).map fun i => (a + i, BitVec.ofNat 8 (v / 2 ^ (8 * i)))

variable {m m' : Mem} {a b v x : ℕ}

/-- A word is read from its bytes and no others. -/
theorem loadBytes_congr : ∀ (n a : ℕ), (∀ y, a ≤ y → y < a + n → m' y = m y) →
    loadBytes m' a n = loadBytes m a n
  | 0, _, _ => rfl
  | n + 1, a, h => by
    rw [loadBytes, loadBytes, h a (by omega) (by omega),
      loadBytes_congr n (a + 1) fun y h1 h2 => h y (by omega) (by omega)]

theorem load64_congr (h : ∀ y, a ≤ y → y < a + 8 → m' y = m y) : load64 m' a = load64 m a :=
  loadBytes_congr 8 a h

/-- The lowest byte comes first. -/
theorem load64_mod (m : Mem) (a : ℕ) : load64 m a % 2 ^ 8 = (m a).toNat := by
  unfold load64 loadBytes
  rw [Nat.add_mul_mod_self_left, Nat.mod_eq_of_lt (m a).isLt]

/-- A word whose bytes are those of `v` is `v`, up to its width. -/
theorem loadBytes_eq_mod : ∀ (n a v : ℕ), (∀ i, i < n → (m (a + i)).toNat = v / 2 ^ (8 * i) % 2 ^ 8) →
    loadBytes m a n = v % 2 ^ (8 * n)
  | 0, _, v, _ => by simp [loadBytes, Nat.mod_one]
  | n + 1, a, v, h => by
    have hlow := h 0 (by omega)
    have hhigh : loadBytes m (a + 1) n = v / 2 ^ 8 % 2 ^ (8 * n) := by
      refine loadBytes_eq_mod n (a + 1) (v / 2 ^ 8) fun i hi => ?_
      have := h (i + 1) (by omega)
      rw [show a + 1 + i = a + (i + 1) by omega, this, Nat.div_div_eq_div_mul, ← Nat.pow_add,
        show 8 + 8 * i = 8 * (i + 1) by omega]
    have hpow : 2 ^ (8 * (n + 1)) = 2 ^ 8 * 2 ^ (8 * n) := by ring
    rw [loadBytes, hhigh, hpow, Nat.mod_mul]
    simpa using hlow

/-- A write leaves the bytes outside its word alone. -/
theorem store64_of_apart (h : x < a ∨ a + 8 ≤ x) : store64 m a v x = m x := by
  unfold store64
  rw [if_neg (by omega)]

@[simp] theorem store8_same (m : Mem) (a : ℕ) (c : BitVec 8) : store8 m a c a = c := by
  simp [store8]

theorem store8_of_ne {c : BitVec 8} (h : x ≠ a) : store8 m a c x = m x := by
  simp [store8, h]

/-- **A word written is the word read.** -/
theorem load64_store64_same (hv : v < 2 ^ 64) : load64 (store64 m a v) a = v := by
  have h : load64 (store64 m a v) a = v % 2 ^ (8 * 8) := by
    refine loadBytes_eq_mod 8 a v fun i hi => ?_
    rw [store64, if_pos (by omega), Nat.add_sub_cancel_left, BitVec.toNat_ofNat]
  rw [h, Nat.mod_eq_of_lt hv]

/-- **Words apart do not meet.** -/
theorem load64_store64_of_apart (h : b + 8 ≤ a ∨ a + 8 ≤ b) :
    load64 (store64 m a v) b = load64 m b :=
  load64_congr fun _ _ _ => store64_of_apart (by omega)

/-- The first `n` bytes of a word, written one by one. -/
theorem foldl_store8_range (m : Mem) (a v : ℕ) : ∀ n : ℕ,
    ((List.range n).map fun i => (a + i, BitVec.ofNat 8 (v / 2 ^ (8 * i)))).foldl
      (fun m w => store8 m w.1 w.2) m =
    fun x => if a ≤ x ∧ x < a + n then BitVec.ofNat 8 (v / 2 ^ (8 * (x - a))) else m x
  | 0 => by
    funext x
    rw [if_neg (by omega)]
    rfl
  | n + 1 => by
    rw [List.range_succ, List.map_append, List.foldl_append, foldl_store8_range m a v n,
      List.map_singleton, List.foldl_cons, List.foldl_nil]
    funext x
    by_cases hx : x = a + n
    · rw [if_pos (by omega), hx, Nat.add_sub_cancel_left]
      exact store8_same _ _ _
    · refine (store8_of_ne hx).trans ?_
      by_cases hin : a ≤ x ∧ x < a + n
      · rw [if_pos hin, if_pos (by omega)]
      · rw [if_neg hin, if_neg (by omega)]

/-- **A word is its bytes.** -/
theorem foldl_wordBytes : (wordBytes a v).foldl (fun m w => store8 m w.1 w.2) m = store64 m a v :=
  foldl_store8_range m a v 8

/-! ## Rounding to a power of two -/

/-- The mask of the bits from `k` up to `w`. -/
theorem testBit_highMask {w k : ℕ} (hk : k ≤ w) (i : ℕ) :
    (2 ^ w - 2 ^ k).testBit i = (decide (k ≤ i) && decide (i < w)) := by
  have hpow : 2 ^ w - 2 ^ k = (2 ^ (w - k) - 1) <<< k := by
    rw [Nat.shiftLeft_eq, Nat.sub_mul, Nat.one_mul, ← Nat.pow_add, Nat.sub_add_cancel hk]
  rw [hpow, Nat.testBit_shiftLeft, Nat.testBit_two_pow_sub_one]
  by_cases h : k ≤ i
  · simp only [ge_iff_le, h, decide_true, Bool.true_and]
    exact decide_eq_decide.2 (by omega)
  · simp [h]

/-- **Masking the low bits rounds down.** -/
theorem and_highMask {w k n : ℕ} (hk : k ≤ w) (hn : n < 2 ^ w) :
    n &&& (2 ^ w - 2 ^ k) = n / 2 ^ k * 2 ^ k := by
  refine Nat.eq_of_testBit_eq fun i => ?_
  rw [Nat.testBit_and, testBit_highMask hk, ← Nat.shiftLeft_eq, Nat.testBit_shiftLeft,
    Nat.testBit_div_two_pow]
  by_cases h : k ≤ i
  · rw [Nat.sub_add_cancel h]
    by_cases hi : i < w
    · simp [h, hi]
    · have : n.testBit i = false :=
        Nat.testBit_lt_two_pow (lt_of_lt_of_le hn (Nat.pow_le_pow_right (by omega) (by omega)))
      simp [this]
  · simp [h]

end ByteMemory
