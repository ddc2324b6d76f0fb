import KbmOs.Kernel
import KbmOs.Lib.Copying
/-!
# The memory routines

`memcpy` and `memmove` of `memory.c`, which the compiler may call anywhere.
Both return the destination. `memmove` looks at the order of the two
pointers and copies upwards or downwards accordingly.
-/

namespace KbmOs

open ByteMemory Raster

/-- `pdest[i] = psrc[i]`. -/
def copyByte (dest src i : ℕ) (m : Mem) : Mem := store8 m (wrap (dest + i)) (m (wrap (src + i)))

def memcpy (dest src n : ℕ) (m : Mem) : ℕ × Mem := (dest, loop (copyByte dest src) n m)

def memmove (dest src n : ℕ) (m : Mem) : ℕ × Mem :=
  if src > dest then (dest, loop (copyByte dest src) n m)
  else if src < dest then (dest, loopDown (copyByte dest src) n m)
  else (dest, m)

variable {dest src n : ℕ} {m : Mem}

theorem store8_eq_update (m : Mem) (a : ℕ) (b : BitVec 8) : store8 m a b = Function.update m a b := by
  funext x
  unfold store8
  by_cases hx : x = a
  · rw [if_pos hx, hx, Function.update_self]
  · rw [if_neg hx, Function.update_of_ne hx]

/-- Within the address space a byte's address does not wrap. -/
theorem copyByte_eq {i : ℕ} (hdest : dest + n ≤ 2 ^ 64) (hsrc : src + n ≤ 2 ^ 64) (hi : i < n)
    (m : Mem) : copyByte dest src i m = Function.update m (dest + i) (m (src + i)) := by
  unfold copyByte
  rw [wrap_of_lt (by omega), wrap_of_lt (by omega), store8_eq_update]

section Ranges

variable (hdest : dest + n ≤ 2 ^ 64) (hsrc : src + n ≤ 2 ^ 64)
include hdest hsrc

/-- **Copying upwards** is right where the target starts below the source,
or behind it. -/
theorem loop_copyByte (hsafe : dest < src ∨ src + n ≤ dest) (m : Mem) :
    loop (copyByte dest src) n m = copied dest src n m := by
  rw [loop_congr (fun i hi m => copyByte_eq hdest hsrc hi m)]
  exact loop_copied hsafe m

/-- **Copying downwards** where it starts above. -/
theorem loopDown_copyByte (hsafe : src < dest) (m : Mem) :
    loopDown (copyByte dest src) n m = copied dest src n m := by
  rw [loopDown_congr (fun i hi m => copyByte_eq hdest hsrc hi m)]
  exact loopDown_copied hsafe m

theorem memmove_eq (m : Mem) : memmove dest src n m = (dest, copied dest src n m) := by
  unfold memmove
  split
  · rename_i hbelow
    rw [loop_copyByte hdest hsrc (Or.inl hbelow)]
  · split
    · rename_i habove
      rw [loopDown_copyByte hdest hsrc habove]
    · -- the same place: every byte is the source's already
      rename_i hnot hnot'
      obtain rfl : src = dest := by omega
      congr 1
      funext x
      by_cases hin : src ≤ x ∧ x < src + n
      · obtain ⟨i, rfl⟩ := Nat.exists_eq_add_of_le hin.1
        rw [copied_add (by omega)]
      · rw [copied_of_not_mem hin]

theorem memcpy_eq (hapart : dest + n ≤ src ∨ src + n ≤ dest) (m : Mem) :
    memcpy dest src n m = (dest, copied dest src n m) := by
  unfold memcpy
  rcases Nat.eq_zero_or_pos n with rfl | hpos
  · congr 1
    funext x
    rw [loop_zero, copied_of_not_mem (by omega)]
  · rw [loop_copyByte hdest hsrc (by omega)]

end Ranges

/-- **`memmove` is correct for every overlap.** Where the two ranges do not
wrap the address space: each byte of the target is what its source was
before the call, every other byte is unchanged, and where the ranges are
disjoint it does what `memcpy` does. -/
theorem memmove_exact (dest src n : ℕ) (m : Mem) (hdest : dest + n ≤ 2 ^ 64)
    (hsrc : src + n ≤ 2 ^ 64) :
    (memmove dest src n m).1 = dest ∧
      (∀ i, i < n → (memmove dest src n m).2 (dest + i) = m (src + i)) ∧
      (∀ x, ¬ (dest ≤ x ∧ x < dest + n) → (memmove dest src n m).2 x = m x) ∧
      (dest + n ≤ src ∨ src + n ≤ dest → memmove dest src n m = memcpy dest src n m) := by
  rw [memmove_eq hdest hsrc]
  exact ⟨rfl, fun i hi => copied_add hi, fun x hx => copied_of_not_mem hx,
    fun hapart => (memcpy_eq hdest hsrc hapart m).symm⟩

/-- Three bytes are moved up by one. -/
theorem memmove_exact_overlap :
    (memmove 101 100 3 fun x => BitVec.ofNat 8 x).2 103 = BitVec.ofNat 8 102 :=
  (memmove_exact 101 100 3 (fun x => BitVec.ofNat 8 x) (by decide) (by decide)).2.1 2 (by decide)

/-! ## Comparing -/

/-- The loop of `memcmp` from byte `i` on, with `n` bytes to go. -/
def memcmpFrom (s1 s2 : ℕ) (m : Mem) : ℕ → ℕ → ℤ
  | _, 0 => 0
  | i, n + 1 =>
    let p1 := m (wrap (s1 + i))
    let p2 := m (wrap (s2 + i))
    if p1 ≠ p2 then if p1 < p2 then -1 else 1
    else memcmpFrom s1 s2 m (i + 1) n

def memcmp (s1 s2 n : ℕ) (m : Mem) : ℤ := memcmpFrom s1 s2 m 0 n

/-- The bytes from byte `i` of a block on. -/
def bytesFrom (m : Mem) (a i n : ℕ) : List (BitVec 8) := (List.range' i n).map fun k => m (wrap (a + k))

theorem bytesFrom_succ (m : Mem) (a i n : ℕ) :
    bytesFrom m a i (n + 1) = m (wrap (a + i)) :: bytesFrom m a (i + 1) n := rfl

/-- **The loop decides at the first byte that differs.** -/
theorem memcmpFrom_cases (m : Mem) (s1 s2 i n : ℕ) :
    (memcmpFrom s1 s2 m i n = -1 ∧ bytesFrom m s1 i n < bytesFrom m s2 i n) ∨
    (memcmpFrom s1 s2 m i n = 0 ∧ bytesFrom m s1 i n = bytesFrom m s2 i n) ∨
    (memcmpFrom s1 s2 m i n = 1 ∧ bytesFrom m s2 i n < bytesFrom m s1 i n) := by
  induction n generalizing i with
  | zero => exact Or.inr (Or.inl ⟨rfl, rfl⟩)
  | succ n ih =>
    rw [bytesFrom_succ, bytesFrom_succ]
    unfold memcmpFrom
    dsimp only
    rcases BitVec.lt_trichotomy (m (wrap (s1 + i))) (m (wrap (s2 + i))) with hlt | heq | hgt
    · rw [if_pos (BitVec.ne_of_lt hlt), if_pos hlt]
      exact Or.inl ⟨rfl, List.cons_lt_cons_iff.2 (Or.inl hlt)⟩
    · rw [if_neg (not_not.2 heq), heq]
      simp only [List.cons_lt_cons_iff, List.cons.injEq, true_and, BitVec.lt_irrefl, false_or]
      exact ih (i + 1)
    · rw [if_pos (BitVec.ne_of_lt hgt).symm, if_neg (BitVec.lt_asymm hgt)]
      exact Or.inr (Or.inr ⟨rfl, List.cons_lt_cons_iff.2 (Or.inl hgt)⟩)

theorem bytesFrom_asymm {m : Mem} {s1 s2 i n : ℕ} (h : bytesFrom m s1 i n < bytesFrom m s2 i n) :
    ¬ bytesFrom m s2 i n < bytesFrom m s1 i n ∧ bytesFrom m s1 i n ≠ bytesFrom m s2 i n :=
  ⟨List.lt_asymm h, fun heq => List.lt_irrefl _ (heq ▸ h)⟩

/-- **`memcmp` is the order of the blocks byte by byte**: at any two
pointers, overlapping or not, it is -1 where the first block comes before
the second, 1 where it comes behind and 0 where they hold the same bytes,
and with the pointers exchanged its sign changes. -/
theorem memcmp_orders (m : Mem) (s1 s2 n : ℕ) :
    (memcmp s1 s2 n m = -1 ↔ bytesFrom m s1 0 n < bytesFrom m s2 0 n) ∧
    (memcmp s1 s2 n m = 0 ↔ bytesFrom m s1 0 n = bytesFrom m s2 0 n) ∧
    (memcmp s1 s2 n m = 1 ↔ bytesFrom m s2 0 n < bytesFrom m s1 0 n) ∧
    memcmp s2 s1 n m = -memcmp s1 s2 n m := by
  have hthere := memcmpFrom_cases m s1 s2 0 n
  have hback := memcmpFrom_cases m s2 s1 0 n
  unfold memcmp
  rcases hthere with ⟨hresult, hlt⟩ | ⟨hresult, heq⟩ | ⟨hresult, hgt⟩
  · obtain ⟨hnot, hne⟩ := bytesFrom_asymm hlt
    simp only [hnot, hne.symm, and_false, false_or] at hback
    simp [hresult, hback, hnot, hne]
  · simp only [heq, List.lt_irrefl, and_false, false_or, or_false, and_true] at hback
    simp [hresult, hback, heq, List.lt_irrefl]
  · obtain ⟨hnot, hne⟩ := bytesFrom_asymm hgt
    simp only [hnot, hne, and_false, or_false] at hback
    simp [hresult, hback, hnot, hne.symm]

end KbmOs
