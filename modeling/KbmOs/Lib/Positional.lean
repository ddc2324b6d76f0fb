import Mathlib.Data.Nat.Digits.Lemmas
/-!
# Numbers read digit by digit

Reading a list of digits most significant first, each multiplies what was
read before by the base. It inverts the digits of `Nat.digits`, which come
least significant first, and the fixed number of digits that shifting and
masking gives.
-/

namespace Positional

/-- The value of the digits, the most significant first. -/
def readNumber (base : ℕ) (digits : List ℕ) : ℕ := digits.foldl (fun v d => v * base + d) 0

/-- The `n` lowest digits of `v`, the most significant first. -/
def lowDigits (base n v : ℕ) : List ℕ := (List.range n).map fun i => v / base ^ (n - 1 - i) % base

variable {base n v d : ℕ} {digits : List ℕ}

theorem readNumber_concat : readNumber base (digits ++ [d]) = readNumber base digits * base + d :=
  List.foldl_append

/-- **Reading inverts `Nat.digits`.** -/
theorem readNumber_digits (base v : ℕ) : readNumber base (Nat.digits base v).reverse = v := by
  have hread : ∀ l : List ℕ, readNumber base l.reverse = Nat.ofDigits base l := by
    intro l
    induction l with
    | nil => rfl
    | cons d l ih =>
      rw [List.reverse_cons, readNumber_concat, ih, Nat.ofDigits_cons, Nat.mul_comm, Nat.add_comm]
  rw [hread, Nat.ofDigits_digits]

/-- The last digit is the lowest. -/
theorem lowDigits_succ (base n v : ℕ) :
    lowDigits base (n + 1) v = lowDigits base n (v / base) ++ [v % base] := by
  unfold lowDigits
  rw [List.range_succ, List.map_append, List.map_singleton, Nat.add_sub_cancel, Nat.sub_self,
    Nat.pow_zero, Nat.div_one]
  congr 1
  refine List.map_congr_left fun i hi => ?_
  have hlt := List.mem_range.1 hi
  have hexp : n - i = n - 1 - i + 1 := by omega
  rw [Nat.div_div_eq_div_mul, hexp, Nat.pow_succ, Nat.mul_comm]

/-- **Reading them gives the number**, up to what they leave out. -/
theorem readNumber_lowDigits (base n v : ℕ) :
    readNumber base (lowDigits base n v) = v % base ^ n := by
  induction n generalizing v with
  | zero => exact (Nat.mod_one v).symm
  | succ n ih =>
    rw [lowDigits_succ, readNumber_concat, ih, Nat.pow_succ, Nat.mul_comm (base ^ n), Nat.mod_mul,
      Nat.mul_comm, Nat.add_comm]

theorem lowDigits_lt (hbase : 0 < base) (hd : d ∈ lowDigits base n v) : d < base := by
  obtain ⟨i, -, rfl⟩ := List.mem_map.1 hd
  exact Nat.mod_lt _ hbase

theorem length_lowDigits (base n v : ℕ) : (lowDigits base n v).length = n := by
  unfold lowDigits
  rw [List.length_map, List.length_range]

end Positional
