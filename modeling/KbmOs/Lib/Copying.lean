import KbmOs.Lib.Raster
/-!
# Copying a stretch of memory over another

A loop that copies word after word reads what it has not yet overwritten
only if it goes the right way: upwards where the target starts below the
source, downwards where it starts above, either way where the two are
apart. `copied` is what it is to leave, and the two loops leave it.
-/

namespace Raster

variable {σ α : Type}

/-- `for (i = n; i > 0; i--) body(i - 1)`. -/
def loopDown (body : ℕ → σ → σ) : ℕ → σ → σ
  | 0, s => s
  | n + 1, s => loopDown body n (body n s)

/-- The `n` words from `dest` on take the values of those from `src` on. -/
def copied (dest src n : ℕ) (p : ℕ → α) : ℕ → α := fun k =>
  if dest ≤ k ∧ k < dest + n then p (src + (k - dest)) else p k

variable {dest src n k i : ℕ} {p : ℕ → α} {body body' : ℕ → σ → σ}

/-- Only the turns a loop makes count. -/
theorem loop_congr (h : ∀ i, i < n → ∀ s, body i s = body' i s) (s : σ) :
    loop body n s = loop body' n s := by
  induction n with
  | zero => rfl
  | succ n ih =>
    rw [loop_succ, loop_succ, ih fun i hi => h i (Nat.lt_succ_of_lt hi), h n (Nat.lt_succ_self n)]

theorem loopDown_congr (h : ∀ i, i < n → ∀ s, body i s = body' i s) (s : σ) :
    loopDown body n s = loopDown body' n s := by
  induction n generalizing s with
  | zero => rfl
  | succ n ih =>
    rw [loopDown, loopDown, h n (Nat.lt_succ_self n)]
    exact ih (fun i hi => h i (Nat.lt_succ_of_lt hi)) _

/-- **The `i`-th word is the source's.** -/
theorem copied_add (hi : i < n) : copied dest src n p (dest + i) = p (src + i) := by
  unfold copied
  rw [if_pos (by omega), Nat.add_sub_cancel_left]

theorem copied_of_not_mem (h : ¬ (dest ≤ k ∧ k < dest + n)) : copied dest src n p k = p k :=
  if_neg h

/-- One word more at the end. -/
theorem update_copied (hsrc : ¬ (dest ≤ src + n ∧ src + n < dest + n)) :
    Function.update (copied dest src n p) (dest + n) (copied dest src n p (src + n)) =
      copied dest src (n + 1) p := by
  funext k
  by_cases hlast : k = dest + n
  · rw [hlast, Function.update_self, copied_of_not_mem hsrc, copied_add (Nat.lt_succ_self n)]
  · rw [Function.update_of_ne hlast]
    by_cases hin : dest ≤ k ∧ k < dest + n
    · obtain ⟨i, rfl⟩ := Nat.exists_eq_add_of_le hin.1
      rw [copied_add (by omega), copied_add (by omega)]
    · rw [copied_of_not_mem hin, copied_of_not_mem (by omega)]

/-- **Upwards**, where no word is overwritten before it is read. -/
theorem loop_copied (hsafe : dest < src ∨ src + n ≤ dest) (p : ℕ → α) :
    loop (fun i p => Function.update p (dest + i) (p (src + i))) n p = copied dest src n p := by
  have hpart : ∀ j, j ≤ n → loop (fun i p => Function.update p (dest + i) (p (src + i))) j p =
      copied dest src j p := by
    intro j hj
    induction j with
    | zero =>
      funext k
      rw [loop_zero, copied_of_not_mem (by omega)]
    | succ j ih =>
      rw [loop_succ, ih (by omega)]
      exact update_copied (by omega)
  exact hpart n le_rfl

/-- **Downwards**, where the source starts below. -/
theorem loopDown_copied (hsafe : src < dest) (p : ℕ → α) :
    loopDown (fun i p => Function.update p (dest + i) (p (src + i))) n p = copied dest src n p := by
  induction n generalizing p with
  | zero =>
    funext k
    rw [copied_of_not_mem (by omega)]
    rfl
  | succ n ih =>
    -- the last word is in place, and none of those still to be read is it
    rw [loopDown, ih]
    funext k
    by_cases hin : dest ≤ k ∧ k < dest + n
    · obtain ⟨i, rfl⟩ := Nat.exists_eq_add_of_le hin.1
      rw [copied_add (by omega), copied_add (by omega), Function.update_of_ne (by omega)]
    · rw [copied_of_not_mem hin]
      by_cases hlast : k = dest + n
      · rw [hlast, Function.update_self, copied_add (Nat.lt_succ_self n)]
      · rw [Function.update_of_ne hlast, copied_of_not_mem (by omega)]

end Raster
