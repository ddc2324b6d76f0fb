import Mathlib.Data.Set.Function
import Mathlib.Data.Set.Lattice
import Mathlib.Logic.Function.Basic
import Mathlib.Order.CompletePartialOrder
/-!
# Loops that paint and loops that move

A picture is a value at every position. A counting loop whose every turn
paints some positions in one colour paints all of them (`loop_paint`); one
whose every turn moves a stretch of words down by the same distance,
stretch after stretch upwards, moves the whole of it (`loop_shiftDown`),
since a word is read before it is overwritten. `Confined F` is said of an
operation on pictures that neither reads nor writes outside `F`.
-/

namespace Raster

variable {σ ι α : Type}

/-- `for (i = 0; i < n; i++) body(i)`. -/
def loop (body : ℕ → σ → σ) : ℕ → σ → σ
  | 0, s => s
  | n + 1, s => body n (loop body n s)

theorem loop_zero (body : ℕ → σ → σ) (s : σ) : loop body 0 s = s := rfl

theorem loop_succ (body : ℕ → σ → σ) (n : ℕ) (s : σ) :
    loop body (n + 1) s = body n (loop body n s) := rfl

/-- The loop when a turn may fail, and with it the loop. -/
def loopM (body : ℕ → σ → Option σ) : ℕ → σ → Option σ
  | 0, s => some s
  | n + 1, s => (loopM body n s).bind (body n)

/-- **A loop none of whose turns fails** is the loop of what they do. -/
theorem loopM_eq_some {body : ℕ → σ → Option σ} {turn : ℕ → σ → σ} {n : ℕ}
    (h : ∀ i, i < n → ∀ s, body i s = some (turn i s)) (s : σ) :
    loopM body n s = some (loop turn n s) := by
  induction n with
  | zero => rfl
  | succ n ih =>
    rw [loopM, ih fun i hi => h i (Nat.lt_succ_of_lt hi), loop_succ]
    exact h n (Nat.lt_succ_self n) _

variable {k : ι} {n : ℕ} {body : ℕ → (ι → α) → ι → α}

/-- What no turn writes the loop does not. -/
theorem loop_keeps (h : ∀ i, i < n → ∀ p, body i p k = p k) (p : ι → α) :
    loop body n p k = p k := by
  induction n with
  | zero => rfl
  | succ n ih =>
    rw [loop_succ, h n (Nat.lt_succ_self n)]
    exact ih fun i hi => h i (Nat.lt_succ_of_lt hi)

/-- **What one turn writes**, and no other, is there after the loop. -/
theorem loop_writes {j : ℕ} {v : α} (hj : j < n) (hwrite : ∀ p, body j p k = v)
    (h : ∀ i, i < n → i ≠ j → ∀ p, body i p k = p k) (p : ι → α) : loop body n p k = v := by
  induction n with
  | zero => exact absurd hj (Nat.not_lt_zero j)
  | succ n ih =>
    rw [loop_succ]
    by_cases hlast : j = n
    · rw [← hlast]
      exact hwrite _
    · rw [h n (Nat.lt_succ_self n) fun heq => hlast heq.symm]
      exact ih (by omega) fun i hi => h i (Nat.lt_succ_of_lt hi)

/-! ## Painting -/

open Classical in
/-- The picture with the positions of `S` in colour `c`. -/
noncomputable def paint (S : Set ι) (c : α) (p : ι → α) : ι → α := fun k => if k ∈ S then c else p k

variable {S T : Set ι} {c : α} {p q : ι → α}

theorem paint_of_mem (h : k ∈ S) : paint S c p k = c := if_pos h

theorem paint_of_not_mem (h : k ∉ S) : paint S c p k = p k := if_neg h

theorem paint_empty : paint ∅ c p = p := funext fun _ => paint_of_not_mem fun h => h

/-- Painting twice in one colour paints both sets. -/
theorem paint_paint : paint T c (paint S c p) = paint (S ∪ T) c p := by
  funext k
  by_cases hT : k ∈ T
  · rw [paint_of_mem hT, paint_of_mem (Set.mem_union_right S hT)]
  · rw [paint_of_not_mem hT]
    by_cases hS : k ∈ S
    · rw [paint_of_mem hS, paint_of_mem (Set.mem_union_left T hS)]
    · rw [paint_of_not_mem hS, paint_of_not_mem fun h => h.elim hS hT]

/-- Painting one position. -/
theorem update_eq_paint [DecidableEq ι] (p : ι → α) (k : ι) (c : α) :
    Function.update p k c = paint {k} c p := by
  funext j
  by_cases h : j = k
  · rw [h, Function.update_self, paint_of_mem (Set.mem_singleton k)]
  · rw [Function.update_of_ne h, paint_of_not_mem fun hj => h (Set.mem_singleton_iff.1 hj)]

/-- **A loop of paintings paints.** -/
theorem loop_paint {body : ℕ → (ι → α) → ι → α} {S : ℕ → Set ι}
    (h : ∀ i, i < n → ∀ p, body i p = paint (S i) c p) (p : ι → α) :
    loop body n p = paint {k | ∃ i, i < n ∧ k ∈ S i} c p := by
  induction n with
  | zero =>
    funext k
    rw [loop_zero, paint_of_not_mem]
    rintro ⟨i, hi, -⟩
    omega
  | succ n ih =>
    rw [loop_succ, ih fun i hi => h i (Nat.lt_succ_of_lt hi), h n (Nat.lt_succ_self n), paint_paint]
    congr 1
    ext k
    constructor
    · rintro (⟨i, hi, hk⟩ | hk)
      · exact ⟨i, Nat.lt_succ_of_lt hi, hk⟩
      · exact ⟨n, Nat.lt_succ_self n, hk⟩
    · rintro ⟨i, hi, hk⟩
      rcases Nat.lt_succ_iff_lt_or_eq.1 hi with hi | rfl
      · exact Or.inl ⟨i, hi, hk⟩
      · exact Or.inr hk

/-! ## Moving -/

/-- The words from `lo` up to `hi` take the values `d` words further on. -/
def shiftDown (lo hi d : ℕ) (p : ℕ → α) : ℕ → α := fun k =>
  if lo ≤ k ∧ k < hi then p (k + d) else p k

theorem shiftDown_of_mem {lo hi d k : ℕ} {p : ℕ → α} (h : lo ≤ k ∧ k < hi) :
    shiftDown lo hi d p k = p (k + d) := if_pos h

theorem shiftDown_of_not_mem {lo hi d k : ℕ} {p : ℕ → α} (h : ¬ (lo ≤ k ∧ k < hi)) :
    shiftDown lo hi d p k = p k := if_neg h

/-- **A loop of moves moves.** The stretches follow one another upwards, so
what a turn reads no earlier one has written. -/
theorem loop_shiftDown {body : ℕ → (ℕ → α) → ℕ → α} {lo : ℕ → ℕ} {d : ℕ}
    (hlo : ∀ i, i < n → lo i ≤ lo (i + 1))
    (h : ∀ i, i < n → ∀ p, body i p = shiftDown (lo i) (lo (i + 1)) d p) (p : ℕ → α) :
    lo 0 ≤ lo n ∧ loop body n p = shiftDown (lo 0) (lo n) d p := by
  induction n with
  | zero =>
    refine ⟨le_refl _, ?_⟩
    funext k
    rw [loop_zero, shiftDown_of_not_mem (by omega)]
  | succ n ih =>
    obtain ⟨hle, heq⟩ := ih (fun i hi => hlo i (Nat.lt_succ_of_lt hi))
      fun i hi => h i (Nat.lt_succ_of_lt hi)
    have hnext := hlo n (Nat.lt_succ_self n)
    refine ⟨le_trans hle hnext, ?_⟩
    rw [loop_succ, heq, h n (Nat.lt_succ_self n)]
    funext k
    by_cases hlast : lo n ≤ k ∧ k < lo (n + 1)
    · rw [shiftDown_of_mem hlast, shiftDown_of_not_mem (by omega), shiftDown_of_mem (by omega)]
    · rw [shiftDown_of_not_mem hlast]
      by_cases hbefore : lo 0 ≤ k ∧ k < lo n
      · rw [shiftDown_of_mem hbefore, shiftDown_of_mem (by omega)]
      · rw [shiftDown_of_not_mem hbefore, shiftDown_of_not_mem (by omega)]

/-! ## What an operation reads and writes -/

/-- Outside `F` the operation writes nothing, and what it writes in `F` it
reads from there. -/
structure Confined (F : Set ι) (op : (ι → α) → ι → α) : Prop where
  keeps : ∀ p k, k ∉ F → op p k = p k
  reads : ∀ p q, Set.EqOn p q F → Set.EqOn (op p) (op q) F

variable {F G : Set ι} {op op' : (ι → α) → ι → α}

theorem Confined.id (F : Set ι) : Confined F (fun p : ι → α => p) where
  keeps _ _ _ := rfl
  reads _ _ h := h

theorem Confined.mono (h : Confined F op) (hsub : F ⊆ G) : Confined G op where
  keeps p k hk := h.keeps p k fun hF => hk (hsub hF)
  reads p q hpq k hk := by
    by_cases hF : k ∈ F
    · exact h.reads p q (fun j hj => hpq (hsub hj)) hF
    · rw [h.keeps p k hF, h.keeps q k hF]
      exact hpq hk

/-- **One operation after another.** -/
theorem Confined.comp (h : Confined F op) (h' : Confined F op') :
    Confined F (fun p => op' (op p)) where
  keeps p k hk := (h'.keeps _ k hk).trans (h.keeps p k hk)
  reads p q hpq := h'.reads _ _ (h.reads p q hpq)

/-- Everywhere is no restriction. -/
theorem confined_univ (op : (ι → α) → ι → α) : Confined Set.univ op where
  keeps _ k hk := absurd (Set.mem_univ k) hk
  reads p q hpq _ _ := by
    have hsame : p = q := funext fun j => hpq (Set.mem_univ j)
    rw [hsame]

theorem confined_paint (S : Set ι) (c : α) : Confined S (paint S c) where
  keeps _ _ hk := paint_of_not_mem hk
  reads p q _ k hk := by rw [paint_of_mem hk, paint_of_mem hk]

/-- **Pictures that agree off `B` still do** after an operation that has
nothing to do with `B`, and on `B` nothing has changed. -/
theorem Confined.off {B : Set ι} (h : Confined F op) (hB : Disjoint F B)
    (hpq : ∀ k, k ∉ B → p k = q k) :
    (∀ k, k ∉ B → op p k = op q k) ∧ ∀ k ∈ B, op p k = p k := by
  have hnot : ∀ k ∈ B, k ∉ F := fun k hk hF => Set.disjoint_left.1 hB hF hk
  refine ⟨fun k hk => ?_, fun k hk => h.keeps p k (hnot k hk)⟩
  by_cases hF : k ∈ F
  · exact h.reads p q (fun j hj => hpq j fun hjB => hnot j hjB hj) hF
  · rw [h.keeps p k hF, h.keeps q k hF]
    exact hpq k hk

end Raster
