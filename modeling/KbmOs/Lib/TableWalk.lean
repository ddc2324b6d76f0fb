import Mathlib.Data.Nat.Notation
/-!
# Walks down a tree of tables

A translation tree keeps its nodes as tables in memory: an entry of a table
is absent, leads to a table one level down, or is a leaf. A walk follows
one index at each level from the root until it meets an entry that is no
table. It reads the entries of the tables it visits at its own indices and
nothing else, so two trees that agree there give it the same answer
(`walk_congr`).
-/

namespace TableWalk

/-- What stands in an entry. -/
inductive Entry (τ α : Type)
  | absent
  | table (t : τ)
  | leaf (a : α)

/-- The entry of a table at an index; its meaning depends on the level. -/
abbrev Tables (τ ι α : Type) := ℕ → τ → ι → Entry τ α

variable {τ ι α : Type}

/-- **The walk** from a table with `n` levels, this one included: the leaf
it ends in, and how many levels were left below. -/
def walk (read : Tables τ ι α) (index : ℕ → ι) : ℕ → τ → Option (ℕ × α)
  | 0, _ => none
  | n + 1, t =>
    match read n t (index n) with
    | .absent => none
    | .table t' => walk read index n t'
    | .leaf a => some (n, a)

/-- The walk from `t` with `n` levels reads the table `u`, below which `k`
levels are left. -/
inductive Visits (read : Tables τ ι α) (index : ℕ → ι) : ℕ → τ → ℕ → τ → Prop
  | here (n : ℕ) (t : τ) : Visits read index (n + 1) t n t
  | down {n k : ℕ} {t t' u : τ} (hentry : read n t (index n) = .table t')
      (hbelow : Visits read index n t' k u) : Visits read index (n + 1) t k u

variable {read read' : Tables τ ι α} {index : ℕ → ι} {n k : ℕ} {t t' u : τ} {a : α}

theorem walk_absent (h : read n t (index n) = .absent) : walk read index (n + 1) t = none := by
  rw [walk, h]

theorem walk_table (h : read n t (index n) = .table t') :
    walk read index (n + 1) t = walk read index n t' := by
  rw [walk, h]

theorem walk_leaf (h : read n t (index n) = .leaf a) : walk read index (n + 1) t = some (n, a) := by
  rw [walk, h]

/-- The leaf of a walk stands in a table it reads. -/
theorem exists_leaf (h : walk read index n t = some (k, a)) :
    ∃ u, Visits read index n t k u ∧ read k u (index k) = .leaf a := by
  induction n generalizing t with
  | zero => cases h
  | succ n ih =>
    cases hentry : read n t (index n) with
    | absent =>
      rw [walk_absent hentry] at h
      cases h
    | table t' =>
      rw [walk_table hentry] at h
      obtain ⟨u, hu, hleaf⟩ := ih h
      exact ⟨u, .down hentry hu, hleaf⟩
    | leaf b =>
      rw [walk_leaf hentry] at h
      cases h
      exact ⟨t, .here _ t, hentry⟩

/-- **A walk depends on the entries it reads only.** -/
theorem walk_congr
    (h : ∀ k u, Visits read index n t k u → read' k u (index k) = read k u (index k)) :
    walk read' index n t = walk read index n t := by
  induction n generalizing t with
  | zero => rfl
  | succ n ih =>
    have hhere := h n t (.here n t)
    cases hentry : read n t (index n) with
    | absent => rw [walk_absent hentry, walk_absent (hhere.trans hentry)]
    | table t' =>
      rw [walk_table hentry, walk_table (hhere.trans hentry)]
      exact ih fun k u hu => h k u (.down hentry hu)
    | leaf a => rw [walk_leaf hentry, walk_leaf (hhere.trans hentry)]

/-- And so do the tables it reads. -/
theorem Visits.congr
    (h : ∀ k u, Visits read index n t k u → read' k u (index k) = read k u (index k))
    (hu : Visits read' index n t k u) : Visits read index n t k u := by
  induction hu with
  | here n t => exact .here n t
  | @down n k t t' u hentry _ ih =>
    have hold : read n t (index n) = .table t' := (h n t (.here n t)).symm.trans hentry
    exact .down hold (ih fun k u hu => h k u (.down hold hu))

/-- **The rule for the tables of a walk**: what holds of the root, and passes
on to the table an entry on the way leads to, holds of every table read. -/
theorem Visits.invariant {P : ℕ → τ → Prop} (hroot : P n t)
    (hentry : ∀ k u t', P (k + 1) u → read (k + 1) u (index (k + 1)) = .table t' → P k t')
    (hu : Visits read index (n + 1) t k u) : P k u := by
  generalize hlevels : n + 1 = m at hu
  induction hu generalizing n with
  | here m t =>
    cases hlevels
    exact hroot
  | @down m k t t' u htable hbelow ih =>
    cases hlevels
    cases m with
    | zero => cases hbelow
    | succ m => exact ih (hentry m t t' hroot htable) rfl

end TableWalk
