import Mathlib.Data.List.Pairwise
import Mathlib.Data.Finset.Card
import Mathlib.Data.Finset.Range
/-!
# Singly linked lists in memory

A linked list is a set of nodes and a successor function. `Seg next l p`
says that the nodes of `l` are linked in order and the last one leads to
`p`; the whole list ends at `0`. A search that walks the list keeping the
node before the current one is `walk`; where the nodes are linked it stops
at the first node that satisfies its test (`walk_eq`).
-/

namespace LinkedList

/-- The nodes of `l` are linked in order, and the last one leads to `p`. -/
def Seg (next : ℕ → ℕ) : List ℕ → ℕ → Prop
  | [], _ => True
  | a :: l, p => next a = l.headD p ∧ Seg next l p

/-- The walk of a list with the node before the current one in hand: it
ends at `0` or at the first node that satisfies `stop`, and runs out after
as many nodes as its first argument. -/
def walk (next : ℕ → ℕ) (stop : ℕ → Bool) : ℕ → ℕ → ℕ → Option (ℕ × ℕ)
  | 0, _, _ => none
  | n + 1, previous, current =>
    if current ≠ 0 ∧ stop current = false then walk next stop n current (next current)
    else some (previous, current)

variable {next next' : ℕ → ℕ} {l l₁ l₂ : List ℕ} {a p : ℕ}

@[simp] theorem seg_nil (next : ℕ → ℕ) (p : ℕ) : Seg next [] p := trivial

theorem seg_cons : Seg next (a :: l) p ↔ next a = l.headD p ∧ Seg next l p := Iff.rfl

/-- **Two segments in a row.** The first leads to the head of the second. -/
theorem seg_append : Seg next (l₁ ++ l₂) p ↔ Seg next l₁ (l₂.headD p) ∧ Seg next l₂ p := by
  induction l₁ with
  | nil => simp
  | cons a l ih =>
    have hhead : (l ++ l₂).headD p = l.headD (l₂.headD p) := by cases l <;> simp
    rw [List.cons_append, seg_cons, seg_cons, ih, hhead, and_assoc]

/-- Appending a node links the last one to it. -/
theorem seg_concat : Seg next (l ++ [a]) p ↔ Seg next l a ∧ next a = p := by
  rw [seg_append]
  simp [seg_cons]

/-- A segment reads the successors of its own nodes only. -/
theorem Seg.congr (h : ∀ b ∈ l, next' b = next b) (hs : Seg next l p) : Seg next' l p := by
  induction l with
  | nil => trivial
  | cons a l ih =>
    exact ⟨(h a List.mem_cons_self).trans hs.1,
      ih (fun b hb => h b (List.mem_cons_of_mem _ hb)) hs.2⟩

/-- **A list is what its head and links say.** -/
theorem Seg.unique : ∀ {l l' : List ℕ}, (∀ b ∈ l, b ≠ 0) → (∀ b ∈ l', b ≠ 0) →
    l.headD 0 = l'.headD 0 → Seg next l 0 → Seg next l' 0 → l = l'
  | [], [], _, _, _, _, _ => rfl
  | [], b :: l', _, hl', hhead, _, _ => absurd hhead.symm (hl' b List.mem_cons_self)
  | b :: l, [], hl, _, hhead, _, _ => absurd hhead (hl b List.mem_cons_self)
  | b :: l, b' :: l', hl, hl', hhead, hs, hs' => by
    obtain rfl : b = b' := hhead
    have htail := Seg.unique (fun d hd => hl d (List.mem_cons_of_mem _ hd))
      (fun d hd => hl' d (List.mem_cons_of_mem _ hd)) (hs.1.symm.trans hs'.1) hs.2 hs'.2
    rw [htail]

/-- **What a walk finds.** From a list whose nodes are linked, none of
`l₁` satisfying the test and the head of `l₂` satisfying it, the walk ends
at the head of `l₂` with the last of `l₁` in hand. -/
theorem walk_eq {stop : ℕ → Bool} (hstop : ∀ b, l₂.head? = some b → stop b = true)
    (hne : ∀ b ∈ l₁ ++ l₂, b ≠ 0) :
    ∀ (n previous : ℕ), l₁.length < n → (∀ b ∈ l₁, stop b = false) → Seg next (l₁ ++ l₂) 0 →
      walk next stop n previous ((l₁ ++ l₂).headD 0) = some (l₁.getLastD previous, l₂.headD 0) := by
  induction l₁ with
  | nil =>
    intro n previous hn _ _
    obtain ⟨n, rfl⟩ := Nat.exists_eq_succ_of_ne_zero (by omega : n ≠ 0)
    cases l₂ with
    | nil => simp [walk]
    | cons b l => simp [walk, hstop b rfl]
  | cons a l ih =>
    intro n previous hn hpass hs
    obtain ⟨n, rfl⟩ := Nat.exists_eq_succ_of_ne_zero (by omega : n ≠ 0)
    have ha : a ≠ 0 := hne a (by simp)
    have hstep := ih (fun b hb => hne b (List.mem_cons_of_mem _ hb)) n a
      (by simpa using hn) (fun b hb => hpass b (List.mem_cons_of_mem _ hb)) hs.2
    have hnext : next a = (l ++ l₂).headD 0 := hs.1
    rw [List.cons_append, List.headD_cons, walk, if_pos ⟨ha, hpass a (by simp)⟩, hnext, hstep,
      List.getLastD_cons]

/-- A strictly ascending list of numbers below `n` has at most `n` of
them. -/
theorem length_le_of_pairwise_lt {n : ℕ} (hs : l.Pairwise (· < ·)) (hn : ∀ b ∈ l, b < n) :
    l.length ≤ n := by
  have hnodup : l.Nodup := hs.imp fun h => ne_of_lt h
  rw [← List.toFinset_card_of_nodup hnodup, ← Finset.card_range n]
  exact Finset.card_le_card fun b hb => Finset.mem_range.2 (hn b (List.mem_toFinset.1 hb))

end LinkedList
