import Mathlib.Data.List.Pairwise
import Mathlib.Data.Set.Card
import Mathlib.Order.Interval.Finset.Nat
/-!
# Blocks that tile a region

An allocator that keeps its bookkeeping in band divides the memory it
owns into blocks, each a header of `h` bytes followed by a payload. What
holds of them together is that they tile that memory: no two of them
overlap and every byte of the region is in one (`Tiles`). Splitting a
block, joining two adjacent ones and bringing in a fresh one each keep the
tiling, whatever order the blocks are listed in. The sizes of the blocks,
headers included, add up to that of the region (`Tiles.encard`).
-/

namespace Tiling

/-- A block: its header's address and the size of its payload. -/
structure Blk where
  addr : ℕ
  size : ℕ
deriving DecidableEq, Repr

/-- One past the block's last byte, with a header of `h` bytes. -/
def Blk.stop (h : ℕ) (b : Blk) : ℕ := b.addr + h + b.size

/-- The byte at `x` is in the block, header included. -/
def Blk.Holds (h : ℕ) (b : Blk) (x : ℕ) : Prop := b.addr ≤ x ∧ x < b.stop h

/-- Neither block reaches into the other. -/
def Apart (h : ℕ) (b c : Blk) : Prop := b.stop h ≤ c.addr ∨ c.stop h ≤ b.addr

/-- The blocks of `l` tile the region `S`. -/
structure Tiles (h : ℕ) (l : List Blk) (S : Set ℕ) : Prop where
  /-- No byte is in two blocks. -/
  apart : l.Pairwise (Apart h)
  /-- The bytes of the region are those of the blocks. -/
  cover : ∀ x, x ∈ S ↔ ∃ b ∈ l, b.Holds h x

variable {h : ℕ} {l l' : List Blk} {S : Set ℕ} {b c d : Blk} {x : ℕ}

instance : Std.Symm (Apart h) := ⟨fun _ _ => Or.symm⟩

/-- Blocks apart share no byte. -/
theorem Apart.not_holds (hbc : Apart h b c) (hx : b.Holds h x) : ¬ c.Holds h x := by
  unfold Apart at hbc
  unfold Blk.Holds at hx ⊢
  omega

/-- With a header, a block holds its own first byte. -/
theorem Blk.holds_addr (hpos : 0 < h) (b : Blk) : b.Holds h b.addr := by
  unfold Blk.Holds Blk.stop
  omega

/-- A block has as many bytes as its header and its payload. -/
theorem Blk.encard_holds (b : Blk) : {x | b.Holds h x}.encard = (h + b.size : ℕ) := by
  have hico : {x | b.Holds h x} = Finset.Ico b.addr (b.stop h) := by
    rw [Finset.coe_Ico]
    rfl
  rw [hico, Set.encard_coe_eq_coe_finsetCard, Nat.card_Ico]
  unfold Blk.stop
  congr 1
  omega

/-- With a header, two blocks that share no byte are apart. -/
theorem apart_of_not_holds (hpos : 0 < h) (hbc : ∀ x, b.Holds h x → ¬ c.Holds h x) :
    Apart h b c := by
  have hb := hbc b.addr
  have hc := hbc c.addr
  unfold Apart
  unfold Blk.Holds Blk.stop at *
  omega

namespace Tiles

/-- Distinct blocks of a tiling are apart. -/
theorem apart_of_mem (ht : Tiles h l S) (hb : b ∈ l) (hc : c ∈ l) (hne : b ≠ c) : Apart h b c :=
  ht.apart.forall hb hc hne

/-- A block of a tiling lies in its region. -/
theorem mem_of_holds (ht : Tiles h l S) (hb : b ∈ l) (hx : b.Holds h x) : x ∈ S :=
  (ht.cover x).2 ⟨b, hb, hx⟩

/-- **A tiling is a set of blocks**: it does not depend on their order. -/
theorem perm (hp : l.Perm l') (ht : Tiles h l S) : Tiles h l' S where
  apart := (hp.pairwise_iff Or.symm).1 ht.apart
  cover x := by
    rw [ht.cover x]
    exact exists_congr fun b => and_congr_left fun _ => hp.mem_iff

/-- **Splitting a block.** Two blocks, one from where the old one starts
and one up to where it stops, take its place. -/
theorem split (ht : Tiles h (b :: l) S) (hc : c.addr = b.addr) (hcd : c.stop h = d.addr)
    (hd : d.stop h = b.stop h) : Tiles h (c :: d :: l) S where
  apart := by
    have hb := List.pairwise_cons.1 ht.apart
    have hle : d.addr ≤ d.stop h := by unfold Blk.stop; omega
    have hle' : c.addr ≤ c.stop h := by unfold Blk.stop; omega
    refine List.pairwise_cons.2 ⟨fun e he => ?_, List.pairwise_cons.2 ⟨fun e he => ?_, hb.2⟩⟩
    · rcases List.mem_cons.1 he with rfl | he
      · exact Or.inl (le_of_eq hcd)
      · have := hb.1 e he
        unfold Apart at this ⊢
        omega
    · have := hb.1 e he
      unfold Apart at this ⊢
      omega
  cover x := by
    rw [ht.cover x]
    have hle : d.addr ≤ d.stop h := by unfold Blk.stop; omega
    have hle' : c.addr ≤ c.stop h := by unfold Blk.stop; omega
    have hiff : b.Holds h x ↔ c.Holds h x ∨ d.Holds h x := by
      unfold Blk.Holds
      omega
    simp only [List.mem_cons, exists_eq_or_imp]
    rw [hiff, or_assoc]

/-- **Joining two blocks.** One block takes the place of two adjacent
ones. -/
theorem join (hpos : 0 < h) (ht : Tiles h (c :: d :: l) S) (hc : b.addr = c.addr)
    (hcd : c.stop h = d.addr) (hd : b.stop h = d.stop h) : Tiles h (b :: l) S where
  apart := by
    have hc' := List.pairwise_cons.1 ht.apart
    have hd' := List.pairwise_cons.1 hc'.2
    refine List.pairwise_cons.2 ⟨fun e he => ?_, hd'.2⟩
    have h1 := hc'.1 e (List.mem_cons_of_mem _ he)
    have h2 := hd'.1 e he
    -- no room is left for `e` between `c` and `d`
    have hroom : e.addr < e.stop h := by unfold Blk.stop; omega
    unfold Apart at h1 h2 ⊢
    omega
  cover x := by
    rw [ht.cover x]
    have hle : d.addr ≤ d.stop h := by unfold Blk.stop; omega
    have hle' : c.addr ≤ c.stop h := by unfold Blk.stop; omega
    have hiff : b.Holds h x ↔ c.Holds h x ∨ d.Holds h x := by
      unfold Blk.Holds
      omega
    simp only [List.mem_cons, exists_eq_or_imp]
    rw [hiff, or_assoc]

/-- **A fresh block.** A block clear of the region extends the tiling. -/
theorem insert (hpos : 0 < h) (ht : Tiles h l S) (hfresh : ∀ x, b.Holds h x → x ∉ S) :
    Tiles h (b :: l) ({x | b.Holds h x} ∪ S) where
  apart := List.pairwise_cons.2 ⟨fun _ hc => apart_of_not_holds hpos fun x hx hcx =>
    hfresh x hx (ht.mem_of_holds hc hcx), ht.apart⟩
  cover x := by
    simp only [Set.mem_union, Set.mem_ofPred_eq, List.mem_cons, exists_eq_or_imp]
    rw [ht.cover x]

/-- **One block less.** The others tile what is left. -/
theorem erase (ht : Tiles h (b :: l) S) : Tiles h l (S \ {x | b.Holds h x}) where
  apart := (List.pairwise_cons.1 ht.apart).2
  cover x := by
    have hb := (List.pairwise_cons.1 ht.apart).1
    rw [Set.mem_sdiff, Set.mem_ofPred_eq, ht.cover x]
    simp only [List.mem_cons, exists_eq_or_imp]
    constructor
    · rintro ⟨hx | hx, hno⟩
      · exact absurd hx hno
      · exact hx
    · rintro ⟨c, hc, hx⟩
      exact ⟨Or.inr ⟨c, hc, hx⟩, fun hbx => (hb c hc).not_holds hbx hx⟩

/-- **The blocks add up to the region.** -/
theorem encard (ht : Tiles h l S) : S.encard = (l.map fun b => h + b.size).sum := by
  induction l generalizing S with
  | nil =>
    have hempty : S = ∅ := Set.eq_empty_iff_forall_notMem.2 fun x hx => by
      obtain ⟨b, hb, -⟩ := (ht.cover x).1 hx
      cases hb
    rw [hempty, Set.encard_empty]
    rfl
  | cons b l ih =>
    have hsub : {x | b.Holds h x} ⊆ S := fun x hx => ht.mem_of_holds List.mem_cons_self hx
    rw [← Set.union_sdiff_cancel hsub, Set.encard_union_eq Set.disjoint_sdiff_right, ih ht.erase,
      b.encard_holds, List.map_cons, List.sum_cons]
    exact (Nat.cast_add _ _).symm

end Tiles

end Tiling
