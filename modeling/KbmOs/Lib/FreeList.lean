import KbmOs.Lib.Tiling
import Mathlib.Data.List.Chain
import Mathlib.Data.List.TakeWhile
/-!
# Address-ordered free lists

The free blocks of an allocator with in-band headers, kept in address
order. Granting `r` bytes of a block cuts it in two where what is left can
be a block of its own (`granted`, `remainder`); releasing a block puts it
back between the blocks below and above it and joins it with either where
they touch (`fuse`, `fuseLast`, `release`). `Ascending` says the blocks
are in order and apart, `Separated` that no two neighbours touch.
-/

namespace FreeList

open Tiling

variable {h least r a : ℕ} {b c d : Blk} {l pre post : List Blk} {S : Set ℕ}

/-- The blocks are in address order, none reaching into the next. -/
def Ascending (h : ℕ) (l : List Blk) : Prop := l.Pairwise fun b c => b.stop h ≤ c.addr

/-- Between a block and the next there is a gap. -/
def Separated (h : ℕ) (l : List Blk) : Prop := l.IsChain fun b c => b.stop h < c.addr

/-- The part of the block that is granted: `r` bytes of payload, or the
whole of it where what is left is too small for a header and `least`
bytes. -/
def granted (h least r : ℕ) (b : Blk) : Blk :=
  if h + least ≤ b.size - r then ⟨b.addr, r⟩ else b

/-- The part that stays free, if any. -/
def remainder (h least r : ℕ) (b : Blk) : List Blk :=
  if h + least ≤ b.size - r then [⟨b.addr + h + r, b.size - r - h⟩] else []

/-- The block in front of the list, joined with the first where they
touch. -/
def fuse (h : ℕ) (b : Blk) : List Blk → List Blk
  | [] => [b]
  | c :: l => if b.stop h = c.addr then ⟨b.addr, b.size + h + c.size⟩ :: l else b :: c :: l

/-- The list behind `pre`, joined with the last of `pre` where they touch. -/
def fuseLast (h : ℕ) (pre l : List Blk) : List Blk :=
  match pre.getLast? with
  | none => l
  | some c => pre.dropLast ++ fuse h c l

/-- The blocks below the address, in an ascending list. -/
def below (a : ℕ) (l : List Blk) : List Blk := l.takeWhile fun b => decide (b.addr < a)

/-- And the ones from it on. -/
def above (a : ℕ) (l : List Blk) : List Blk := l.dropWhile fun b => decide (b.addr < a)

/-- The list with the block put back. -/
def release (h : ℕ) (b : Blk) (l : List Blk) : List Blk :=
  fuseLast h (below b.addr l) (fuse h b (above b.addr l))

/-- The block is large enough for a request, and none before it is. -/
structure FirstFit (r : ℕ) (pre : List Blk) (b : Blk) : Prop where
  fits : r ≤ b.size
  first : ∀ c ∈ pre, c.size < r

theorem fuse_nil : fuse h b [] = [b] := rfl

theorem fuse_cons : fuse h b (c :: l) =
    if b.stop h = c.addr then ⟨b.addr, b.size + h + c.size⟩ :: l else b :: c :: l := rfl

theorem fuseLast_nil : fuseLast h [] l = l := rfl

theorem fuseLast_concat : fuseLast h (pre ++ [b]) l = pre ++ fuse h b l := by
  unfold fuseLast
  rw [List.getLast?_concat, List.dropLast_concat]

/-- Some block is the first that fits, or none fits. -/
theorem firstFit_or_none (r : ℕ) : ∀ l : List Blk,
    (∃ pre b post, l = pre ++ b :: post ∧ FirstFit r pre b) ∨ ∀ b ∈ l, b.size < r
  | [] => Or.inr (by simp)
  | b :: l => by
    by_cases hb : r ≤ b.size
    · exact Or.inl ⟨[], b, l, rfl, hb, by simp⟩
    · rcases firstFit_or_none r l with ⟨pre, c, post, rfl, hfits, hfirst⟩ | hnone
      · refine Or.inl ⟨b :: pre, c, post, rfl, hfits, fun d hd => ?_⟩
        rcases List.mem_cons.1 hd with rfl | hd
        · omega
        · exact hfirst d hd
      · refine Or.inr fun d hd => ?_
        rcases List.mem_cons.1 hd with rfl | hd
        · omega
        · exact hnone d hd

/-! ## Order -/

theorem below_append_above (a : ℕ) (l : List Blk) : below a l ++ above a l = l :=
  List.takeWhile_append_dropWhile

theorem mem_below_or_above : c ∈ l ↔ c ∈ below a l ∨ c ∈ above a l := by
  rw [← List.mem_append, below_append_above]

/-- A block at its place is one more. -/
theorem mem_placed : c ∈ below a l ++ b :: above a l ↔ c ∈ b :: l := by
  rw [List.mem_append, List.mem_cons, List.mem_cons, mem_below_or_above (a := a) (l := l)]
  exact or_left_comm

theorem addr_lt_of_mem_below (hb : b ∈ below a l) : b.addr < a := by
  have := List.mem_takeWhile_imp hb
  simpa using this

/-- Above the address the blocks start at it or later. -/
theorem le_addr_of_mem_above (hl : Ascending h l) (hb : b ∈ above a l) : a ≤ b.addr := by
  unfold above at hb
  induction l with
  | nil => cases hb
  | cons c l ih =>
    have hc := List.pairwise_cons.1 hl
    rw [List.dropWhile_cons] at hb
    split at hb
    · exact ih hc.2 hb
    · rename_i hstop
      have hle : a ≤ c.addr := by simpa using hstop
      rcases List.mem_cons.1 hb with rfl | hb
      · exact hle
      · have hcb := hc.1 b hb
        unfold Blk.stop at hcb
        omega

theorem Ascending.sorted (hpos : 0 < h) (hl : Ascending h l) :
    l.Pairwise fun b c => b.addr < c.addr :=
  hl.imp fun {b c} hbc => by
    unfold Blk.stop at hbc
    omega

/-- The first block that fits is the lowest. -/
theorem FirstFit.le_addr (hfit : FirstFit r pre b)
    (hs : (pre ++ b :: post).Pairwise fun b c => b.addr < c.addr) (hd : d ∈ pre ++ b :: post)
    (hlarge : r ≤ d.size) : b.addr ≤ d.addr := by
  obtain ⟨-, hpost, -⟩ := List.pairwise_append.1 hs
  rcases List.mem_append.1 hd with hd | hd
  · exact absurd hlarge (not_le.2 (hfit.first d hd))
  · rcases List.mem_cons.1 hd with rfl | hd
    · exact le_rfl
    · exact le_of_lt ((List.pairwise_cons.1 hpost).1 d hd)

/-- A sorted list of blocks apart ascends. -/
theorem ascending_of_apart (hpos : 0 < h) (hs : l.Pairwise fun b c => b.addr < c.addr)
    (ha : l.Pairwise (Apart h)) : Ascending h l := by
  refine (hs.and ha).imp fun {b c} hbc => ?_
  obtain ⟨hlt, hapart⟩ := hbc
  unfold Apart at hapart
  unfold Blk.stop at *
  omega

/-- Where both ends of a block are where others' were, order is kept. -/
theorem Ascending.replace (hl : Ascending h (pre ++ b :: post)) (hb : b.addr ≤ c.addr)
    (hc : c.stop h ≤ b.stop h) : Ascending h (pre ++ c :: post) := by
  obtain ⟨hpre, hpost, hcross⟩ := List.pairwise_append.1 hl
  obtain ⟨hfirst, hpost⟩ := List.pairwise_cons.1 hpost
  refine List.pairwise_append.2 ⟨hpre, List.pairwise_cons.2 ⟨fun d hd => ?_, hpost⟩, ?_⟩
  · exact le_trans hc (hfirst d hd)
  · intro d hd e he
    rcases List.mem_cons.1 he with rfl | he
    · exact le_trans (hcross d hd b List.mem_cons_self) hb
    · exact hcross d hd e (List.mem_cons_of_mem _ he)

/-- Joining two neighbours keeps the order. -/
theorem Ascending.join (hl : Ascending h (pre ++ b :: c :: post)) (hd : d.addr = b.addr)
    (hstop : d.stop h = c.stop h) : Ascending h (pre ++ d :: post) := by
  obtain ⟨hpre, hpost, hcross⟩ := List.pairwise_append.1 hl
  obtain ⟨hfirst, hpost⟩ := List.pairwise_cons.1 hpost
  obtain ⟨hsecond, hpost⟩ := List.pairwise_cons.1 hpost
  refine List.pairwise_append.2 ⟨hpre, List.pairwise_cons.2 ⟨fun e he => ?_, hpost⟩, ?_⟩
  · rw [hstop]
    exact hsecond e he
  · intro e he f hf
    rcases List.mem_cons.1 hf with rfl | hf
    · rw [hd]
      exact hcross e he b List.mem_cons_self
    · exact hcross e he f (List.mem_cons_of_mem _ (List.mem_cons_of_mem _ hf))

/-- Blocks may be left out. -/
theorem Ascending.drop (hl : Ascending h (pre ++ b :: post)) : Ascending h (pre ++ post) :=
  hl.sublist (List.Sublist.append_left (List.sublist_cons_self b post) pre)

/-- What is left of a block takes its place. -/
theorem Ascending.remainder (hle : r ≤ b.size) (hl : Ascending h (pre ++ b :: post)) :
    Ascending h (pre ++ remainder h least r b ++ post) := by
  unfold FreeList.remainder
  split
  · rw [List.append_assoc]
    refine hl.replace ?_ ?_
    · dsimp only
      omega
    · unfold Blk.stop
      dsimp only
      omega
  · rw [List.append_nil]
    exact hl.drop

/-- **A block apart from all the others has its place among them.** -/
theorem Ascending.insert (hpos : 0 < h) (hl : Ascending h l) (hb : ∀ c ∈ l, Apart h b c) :
    Ascending h (below b.addr l ++ b :: above b.addr l) := by
  have hall := hl
  rw [← below_append_above b.addr l] at hall
  obtain ⟨hpre, hpost, hcross⟩ := List.pairwise_append.1 hall
  refine List.pairwise_append.2 ⟨hpre, List.pairwise_cons.2 ⟨fun c hc => ?_, hpost⟩, ?_⟩
  · have hle := le_addr_of_mem_above hl hc
    have hapart := hb c (mem_below_or_above.2 (Or.inr hc))
    unfold Apart at hapart
    unfold Blk.stop at *
    omega
  · intro c hc d hd
    rcases List.mem_cons.1 hd with rfl | hd
    · have hlt := addr_lt_of_mem_below hc
      have hapart := hb c (mem_below_or_above.2 (Or.inl hc))
      unfold Apart at hapart
      unfold Blk.stop at *
      omega
    · exact hcross c hc d hd

/-! ## Gaps -/

/-- Along the list the gaps add up: a block ends before any later one. -/
theorem separated_iff : Separated h l ↔ l.Pairwise fun b c => b.stop h < c.addr := by
  have htrans : IsTrans Blk fun b c => b.stop h < c.addr := ⟨fun b c d hbc hcd => by
    unfold Blk.stop at *
    omega⟩
  exact List.isChain_iff_pairwise

theorem Separated.sublist (hl : Separated h l) {l' : List Blk} (hsub : l'.Sublist l) :
    Separated h l' := by
  rw [separated_iff] at hl ⊢
  exact hl.sublist hsub

/-- Where both ends of a block are where others' were, the gaps stay. -/
theorem Separated.replace (hl : Separated h (pre ++ b :: post)) (hb : b.addr ≤ c.addr)
    (hc : c.stop h ≤ b.stop h) : Separated h (pre ++ c :: post) := by
  rw [separated_iff] at hl ⊢
  obtain ⟨hpre, hpost, hcross⟩ := List.pairwise_append.1 hl
  obtain ⟨hfirst, hpost⟩ := List.pairwise_cons.1 hpost
  refine List.pairwise_append.2 ⟨hpre, List.pairwise_cons.2 ⟨fun d hd => ?_, hpost⟩, ?_⟩
  · exact lt_of_le_of_lt hc (hfirst d hd)
  · intro d hd e he
    rcases List.mem_cons.1 he with rfl | he
    · exact lt_of_lt_of_le (hcross d hd b List.mem_cons_self) hb
    · exact hcross d hd e (List.mem_cons_of_mem _ he)

/-- **Granting of a listed block keeps the gaps**: what is left ends where
the block did. -/
theorem Separated.remainder (hle : r ≤ b.size) (hl : Separated h (pre ++ b :: post)) :
    Separated h (pre ++ remainder h least r b ++ post) := by
  unfold FreeList.remainder
  split
  · rw [List.append_assoc]
    refine hl.replace ?_ ?_
    · dsimp only
      omega
    · unfold Blk.stop
      dsimp only
      omega
  · rw [List.append_nil]
    exact hl.sublist (List.Sublist.append_left (List.sublist_cons_self b post) pre)

/-- **Granting of a block that was not listed** keeps them where what is
left does not end at the start of another. -/
theorem Separated.insert (hpos : 0 < h) (hle : r ≤ b.size) (hl : Separated h (pre ++ post))
    (horder : Ascending h (pre ++ b :: post))
    (hgap : h + least ≤ b.size - r → ∀ c ∈ post, b.stop h ≠ c.addr) :
    Separated h (pre ++ FreeList.remainder h least r b ++ post) := by
  unfold FreeList.remainder
  split
  · rename_i hleft
    rw [List.append_assoc]
    obtain ⟨-, hpost, hcross⟩ := List.pairwise_append.1 horder
    obtain ⟨hfirst, -⟩ := List.pairwise_cons.1 hpost
    rw [separated_iff] at hl ⊢
    obtain ⟨hpre, hpost, hlcross⟩ := List.pairwise_append.1 hl
    refine List.pairwise_append.2 ⟨hpre, List.pairwise_cons.2 ⟨fun c hc => ?_, hpost⟩, ?_⟩
    · have hne := hgap hleft c hc
      have hbc := hfirst c hc
      unfold Blk.stop at *
      dsimp only
      omega
    · intro c hc d hd
      rcases List.mem_cons.1 hd with rfl | hd
      · have hcb := hcross c hc b List.mem_cons_self
        dsimp only
        omega
      · exact hlcross c hc d hd
  · rw [List.append_nil]
    exact hl

/-- What is left of a block that ends where another starts touches it. -/
theorem not_separated_remainder (hleft : h + least ≤ b.size - r) (hc : c ∈ post)
    (hstop : b.stop h = c.addr) : ¬ Separated h (pre ++ remainder h least r b ++ post) := by
  intro hl
  unfold remainder at hl
  rw [if_pos hleft, List.append_assoc, separated_iff] at hl
  obtain ⟨-, hpost, -⟩ := List.pairwise_append.1 hl
  have htouch := (List.pairwise_cons.1 hpost).1 c hc
  unfold Blk.stop at *
  dsimp only at htouch
  omega

theorem mem_fuse (hd : d ∈ fuse h b l) : d.addr = b.addr ∨ d ∈ l := by
  cases l with
  | nil =>
    rw [fuse_nil, List.mem_singleton] at hd
    exact Or.inl (by rw [hd])
  | cons c l =>
    rw [fuse_cons] at hd
    split at hd
    · rcases List.mem_cons.1 hd with rfl | hd
      · exact Or.inl rfl
      · exact Or.inr (List.mem_cons_of_mem _ hd)
    · rcases List.mem_cons.1 hd with rfl | hd
      · exact Or.inl rfl
      · exact Or.inr hd

/-- **A block joined with the next leaves a gap on either side**, if there
was one in front of it. -/
theorem Separated.fuse (hl : Separated h (pre ++ l)) (horder : ∀ c ∈ l, b.stop h ≤ c.addr)
    (hb : ∀ c ∈ pre, c.stop h < b.addr) : Separated h (pre ++ FreeList.fuse h b l) := by
  rw [separated_iff] at hl ⊢
  obtain ⟨hpre, hpost, hcross⟩ := List.pairwise_append.1 hl
  cases l with
  | nil => exact List.pairwise_append.2 ⟨hpre, by simp [fuse_nil], by simpa [fuse_nil] using hb⟩
  | cons c l =>
    obtain ⟨hfirst, hrest⟩ := List.pairwise_cons.1 hpost
    rw [fuse_cons]
    split
    · rename_i htouch
      refine List.pairwise_append.2 ⟨hpre, List.pairwise_cons.2 ⟨fun d hd => ?_, hrest⟩, ?_⟩
      · have hcd := hfirst d hd
        unfold Blk.stop at *
        dsimp only
        omega
      · intro d hd e he
        rcases List.mem_cons.1 he with rfl | he
        · exact hb d hd
        · exact hcross d hd e (List.mem_cons_of_mem _ he)
    · rename_i hgap
      refine List.pairwise_append.2 ⟨hpre, List.pairwise_cons.2 ⟨fun d hd => ?_, hpost⟩, ?_⟩
      · have hbc := horder c List.mem_cons_self
        rcases List.mem_cons.1 hd with rfl | hd
        · omega
        · have hcd := hfirst d hd
          unfold Blk.stop at *
          omega
      · intro d hd e he
        rcases List.mem_cons.1 he with rfl | he
        · exact hb d hd
        · exact hcross d hd e he

/-- **Releasing a block keeps the gaps**, for it is joined with either
neighbour it touches. -/
theorem Separated.release (hl : Separated h l)
    (horder : Ascending h (below b.addr l ++ b :: above b.addr l)) :
    Separated h (release h b l) := by
  unfold FreeList.release
  rw [← below_append_above b.addr l] at hl
  obtain ⟨-, hpost, hcross⟩ := List.pairwise_append.1 horder
  obtain ⟨hfirst, -⟩ := List.pairwise_cons.1 hpost
  rcases List.eq_nil_or_concat (below b.addr l) with hnil | ⟨pre, c, hpre⟩
  · rw [hnil] at hl ⊢
    rw [fuseLast_nil]
    exact hl.fuse hfirst (by simp)
  · rw [List.concat_eq_append] at hpre
    rw [hpre] at hl hcross ⊢
    rw [fuseLast_concat]
    have hcb : c.stop h ≤ b.addr := hcross c (by simp) b List.mem_cons_self
    -- the blocks before `c` end before it, so before `b` as well
    have hbefore : ∀ d ∈ pre, d.stop h < c.addr := fun d hd =>
      (List.pairwise_append.1 (List.pairwise_append.1 (separated_iff.1 hl)).1).2.2 d hd c (by simp)
    have hfused : Separated h (pre ++ FreeList.fuse h b (above b.addr l)) := by
      refine Separated.fuse (hl.sublist ?_) hfirst fun d hd => ?_
      · exact List.Sublist.append_right (List.sublist_append_left pre [c]) _
      · have hdc := hbefore d hd
        unfold Blk.stop at *
        omega
    refine hfused.fuse (fun d hd => ?_) hbefore
    rcases mem_fuse hd with hdb | hd
    · rw [hdb]
      exact hcb
    · exact hcross c (by simp) d (List.mem_cons_of_mem _ hd)

/-! ## Granting -/

@[simp] theorem granted_addr (h least r : ℕ) (b : Blk) : (granted h least r b).addr = b.addr := by
  unfold granted
  split <;> rfl

/-- What is granted is enough. -/
theorem le_granted_size {least : ℕ} (hfits : r ≤ b.size) : r ≤ (granted h least r b).size := by
  unfold granted
  split
  · exact le_refl r
  · exact hfits

/-- **Granting keeps the tiling.** -/
theorem tiles_granted (hle : r ≤ b.size) (ht : Tiles h (b :: l) S) :
    Tiles h (granted h least r b :: (remainder h least r b ++ l)) S := by
  unfold granted remainder
  split
  · refine ht.split rfl rfl ?_
    unfold Blk.stop
    dsimp only
    omega
  · exact ht

/-! ## Releasing what was granted -/

/-- A list is parted at an address that lies between its two parts. -/
theorem below_above_append (hpre : ∀ c ∈ pre, c.addr < a) (hpost : ∀ c ∈ post, a ≤ c.addr) :
    below a (pre ++ post) = pre ∧ above a (pre ++ post) = post := by
  have hlow : ∀ c ∈ pre, decide (c.addr < a) = true := fun c hc => decide_eq_true (hpre c hc)
  unfold below above
  rw [List.takeWhile_append_of_pos hlow, List.dropWhile_append_of_pos hlow]
  cases post with
  | nil => simp
  | cons c post =>
    have hhigh := hpost c List.mem_cons_self
    rw [List.takeWhile_cons_of_neg (by simpa using hhigh),
      List.dropWhile_cons_of_neg (by simpa using hhigh), List.append_nil]
    exact ⟨rfl, rfl⟩

/-- A block with a gap behind it is joined with nothing. -/
theorem fuse_of_gap (hgap : ∀ c ∈ l, b.stop h ≠ c.addr) : fuse h b l = b :: l := by
  cases l with
  | nil => rfl
  | cons c l => rw [fuse_cons, if_neg (hgap c List.mem_cons_self)]

/-- Nor is one with a gap in front of it. -/
theorem fuseLast_of_gap (hgap : ∀ c ∈ pre, c.stop h ≠ b.addr) :
    fuseLast h pre (b :: post) = pre ++ b :: post := by
  rcases List.eq_nil_or_concat pre with rfl | ⟨pre, c, rfl⟩
  · rfl
  · rw [List.concat_eq_append] at hgap ⊢
    rw [fuseLast_concat, fuse_cons, if_neg (hgap c (by simp)), List.append_assoc]
    rfl

/-- **Granting and releasing** leave the block that was there, joined with
the one in front of it where they touch. -/
theorem release_granted (hpos : 0 < h) (horder : Ascending h (pre ++ b :: post)) (hle : r ≤ b.size)
    (hgap : ∀ c ∈ post, b.stop h ≠ c.addr) :
    release h (granted h least r b) (pre ++ remainder h least r b ++ post) =
      fuseLast h pre (b :: post) := by
  obtain ⟨-, hpost, hcross⟩ := List.pairwise_append.1 horder
  obtain ⟨hfirst, -⟩ := List.pairwise_cons.1 hpost
  have hlow : ∀ c ∈ pre, c.addr < b.addr := by
    intro c hc
    have hcb := hcross c hc b List.mem_cons_self
    unfold Blk.stop at hcb
    omega
  have hhigh : ∀ c ∈ remainder h least r b ++ post, b.addr ≤ c.addr := by
    intro c hc
    rcases List.mem_append.1 hc with hc | hc
    · unfold remainder at hc
      split at hc
      · rw [List.mem_singleton.1 hc]
        dsimp only
        omega
      · cases hc
    · have hbc := hfirst c hc
      unfold Blk.stop at hbc
      omega
  obtain ⟨hbelow, habove⟩ := below_above_append hlow hhigh
  unfold release
  rw [granted_addr, List.append_assoc, hbelow, habove]
  congr 1
  unfold granted remainder
  by_cases hleft : h + least ≤ b.size - r
  · -- the two parts touch, and together they are the block
    have hparts : (⟨b.addr, r⟩ : Blk).stop h = b.addr + h + r := rfl
    have hsize : r + h + (b.size - r - h) = b.size := by omega
    rw [if_pos hleft, if_pos hleft, List.singleton_append, fuse_cons, if_pos hparts, hsize]
  · rw [if_neg hleft, if_neg hleft, List.nil_append, fuse_of_gap hgap]

/-- So a coalesced list is restored. -/
theorem Separated.release_granted (hpos : 0 < h) (hl : Separated h (pre ++ b :: post))
    (hle : r ≤ b.size) :
    FreeList.release h (granted h least r b) (pre ++ FreeList.remainder h least r b ++ post) =
      pre ++ b :: post := by
  rw [separated_iff] at hl
  obtain ⟨-, hpost, hcross⟩ := List.pairwise_append.1 hl
  rw [FreeList.release_granted hpos (hl.imp le_of_lt) hle fun c hc =>
    (List.pairwise_cons.1 hpost).1 c hc |>.ne]
  exact fuseLast_of_gap fun c hc => (hcross c hc b List.mem_cons_self).ne

end FreeList
