import KbmOs.Lib.Bytes
import KbmOs.Paging.Model
/-!
# The two walkers and the walk

`paging_translate_4k` and `paging_is_mapped` are each the processor's walk,
read for a different answer: the first accepts a leaf of 4 KiB only, the
second any leaf. Their masks and shifts are the fields of an entry and the
indices of an address, one lemma for each level of the tree.
-/

namespace KbmOs

open TableWalk ByteMemory

variable {memory : PageMemory} {cr3 hhdmOffset entry v w old : Word} {level table index frame : ℕ}

/-! ## Masks and shifts -/

theorem and_addressMask (entry : Word) : (entry &&& addressMask).toNat = entryAddress entry := by
  have hmask : addressMask.toNat = 2 ^ 52 - 2 ^ 12 := rfl
  have hlow : entry.toNat % 2 ^ 52 &&& (2 ^ 52 - 2 ^ 12) = entry.toNat &&& (2 ^ 52 - 2 ^ 12) := by
    refine Nat.eq_of_testBit_eq fun i => ?_
    rw [Nat.testBit_and, Nat.testBit_and, Nat.testBit_mod_two_pow, testBit_highMask (by omega)]
    by_cases hi : i < 52 <;> simp [hi]
  rw [BitVec.toNat_and, hmask, ← hlow, and_highMask (by omega) (Nat.mod_lt _ (by omega))]
  unfold entryAddress
  omega

theorem and_pageOffsetMask (v : Word) : (v &&& pageOffsetMask).toNat = v.toNat % 0x1000 := by
  rw [BitVec.toNat_and]
  exact Nat.and_two_pow_sub_one_eq_mod v.toNat 12

/-- A mask of one bit tests it. -/
theorem and_bit_eq_zero (entry : Word) {i : ℕ} (hi : i < 64) :
    entry &&& 1 <<< i = 0 ↔ entry.getLsbD i = false := by
  have htwo : (1 <<< i : Word) = BitVec.twoPow 64 i := (BitVec.twoPow_eq 64 i).symm
  rw [htwo, BitVec.and_twoPow]
  cases entry.getLsbD i with
  | false => simp
  | true =>
    simp only [if_true, Bool.true_eq_false, iff_false]
    intro hzero
    have hbit := congrArg (·.getLsbD i) hzero
    simp [hi] at hbit

theorem and_pagePresent_eq_zero (entry : Word) :
    entry &&& pagePresent = 0 ↔ entry.getLsbD 0 = false :=
  and_bit_eq_zero entry (by omega)

theorem and_pageHuge_eq_zero (entry : Word) : entry &&& pageHuge = 0 ↔ entry.getLsbD 7 = false :=
  and_bit_eq_zero entry (by omega)

theorem shift_index (v : Word) {shift : ℕ} (hshift : 2 ^ shift = leafBytes level) :
    (v >>> shift &&& 0x1FF).toNat = levelIndex v level := by
  rw [BitVec.toNat_and, BitVec.toNat_ushiftRight, Nat.shiftRight_eq_div_pow, hshift]
  exact Nat.and_two_pow_sub_one_eq_mod _ 9

/-- **An element of a table is an entry of it.** -/
theorem elementAt_eq {pointer i : Word} (htable : pointer.toNat = table) (hindex : i.toNat = index) :
    elementAt (hhdmOffset + pointer) i = entryPointer hhdmOffset table index := by
  unfold elementAt entryPointer
  rw [BitVec.add_assoc]
  congr 1
  refine BitVec.eq_of_toNat_eq ?_
  rw [BitVec.toNat_add, BitVec.toNat_mul, BitVec.toNat_ofNat, htable, hindex]
  simp

/-- **The address stored**: the frame of the leaf, and the offset in it. -/
theorem addressMask_or_offset (entry v : Word) :
    entry &&& addressMask ||| v &&& pageOffsetMask =
      BitVec.ofNat 64 (entryAddress entry + v.toNat % 0x1000) := by
  have hlow : v.toNat % 0x1000 < 2 ^ 12 := Nat.mod_lt _ (by omega)
  have hsum := Nat.two_pow_add_eq_or_of_lt hlow (entryAddress entry / 0x1000)
  have hframe : 2 ^ 12 * (entryAddress entry / 0x1000) = entryAddress entry :=
    Nat.mul_div_cancel' (Nat.dvd_of_mod_eq_zero (entryAddress_mod entry))
  have hsize := entryAddress_lt entry
  rw [hframe] at hsum
  refine BitVec.eq_of_toNat_eq ?_
  rw [BitVec.toNat_or, and_addressMask, and_pageOffsetMask, ← hsum, BitVec.toNat_ofNat]
  exact (Nat.mod_eq_of_lt (by omega)).symm

/-! ## One level at a time -/

/-- The entry of a table on an address's way. -/
def entryOn (memory : PageMemory) (hhdmOffset v : Word) (level table : ℕ) : Word :=
  memory (entryPointer hhdmOffset table (levelIndex v level))

/-- The code reads it, from an entry one level up. -/
theorem memory_elementAt (memory : PageMemory) (hhdmOffset v entry : Word) {shift : ℕ}
    (hshift : 2 ^ shift = leafBytes level) :
    memory (elementAt (hhdmOffset + (entry &&& addressMask)) (v >>> shift &&& 0x1FF)) =
      entryOn memory hhdmOffset v level (entryAddress entry) :=
  congrArg memory (elementAt_eq (and_addressMask entry) (shift_index v hshift))

theorem memory_pml4 (memory : PageMemory) (hhdmOffset v entry : Word) :
    memory (elementAt (hhdmOffset + (entry &&& addressMask)) (v >>> 39 &&& 0x1FF)) =
      entryOn memory hhdmOffset v 3 (entryAddress entry) :=
  memory_elementAt memory hhdmOffset v entry (show 2 ^ 39 = leafBytes 3 from rfl)

theorem memory_pdpt (memory : PageMemory) (hhdmOffset v entry : Word) :
    memory (elementAt (hhdmOffset + (entry &&& addressMask)) (v >>> 30 &&& 0x1FF)) =
      entryOn memory hhdmOffset v 2 (entryAddress entry) :=
  memory_elementAt memory hhdmOffset v entry (show 2 ^ 30 = leafBytes 2 from rfl)

theorem memory_pd (memory : PageMemory) (hhdmOffset v entry : Word) :
    memory (elementAt (hhdmOffset + (entry &&& addressMask)) (v >>> 21 &&& 0x1FF)) =
      entryOn memory hhdmOffset v 1 (entryAddress entry) :=
  memory_elementAt memory hhdmOffset v entry (show 2 ^ 21 = leafBytes 1 from rfl)

theorem memory_pt (memory : PageMemory) (hhdmOffset v entry : Word) :
    memory (elementAt (hhdmOffset + (entry &&& addressMask)) (v >>> 12 &&& 0x1FF)) =
      entryOn memory hhdmOffset v 0 (entryAddress entry) :=
  memory_elementAt memory hhdmOffset v entry (show 2 ^ 12 = leafBytes 0 from rfl)

theorem pageTables_entryOn (memory : PageMemory) (hhdmOffset v : Word) (level table : ℕ) :
    pageTables memory hhdmOffset level table (levelIndex v level) =
      decodeEntry level (entryOn memory hhdmOffset v level table) :=
  rfl

theorem walk_root (memory : PageMemory) (hhdmOffset v : Word) (table : ℕ) :
    walk (pageTables memory hhdmOffset) (levelIndex v) 4 table =
      if entryOn memory hhdmOffset v 3 table &&& pagePresent = 0 then none
      else walk (pageTables memory hhdmOffset) (levelIndex v) 3
        (entryAddress (entryOn memory hhdmOffset v 3 table)) := by
  rw [walk, pageTables_entryOn, decodeEntry]
  simp only [and_pagePresent_eq_zero]
  by_cases hpresent : (entryOn memory hhdmOffset v 3 table).getLsbD 0 = false
  · rw [if_pos hpresent, if_pos hpresent]
  · rw [if_neg hpresent, if_neg hpresent, if_neg (by omega)]

/-- In a PDPT or a page directory the walk may end in a large page. -/
theorem walk_middle (memory : PageMemory) (hhdmOffset v : Word) (table : ℕ) (hlevel : 0 < level)
    (htop : level < 3) :
    walk (pageTables memory hhdmOffset) (levelIndex v) (level + 1) table =
      if entryOn memory hhdmOffset v level table &&& pagePresent = 0 then none
      else if entryOn memory hhdmOffset v level table &&& pageHuge = 0 then
        walk (pageTables memory hhdmOffset) (levelIndex v) level
          (entryAddress (entryOn memory hhdmOffset v level table))
      else some (level, entryAddress (entryOn memory hhdmOffset v level table)) := by
  rw [walk, pageTables_entryOn, decodeEntry]
  simp only [and_pagePresent_eq_zero, and_pageHuge_eq_zero]
  by_cases hpresent : (entryOn memory hhdmOffset v level table).getLsbD 0 = false
  · rw [if_pos hpresent, if_pos hpresent]
  rw [if_neg hpresent, if_neg hpresent]
  by_cases hhuge : (entryOn memory hhdmOffset v level table).getLsbD 7 = false
  · rw [if_pos hhuge, if_neg (by rintro (rfl | ⟨-, hset⟩) <;> simp_all)]
  · rw [if_neg hhuge, if_pos (Or.inr ⟨htop, Bool.eq_true_of_not_eq_false hhuge⟩)]

theorem walk_last (memory : PageMemory) (hhdmOffset v : Word) (table : ℕ) :
    walk (pageTables memory hhdmOffset) (levelIndex v) 1 table =
      if entryOn memory hhdmOffset v 0 table &&& pagePresent = 0 then none
      else some (0, entryAddress (entryOn memory hhdmOffset v 0 table)) := by
  rw [walk, pageTables_entryOn, decodeEntry]
  simp only [and_pagePresent_eq_zero]
  by_cases hpresent : (entryOn memory hhdmOffset v 0 table).getLsbD 0 = false
  · rw [if_pos hpresent, if_pos hpresent]
  · rw [if_neg hpresent, if_neg hpresent, if_pos (Or.inl trivial)]

/-- The entries an address's walk meets, if it gets that far. -/
def pml4EntryOn (memory : PageMemory) (cr3 hhdmOffset v : Word) : Word :=
  entryOn memory hhdmOffset v 3 (entryAddress cr3)

def pdptEntryOn (memory : PageMemory) (cr3 hhdmOffset v : Word) : Word :=
  entryOn memory hhdmOffset v 2 (entryAddress (pml4EntryOn memory cr3 hhdmOffset v))

def pdEntryOn (memory : PageMemory) (cr3 hhdmOffset v : Word) : Word :=
  entryOn memory hhdmOffset v 1 (entryAddress (pdptEntryOn memory cr3 hhdmOffset v))

def ptEntryOn (memory : PageMemory) (cr3 hhdmOffset v : Word) : Word :=
  entryOn memory hhdmOffset v 0 (entryAddress (pdEntryOn memory cr3 hhdmOffset v))

/-- **The walk, written out.** -/
theorem pageWalk_eq (memory : PageMemory) (cr3 hhdmOffset v : Word) :
    pageWalk memory cr3 hhdmOffset v =
      if pml4EntryOn memory cr3 hhdmOffset v &&& pagePresent = 0 then none
      else if pdptEntryOn memory cr3 hhdmOffset v &&& pagePresent = 0 then none
      else if pdptEntryOn memory cr3 hhdmOffset v &&& pageHuge = 0 then
        if pdEntryOn memory cr3 hhdmOffset v &&& pagePresent = 0 then none
        else if pdEntryOn memory cr3 hhdmOffset v &&& pageHuge = 0 then
          if ptEntryOn memory cr3 hhdmOffset v &&& pagePresent = 0 then none
          else some (0, entryAddress (ptEntryOn memory cr3 hhdmOffset v))
        else some (1, entryAddress (pdEntryOn memory cr3 hhdmOffset v))
      else some (2, entryAddress (pdptEntryOn memory cr3 hhdmOffset v)) := by
  unfold pageWalk
  rw [walk_root, walk_middle _ _ _ _ (by omega) (by omega),
    walk_middle _ _ _ _ (by omega) (by omega), walk_last]
  rfl

/-! ## The walkers -/

/-- **`paging_translate_4k` is the walk, of which it accepts a 4 KiB leaf.** -/
theorem pagingTranslate4k_eq (memory : PageMemory) (cr3 hhdmOffset v old : Word) :
    pagingTranslate4k memory cr3 hhdmOffset v (some old) =
      match pageWalk memory cr3 hhdmOffset v with
      | some (0, frame) => (true, some (BitVec.ofNat 64 (frame + v.toNat % 0x1000)))
      | _ => (false, some old) := by
  unfold pagingTranslate4k
  simp only [memory_pml4, memory_pdpt, memory_pd, memory_pt, addressMask_or_offset]
  rw [← pml4EntryOn, ← pdptEntryOn, ← pdEntryOn, ← ptEntryOn, pageWalk_eq, if_neg (by simp)]
  by_cases hpml4 : pml4EntryOn memory cr3 hhdmOffset v &&& pagePresent = 0
  · rw [if_pos hpml4, if_pos hpml4]
  rw [if_neg hpml4, if_neg hpml4]
  by_cases hpdpt : pdptEntryOn memory cr3 hhdmOffset v &&& pagePresent = 0
  · rw [if_pos (Or.inl hpdpt), if_pos hpdpt]
  by_cases hlarge : pdptEntryOn memory cr3 hhdmOffset v &&& pageHuge = 0
  · rw [if_neg (not_or.2 ⟨hpdpt, not_not.2 hlarge⟩), if_neg hpdpt, if_pos hlarge]
    by_cases hpd : pdEntryOn memory cr3 hhdmOffset v &&& pagePresent = 0
    · rw [if_pos (Or.inl hpd), if_pos hpd]
    by_cases hhuge : pdEntryOn memory cr3 hhdmOffset v &&& pageHuge = 0
    · rw [if_neg (not_or.2 ⟨hpd, not_not.2 hhuge⟩), if_neg hpd, if_pos hhuge]
      by_cases hpt : ptEntryOn memory cr3 hhdmOffset v &&& pagePresent = 0
      · rw [if_pos hpt, if_pos hpt]
      · rw [if_neg hpt, if_neg hpt]
        rfl
    · rw [if_pos (Or.inr hhuge), if_neg hpd, if_neg hhuge]
      rfl
  · rw [if_pos (Or.inr hlarge), if_neg hpdpt, if_neg hlarge]
    rfl

/-- **`paging_is_mapped` is the walk, of which it accepts every leaf.** -/
theorem pagingIsMapped_eq (memory : PageMemory) (cr3 hhdmOffset v : Word) :
    pagingIsMapped memory cr3 hhdmOffset v = (pageWalk memory cr3 hhdmOffset v).isSome := by
  unfold pagingIsMapped
  simp only [memory_pml4, memory_pdpt, memory_pd, memory_pt]
  rw [← pml4EntryOn, ← pdptEntryOn, ← pdEntryOn, ← ptEntryOn, pageWalk_eq]
  split
  · rfl
  split
  · rfl
  by_cases hlarge : pdptEntryOn memory cr3 hhdmOffset v &&& pageHuge = 0
  · rw [if_neg (not_not.2 hlarge), if_pos hlarge]
    split
    · rfl
    by_cases hhuge : pdEntryOn memory cr3 hhdmOffset v &&& pageHuge = 0
    · rw [if_neg (not_not.2 hhuge), if_pos hhuge]
      by_cases hpt : ptEntryOn memory cr3 hhdmOffset v &&& pagePresent = 0
      · rw [if_pos hpt, decide_eq_false (not_not.2 hpt)]
        rfl
      · rw [if_neg hpt, decide_eq_true hpt]
        rfl
    · rw [if_pos hhuge, if_neg hhuge]
      rfl
  · rw [if_pos hlarge, if_neg hlarge]
    rfl

/-- An address is translated to the frame its walk ends in, or not at all. -/
theorem translate_or_not (memory : PageMemory) (cr3 hhdmOffset v old : Word) :
    (∃ frame, pageWalk memory cr3 hhdmOffset v = some (0, frame) ∧
      pagingTranslate4k memory cr3 hhdmOffset v (some old) =
        (true, some (BitVec.ofNat 64 (frame + v.toNat % 0x1000)))) ∨
    (∀ frame, pageWalk memory cr3 hhdmOffset v ≠ some (0, frame)) ∧
      pagingTranslate4k memory cr3 hhdmOffset v (some old) = (false, some old) := by
  rw [pagingTranslate4k_eq]
  match pageWalk memory cr3 hhdmOffset v with
  | none => exact Or.inr ⟨fun frame h => (by cases h), rfl⟩
  | some (0, frame) => exact Or.inl ⟨frame, rfl, rfl⟩
  | some (level + 1, frame) => exact Or.inr ⟨fun frame h => (by cases h), rfl⟩

/-- **The walkers and the walk agree.** For every memory, CR3, HHDM offset
and address: `paging_translate_4k` accepts exactly the walks that end in a
4 KiB leaf and stores the leaf's frame with the offset in it, or leaves the
output as it was; `paging_is_mapped` accepts exactly the walks that end in
a leaf. So the first implies the second, the two differ on the addresses of
large pages and nowhere else, and on one page of 4 KiB the verdicts are the
same and the results differ by the offset only. -/
theorem page_walkers_refine_walk (memory : PageMemory) (cr3 hhdmOffset v old : Word) :
    (∀ frame, pageWalk memory cr3 hhdmOffset v = some (0, frame) →
      pagingTranslate4k memory cr3 hhdmOffset v (some old) =
        (true, some (BitVec.ofNat 64 (frame + v.toNat % 0x1000)))) ∧
    ((∀ frame, pageWalk memory cr3 hhdmOffset v ≠ some (0, frame)) →
      pagingTranslate4k memory cr3 hhdmOffset v (some old) = (false, some old)) ∧
    pagingIsMapped memory cr3 hhdmOffset v = (pageWalk memory cr3 hhdmOffset v).isSome ∧
    ((pagingTranslate4k memory cr3 hhdmOffset v (some old)).1 = true →
      pagingIsMapped memory cr3 hhdmOffset v = true) ∧
    ((pagingTranslate4k memory cr3 hhdmOffset v (some old)).1 ≠
        pagingIsMapped memory cr3 hhdmOffset v ↔
      ∃ level frame, 0 < level ∧ pageWalk memory cr3 hhdmOffset v = some (level, frame)) ∧
    ∀ w : Word, w.toNat / 0x1000 = v.toNat / 0x1000 →
      pagingIsMapped memory cr3 hhdmOffset w = pagingIsMapped memory cr3 hhdmOffset v ∧
      (pagingTranslate4k memory cr3 hhdmOffset w (some old)).1 =
        (pagingTranslate4k memory cr3 hhdmOffset v (some old)).1 ∧
      ((pagingTranslate4k memory cr3 hhdmOffset v (some old)).1 = true →
        ∃ frame, frame % 0x1000 = 0 ∧ frame < 2 ^ 52 ∧
          pagingTranslate4k memory cr3 hhdmOffset v (some old) =
            (true, some (BitVec.ofNat 64 (frame + v.toNat % 0x1000))) ∧
          pagingTranslate4k memory cr3 hhdmOffset w (some old) =
            (true, some (BitVec.ofNat 64 (frame + w.toNat % 0x1000)))) := by
  have hmapped := pagingIsMapped_eq memory cr3 hhdmOffset v
  refine ⟨fun frame hwalk => ?_, fun hother => ?_, hmapped, fun htranslated => ?_, ?_,
    fun w hpage => ?_⟩
  · rw [pagingTranslate4k_eq, hwalk]
    rfl
  · obtain ⟨frame, hwalk, -⟩ | ⟨-, hfailed⟩ := translate_or_not memory cr3 hhdmOffset v old
    · exact absurd hwalk (hother frame)
    · exact hfailed
  · obtain ⟨frame, hwalk, -⟩ | ⟨-, hfailed⟩ := translate_or_not memory cr3 hhdmOffset v old
    · rw [hmapped, hwalk]
      rfl
    · rw [hfailed] at htranslated
      cases htranslated
  · rw [pagingTranslate4k_eq, hmapped]
    match pageWalk memory cr3 hhdmOffset v with
    | none => simp
    | some (0, frame) => simp
    | some (level + 1, frame) => simp
  · have hsame : pageWalk memory cr3 hhdmOffset w = pageWalk memory cr3 hhdmOffset v :=
      pageWalk_congr hpage
    rw [pagingIsMapped_eq, hmapped, pagingTranslate4k_eq, pagingTranslate4k_eq, hsame]
    obtain ⟨frame, hwalk, -⟩ | ⟨hother, -⟩ := translate_or_not memory cr3 hhdmOffset v old
    · rw [hwalk]
      obtain ⟨hframe, hsize⟩ := pageWalk_frame hwalk
      exact ⟨rfl, rfl, fun _ => ⟨frame, hframe, hsize, rfl, rfl⟩⟩
    · match hend : pageWalk memory cr3 hhdmOffset v with
      | none => simp
      | some (0, frame) => exact absurd hend (hother frame)
      | some (level + 1, frame) => simp

end KbmOs
