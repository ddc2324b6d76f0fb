import KbmOs.Pmm.Init
import Mathlib.Logic.Relation
/-!
# Runs of the frame allocator

What `pmm_init` leaves satisfies `PmmInv`, and every call of
`pmm_allocate_frame` and `pmm_free_frame` that returns keeps it, whatever
address is freed. So over a whole run the bitmaps refine the frame table:
each call does to the table what the abstract operation does, and panics
exactly where that one is undefined.
-/

namespace KbmOs

open ByteMemory PackedBits Relation

variable {entries : List MemmapEntry} {hhdm i j a : ℕ} {m : Mem} {s₀ s s' : Kernel}

/-- The primary bitmap's pages are storage. -/
theorem Initialised.storageFrame (hs : Initialised entries hhdm m s) (hi : PrimaryStorage s i) :
    StorageFrame s i := by
  have hnext := hs.next
  exact ⟨hi.1, by have := hi.2; omega⟩

/-- **Storage is reserved.** -/
theorem Initialised.reserved (hs : Initialised entries hhdm m s) (hi : i < s.frameCount)
    (hst : StorageFrame s i) : frameState s i = .reserved := by
  have hprim : primaryBit s i ≠ false := fun h => ((hs.primary i hi).1 h).2 hst
  unfold frameState
  rw [if_neg hprim, hs.owner i hi]
  rfl

/-- **`pmm_init` leaves a state of the invariant.** -/
theorem Initialised.pmmInv (h : MapSane entries) (hs : Initialised entries hhdm m s) : PmmInv s := by
  obtain ⟨e, hfirst, -, hend, hbase⟩ := hs.range
  obtain ⟨hmem, hu⟩ := hfirst.mem
  have hmap := h.noWrap.mapFrames_lt
  have hlt := h.noWrap.endFrame_lt hmem hu
  have hroom := hs.room
  have hnext := hs.next
  have hcount := hs.frameCount
  have hbytes := hs.byteCount
  refine {
    ready := by rw [hs.ready]; exact one_ne_zero
    bits := ?_
    frames := by rw [hcount]; exact lt_of_le_of_lt (Nat.le_add_right _ _) hmap
    bytes := ?_
    apart := fun j k hj hk => ?_
    storage := by omega
    unowned := fun i hi _ => hs.owner i hi
    kept := fun i hi hst => hs.reserved hi (hs.storageFrame hst) }
  · rw [hcount, hbytes]
    unfold mapBytes
    omega
  · rw [hbytes]
    unfold mapBytes
    omega
  · have hfits := hs.fits
    have hown : s.ownershipBitmapPhysicalAddress = (e.firstFrame + s.bitmapPageCount) * 0x1000 := by
      rw [hnext, hbase]
      omega
    rw [hs.pointer, hs.ownershipPointer, hown, hbase]
    exact bitmapAddr_apart hfits (by lia) hj hk

/-- After `pmm_init` no frame is given out. -/
theorem Initialised.not_owned (h : MapSane entries) (hs : Initialised entries hhdm m s) :
    ¬ OwnedAddress s a := by
  rintro ⟨-, hlt, how⟩
  have howner := ((hs.pmmInv h).ownerBit_iff hlt).1 how
  rw [hs.owner _ hlt] at howner
  cases howner

/-- And a frame that is not reserved is usable. -/
theorem Initialised.usable (hs : Initialised entries hhdm m s) (hi : i < s.frameCount)
    (hne : frameState s i ≠ .reserved) : ∃ e ∈ entries, e.Usable ∧ e.HasFrame i := by
  by_cases hfree : primaryBit s i = false
  · exact ((hs.primary i hi).1 hfree).1
  · refine absurd ?_ hne
    unfold frameState
    rw [if_neg hfree, hs.owner i hi]
    rfl

/-! ## The steps -/

/-- A call that returns takes one state to the next. -/
inductive PmmStep : Kernel → Kernel → Prop
  | allocate (t t' : Kernel) (a : ℕ) (h : pmmAllocateFrame.run t = .ok a t') : PmmStep t t'
  | free (t t' : Kernel) (a : ℕ) (h : (pmmFreeFrame a).run t = .ok () t') : PmmStep t t'

/-- What a call may change: one frame, from free to owned or back. -/
theorem PmmStep.cases (hs : PmmInv s) (h : PmmStep s s') :
    (∃ i, LowestFree s i ∧ s' = claimFrame s i) ∨
    ∃ a, OwnedAddress s a ∧ s' = releaseFrame s (a / 0x1000) := by
  cases h with
  | allocate a hrun =>
    obtain ⟨i, hi, -, rfl⟩ := of_pmmAllocateFrame hs hrun
    exact Or.inl ⟨i, hi, rfl⟩
  | free a hrun =>
    obtain ⟨ha, rfl⟩ := of_pmmFreeFrame hs hrun
    exact Or.inr ⟨a, ha, rfl⟩

theorem PmmStep.pmmInv (hs : PmmInv s) (h : PmmStep s s') : PmmInv s' := by
  rcases h.cases hs with ⟨i, hi, rfl⟩ | ⟨a, ha, rfl⟩
  · exact hs.claim hi.lt hi.free
  · exact hs.release ha.2.1 ha.2.2

/-- A frame given out was free, so no other becomes reserved or ceases to be. -/
theorem reserved_claimFrame (hs : PmmInv s) (hi : i < s.frameCount) (hfree : frameState s i = .free)
    (hj : j < s.frameCount) :
    frameState (claimFrame s i) j = .reserved ↔ frameState s j = .reserved := by
  rw [frameState_claimFrame hs hi hj]
  split
  · rename_i hij
    simp [hij, hfree]
  · rfl

theorem reserved_releaseFrame (hs : PmmInv s) (hi : i < s.frameCount)
    (how : frameState s i = .owned) (hj : j < s.frameCount) :
    frameState (releaseFrame s i) j = .reserved ↔ frameState s j = .reserved := by
  rw [frameState_releaseFrame hs hi hj]
  split
  · rename_i hij
    simp [hij, how]
  · rfl

/-- A call neither reserves a frame nor gives a reserved one out. -/
theorem PmmStep.reserved (hs : PmmInv s) (h : PmmStep s s') :
    s'.frameCount = s.frameCount ∧
    ∀ i, i < s.frameCount → (frameState s' i = .reserved ↔ frameState s i = .reserved) := by
  rcases h.cases hs with ⟨j, hj, rfl⟩ | ⟨a, ha, rfl⟩
  · exact ⟨rfl, fun i hi => reserved_claimFrame hs hj.lt hj.free hi⟩
  · exact ⟨rfl, fun i hi => reserved_releaseFrame hs ha.2.1 ha.2.2 hi⟩

/-- **Every state of a run satisfies the invariant and has the reserved
frames it began with.** -/
theorem pmm_run (hs : PmmInv s₀) (hrun : ReflTransGen PmmStep s₀ s) :
    PmmInv s ∧ s.frameCount = s₀.frameCount ∧
    ∀ i, i < s₀.frameCount → (frameState s i = .reserved ↔ frameState s₀ i = .reserved) := by
  induction hrun with
  | refl => exact ⟨hs, rfl, fun _ _ => Iff.rfl⟩
  | tail _ hstep ih =>
    obtain ⟨hinv, hcount, hreserved⟩ := ih
    obtain ⟨hcount', hreserved'⟩ := hstep.reserved hinv
    refine ⟨hstep.pmmInv hinv, hcount'.trans hcount, fun i hi => ?_⟩
    exact (hreserved' i (hcount ▸ hi)).trans (hreserved i hi)

/-! ## The refinement -/

/-- `pmm_allocate_frame` is the table's `allocate`. -/
theorem allocate_refines (hs : PmmInv s) :
    (∀ a s', pmmAllocateFrame.run s = .ok a s' → (table s).allocate = some (a, table s')) ∧
    ∀ e s', pmmAllocateFrame.run s = .error e s' →
      e = .panic "KBM_OUT_OF_MEMORY" ∧ (table s).allocate = none := by
  unfold FrameTable.allocate
  rcases lowestFree_or_none s with ⟨i, hi⟩ | hnone
  · rw [pmmAllocateFrame_found hs hi, lowestFree_table hi]
    constructor
    · intro a s' h
      cases h
      rw [Option.map_some, table_claimFrame hs hi.lt]
    · intro e s' h
      cases h
  · rw [pmmAllocateFrame_none hs hnone, lowestFree_table_none hnone]
    constructor
    · intro a s' h
      cases h
    · intro e s' h
      cases h
      exact ⟨rfl, rfl⟩

theorem ownedAddress_iff : OwnedAddress s a ↔
    a % 0x1000 = 0 ∧ a / 0x1000 < (table s).count ∧ (table s).state (a / 0x1000) = .owned := by
  unfold OwnedAddress table
  refine and_congr_right fun _ => and_congr_right fun hlt => ?_
  dsimp only
  rw [if_pos hlt]

/-- `pmm_free_frame` is the table's `release`. -/
theorem free_refines (hs : PmmInv s) (a : ℕ) :
    (∀ s', (pmmFreeFrame a).run s = .ok () s' → (table s).release a = some (table s')) ∧
    ∀ e s', (pmmFreeFrame a).run s = .error e s' →
      (∃ message, e = .panic message) ∧ (table s).release a = none := by
  unfold FrameTable.release
  by_cases ha : OwnedAddress s a
  · rw [pmmFreeFrame_owned hs ha, if_pos (ownedAddress_iff.1 ha)]
    constructor
    · intro s' h
      cases h
      rw [table_releaseFrame hs ha.2.1]
    · intro e s' h
      cases h
  · obtain ⟨message, hm⟩ := pmmFreeFrame_not_owned hs ha
    rw [hm, if_neg fun h => ha (ownedAddress_iff.2 h)]
    constructor
    · intro s' h
      cases h
    · intro e s' h
      cases h
      exact ⟨⟨message, rfl⟩, rfl⟩

/-- The table `pmm_init` leaves: whole usable frames that are no storage
are free, all others reserved. -/
theorem Initialised.table_state (hs : Initialised entries hhdm m s) (hi : i < s.frameCount)
    [Decidable ((∃ e ∈ entries, e.Usable ∧ e.HasFrame i) ∧ ¬ StorageFrame s i)] :
    (table s).state i =
      if (∃ e ∈ entries, e.Usable ∧ e.HasFrame i) ∧ ¬ StorageFrame s i then .free else .reserved := by
  have hprim := hs.primary i hi
  change (if i < s.frameCount then frameState s i else .reserved) = _
  unfold frameState
  rw [if_pos hi, hs.owner i hi]
  split
  · rename_i hfree
    rw [if_pos (hprim.1 hfree)]
  · rename_i hfree
    rw [if_neg fun h => hfree (hprim.2 h)]
    rfl

/-- **The two bitmaps refine the frame table over every run.** From what
`pmm_init` leaves, through any calls that return: allocating is the
table's `allocate` and panics where no frame is free; freeing any address
is the table's `release` and panics at every address that is not an owned
frame's; no other stop occurs, so no bitmap byte beyond
`bitmap_byte_count` is touched; the reserved frames, the bitmaps' own
among them, stay the same; and no frame is both free and owned. -/
theorem pmm_refines_frameTable (entries : List MemmapEntry) (hhdm : ℕ) (m : Mem) (s₀ s : Kernel)
    (h : MapOk entries) (hinit : (pmmInit entries hhdm).run { mem := m } = .ok () s₀)
    (hrun : ReflTransGen PmmStep s₀ s) :
    (∀ a s', pmmAllocateFrame.run s = .ok a s' → (table s).allocate = some (a, table s')) ∧
    (∀ e s', pmmAllocateFrame.run s = .error e s' →
      e = .panic "KBM_OUT_OF_MEMORY" ∧ (table s).allocate = none) ∧
    (∀ a s', (pmmFreeFrame a).run s = .ok () s' → (table s).release a = some (table s')) ∧
    (∀ a e s', (pmmFreeFrame a).run s = .error e s' →
      (∃ message, e = .panic message) ∧ (table s).release a = none) ∧
    (table s).count = (table s₀).count ∧
    (∀ i, (table s).state i = .reserved ↔ (table s₀).state i = .reserved) ∧
    (∀ i, StorageFrame s₀ i → (table s).state i = .reserved) ∧
    ∀ i, i < s.frameCount → ¬ (primaryBit s i = false ∧ ownerBit s i = true) := by
  have hs₀ := of_pmmInit h.sane hinit
  obtain ⟨hs, hcount, hreserved⟩ := pmm_run (hs₀.pmmInv h.sane) hrun
  have hkeep : ∀ i, (table s).state i = .reserved ↔ (table s₀).state i = .reserved := by
    intro i
    unfold table
    dsimp only
    rw [hcount]
    by_cases hi : i < s₀.frameCount
    · rw [if_pos hi, if_pos hi, hreserved i hi]
    · rw [if_neg hi, if_neg hi]
  refine ⟨(allocate_refines hs).1, (allocate_refines hs).2, fun a => (free_refines hs a).1,
    fun a => (free_refines hs a).2, hcount, hkeep, fun i hst => (hkeep i).2 ?_, fun i hi hboth => ?_⟩
  · unfold table
    dsimp only
    split
    · rename_i hi
      exact hs₀.reserved hi hst
    · rfl
  · have hun := hs.unowned i hi hboth.1
    rw [hboth.2] at hun
    cases hun

/-- On the sample map frames 2, 3 and 4 are free. -/
theorem Initialised.sample_free (hs : Initialised sampleMap hhdm m s) (hi : 2 ≤ i ∧ i ≤ 4) :
    i < s.frameCount ∧ frameState s i = .free := by
  have hcount : i < s.frameCount := by
    have hsize : mapFrames sampleMap = 17 := by decide
    rw [hs.frameCount]
    omega
  obtain ⟨e, hfirst, -, -, hbase⟩ := hs.range
  have hlong : e.wholeLength = 0x9000 := hfirst.wholeLength_eq.trans (by decide)
  have hthird : e = ⟨0x8000, 0x9000, 0⟩ := by
    have hmem := hfirst.mem.1
    simp only [sampleMap, List.mem_cons, List.not_mem_nil, or_false] at hmem
    rcases hmem with rfl | rfl | rfl
    · exact absurd hlong (by decide)
    · exact absurd hlong (by decide)
    · rfl
  refine ⟨hcount, frameState_eq_free.2 ((hs.primary i hcount).2 ⟨?_, fun hst => ?_⟩)⟩
  · refine ⟨_, List.mem_cons_self, rfl, ?_, ?_⟩ <;> dsimp only <;> omega
  · have hle := hst.1
    have hstart : (⟨0x8000, 0x9000, 0⟩ : MemmapEntry).firstFrame = 8 := by decide
    rw [hbase, hthird, hstart] at hle
    omega

/-- And after one allocation the run is still the table's. -/
theorem pmm_refines_frameTable_sampleMap :
    ∃ s₀ s a, (pmmInit sampleMap 0).run { mem := blankMem } = .ok () s₀ ∧
      pmmAllocateFrame.run s₀ = .ok a s ∧
      ∀ i, i < s.frameCount → ¬ (primaryBit s i = false ∧ ownerBit s i = true) := by
  obtain ⟨s₀, hrun, hinit⟩ := pmmInit_run 0 blankMem sampleMap_ok.sane
    (sampleMap_ok.hasFrames_iff.2 ⟨_, List.mem_cons_self, rfl⟩)
    (by unfold RoomForBitmaps; decide)
  obtain ⟨hcount, hfree⟩ := hinit.sample_free (i := 2) (by decide)
  rcases lowestFree_or_none s₀ with ⟨i, hi⟩ | hnone
  · have halloc := pmmAllocateFrame_found (hinit.pmmInv sampleMap_ok.sane) hi
    obtain ⟨-, -, -, -, -, -, -, hboth⟩ := pmm_refines_frameTable sampleMap 0 blankMem s₀ _
      sampleMap_ok hrun (ReflTransGen.single (PmmStep.allocate _ _ _ halloc))
    exact ⟨s₀, _, _, hrun, halloc, hboth⟩
  · exact absurd hfree (hnone 2 hcount)

end KbmOs
