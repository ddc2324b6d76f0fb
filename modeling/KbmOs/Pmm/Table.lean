import KbmOs.Pmm.Model
/-!
# The frame table the two bitmaps stand for

A frame is free, owned by whoever PMM gave it to, or reserved; the two
bitmaps pack that into two bits. `frameState` reads a frame's state off
them, `PmmInv` says what keeps the reading sound, and the specifications
of `pmmAllocateFrame` and `pmmFreeFrame` say which one frame changes. The
abstract `FrameTable` is the map itself with the operations it is for, and
a state refines the table it is read as.
-/

namespace KbmOs

open ByteMemory PackedBits

/-- What PMM knows of a frame. -/
inductive FrameState
  /-- Never given out: no usable memory, or a bitmap's own storage. -/
  | reserved
  | free
  /-- Given to a caller and not taken back. -/
  | owned
deriving DecidableEq, Repr

/-- The primary bitmap's bit of frame `i`. -/
def primaryBit (s : Kernel) (i : ℕ) : Bool := bit s.mem (bitmapAddr s.bitmapPointer) i

/-- The ownership bitmap's bit of frame `i`. -/
def ownerBit (s : Kernel) (i : ℕ) : Bool := bit s.mem (bitmapAddr s.ownershipBitmapPointer) i

/-- The state of frame `i`, read off both bitmaps. -/
def frameState (s : Kernel) (i : ℕ) : FrameState :=
  if primaryBit s i = false then .free else if ownerBit s i then .owned else .reserved

/-- The byte at `x` is one of a bitmap's. -/
def BitmapByte (s : Kernel) (x : ℕ) : Prop :=
  ∃ k, k < s.bitmapByteCount ∧
    (x = bitmapAddr s.bitmapPointer k ∨ x = bitmapAddr s.ownershipBitmapPointer k)

/-- Frame `i` is one of the primary bitmap's own. -/
def PrimaryStorage (s : Kernel) (i : ℕ) : Prop :=
  s.bitmapPhysicalAddress ≤ i * 0x1000 ∧
    i * 0x1000 < s.bitmapPhysicalAddress + s.bitmapPageCount * 0x1000

/-- **What PMM keeps once it is initialised.** -/
structure PmmInv (s : Kernel) : Prop where
  ready : s.bitmapReady ≠ 0
  /-- Every frame has a bit in the bitmaps. -/
  bits : s.frameCount ≤ 8 * s.bitmapByteCount
  /-- Frame addresses fit in 64 bits. -/
  frames : s.frameCount * 0x1000 < 2 ^ 64
  bytes : s.bitmapByteCount ≤ 2 ^ 64
  /-- No byte is in both bitmaps. -/
  apart : ∀ j k, j < s.bitmapByteCount → k < s.bitmapByteCount →
    bitmapAddr s.bitmapPointer j ≠ bitmapAddr s.ownershipBitmapPointer k
  storage : s.bitmapPhysicalAddress + s.bitmapPageCount * 0x1000 < 2 ^ 64
  /-- A free frame has no owner. -/
  unowned : ∀ i, i < s.frameCount → primaryBit s i = false → ownerBit s i = false
  /-- The primary bitmap's frames are not given out. -/
  kept : ∀ i, i < s.frameCount → PrimaryStorage s i → frameState s i = .reserved

variable {s : Kernel} {i j k n x a : ℕ} {pointer : Kernel → ℕ}

/-- A bitmap's bytes are apart. -/
theorem bitmapAddr_inj {p : ℕ} (hj : j < 2 ^ 64) (hk : k < 2 ^ 64)
    (h : bitmapAddr p j = bitmapAddr p k) : j = k := by
  unfold bitmapAddr wrap at h
  omega

/-! ## One frame changes -/

/-- The state after frame `i` is given out. -/
def claimFrame (s : Kernel) (i : ℕ) : Kernel :=
  { s with
    mem := setBit (setBit s.mem (bitmapAddr s.ownershipBitmapPointer) i)
      (bitmapAddr s.bitmapPointer) i }

/-- The state after frame `i` is taken back. -/
def releaseFrame (s : Kernel) (i : ℕ) : Kernel :=
  { s with
    mem := clearBit (clearBit s.mem (bitmapAddr s.ownershipBitmapPointer) i)
      (bitmapAddr s.bitmapPointer) i }

theorem PmmInv.byte_lt (hs : PmmInv s) (hi : i < s.frameCount) : i / 8 < s.bitmapByteCount := by
  have := hs.bits
  omega

theorem PmmInv.byte_lt_word (hs : PmmInv s) (hi : i < s.frameCount) : i / 8 < 2 ^ 64 :=
  lt_of_lt_of_le (hs.byte_lt hi) hs.bytes

theorem primaryBit_claimFrame (hs : PmmInv s) (hi : i < s.frameCount) (hj : j < s.frameCount) :
    primaryBit (claimFrame s i) j = (decide (j = i) || primaryBit s j) := by
  unfold primaryBit claimFrame
  rw [bit_setBit fun h => bitmapAddr_inj (hs.byte_lt_word hj) (hs.byte_lt_word hi) h,
    bit_setBit_of_ne (hs.apart _ _ (hs.byte_lt hj) (hs.byte_lt hi))]

theorem ownerBit_claimFrame (hs : PmmInv s) (hi : i < s.frameCount) (hj : j < s.frameCount) :
    ownerBit (claimFrame s i) j = (decide (j = i) || ownerBit s j) := by
  unfold ownerBit claimFrame
  rw [bit_setBit_of_ne (hs.apart _ _ (hs.byte_lt hi) (hs.byte_lt hj)).symm,
    bit_setBit fun h => bitmapAddr_inj (hs.byte_lt_word hj) (hs.byte_lt_word hi) h]

theorem primaryBit_releaseFrame (hs : PmmInv s) (hi : i < s.frameCount) (hj : j < s.frameCount) :
    primaryBit (releaseFrame s i) j = (!decide (j = i) && primaryBit s j) := by
  unfold primaryBit releaseFrame
  rw [bit_clearBit fun h => bitmapAddr_inj (hs.byte_lt_word hj) (hs.byte_lt_word hi) h,
    bit_clearBit_of_ne (hs.apart _ _ (hs.byte_lt hj) (hs.byte_lt hi))]

theorem ownerBit_releaseFrame (hs : PmmInv s) (hi : i < s.frameCount) (hj : j < s.frameCount) :
    ownerBit (releaseFrame s i) j = (!decide (j = i) && ownerBit s j) := by
  unfold ownerBit releaseFrame
  rw [bit_clearBit_of_ne (hs.apart _ _ (hs.byte_lt hi) (hs.byte_lt hj)).symm,
    bit_clearBit fun h => bitmapAddr_inj (hs.byte_lt_word hj) (hs.byte_lt_word hi) h]

/-- **Giving out frame `i` makes it owned and changes no other.** -/
theorem frameState_claimFrame (hs : PmmInv s) (hi : i < s.frameCount) (hj : j < s.frameCount) :
    frameState (claimFrame s i) j = if j = i then .owned else frameState s j := by
  unfold frameState
  rw [primaryBit_claimFrame hs hi hj, ownerBit_claimFrame hs hi hj]
  by_cases h : j = i
  · simp [h]
  · simp [h]

/-- **Taking frame `i` back makes it free and changes no other.** -/
theorem frameState_releaseFrame (hs : PmmInv s) (hi : i < s.frameCount) (hj : j < s.frameCount) :
    frameState (releaseFrame s i) j = if j = i then .free else frameState s j := by
  unfold frameState
  rw [primaryBit_releaseFrame hs hi hj, ownerBit_releaseFrame hs hi hj]
  by_cases h : j = i
  · simp [h]
  · simp [h]

/-- A byte of neither bitmap keeps its value. -/
theorem claimFrame_mem (hs : PmmInv s) (hi : i < s.frameCount) (hx : ¬ BitmapByte s x) :
    (claimFrame s i).mem x = s.mem x := by
  have hbyte := hs.byte_lt hi
  unfold claimFrame
  dsimp only
  rw [setBit_of_ne fun h => hx ⟨i / 8, hbyte, Or.inl h⟩,
    setBit_of_ne fun h => hx ⟨i / 8, hbyte, Or.inr h⟩]

theorem releaseFrame_mem (hs : PmmInv s) (hi : i < s.frameCount) (hx : ¬ BitmapByte s x) :
    (releaseFrame s i).mem x = s.mem x := by
  have hbyte := hs.byte_lt hi
  unfold releaseFrame
  dsimp only
  rw [clearBit_of_ne fun h => hx ⟨i / 8, hbyte, Or.inl h⟩,
    clearBit_of_ne fun h => hx ⟨i / 8, hbyte, Or.inr h⟩]

theorem frameState_eq_free : frameState s i = .free ↔ primaryBit s i = false := by
  unfold frameState
  split
  · simp [*]
  · split <;> simp [*]

theorem PmmInv.ownerBit_iff (hs : PmmInv s) (hi : i < s.frameCount) :
    frameState s i = .owned ↔ ownerBit s i = true := by
  have hun := hs.unowned i hi
  unfold frameState
  split
  · rename_i hp
    simp [hun hp]
  · split <;> simp [*]

/-- The invariant survives giving out a free frame. -/
theorem PmmInv.claim (hs : PmmInv s) (hi : i < s.frameCount) (hfree : frameState s i = .free) :
    PmmInv (claimFrame s i) where
  ready := hs.ready
  bits := hs.bits
  frames := hs.frames
  bytes := hs.bytes
  apart := hs.apart
  storage := hs.storage
  unowned j hj hp := by
    rw [primaryBit_claimFrame hs hi hj] at hp
    rw [ownerBit_claimFrame hs hi hj]
    simp only [Bool.or_eq_false_iff, decide_eq_false_iff_not] at hp ⊢
    exact ⟨hp.1, hs.unowned j hj hp.2⟩
  kept j hj hst := by
    have hkept := hs.kept j hj hst
    rw [frameState_claimFrame hs hi hj, if_neg (by rintro rfl; rw [hfree] at hkept; cases hkept)]
    exact hkept

/-- And taking back an owned one. -/
theorem PmmInv.release (hs : PmmInv s) (hi : i < s.frameCount) (how : frameState s i = .owned) :
    PmmInv (releaseFrame s i) where
  ready := hs.ready
  bits := hs.bits
  frames := hs.frames
  bytes := hs.bytes
  apart := hs.apart
  storage := hs.storage
  unowned j hj hp := by
    rw [primaryBit_releaseFrame hs hi hj] at hp
    rw [ownerBit_releaseFrame hs hi hj]
    by_cases h : j = i
    · simp [h]
    · simp only [h, decide_false, Bool.not_false, Bool.true_and] at hp ⊢
      exact hs.unowned j hj hp
  kept j hj hst := by
    have hkept := hs.kept j hj hst
    rw [frameState_releaseFrame hs hi hj, if_neg (by rintro rfl; rw [how] at hkept; cases hkept)]
    exact hkept

/-! ## Nothing of PMM's changes -/

/-- PMM's statics and the bytes of its bitmaps are the same. -/
structure SamePmm (s s' : Kernel) : Prop where
  statics : s' = { s with
    mem := s'.mem
    heapHhdmOffset := s'.heapHhdmOffset
    heapReady := s'.heapReady
    heapFreeList := s'.heapFreeList
    heapUsedBytes := s'.heapUsedBytes
    heapFrameCount := s'.heapFrameCount }
  mem : ∀ x, BitmapByte s x → s'.mem x = s.mem x

variable {s' : Kernel}

theorem SamePmm.frameCount_eq (h : SamePmm s s') : s'.frameCount = s.frameCount := by rw [h.statics]

/-- A frame's two bits are in bytes of the bitmaps. -/
theorem SamePmm.bits (h : SamePmm s s') (hs : PmmInv s) (hi : i < s.frameCount) :
    primaryBit s' i = primaryBit s i ∧ ownerBit s' i = ownerBit s i := by
  have hbyte := hs.byte_lt hi
  have hprimary : s'.bitmapPointer = s.bitmapPointer := by rw [h.statics]
  have howner : s'.ownershipBitmapPointer = s.ownershipBitmapPointer := by rw [h.statics]
  unfold primaryBit ownerBit
  rw [hprimary, howner]
  exact ⟨bit_congr (h.mem _ ⟨i / 8, hbyte, Or.inl rfl⟩),
    bit_congr (h.mem _ ⟨i / 8, hbyte, Or.inr rfl⟩)⟩

theorem SamePmm.frameState (h : SamePmm s s') (hs : PmmInv s) (hi : i < s.frameCount) :
    frameState s' i = frameState s i := by
  unfold KbmOs.frameState
  rw [(h.bits hs hi).1, (h.bits hs hi).2]

/-- **What is not PMM's keeps its invariant.** -/
theorem SamePmm.pmmInv (h : SamePmm s s') (hs : PmmInv s) : PmmInv s' := by
  have hst := h.statics
  have hcount := h.frameCount_eq
  exact {
    ready := by rw [hst]; exact hs.ready
    bits := by rw [hst]; exact hs.bits
    frames := by rw [hst]; exact hs.frames
    bytes := by rw [hst]; exact hs.bytes
    apart := by rw [hst]; exact hs.apart
    storage := by rw [hst]; exact hs.storage
    unowned := by
      intro i hi hprim
      rw [hcount] at hi
      rw [(h.bits hs hi).1] at hprim
      rw [(h.bits hs hi).2]
      exact hs.unowned i hi hprim
    kept := by
      intro i hi hstorage
      rw [hcount] at hi
      rw [h.frameState hs hi]
      refine hs.kept i hi ?_
      rw [hst] at hstorage
      exact hstorage }

/-! ## The helpers, run -/

theorem accessByte_run (hk : k < s.bitmapByteCount) : (accessByte k).run s = .ok () s := by
  unfold accessByte
  rw [run_bind_ok (EStateM.run_get s), if_pos hk]
  rfl

theorem isFrameFree_run (hk : a / 0x1000 / 8 < s.bitmapByteCount) :
    (isFrameFree pointer a).run s =
      .ok (if bit s.mem (bitmapAddr (pointer s)) (a / 0x1000) = false then 1 else 0) s := by
  unfold isFrameFree
  rw [run_bind_ok (accessByte_run hk), run_bind_ok (EStateM.run_get s)]
  simp only [and_maskBit_eq_zero_iff (Nat.mod_lt _ (by omega : 0 < 8))]
  unfold bit
  split <;> rfl

theorem markFrameFree_run (hk : a / 0x1000 / 8 < s.bitmapByteCount) :
    (markFrameFree pointer a).run s =
      .ok () { s with mem := clearBit s.mem (bitmapAddr (pointer s)) (a / 0x1000) } := by
  unfold markFrameFree
  rw [run_bind_ok (accessByte_run hk)]
  rfl

theorem markFrameUsed_run (hk : a / 0x1000 / 8 < s.bitmapByteCount) :
    (markFrameUsed pointer a).run s =
      .ok () { s with mem := setBit s.mem (bitmapAddr (pointer s)) (a / 0x1000) } := by
  unfold markFrameUsed
  rw [run_bind_ok (accessByte_run hk)]
  rfl

/-! ## Allocating -/

/-- The search ends at the first free frame at or above where it starts,
and gives it out. -/
theorem allocateFrom_found (hs : PmmInv s) : ∀ (n i : ℕ), i + n = s.frameCount → i ≤ j →
    j < s.frameCount → frameState s j = .free → (∀ k, i ≤ k → k < j → frameState s k ≠ .free) →
    (allocateFrom n i).run s = .ok (j * 0x1000) (claimFrame s j)
  | 0, i, hn, hij, hj, _, _ => by omega
  | n + 1, i, hn, hij, hj, hfree, hleast => by
    have hframes := hs.frames
    have haddr : wrap (i * 0x1000) = i * 0x1000 := wrap_of_lt (by lia)
    have hidx : i * 0x1000 / 0x1000 = i := by omega
    have hbyte : i * 0x1000 / 0x1000 / 8 < s.bitmapByteCount := by
      rw [hidx]
      exact hs.byte_lt (by omega)
    unfold allocateFrom
    dsimp only
    rw [haddr, run_bind_ok (isFrameFree_run hbyte), hidx]
    rcases eq_or_lt_of_le hij with rfl | hlt
    · have hp : primaryBit s i = false := frameState_eq_free.1 hfree
      change bit s.mem (bitmapAddr s.bitmapPointer) i = false at hp
      rw [if_pos (by rw [if_pos hp])]
      rw [run_bind_ok (markFrameUsed_run hbyte), hidx]
      refine (run_bind_ok (markFrameUsed_run ?_)).trans ?_
      · exact hbyte
      · rw [hidx]
        rfl
    · have hp : primaryBit s i ≠ false := fun h => hleast i le_rfl hlt (frameState_eq_free.2 h)
      change ¬ bit s.mem (bitmapAddr s.bitmapPointer) i = false at hp
      rw [if_neg (by rw [if_neg hp]; omega)]
      exact allocateFrom_found hs n (i + 1) (by omega) hlt hj hfree
        fun k h1 h2 => hleast k (by omega) h2

/-- With no free frame left the search panics. -/
theorem allocateFrom_none (hs : PmmInv s) : ∀ (n i : ℕ), i + n = s.frameCount →
    (∀ k, i ≤ k → k < s.frameCount → frameState s k ≠ .free) →
    (allocateFrom n i).run s = .error (.panic "KBM_OUT_OF_MEMORY") s
  | 0, _, _, _ => rfl
  | n + 1, i, hn, hnone => by
    have hframes := hs.frames
    have haddr : wrap (i * 0x1000) = i * 0x1000 := wrap_of_lt (by lia)
    have hidx : i * 0x1000 / 0x1000 = i := by omega
    have hbyte : i * 0x1000 / 0x1000 / 8 < s.bitmapByteCount := by
      rw [hidx]
      exact hs.byte_lt (by omega)
    have hp : primaryBit s i ≠ false := fun h =>
      hnone i le_rfl (by omega) (frameState_eq_free.2 h)
    change ¬ bit s.mem (bitmapAddr s.bitmapPointer) i = false at hp
    unfold allocateFrom
    dsimp only
    rw [haddr, run_bind_ok (isFrameFree_run hbyte), hidx, if_neg (by rw [if_neg hp]; omega)]
    exact allocateFrom_none hs n (i + 1) (by omega) fun k h1 h2 => hnone k (by omega) h2

/-- Frame `i` is the lowest free one. -/
structure LowestFree (s : Kernel) (i : ℕ) : Prop where
  lt : i < s.frameCount
  free : frameState s i = .free
  least : ∀ j, j < i → frameState s j ≠ .free

theorem LowestFree.unique (hi : LowestFree s i) (hj : LowestFree s j) : i = j := by
  obtain hlt | heq | hgt := lt_trichotomy i j
  · exact absurd hi.free (hj.least i hlt)
  · exact heq
  · exact absurd hj.free (hi.least j hgt)

/-- **`pmm_allocate_frame` gives out the lowest free frame.** -/
theorem pmmAllocateFrame_found (hs : PmmInv s) (hi : LowestFree s i) :
    pmmAllocateFrame.run s = .ok (i * 0x1000) (claimFrame s i) := by
  unfold pmmAllocateFrame
  rw [run_bind_ok (EStateM.run_get s), if_neg hs.ready]
  exact allocateFrom_found hs s.frameCount 0 (by omega) (Nat.zero_le i) hi.lt hi.free
    fun k _ h => hi.least k h

/-- **And panics where there is none.** -/
theorem pmmAllocateFrame_none (hs : PmmInv s)
    (hnone : ∀ i, i < s.frameCount → frameState s i ≠ .free) :
    pmmAllocateFrame.run s = .error (.panic "KBM_OUT_OF_MEMORY") s := by
  unfold pmmAllocateFrame
  rw [run_bind_ok (EStateM.run_get s), if_neg hs.ready]
  exact allocateFrom_none hs s.frameCount 0 (by omega) fun k _ h => hnone k h

/-- One of the two is the case. -/
theorem lowestFree_or_none (s : Kernel) :
    (∃ i, LowestFree s i) ∨ ∀ i, i < s.frameCount → frameState s i ≠ .free := by
  by_cases h : ∃ i, i < s.frameCount ∧ frameState s i = .free
  · refine Or.inl ⟨Nat.find h, (Nat.find_spec h).1, (Nat.find_spec h).2, fun j hj hfree => ?_⟩
    exact Nat.find_min h hj ⟨lt_trans hj (Nat.find_spec h).1, hfree⟩
  · exact Or.inr fun i hi hfree => h ⟨i, hi, hfree⟩

/-- **What a call of `pmm_allocate_frame` that returns has done.** -/
theorem of_pmmAllocateFrame {s' : Kernel} (hs : PmmInv s) (h : pmmAllocateFrame.run s = .ok a s') :
    ∃ i, LowestFree s i ∧ a = i * 0x1000 ∧ s' = claimFrame s i := by
  rcases lowestFree_or_none s with ⟨i, hi⟩ | hnone
  · rw [pmmAllocateFrame_found hs hi] at h
    cases h
    exact ⟨i, hi, rfl, rfl⟩
  · rw [pmmAllocateFrame_none hs hnone] at h
    cases h

/-! ## Freeing -/

/-- The address is that of an owned frame. -/
def OwnedAddress (s : Kernel) (a : ℕ) : Prop :=
  a % 0x1000 = 0 ∧ a / 0x1000 < s.frameCount ∧ frameState s (a / 0x1000) = .owned

/-- **`pmm_free_frame` takes back an owned frame.** -/
theorem pmmFreeFrame_owned (hs : PmmInv s) (ha : OwnedAddress s a) :
    (pmmFreeFrame a).run s = .ok () (releaseFrame s (a / 0x1000)) := by
  obtain ⟨halign, hlt, how⟩ := ha
  have hbyte : a / 0x1000 / 8 < s.bitmapByteCount := hs.byte_lt hlt
  have hstorage := hs.storage
  have hout : ¬ (a ≥ s.bitmapPhysicalAddress ∧
      a < wrap (s.bitmapPhysicalAddress + wrap (s.bitmapPageCount * 0x1000))) := by
    rintro ⟨h1, h2⟩
    rw [wrap_of_lt (by lia : s.bitmapPageCount * 0x1000 < 2 ^ 64), wrap_of_lt hstorage] at h2
    have hkept := hs.kept (a / 0x1000) hlt ⟨by omega, by omega⟩
    rw [how] at hkept
    cases hkept
  have hbit : ownerBit s (a / 0x1000) = true := (hs.ownerBit_iff hlt).1 how
  change bit s.mem (bitmapAddr s.ownershipBitmapPointer) (a / 0x1000) = true at hbit
  unfold pmmFreeFrame
  rw [run_bind_ok (EStateM.run_get s), if_neg hs.ready, if_neg (by omega), if_neg (by omega),
    if_neg hout, run_bind_ok (isFrameFree_run hbyte), if_neg (by rw [hbit]; decide),
    run_bind_ok (markFrameFree_run hbyte)]
  exact markFrameFree_run hbyte

/-- **And panics at every other address**, changing nothing. -/
theorem pmmFreeFrame_not_owned (hs : PmmInv s) (ha : ¬ OwnedAddress s a) :
    ∃ message, (pmmFreeFrame a).run s = .error (.panic message) s := by
  unfold pmmFreeFrame
  rw [run_bind_ok (EStateM.run_get s), if_neg hs.ready]
  split
  · exact ⟨_, rfl⟩
  rename_i halign
  split
  · exact ⟨_, rfl⟩
  rename_i hlt
  split
  · exact ⟨_, rfl⟩
  have hlt' : a / 0x1000 < s.frameCount := by omega
  have hbit : ¬ ownerBit s (a / 0x1000) = true := fun h =>
    ha ⟨by omega, hlt', (hs.ownerBit_iff hlt').2 h⟩
  change ¬ bit s.mem (bitmapAddr s.ownershipBitmapPointer) (a / 0x1000) = true at hbit
  rw [Bool.not_eq_true] at hbit
  rw [run_bind_ok (isFrameFree_run (hs.byte_lt hlt')), if_pos (by rw [if_pos hbit])]
  exact ⟨_, rfl⟩

/-- **What a call of `pmm_free_frame` that returns has done.** -/
theorem of_pmmFreeFrame {s' : Kernel} (hs : PmmInv s) (h : (pmmFreeFrame a).run s = .ok () s') :
    OwnedAddress s a ∧ s' = releaseFrame s (a / 0x1000) := by
  by_cases ha : OwnedAddress s a
  · rw [pmmFreeFrame_owned hs ha] at h
    cases h
    exact ⟨ha, rfl⟩
  · obtain ⟨message, hm⟩ := pmmFreeFrame_not_owned hs ha
    rw [hm] at h
    cases h

/-! ## The table -/

/-- The map from frames to their states, and the operations on it. -/
@[ext] structure FrameTable where
  count : ℕ
  state : ℕ → FrameState

namespace FrameTable

/-- Frame `i` takes a new state. -/
def update (t : FrameTable) (i : ℕ) (v : FrameState) : FrameTable :=
  { t with state := Function.update t.state i v }

/-- The lowest-numbered free frame, if any. -/
def lowestFree (t : FrameTable) : Option ℕ := (List.range t.count).find? (t.state · == .free)

/-- The lowest free frame's address, and the table with that frame owned. -/
def allocate (t : FrameTable) : Option (ℕ × FrameTable) :=
  t.lowestFree.map fun i => (i * 0x1000, t.update i .owned)

/-- The table with the owned frame at `a` free again. -/
def release (t : FrameTable) (a : ℕ) : Option FrameTable :=
  if a % 0x1000 = 0 ∧ a / 0x1000 < t.count ∧ t.state (a / 0x1000) = .owned then
    some (t.update (a / 0x1000) .free)
  else none

end FrameTable

/-- The table a state stands for. -/
def table (s : Kernel) : FrameTable where
  count := s.frameCount
  state i := if i < s.frameCount then frameState s i else .reserved

theorem table_claimFrame (hs : PmmInv s) (hi : i < s.frameCount) :
    table (claimFrame s i) = (table s).update i .owned := by
  refine FrameTable.ext rfl (funext fun j => ?_)
  change (if j < s.frameCount then frameState (claimFrame s i) j else .reserved) =
    Function.update (table s).state i .owned j
  by_cases hj : j < s.frameCount
  · rw [if_pos hj, frameState_claimFrame hs hi hj]
    by_cases h : j = i
    · simp [h]
    · simp [h, table, hj]
  · rw [if_neg hj, Function.update_of_ne (by omega)]
    simp [table, hj]

theorem table_releaseFrame (hs : PmmInv s) (hi : i < s.frameCount) :
    table (releaseFrame s i) = (table s).update i .free := by
  refine FrameTable.ext rfl (funext fun j => ?_)
  change (if j < s.frameCount then frameState (releaseFrame s i) j else .reserved) =
    Function.update (table s).state i .free j
  by_cases hj : j < s.frameCount
  · rw [if_pos hj, frameState_releaseFrame hs hi hj]
    by_cases h : j = i
    · simp [h]
    · simp [h, table, hj]
  · rw [if_neg hj, Function.update_of_ne (by omega)]
    simp [table, hj]

/-- The table's lowest free frame is the state's. -/
theorem lowestFree_table (hi : LowestFree s i) : (table s).lowestFree = some i := by
  unfold FrameTable.lowestFree
  rw [List.find?_range_eq_some]
  have hlt := hi.lt
  refine ⟨?_, List.mem_range.2 hlt, fun j hj => ?_⟩
  · simp [table, hlt, hi.free]
  · have := hi.least j hj
    simp [table, this, lt_trans hj hlt]

theorem lowestFree_table_none (hnone : ∀ i, i < s.frameCount → frameState s i ≠ .free) :
    (table s).lowestFree = none := by
  unfold FrameTable.lowestFree
  rw [List.find?_eq_none]
  intro i hi
  have hlt : i < s.frameCount := List.mem_range.1 hi
  simp [table, hlt, hnone i hlt]

end KbmOs
