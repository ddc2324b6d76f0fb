import KbmOs.Lib.Outcomes
import KbmOs.Memory.RoundTrip
/-!
# The tests `kmain` makes at boot

Between `pmm_init` and the console `kmain` (`main.c`) tries both allocators
out and panics where one does not do what it expects: a frame that is
allocated and freed must be counted so and come back, a large request must
take a frame, a block must be aligned, counted, and joined with its
neighbour once it is freed. On the memory of a map that Limine promises no
test fails; boot ends there only for want of frames, and it wants eight.
-/

namespace KbmOs

open ByteMemory LinkedList Tiling FreeList LabelledRuns Outcomes

/-! ## The tests -/

/-- `*pointer = value`, eight bytes. -/
def writeUint64 (pointer value : ℕ) : KernelM Unit :=
  modify fun s => { s with mem := store64 s.mem pointer value }

/-- `*pointer`. -/
def readUint64 (pointer : ℕ) : KernelM ℕ := do
  let s ← get
  pure (load64 s.mem pointer)

/-- `pointer[0] = value`, one byte. -/
def writeByte (pointer : ℕ) (value : BitVec 8) : KernelM Unit :=
  modify fun s => { s with mem := store8 s.mem pointer value }

/-- Allocation followed by free must restore the PMM free-frame count. -/
def pmmOwnerTest : KernelM Unit := do
  let freeBefore ← pmmGetFreeFrameCount
  let testFrame ← pmmAllocateFrame
  let freeAfterAllocate ← pmmGetFreeFrameCount
  pmmFreeFrame testFrame
  let freeAfterFree ← pmmGetFreeFrameCount
  if freeAfterAllocate ≠ wrapSub freeBefore 1 then panic "KBM_PMM_ALLOCATE_COUNT_ERROR"
  else if freeAfterFree ≠ freeBefore then panic "KBM_PMM_FREE_COUNT_ERROR"
  else pure ()

/-- The frames that are logged as `KBM_PMM_FRAME`, and kept. -/
def pmmFrames : ℕ → KernelM (List ℕ)
  | 0 => pure []
  | n + 1 => do
    let frame ← pmmAllocateFrame
    let frames ← pmmFrames n
    pure (frame :: frames)

/-- A frame is written and read, and is the next one once it is freed. -/
def pmmReuseTest (hhdmOffset : ℕ) : KernelM (ℕ × ℕ) := do
  let testFramePhysical ← pmmAllocateFrame
  let allocatedFrame := wrap (testFramePhysical + hhdmOffset)
  writeUint64 allocatedFrame 31
  let testFrameValue ← readUint64 allocatedFrame
  pmmFreeFrame testFramePhysical
  let recycledFrame ← pmmAllocateFrame
  if recycledFrame ≠ testFramePhysical then panic "KBM_PMM_FREE_TEST_FAILED"
  else pure (testFrameValue, recycledFrame)

/-- Three numbers are put on the heap and read back. -/
def heapValuesTest : KernelM (List ℕ × List ℕ) := do
  let firstNum ← kmalloc 8
  let secondNum ← kmalloc 8
  let thirdNum ← kmalloc 8
  writeUint64 firstNum 31
  writeUint64 secondNum 52
  writeUint64 thirdNum 69
  let first ← readUint64 firstNum
  let second ← readUint64 secondNum
  let third ← readUint64 thirdNum
  pure ([first, second, third], [firstNum, secondNum, thirdNum])

/-- This request cannot fit in the first heap frame, so it needs a new one. -/
def heapNewFrameTest : KernelM (ℕ × BitVec 8) := do
  let freeFramesBeforeSecondHeapFrame ← pmmGetFreeFrameCount
  let secondHeapFrame ← kmalloc 0xFD0
  let freeFramesAfterSecondHeapFrame ← pmmGetFreeFrameCount
  writeByte secondHeapFrame 0xB2
  if freeFramesAfterSecondHeapFrame ≠ wrapSub freeFramesBeforeSecondHeapFrame 1 then
    panic "KBM_HEAP_NEW_FRAME_TEST_FAILED"
  else
    let s ← get
    if s.mem secondHeapFrame ≠ 0xB2 then panic "KBM_HEAP_SECOND_FRAME_TEST_FAILED"
    else pure (secondHeapFrame, s.mem secondHeapFrame)

/-- A 13-byte request is rounded to 16 bytes and starts on a 16-byte
boundary. -/
def heapAccountingTest : KernelM ℕ := do
  let before ← get
  let alignmentTest ← kmalloc 13
  if alignmentTest &&& 0xF ≠ 0 then panic "KBM_HEAP_ALIGNMENT_TEST_FAILED"
  else
    let s ← get
    if heapGetUsedBytes s ≠ wrap (heapGetUsedBytes before + 16) then
      panic "KBM_HEAP_USAGE_TEST_FAILED"
    else pure alignmentTest

/-- The last request only fits without a new frame if `kfree` merged the
16-byte block with its free neighbour. -/
def heapMergeTest (alignmentTest : ℕ) : KernelM (ℕ × ℕ) := do
  let before ← get
  kfree alignmentTest
  let freed ← get
  if heapGetUsedBytes freed ≠ wrapSub (heapGetUsedBytes before) 16 then
    panic "KBM_HEAP_FREE_ACCOUNTING_TEST_FAILED"
  else if heapGetFrameCount freed ≠ heapGetFrameCount before then
    panic "KBM_HEAP_FREE_FRAME_COUNT_TEST_FAILED"
  else
    let reusedAlignmentTest ← kmalloc 3900
    if reusedAlignmentTest ≠ alignmentTest then panic "KBM_HEAP_MERGE_REUSE_TEST_FAILED"
    else
      let s ← get
      if heapGetFrameCount s ≠ heapGetFrameCount before then
        panic "KBM_HEAP_MERGE_FRAME_COUNT_TEST_FAILED"
      else pure (heapGetUsedBytes before, heapGetUsedBytes freed)

/-- What is logged on the way. -/
structure MemoryReport where
  pmmTotalFrames : ℕ
  pmmBitmapBytes : ℕ
  pmmBitmapPages : ℕ
  pmmFrame : List ℕ
  testFrameValue : ℕ
  pmmFreeReuseOk : ℕ
  pmmBitmapPhysical : ℕ
  heapValue : List ℕ
  heapAddress : List ℕ
  heapSecondFrameTestOk : BitVec 8
  usedBytesBeforeFree : ℕ
  usedBytesAfterFree : ℕ

/-- `kmain` from `pmm_init` to the UI. -/
def kmainMemory (entries : List MemmapEntry) (hhdmOffset : ℕ) : KernelM MemoryReport := do
  pmmInit entries hhdmOffset
  pmmOwnerTest
  let initialised ← get
  let frames ← pmmFrames 5
  let (testFrameValue, recycledFrame) ← pmmReuseTest hhdmOffset
  let s ← get
  heapInit hhdmOffset
  let (values, addresses) ← heapValuesTest
  let (_, secondFrameByte) ← heapNewFrameTest
  let alignmentTest ← heapAccountingTest
  let (usedBeforeFree, usedAfterFree) ← heapMergeTest alignmentTest
  pure {
    pmmTotalFrames := pmmGetFrameCount initialised
    pmmBitmapBytes := pmmGetBitmapByteCount initialised
    pmmBitmapPages := initialised.bitmapPageCount
    pmmFrame := frames
    testFrameValue := testFrameValue
    pmmFreeReuseOk := recycledFrame
    pmmBitmapPhysical := s.bitmapPhysicalAddress
    heapValue := values
    heapAddress := addresses
    heapSecondFrameTestOk := secondFrameByte
    usedBytesBeforeFree := usedBeforeFree
    usedBytesAfterFree := usedAfterFree }

variable {entries : List MemmapEntry} {hhdm i g j a p n v : ℕ} {m : Mem} {s t k : Kernel}

/-! ## The frames -/

/-- The frames PMM can give out. -/
def freeFrames (s : Kernel) : ℕ := freeBelow s s.frameCount

/-- The panic for want of a frame. -/
def OutOfFrames (missing : Prop) (e : Stop) (_ : Kernel) : Prop :=
  e = .panic "KBM_OUT_OF_MEMORY" ∧ missing

theorem freeFrames_claimFrame (hs : PmmInv s) (hi : LowestFree s i) :
    freeFrames (claimFrame s i) + 1 = freeFrames s := by
  have hcount := freeBelow_claimFrame hs hi.lt hi.free (le_refl s.frameCount)
  rwa [if_pos hi.lt] at hcount

theorem SamePmm.freeFrames_eq (h : SamePmm s t) (hs : PmmInv s) : freeFrames t = freeFrames s := by
  unfold freeFrames
  rw [h.frameCount_eq]
  exact h.freeBelow hs le_rfl

theorem freeFrames_lt (hs : PmmInv s) : freeFrames s < 2 ^ 64 := by
  have hle := freeBelow_le s s.frameCount
  have hframes := hs.frames
  unfold freeFrames
  omega

theorem freeBelow_eq_zero (hnone : ∀ i, i < s.frameCount → frameState s i ≠ .free)
    (hn : n ≤ s.frameCount) : freeBelow s n = 0 := by
  induction n with
  | zero => rfl
  | succ n ih =>
    unfold freeBelow
    rw [ih (by omega), if_neg fun hclear => hnone n (by omega) (frameState_eq_free.2 hclear)]

/-- **`pmm_allocate_frame` stops where nothing is free**, and only there. -/
theorem pmmAllocateFrame_ends (hs : PmmInv s) :
    Ends pmmAllocateFrame s (fun a t => ∃ i, LowestFree s i ∧ a = i * 0x1000 ∧ t = claimFrame s i)
      (OutOfFrames (freeFrames s = 0)) := by
  rcases lowestFree_or_none s with ⟨i, hi⟩ | hnone
  · exact Ends.of_ok (pmmAllocateFrame_found hs hi) ⟨i, hi, rfl, rfl⟩
  · exact Ends.of_error (pmmAllocateFrame_none hs hnone) ⟨rfl, freeBelow_eq_zero hnone le_rfl⟩

/-- The frame just given out may be given back, and all is as before. -/
theorem pmmFreeFrame_claimFrame (hs : PmmInv s) (hi : LowestFree s i) :
    (pmmFreeFrame (i * 0x1000)).run (claimFrame s i) = .ok () s := by
  have hidx : i * 0x1000 / 0x1000 = i := by omega
  have howned : OwnedAddress (claimFrame s i) (i * 0x1000) :=
    (ownedAddress_claimFrame hs hi.lt).2 (Or.inl rfl)
  rw [pmmFreeFrame_owned (hs.claim hi.lt hi.free) howned, hidx,
    releaseFrame_claimFrame hs hi.lt hi.free]

/-- **The owner test leaves PMM as it was**, and wants a frame. -/
theorem pmmOwnerTest_ends (hs : PmmInv s) :
    Ends pmmOwnerTest s (fun _ t => t = s ∧ 0 < freeFrames s) (OutOfFrames (freeFrames s = 0)) := by
  unfold pmmOwnerTest
  refine Ends.step (pmmGetFreeFrameCount_run hs) ?_
  refine (pmmAllocateFrame_ends hs).bind ?_
  rintro _ _ ⟨i, hi, rfl, rfl⟩
  have hcount := freeFrames_claimFrame hs hi
  have hlt := freeFrames_lt hs
  unfold freeFrames at hcount hlt
  refine Ends.step (pmmGetFreeFrameCount_run (hs.claim hi.lt hi.free)) ?_
  refine Ends.step (pmmFreeFrame_claimFrame hs hi) ?_
  refine Ends.step (pmmGetFreeFrameCount_run hs) ?_
  rw [wrapSub_of_le (by omega) (by omega), if_neg (by omega), if_neg (by omega)]
  exact Ends.pure ⟨rfl, by unfold freeFrames; omega⟩

/-- **PMM at work**: `pmm_init` has returned in `s₀`, and with `n` frames in
callers' hands the state is `s`. -/
structure Outstanding (entries : List MemmapEntry) (hhdm : ℕ) (m : Mem) (s₀ : Kernel) (n : ℕ)
    (s : Kernel) : Prop where
  init : (pmmInit entries hhdm).run { mem := m } = .ok () s₀
  calls : ∃ calls, Run PmmCalls s₀ calls s ∧ (outstanding calls).length = n

variable {s₀ : Kernel}

namespace Outstanding

variable (h : LimineOk entries hhdm) (hs : Outstanding entries hhdm m s₀ n s)
include h hs

theorem serves : PmmServes entries hhdm s := by
  obtain ⟨calls, hrun, -⟩ := hs.calls
  exact hrun.invariant ((of_pmmInit h.mapOk.sane hs.init).serves h) fun s call s' => PmmCalls.serves

/-- **Every frame is accounted for.** -/
theorem free : freeFrames s + n = freeFrames s₀ := by
  obtain ⟨calls, hrun, hlength⟩ := hs.calls
  have hcount := (((of_pmmInit h.mapOk.sane hs.init).accounted h.mapOk.sane).run hrun).count
  rwa [hlength] at hcount

omit h in
theorem allocated (hrun : pmmAllocateFrame.run s = .ok a t) :
    Outstanding entries hhdm m s₀ (n + 1) t := by
  obtain ⟨calls, hcalls, hlength⟩ := hs.calls
  refine ⟨hs.init, calls ++ [.allocated a], hcalls.snoc (.allocated hrun), ?_⟩
  rw [outstanding_concat, outstandingAfter, List.length_cons, hlength]

/-- A frame that was given out is mapped, and holds no byte of a bitmap. -/
theorem written (hi : LowestFree s i) (v : ℕ) :
    wrap (i * 0x1000 + hhdm) = i * 0x1000 + hhdm ∧ SamePmm (claimFrame s i)
      { claimFrame s i with mem := store64 (claimFrame s i).mem (i * 0x1000 + hhdm) v } := by
  have hserves := hs.serves h
  have hne : frameState s i ≠ .reserved := by
    rw [hi.free]
    decide
  have htop := h.frame_top (hserves.usable i hi.lt hne)
  refine ⟨wrap_of_lt (by omega), ⟨rfl, fun x hx => ?_⟩⟩
  change store64 (claimFrame s i).mem (i * 0x1000 + hhdm) v x = (claimFrame s i).mem x
  refine store64_of_apart ?_
  by_contra hin
  -- the byte is in frame `i`, but a bitmap's are in storage frames
  obtain ⟨hlo, hhi⟩ := hserves.layout.range_of_bitmapByte h hx
  obtain ⟨j, hst, hj, hjx⟩ := hserves.layout.storageFrame_of_range hlo hhi
  have hix : InFrameOf hhdm i x := by
    unfold InFrameOf
    omega
  rw [hix.unique hjx] at hne
  exact hne (hserves.reserved j hst hj)

/-- **A frame that is written and freed is the next one.** -/
theorem recycled (hi : LowestFree s i) (hsame : SamePmm (claimFrame s i) t) :
    (pmmFreeFrame (i * 0x1000)).run t = .ok () (releaseFrame t i) ∧
      LowestFree (releaseFrame t i) i ∧ Outstanding entries hhdm m s₀ n (releaseFrame t i) := by
  have hpmm := (hs.serves h).pmm
  have hclaim := hpmm.claim hi.lt hi.free
  have hidx : i * 0x1000 / 0x1000 = i := by omega
  have hcount : t.frameCount = s.frameCount := hsame.frameCount_eq
  have hlt : i < t.frameCount := by
    rw [hcount]
    exact hi.lt
  have hinv := hsame.pmmInv hclaim
  have howned : OwnedAddress t (i * 0x1000) := by
    refine ⟨by omega, by rwa [hidx], ?_⟩
    rw [hidx, hsame.frameState hclaim hi.lt, frameState_claimFrame hpmm hi.lt hi.lt, if_pos rfl]
  have hfree := pmmFreeFrame_owned hinv howned
  rw [hidx] at hfree
  refine ⟨hfree, ⟨hlt, ?_, fun j hj => ?_⟩, hs.init, ?_⟩
  · rw [frameState_releaseFrame hinv hlt hlt, if_pos rfl]
  · have hjs : j < s.frameCount := lt_trans hj hi.lt
    rw [frameState_releaseFrame hinv hlt (by rw [hcount]; exact hjs), if_neg (by omega),
      hsame.frameState hclaim hjs, frameState_claimFrame hpmm hi.lt hjs, if_neg (by omega)]
    exact hi.least j hj
  · obtain ⟨calls, hcalls, hlength⟩ := hs.calls
    refine ⟨calls ++ [.allocated (i * 0x1000)] ++ [.elsewhere] ++ [.freed (i * 0x1000)],
      ((hcalls.snoc (.allocated (pmmAllocateFrame_found hpmm hi))).snoc (.elsewhere hsame)).snoc
        (.freed hfree), ?_⟩
    rw [outstanding_concat, outstanding_concat, outstanding_concat, outstandingAfter,
      outstandingAfter, outstandingAfter, List.erase_cons_head, hlength]

/-- A frame is to be had, unless too few were free. -/
theorem allocate_ends (hn : n < 8) :
    Ends pmmAllocateFrame s (fun a t => ∃ i, LowestFree s i ∧ a = i * 0x1000 ∧ t = claimFrame s i ∧
      Outstanding entries hhdm m s₀ (n + 1) t) (OutOfFrames (freeFrames s₀ < 8)) := by
  have hfree := hs.free h
  rcases (pmmAllocateFrame_ends (hs.serves h).pmm).cases with
    ⟨a, t, hrun, i, hi, ha, ht⟩ | ⟨e, t, hrun, he, hnone⟩
  · exact Ends.of_ok hrun ⟨i, hi, ha, ht, hs.allocated hrun⟩
  · exact Ends.of_error hrun ⟨he, by omega⟩

end Outstanding

/-- **Frames are taken one by one**, while there are any. -/
theorem pmmFrames_ends (h : LimineOk entries hhdm) : ∀ (count : ℕ) {n : ℕ} {s : Kernel},
    Outstanding entries hhdm m s₀ n s → n + count ≤ 8 → Ends (pmmFrames count) s
      (fun frames t => frames.length = count ∧ Outstanding entries hhdm m s₀ (n + count) t)
      (OutOfFrames (freeFrames s₀ < 8))
  | 0, _, _, hs, _ => Ends.pure ⟨rfl, hs⟩
  | count + 1, n, s, hs, hn => by
    unfold pmmFrames
    refine (hs.allocate_ends h (by omega)).bind ?_
    rintro a t ⟨i, -, -, -, ht⟩
    refine (pmmFrames_ends h count ht (by omega)).bind ?_
    rintro frames u ⟨hlength, hu⟩
    refine Ends.pure ⟨by rw [List.length_cons, hlength], ?_⟩
    rwa [show n + (count + 1) = n + 1 + count by omega]

/-- **The reuse test** reads what it wrote, and gets its frame back. -/
theorem pmmReuseTest_ends (h : LimineOk entries hhdm) (hs : Outstanding entries hhdm m s₀ n s)
    (hn : n < 8) : Ends (pmmReuseTest hhdm) s
      (fun r t => r.1 = 31 ∧ Outstanding entries hhdm m s₀ (n + 1) t)
      (OutOfFrames (freeFrames s₀ < 8)) := by
  unfold pmmReuseTest
  refine (hs.allocate_ends h hn).bind ?_
  rintro _ _ ⟨i, hi, rfl, rfl, -⟩
  obtain ⟨haddr, hsame⟩ := hs.written h hi 31
  obtain ⟨hfree, hagain, hreleased⟩ := hs.recycled h hi hsame
  have hrun := pmmAllocateFrame_found (hreleased.serves h).pmm hagain
  rw [haddr]
  refine Ends.step (EStateM.run_modify _ _) ?_
  refine Ends.step (a := 31) (t := { claimFrame s i with
    mem := store64 (claimFrame s i).mem (i * 0x1000 + hhdm) 31 }) ?_ ?_
  · unfold readUint64
    rw [run_bind_ok (EStateM.run_get _)]
    change EStateM.Result.ok (load64 (store64 _ _ 31) _) _ = _
    rw [load64_store64_same (by decide)]
  refine Ends.step hfree (Ends.step hrun ?_)
  rw [if_neg (by simp)]
  exact Ends.pure ⟨rfl, hreleased.allocated hrun⟩

end KbmOs
