import KbmOs.Heap.Calls
import KbmOs.Memory.System
import KbmOs.Pmm.Run
/-!
# What the memory system keeps

`Inv` couples the two allocators: the frames PMM has given out are those
the callers hold and those the heap has grown by, and the heap's blocks
tile exactly the latter. It is proved here of the state at boot; the next
module proves that every event keeps it.
-/

namespace KbmOs

open ByteMemory LinkedList Tiling FreeList LabelledRuns

variable {entries : List MemmapEntry} {hhdm i j a x : ℕ} {m : Mem} {s s' : Kernel}

/-- The byte at `x` is in frame `i`. -/
def InFrameOf (hhdm i x : ℕ) : Prop := i * 0x1000 + hhdm ≤ x ∧ x < i * 0x1000 + hhdm + 0x1000

/-- The bytes of the frames. -/
def frameBytes (hhdm : ℕ) (frames : List ℕ) : Set ℕ := {x | ∃ i ∈ frames, InFrameOf hhdm i x}

/-- A byte is in one frame only. -/
theorem InFrameOf.unique (hi : InFrameOf hhdm i x) (hj : InFrameOf hhdm j x) : i = j := by
  unfold InFrameOf at hi hj
  omega

/-- The statics that `pmm_init` sets and no later call changes. -/
structure PmmLayout (entries : List MemmapEntry) (hhdm : ℕ) (s : Kernel) : Prop where
  pointer : s.bitmapPointer = s.bitmapPhysicalAddress + hhdm
  ownershipPointer : s.ownershipBitmapPointer = s.ownershipBitmapPhysicalAddress + hhdm
  next : s.ownershipBitmapPhysicalAddress = s.bitmapPhysicalAddress + s.bitmapPageCount * 0x1000
  fits : s.bitmapByteCount ≤ s.bitmapPageCount * 0x1000
  page : s.bitmapPhysicalAddress % 0x1000 = 0
  /-- Both bitmaps lie in one usable entry. -/
  storage : ∃ e ∈ entries, e.Usable ∧ e.base ≤ s.bitmapPhysicalAddress ∧
    s.ownershipBitmapPhysicalAddress + s.bitmapPageCount * 0x1000 ≤ e.base + e.length
  count : s.frameCount = mapFrames entries

theorem LimineOk.mapOk (h : LimineOk entries hhdm) : MapOk entries where
  frame := h.frame
  noWrap e he hu := by
    have hlinear := h.linear e he hu
    have hpos := h.pos
    have haligned := h.aligned
    omega

/-- A frame of a usable entry ends below the top of memory. -/
theorem LimineOk.frame_top (h : LimineOk entries hhdm)
    (hi : ∃ e ∈ entries, e.Usable ∧ e.HasFrame i) : i * 0x1000 + hhdm + 0x1000 ≤ 2 ^ 64 := by
  obtain ⟨e, he, hu, -, hend⟩ := hi
  have hlinear := h.linear e he hu
  omega

theorem Initialised.layout (h : LimineOk entries hhdm) (hs : Initialised entries hhdm m s) :
    PmmLayout entries hhdm s := by
  obtain ⟨e, hfirst, -, hend, hbase⟩ := hs.range
  obtain ⟨hmem, hu⟩ := hfirst.mem
  have hlinear := h.linear e hmem hu
  have hroom := hs.room
  have hnext := hs.next
  have hfits := hs.fits
  have hcount := mapFrames_pos (h.mapOk.hasFrames_iff.2 ⟨e, hmem, hu⟩)
  have hbytes : 0 < s.bitmapByteCount := by
    rw [hs.byteCount]
    unfold mapBytes
    omega
  have hlo : e.base ≤ e.firstFrame * 0x1000 := by
    unfold MemmapEntry.firstFrame
    omega
  have hhi : e.endFrame * 0x1000 ≤ e.base + e.length := by
    unfold MemmapEntry.endFrame
    omega
  exact {
    pointer := by rw [hs.pointer, wrap_of_lt (by omega)]
    ownershipPointer := by rw [hs.ownershipPointer, wrap_of_lt (by omega)]
    next := hnext
    fits := hfits
    page := by rw [hbase]; omega
    storage := ⟨e, hmem, hu, by omega, by omega⟩
    count := hs.frameCount }

/-- The layout is read from the statics. -/
theorem PmmLayout.congr (hs : PmmLayout entries hhdm s)
    (h : s'.bitmapPointer = s.bitmapPointer ∧ s'.ownershipBitmapPointer = s.ownershipBitmapPointer ∧
      s'.bitmapPhysicalAddress = s.bitmapPhysicalAddress ∧
      s'.ownershipBitmapPhysicalAddress = s.ownershipBitmapPhysicalAddress ∧
      s'.bitmapPageCount = s.bitmapPageCount ∧ s'.bitmapByteCount = s.bitmapByteCount ∧
      s'.frameCount = s.frameCount) : PmmLayout entries hhdm s' := by
  obtain ⟨h1, h2, h3, h4, h5, h6, h7⟩ := h
  exact {
    pointer := by rw [h1, h3]; exact hs.pointer
    ownershipPointer := by rw [h2, h4]; exact hs.ownershipPointer
    next := by rw [h4, h3, h5]; exact hs.next
    fits := by rw [h6, h5]; exact hs.fits
    page := by rw [h3]; exact hs.page
    storage := by rw [h3, h4, h5]; exact hs.storage
    count := by rw [h7]; exact hs.count }

/-- **The storage lies in storage frames.** -/
theorem PmmLayout.storageFrame_of_range (hs : PmmLayout entries hhdm s)
    (hlo : s.bitmapPhysicalAddress + hhdm ≤ x)
    (hhi : x < s.ownershipBitmapPhysicalAddress + s.bitmapPageCount * 0x1000 + hhdm) :
    ∃ i, StorageFrame s i ∧ i < s.frameCount ∧ InFrameOf hhdm i x := by
  obtain ⟨e, he, hu, -, hend⟩ := hs.storage
  have hnext := hs.next
  have hpage := hs.page
  have hcount := endFrame_le_mapFrames he hu
  have hle : s.ownershipBitmapPhysicalAddress + s.bitmapPageCount * 0x1000 ≤ e.endFrame * 0x1000 := by
    unfold MemmapEntry.endFrame
    omega
  refine ⟨(x - hhdm) / 0x1000, ⟨?_, ?_⟩, ?_, ?_⟩
  · omega
  · omega
  · rw [hs.count]
    omega
  · unfold InFrameOf
    omega

/-- A bitmap's byte lies in the storage. -/
theorem PmmLayout.range_of_bitmapByte (h : LimineOk entries hhdm) (hs : PmmLayout entries hhdm s)
    (hx : BitmapByte s x) : s.bitmapPhysicalAddress + hhdm ≤ x ∧
      x < s.ownershipBitmapPhysicalAddress + s.bitmapPageCount * 0x1000 + hhdm := by
  obtain ⟨e, he, hu, hlo, hhi⟩ := hs.storage
  obtain ⟨k, hk, hxk⟩ := hx
  have hlinear := h.linear e he hu
  have hnext := hs.next
  have hfits := hs.fits
  unfold bitmapAddr at hxk
  rw [hs.pointer, hs.ownershipPointer] at hxk
  rcases hxk with hxk | hxk
  · rw [wrap_of_lt (by omega)] at hxk
    omega
  · rw [wrap_of_lt (by omega)] at hxk
    omega

/-- **What PMM keeps from `pmm_init` on**, whoever calls it. -/
structure PmmServes (entries : List MemmapEntry) (hhdm : ℕ) (s : Kernel) : Prop where
  pmm : PmmInv s
  layout : PmmLayout entries hhdm s
  usable : ∀ i, i < s.frameCount → frameState s i ≠ .reserved →
    ∃ e ∈ entries, e.Usable ∧ e.HasFrame i
  reserved : ∀ i, StorageFrame s i → i < s.frameCount → frameState s i = .reserved

theorem Initialised.serves (h : LimineOk entries hhdm) (hs : Initialised entries hhdm m s) :
    PmmServes entries hhdm s where
  pmm := hs.pmmInv h.mapOk.sane
  layout := hs.layout h
  usable _ hi hne := hs.usable hi hne
  reserved _ hst hi := hs.reserved hi hst

/-- **It does not depend on which frames are given out.** -/
theorem PmmServes.congr (hs : PmmServes entries hhdm s) (hpmm : PmmInv s')
    (hstatics : s'.bitmapPointer = s.bitmapPointer ∧
      s'.ownershipBitmapPointer = s.ownershipBitmapPointer ∧
      s'.bitmapPhysicalAddress = s.bitmapPhysicalAddress ∧
      s'.ownershipBitmapPhysicalAddress = s.ownershipBitmapPhysicalAddress ∧
      s'.bitmapPageCount = s.bitmapPageCount ∧ s'.bitmapByteCount = s.bitmapByteCount ∧
      s'.frameCount = s.frameCount)
    (hreserved : ∀ i, i < s.frameCount →
      (frameState s' i = .reserved ↔ frameState s i = .reserved)) :
    PmmServes entries hhdm s' where
  pmm := hpmm
  layout := hs.layout.congr hstatics
  usable i hi hne := by
    rw [hstatics.2.2.2.2.2.2] at hi
    exact hs.usable i hi fun hres => hne ((hreserved i hi).2 hres)
  reserved i hst hi := by
    obtain ⟨-, -, hfirst, hsecond, hpages, -, hcount⟩ := hstatics
    rw [hcount] at hi
    refine (hreserved i hi).2 (hs.reserved i ?_ hi)
    unfold StorageFrame at hst ⊢
    rwa [hfirst, hsecond, hpages] at hst

/-- Nor on what is not PMM's. -/
theorem PmmServes.same (hs : PmmServes entries hhdm s) (hsame : SamePmm s s') :
    PmmServes entries hhdm s' := by
  refine hs.congr (hsame.pmmInv hs.pmm) ?_ fun i hi => by rw [hsame.frameState hs.pmm hi]
  rw [hsame.statics]
  exact ⟨rfl, rfl, rfl, rfl, rfl, rfl, rfl⟩

theorem PmmServes.claim (hs : PmmServes entries hhdm s) (hi : i < s.frameCount)
    (hfree : frameState s i = .free) : PmmServes entries hhdm (claimFrame s i) :=
  hs.congr (hs.pmm.claim hi hfree) ⟨rfl, rfl, rfl, rfl, rfl, rfl, rfl⟩
    fun _ hj => reserved_claimFrame hs.pmm hi hfree hj

theorem PmmServes.release (hs : PmmServes entries hhdm s) (hi : i < s.frameCount)
    (how : frameState s i = .owned) : PmmServes entries hhdm (releaseFrame s i) :=
  hs.congr (hs.pmm.release hi how) ⟨rfl, rfl, rfl, rfl, rfl, rfl, rfl⟩
    fun _ hj => reserved_releaseFrame hs.pmm hi how hj

namespace System

/-- **The invariant of the memory system**, with the heap's free and live
blocks and the frames it has grown by. -/
structure Inv (entries : List MemmapEntry) (hhdm : ℕ) (c : System) (free blocks : List Blk)
    (grown : List ℕ) : Prop where
  pmm : PmmInv c.kernel
  layout : PmmLayout entries hhdm c.kernel
  offset : c.kernel.heapHhdmOffset = hhdm
  rep : HeapRep c.kernel free blocks (frameBytes hhdm grown)
  live : c.live.Perm (blocks.map fun b => b.addr + 32)
  /-- A frame is owned by the heap or by a caller. -/
  owned : ∀ i, i < c.kernel.frameCount →
    (frameState c.kernel i = .owned ↔ i ∈ grown ∨ i * 0x1000 ∈ c.frames)
  /-- And not by both. -/
  apart : ∀ i ∈ grown, i < c.kernel.frameCount ∧ i * 0x1000 ∉ c.frames
  frames : ∀ a ∈ c.frames, a % 0x1000 = 0 ∧ a / 0x1000 < c.kernel.frameCount
  nodup : c.frames.Nodup ∧ grown.Nodup
  usable : ∀ i, i < c.kernel.frameCount → frameState c.kernel i ≠ .reserved →
    ∃ e ∈ entries, e.Usable ∧ e.HasFrame i
  reserved : ∀ i, StorageFrame c.kernel i → i < c.kernel.frameCount →
    frameState c.kernel i = .reserved

variable {c c₀ : System} {free blocks : List Blk} {grown : List ℕ}

theorem Inv.serves (hinv : Inv entries hhdm c free blocks grown) :
    PmmServes entries hhdm c.kernel :=
  ⟨hinv.pmm, hinv.layout, hinv.usable, hinv.reserved⟩

/-- **`heap_init` on a state PMM serves**, with the frames PMM has given out
in the callers' hands. -/
theorem Inv.of_heapInit (hs : PmmServes entries hhdm s)
    (hheap : (heapInit hhdm).run s = .ok () c.kernel) (hlive : c.live = [])
    (hnodup : c.frames.Nodup) (howned : ∀ a, a ∈ c.frames ↔ OwnedAddress s a) :
    Inv entries hhdm c [] [] [] := by
  have hk : c.kernel = { s with
      heapHhdmOffset := hhdm
      heapReady := 1
      heapUsedBytes := 0
      heapFrameCount := 0
      heapFreeList := 0 } := by
    unfold heapInit at hheap
    rw [EStateM.run_modify] at hheap
    exact (EStateM.Result.ok.inj hheap).2.symm
  have hsame : SamePmm s c.kernel := ⟨by rw [hk], fun x _ => by rw [hk]⟩
  have hserves := hs.same hsame
  have hcount := hsame.frameCount_eq
  refine {
    pmm := hserves.pmm
    layout := hserves.layout
    offset := by rw [hk]
    rep := ?_
    live := by rw [hlive]; exact List.Perm.refl _
    owned := fun i hi => ?_
    apart := by simp
    frames := fun a ha => ?_
    nodup := ⟨hnodup, List.nodup_nil⟩
    usable := hserves.usable
    reserved := hserves.reserved }
  · have hempty : frameBytes hhdm [] = ∅ := by
      unfold frameBytes
      simp
    rw [hempty]
    exact {
      ready := by rw [hk]; exact one_ne_zero
      sorted := List.Pairwise.nil
      tiles := ⟨List.Pairwise.nil, by simp⟩
      range := by simp
      placed := by simp
      leads := by rw [hk]; exact ⟨rfl, trivial⟩
      listed := by simp
      taken := by simp }
  · rw [hcount] at hi
    have hidx : i * 0x1000 / 0x1000 = i := by omega
    rw [hsame.frameState hs.pmm hi, howned]
    unfold OwnedAddress
    rw [hidx]
    constructor
    · exact fun how => Or.inr ⟨by omega, hi, how⟩
    · rintro (hin | ⟨-, -, how⟩)
      · cases hin
      · exact how
  · obtain ⟨haligned, hlt, -⟩ := (howned a).1 ha
    rw [hcount]
    exact ⟨haligned, hlt⟩

/-- **The invariant holds at boot.** -/
theorem Booted.inv (h : LimineOk entries hhdm) (hc : Booted entries hhdm m c) :
    Inv entries hhdm c [] [] [] := by
  obtain ⟨⟨⟩, k, hinit, hheap⟩ := of_run_bind hc.run
  have hs := of_pmmInit h.mapOk.sane hinit
  refine Inv.of_heapInit (hs.serves h) hheap hc.live ?_ fun a => ?_
  · rw [hc.frames]
    exact List.nodup_nil
  · rw [hc.frames]
    exact ⟨fun ha => (by cases ha), fun how => absurd how (hs.not_owned h.mapOk.sane)⟩

end System

end KbmOs
