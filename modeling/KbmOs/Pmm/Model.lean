import KbmOs.Kernel
/-!
# The physical memory manager

`kernel/pmm.c`, function by function. Two bitmaps hold a bit for every
4 KiB frame below the highest usable address; `pmmInit` sizes them from
Limine's memory map, takes their storage from the largest usable range and
marks what may be given out. The ownership and primary helpers of the
source differ in the bitmap they touch, so each is one of
`markFrameFree`, `markFrameUsed` and `isFrameFree` at its own pointer.
-/

namespace KbmOs

open ByteMemory PackedBits

/-! ## The memory map -/

/-- One entry of Limine's memory map. -/
structure MemmapEntry where
  base : ℕ
  length : ℕ
  type : ℕ
deriving DecidableEq, Repr

/-- `LIMINE_MEMMAP_USABLE`. -/
def limineMemmapUsable : ℕ := 0

/-- `address & ~0xFFF`. -/
def maskPage (address : ℕ) : ℕ := address &&& (2 ^ 64 - 2 ^ 12)

/-- The entry's start, rounded up to a frame. -/
def MemmapEntry.usableBase (entry : MemmapEntry) : ℕ := maskPage (wrap (entry.base + 0xFFF))

/-- The entry's end, rounded down to a frame. -/
def MemmapEntry.usableEnd (entry : MemmapEntry) : ℕ := maskPage (wrap (entry.base + entry.length))

/-- The running maxima of `pmm_init`'s first loop. -/
structure RangeScan where
  highestUsableEnd : ℕ := 0
  largestUsableBase : ℕ := 0
  largestUsableEnd : ℕ := 0
  largestUsableLength : ℕ := 0

/-- One turn of that loop. -/
def RangeScan.step (scan : RangeScan) (entry : MemmapEntry) : RangeScan :=
  if entry.type = limineMemmapUsable then
    let usableBase := entry.usableBase
    let usableEnd := entry.usableEnd
    let usableLength := wrapSub usableEnd usableBase
    let scan := if usableEnd > scan.highestUsableEnd then
        { scan with highestUsableEnd := usableEnd }
      else scan
    if usableLength > scan.largestUsableLength then
      { scan with
        largestUsableBase := usableBase
        largestUsableEnd := usableEnd
        largestUsableLength := usableLength }
    else scan
  else scan

/-! ## The bitmap helpers -/

/-- The address of byte `k` of a bitmap. -/
def bitmapAddr (pointer k : ℕ) : ℕ := wrap (pointer + k)

/-- An access to a bitmap's byte: one beyond `bitmap_byte_count` has no
meaning. -/
def accessByte (byteIndex : ℕ) : KernelM Unit := do
  let s ← get
  if byteIndex < s.bitmapByteCount then pure () else throw Stop.fault

/-- `bitmap[byte_index] &= ~(1 << bit_index)`. -/
def markFrameFree (pointer : Kernel → ℕ) (physicalAddress : ℕ) : KernelM Unit := do
  let frameIndex := physicalAddress / 0x1000
  accessByte (frameIndex / 8)
  modify fun s => { s with mem := clearBit s.mem (bitmapAddr (pointer s)) frameIndex }

/-- `bitmap[byte_index] |= (1 << bit_index)`. -/
def markFrameUsed (pointer : Kernel → ℕ) (physicalAddress : ℕ) : KernelM Unit := do
  let frameIndex := physicalAddress / 0x1000
  accessByte (frameIndex / 8)
  modify fun s => { s with mem := setBit s.mem (bitmapAddr (pointer s)) frameIndex }

/-- `(bitmap[byte_index] & (1 << bit_index)) == 0`, as `1` or `0`. -/
def isFrameFree (pointer : Kernel → ℕ) (physicalAddress : ℕ) : KernelM ℕ := do
  let frameIndex := physicalAddress / 0x1000
  let byteIndex := frameIndex / 8
  let bitIndex := frameIndex % 8
  accessByte byteIndex
  let s ← get
  if s.mem (bitmapAddr (pointer s) byteIndex) &&& maskBit bitIndex = 0#8 then pure 1 else pure 0

/-- Clear bit: PMM does not currently give this frame to anyone. -/
abbrev pmmOwnershipMarkFrameFree : ℕ → KernelM Unit := markFrameFree Kernel.ownershipBitmapPointer

/-- Set bit: PMM gave this frame to someone. -/
abbrev pmmOwnershipMarkFrameUsed : ℕ → KernelM Unit := markFrameUsed Kernel.ownershipBitmapPointer

abbrev pmmOwnershipIsFrameFree : ℕ → KernelM ℕ := isFrameFree Kernel.ownershipBitmapPointer

abbrev pmmBitmapMarkFrameFree : ℕ → KernelM Unit := markFrameFree Kernel.bitmapPointer

abbrev pmmBitmapMarkFrameUsed : ℕ → KernelM Unit := markFrameUsed Kernel.bitmapPointer

abbrev pmmBitmapIsFrameFree : ℕ → KernelM ℕ := isFrameFree Kernel.bitmapPointer

/-! ## Allocating and freeing -/

/-- Before the bitmap is ready: the next frame of the chosen range. -/
def bumpFrame : KernelM ℕ := do
  let s ← get
  if wrap (s.nextFrameAddress + 0x1000) ≤ s.pmmEnd then
    set { s with nextFrameAddress := wrap (s.nextFrameAddress + 0x1000) }
    pure s.nextFrameAddress
  else
    panic "KBM_OUT_OF_MEMORY"

/-- The search of `pmm_allocate_frame` from `frameIndex` on, with
`remaining` frames before `frame_count`. -/
def allocateFrom : ℕ → ℕ → KernelM ℕ
  | 0, _ => panic "KBM_OUT_OF_MEMORY"
  | remaining + 1, frameIndex => do
    let physicalAddress := wrap (frameIndex * 0x1000)
    let isFree ← pmmBitmapIsFrameFree physicalAddress
    if isFree = 1 then
      pmmOwnershipMarkFrameUsed physicalAddress
      pmmBitmapMarkFrameUsed physicalAddress
      pure physicalAddress
    else
      allocateFrom remaining (frameIndex + 1)

def pmmAllocateFrame : KernelM ℕ := do
  let s ← get
  if s.bitmapReady = 0 then bumpFrame else allocateFrom s.frameCount 0

def pmmFreeFrame (physicalAddress : ℕ) : KernelM Unit := do
  let s ← get
  if s.bitmapReady = 0 then panic "KBM_BITMAP_NOT_READY"
  else if physicalAddress % 0x1000 ≠ 0 then panic "KBM_ADDRESS_NOT_ALIGNED"
  else if physicalAddress / 0x1000 ≥ s.frameCount then panic "KBM_OUT_OF_FRAME_COUNT"
  else if physicalAddress ≥ s.bitmapPhysicalAddress ∧
      physicalAddress < wrap (s.bitmapPhysicalAddress + wrap (s.bitmapPageCount * 0x1000)) then
    panic "KBM_BETWEEN_BITMAP_ADDRESS"
  else
    let isFree ← pmmOwnershipIsFrameFree physicalAddress
    if isFree = 1 then panic "KBM_FRAME_NOT_ALLOCATED"
    else
      pmmOwnershipMarkFrameFree physicalAddress
      pmmBitmapMarkFrameFree physicalAddress

/-! ## Initialisation -/

/-- `for (i = 0; i < n; i++) body(i)`. -/
def forUpTo (body : ℕ → KernelM Unit) : ℕ → KernelM Unit
  | 0 => pure ()
  | n + 1 => do
    forUpTo body n
    body n

/-- `memset(s, c, n)`, at the low byte of `c`. -/
def memset (p c n : ℕ) : KernelM Unit :=
  forUpTo (fun i => modify fun s => { s with mem := store8 s.mem (wrap (p + i)) (BitVec.ofNat 8 c) })
    n

/-- The second loop of `pmm_init`, at one entry: every frame from the
rounded start up to the rounded end is marked free. -/
def freeEntry (entry : MemmapEntry) : KernelM Unit :=
  if entry.type = limineMemmapUsable then
    forUpTo (fun k => pmmBitmapMarkFrameFree (entry.usableBase + k * 0x1000))
      ((entry.usableEnd - entry.usableBase) / 0x1000)
  else pure ()

/-- `for (i = 0; i < entry_count; i++) freeEntry(entries[i])`. -/
def freeEntries : List MemmapEntry → KernelM Unit
  | [] => pure ()
  | entry :: entries => do
    freeEntry entry
    freeEntries entries

/-- The call takes one frame and drops its address. -/
def dropFrame (_ : ℕ) : KernelM Unit := do
  let _ ← pmmAllocateFrame

/-- The middle of `pmm_init`: both bitmaps' frames are taken from the
chosen range, before normal allocations start. -/
def takeBitmapFrames (scan : RangeScan) : KernelM Unit := do
  modify fun s => { s with
    pmmBase := scan.largestUsableBase
    pmmEnd := scan.largestUsableEnd
    nextFrameAddress := scan.largestUsableBase }
  let bitmapPhysicalAddress ← pmmAllocateFrame
  modify fun s => { s with bitmapPhysicalAddress := bitmapPhysicalAddress }
  let s ← get
  forUpTo dropFrame (wrapSub s.bitmapPageCount 1)
  let ownershipBitmapPhysicalAddress ← pmmAllocateFrame
  modify fun s => { s with ownershipBitmapPhysicalAddress := ownershipBitmapPhysicalAddress }
  let s ← get
  forUpTo dropFrame (wrapSub s.bitmapPageCount 1)

/-- The end of `pmm_init`: every frame starts blocked and owned by nobody,
the usable ones are unblocked, and the bitmaps' own blocked again. -/
def fillBitmaps (entries : List MemmapEntry) (hhdmOffset : ℕ) : KernelM Unit := do
  modify fun s => { s with
    bitmapPointer := wrap (s.bitmapPhysicalAddress + hhdmOffset)
    ownershipBitmapPointer := wrap (s.ownershipBitmapPhysicalAddress + hhdmOffset) }
  let s ← get
  memset s.bitmapPointer 0xFF s.bitmapByteCount
  memset s.ownershipBitmapPointer 0x00 s.bitmapByteCount
  freeEntries entries
  forUpTo (fun i => pmmBitmapMarkFrameUsed (wrap (s.bitmapPhysicalAddress + wrap (i * 0x1000))))
    s.bitmapPageCount
  forUpTo (fun j =>
    pmmBitmapMarkFrameUsed (wrap (s.ownershipBitmapPhysicalAddress + wrap (j * 0x1000))))
    s.bitmapPageCount
  modify fun s => { s with bitmapReady := 1 }

def pmmInit (entries : List MemmapEntry) (hhdmOffset : ℕ) : KernelM Unit := do
  let scan := entries.foldl RangeScan.step {}
  let frameCount := wrap (scan.highestUsableEnd + 0xFFF) / 0x1000
  let bitmapByteCount := wrap (frameCount + 7) / 8
  let bitmapPageCount := wrap (bitmapByteCount + 0xFFF) / 0x1000
  modify fun s => { s with
    frameCount := frameCount
    bitmapByteCount := bitmapByteCount
    bitmapPageCount := bitmapPageCount }
  if scan.largestUsableLength < wrap (wrap (bitmapPageCount * 0x1000) * 2) then
    panic "PMM bitmap does not fit in usable memory"
  else
    takeBitmapFrames scan
    fillBitmaps entries hhdmOffset

/-! ## What the serial log and the shell read -/

def pmmGetFrameCount (s : Kernel) : ℕ := s.frameCount

def pmmGetBitmapByteCount (s : Kernel) : ℕ := s.bitmapByteCount

/-- `count++` for every frame below `frame_count` whose primary bit is
clear. -/
def countFree : ℕ → ℕ → KernelM ℕ
  | 0, count => pure count
  | n + 1, count => do
    let count ← countFree n count
    let isFree ← pmmBitmapIsFrameFree (wrap (n * 0x1000))
    if isFree = 1 then pure (wrap (count + 1)) else pure count

def pmmGetFreeFrameCount : KernelM ℕ := do
  let s ← get
  countFree s.frameCount 0

end KbmOs
