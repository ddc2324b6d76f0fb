import KbmOs.Lib.LinkedList
import KbmOs.Pmm.Model
/-!
# The kernel heap

`kernel/heap.c`, function by function. A heap block is a 32-byte header in
front of its payload, and the free blocks are linked through their headers
in address order. The two walks of the free list are one function at the
test each stops on, and so are the two merges of `kfree` at the pair of
blocks they join.
-/

namespace KbmOs

open ByteMemory LinkedList

/-- `HEAP_BLOCK_MAGIC`. -/
def heapBlockMagic : ℕ := 0x4B424D48

/-- `sizeof(struct heap_block)`. -/
abbrev heapBlockSize : ℕ := 32

/-! ## The header's fields -/

def blockSize (m : Mem) (block : ℕ) : ℕ := load64 m block

def blockNext (m : Mem) (block : ℕ) : ℕ := load64 m (block + 8)

def blockIsFree (m : Mem) (block : ℕ) : ℕ := load64 m (block + 16)

def blockMagic (m : Mem) (block : ℕ) : ℕ := load64 m (block + 24)

/-- `block->size = size`. -/
def setSize (block size : ℕ) : KernelM Unit :=
  modify fun s => { s with mem := store64 s.mem block size }

/-- `block->next = next`. -/
def setNext (block next : ℕ) : KernelM Unit :=
  modify fun s => { s with mem := store64 s.mem (block + 8) next }

/-- `block->is_free = flag`. -/
def setIsFree (block flag : ℕ) : KernelM Unit :=
  modify fun s => { s with mem := store64 s.mem (block + 16) flag }

/-- `block->magic = HEAP_BLOCK_MAGIC`. -/
def setMagic (block : ℕ) : KernelM Unit :=
  modify fun s => { s with mem := store64 s.mem (block + 24) heapBlockMagic }

/-- The link before a block: the list's head where `previous` is null. -/
def setSuccessor (previous block : ℕ) : KernelM Unit :=
  if previous = 0 then modify fun s => { s with heapFreeList := block }
  else setNext previous block

/-! ## `heap.c` -/

/-- `(size + 0xF) & ~0xF`. -/
def roundUpTo16 (size : ℕ) : ℕ := wrap (size + 0xF) &&& (2 ^ 64 - 2 ^ 4)

def heapInit (hhdmOffset : ℕ) : KernelM Unit :=
  modify fun s => { s with
    heapHhdmOffset := hhdmOffset
    heapReady := 1
    heapUsedBytes := 0
    heapFrameCount := 0
    heapFreeList := 0 }

/-- A walk of the free list, with the block before the current one in
hand, to the first block that passes the test. More blocks than addresses
is a list that never ends. -/
def walkFreeList (test : Mem → ℕ → Bool) : KernelM (ℕ × ℕ) := do
  let s ← get
  match walk (blockNext s.mem) (test s.mem) (2 ^ 64) 0 s.heapFreeList with
  | some found => pure found
  | none => throw Stop.hang

/-- The block is linked into the free list in address order, so that
adjacent blocks can be merged; the one before it is returned. -/
def linkInOrder (block : ℕ) : KernelM ℕ := do
  let (previous, current) ← walkFreeList fun _ current => decide (block ≤ current)
  setNext block current
  setSuccessor previous block
  pure previous

/-- No block fits: a frame from PMM becomes one free block. -/
def growHeap : KernelM (ℕ × ℕ) := do
  let frame ← pmmAllocateFrame
  let s ← get
  let newFrameHeader := wrap (frame + s.heapHhdmOffset)
  setSize newFrameHeader (0x1000 - heapBlockSize)
  setIsFree newFrameHeader 1
  setMagic newFrameHeader
  let previous ← linkInOrder newFrameHeader
  modify fun s => { s with heapFrameCount := wrap (s.heapFrameCount + 1) }
  pure (previous, newFrameHeader)

/-- The second half of `kmalloc` up to the header's flag: what is left of
the block takes its place in the free list, if that can be a block of its
own, and the block leaves it. -/
def cutBlock (previous block size : ℕ) : KernelM Unit := do
  let s ← get
  let remaining := wrapSub (blockSize s.mem block) size
  if remaining ≥ heapBlockSize + 16 then
    let newBlock := wrap (block + heapBlockSize + size)
    setSize newBlock (wrapSub remaining heapBlockSize)
    let s ← get
    setNext newBlock (blockNext s.mem block)
    setIsFree newBlock 1
    setMagic newBlock
    setSuccessor previous newBlock
    setSize block size
  else
    setSuccessor previous (blockNext s.mem block)

/-- And the rest of it. -/
def handOut (previous block size : ℕ) : KernelM ℕ := do
  cutBlock previous block size
  setIsFree block 0
  setNext block 0
  modify fun s => { s with heapUsedBytes := wrap (s.heapUsedBytes + blockSize s.mem block) }
  pure (wrap (block + heapBlockSize))

def kmalloc (size : ℕ) : KernelM ℕ := do
  let s ← get
  if s.heapReady = 0 then panic "KBM_HEAP_NOT_INITIATED"
  else if size = 0 then panic "KBM_0_HEAP_ALLOCATION"
  else if roundUpTo16 size > 0x1000 - heapBlockSize then panic "KBM_HEAP_OVERFLOW"
  else
    let (previous, block) ← walkFreeList fun m block =>
      decide (blockIsFree m block = 1 ∧ blockSize m block ≥ roundUpTo16 size)
    if block = 0 then
      let (previous, block) ← growHeap
      handOut previous block (roundUpTo16 size)
    else
      handOut previous block (roundUpTo16 size)

/-- `into` takes over the block behind it. -/
def absorb (into next : ℕ) : KernelM Unit := do
  let s ← get
  setSize into (wrap (blockSize s.mem into + wrap (heapBlockSize + blockSize s.mem next)))
  let s ← get
  setNext into (blockNext s.mem next)

/-- If the following free block starts right after this payload, combine
them. -/
def mergeNext (block : ℕ) : KernelM Unit := do
  let s ← get
  let next := blockNext s.mem block
  if next ≠ 0 ∧ wrap (block + heapBlockSize + blockSize s.mem block) = next then
    absorb block next
  else pure ()

/-- The previous block may also end exactly where this header begins. -/
def mergePrevious (previous block : ℕ) : KernelM Unit := do
  let s ← get
  if previous ≠ 0 ∧ wrap (previous + heapBlockSize + blockSize s.mem previous) = block then
    absorb previous block
  else pure ()

def kfree (pointer : ℕ) : KernelM Unit := do
  if pointer = 0 then pure ()
  else
    let s ← get
    let block := wrapSub pointer heapBlockSize
    if s.heapReady = 0 then panic "KBM_HEAP_NOT_INITIATED"
    else if blockMagic s.mem block ≠ heapBlockMagic then panic "KBM_HEAP_INVALID_FREE"
    else if blockIsFree s.mem block ≠ 0 then panic "KBM_HEAP_DOUBLE_FREE"
    else
      setIsFree block 1
      let previous ← linkInOrder block
      mergeNext block
      mergePrevious previous block
      modify fun t =>
        { t with heapUsedBytes := wrapSub t.heapUsedBytes (blockSize s.mem block) }

def heapGetUsedBytes (s : Kernel) : ℕ := s.heapUsedBytes

def heapGetFrameCount (s : Kernel) : ℕ := s.heapFrameCount

end KbmOs
