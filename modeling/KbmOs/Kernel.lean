import KbmOs.Lib.Bitmap
/-!
# The kernel's memory subsystem: state and panics

The statics of `kernel/pmm.c` and `kernel/heap.c` beside the RAM their
pointers reach, and the way a kernel function ends: it returns, or it
panics, which halts the machine in the state it has reached. A pointer is
a number: a physical address plus the HHDM offset, in 64 bits.
-/

namespace KbmOs

open ByteMemory

/-- A sum or product in 64 bits. -/
def wrap (n : ℕ) : ℕ := n % 2 ^ 64

/-- A difference in 64 bits. -/
def wrapSub (a b : ℕ) : ℕ := (a + (2 ^ 64 - b)) % 2 ^ 64

theorem wrap_of_lt {n : ℕ} (h : n < 2 ^ 64) : wrap n = n := Nat.mod_eq_of_lt h

theorem wrapSub_of_le {a b : ℕ} (ha : a < 2 ^ 64) (h : b ≤ a) : wrapSub a b = a - b := by
  unfold wrapSub
  omega

/-- Why a kernel function does not return. -/
inductive Stop
  /-- `panic(message)`: the message is logged and the CPU halts. -/
  | panic (message : String)
  /-- A bitmap byte at or beyond `bitmap_byte_count` was accessed; the
  source gives that no meaning. -/
  | fault
  /-- A walk of the free list does not end. -/
  | hang
deriving DecidableEq, Repr

/-- RAM, and the statics of the two allocators. -/
structure Kernel where
  /-- RAM by pointer: the byte at an address the HHDM maps. -/
  mem : Mem
  pmmBase : ℕ := 0
  pmmEnd : ℕ := 0
  nextFrameAddress : ℕ := 0
  bitmapByteCount : ℕ := 0
  frameCount : ℕ := 0
  bitmapPageCount : ℕ := 0
  bitmapPointer : ℕ := 0
  bitmapPhysicalAddress : ℕ := 0
  bitmapReady : ℕ := 0
  ownershipBitmapPointer : ℕ := 0
  ownershipBitmapPhysicalAddress : ℕ := 0
  heapHhdmOffset : ℕ := 0
  heapReady : ℕ := 0
  heapUsedBytes : ℕ := 0
  heapFrameCount : ℕ := 0
  heapFreeList : ℕ := 0

/-- A kernel function that returns an `α`, or stops. -/
abbrev KernelM (α : Type) := EStateM Stop Kernel α

/-- `panic` never returns. -/
def panic {α : Type} (message : String) : KernelM α := throw (Stop.panic message)

variable {α β : Type} {x : KernelM α} {f : α → KernelM β} {s s' : Kernel} {a : α} {b : β}
variable {e : Stop}

@[simp] theorem run_panic (message : String) (s : Kernel) :
    (panic message : KernelM α).run s = .error (.panic message) s := rfl

/-- A call that returns is followed by what comes after it. -/
theorem run_bind_ok (h : x.run s = .ok a s') : (x >>= f).run s = (f a).run s' := by
  rw [EStateM.run_bind, h]

/-- A call that stops stops its caller. -/
theorem run_bind_error (h : x.run s = .error e s') : (x >>= f).run s = .error e s' := by
  rw [EStateM.run_bind, h]

/-- **A sequence returns only through both its parts.** -/
theorem of_run_bind (h : (x >>= f).run s = .ok b s') :
    ∃ a t, x.run s = .ok a t ∧ (f a).run t = .ok b s' := by
  rcases hx : x.run s with ⟨a, t⟩ | ⟨e, t⟩
  · exact ⟨a, t, rfl, by rwa [run_bind_ok hx] at h⟩
  · rw [run_bind_error hx] at h
    cases h

end KbmOs
