import KbmOs.Heap.Model
import KbmOs.Lib.Runs
import KbmOs.Pmm.Map
/-!
# The two allocators and their clients

The kernel's memory subsystem as one system: the allocators, the pointers
and frames their callers hold, and the bytes callers write. An event is a
call that returns or one byte written; callers free only what they hold,
and write only there. The state starts at what `pmm_init` and `heap_init`
leave on the memory map and offset Limine hands over.
-/

namespace KbmOs

open ByteMemory LabelledRuns

/-- **What Limine promises** of the memory map and the HHDM: a usable entry
holds a whole frame, and the offset, not zero and a multiple of 4096, takes
its addresses to pointers without wrapping. -/
structure LimineOk (entries : List MemmapEntry) (hhdm : ℕ) : Prop where
  frame : ∀ e ∈ entries, e.Usable → ∃ i, e.HasFrame i
  pos : 0 < hhdm
  aligned : hhdm % 0x1000 = 0
  linear : ∀ e ∈ entries, e.Usable → e.base + e.length + hhdm ≤ 2 ^ 64

/-- The allocators, and what their callers hold. -/
structure System where
  kernel : Kernel
  /-- The pointers `kmalloc` returned and `kfree` has not taken back. -/
  live : List ℕ
  /-- The physical addresses of the frames callers got from PMM and have
  not given back. -/
  frames : List ℕ

/-- A call that returned, with its result, or a byte a client wrote. -/
inductive Event
  | kmalloc (size pointer : ℕ)
  | kfree (pointer : ℕ)
  | allocateFrame (address : ℕ)
  | freeFrame (address : ℕ)
  | write (x : ℕ) (value : BitVec 8)

namespace System

/-- The byte at `x` is in the payload of a live pointer. -/
def InPayload (c : System) (p x : ℕ) : Prop :=
  p ≤ x ∧ x < p + blockSize c.kernel.mem (p - 32)

/-- The byte at `x` is in the frame at physical address `a`. -/
def InFrame (c : System) (a x : ℕ) : Prop :=
  a + c.kernel.heapHhdmOffset ≤ x ∧ x < a + c.kernel.heapHhdmOffset + 0x1000

/-- A client may write the byte at `x`. -/
def MayWrite (c : System) (x : ℕ) : Prop :=
  (∃ p ∈ c.live, c.InPayload p x) ∨ ∃ a ∈ c.frames, c.InFrame a x

/-- What one event does to the system. -/
inductive Step : System → Event → System → Prop
  | kmalloc {c : System} {size p : ℕ} {k : Kernel} (hsize : size < 2 ^ 64)
      (hrun : (KbmOs.kmalloc size).run c.kernel = .ok p k) :
      Step c (.kmalloc size p) ⟨k, p :: c.live, c.frames⟩
  | kfree {c : System} {p : ℕ} {k : Kernel} (hlive : p ∈ c.live)
      (hrun : (KbmOs.kfree p).run c.kernel = .ok () k) :
      Step c (.kfree p) ⟨k, c.live.erase p, c.frames⟩
  | allocateFrame {c : System} {a : ℕ} {k : Kernel} (hrun : pmmAllocateFrame.run c.kernel = .ok a k) :
      Step c (.allocateFrame a) ⟨k, c.live, a :: c.frames⟩
  | freeFrame {c : System} {a : ℕ} {k : Kernel} (howned : a ∈ c.frames)
      (hrun : (pmmFreeFrame a).run c.kernel = .ok () k) :
      Step c (.freeFrame a) ⟨k, c.live, c.frames.erase a⟩
  | write {c : System} {x : ℕ} {value : BitVec 8} (hmay : c.MayWrite x) :
      Step c (.write x value)
        ⟨{ c.kernel with mem := store8 c.kernel.mem x value }, c.live, c.frames⟩

/-- The state after `pmm_init` and `heap_init`, with nothing handed out. -/
structure Booted (entries : List MemmapEntry) (hhdm : ℕ) (m : Mem) (c : System) : Prop where
  run : ((pmmInit entries hhdm >>= fun _ => heapInit hhdm).run { mem := m }) = .ok () c.kernel
  live : c.live = []
  frames : c.frames = []

/-- The states the events lead to from boot. -/
def Reachable (entries : List MemmapEntry) (hhdm : ℕ) (m : Mem) (es : List Event) (c : System) :
    Prop := ∃ c₀, Booted entries hhdm m c₀ ∧ Run Step c₀ es c

end System

end KbmOs
