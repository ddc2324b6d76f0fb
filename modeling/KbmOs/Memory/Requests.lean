import KbmOs.Memory.Isolation
/-!
# What a request of `kmalloc` comes to

`kmalloc` rounds the size up to 16 before it checks it, and the rounding
wraps in the last fifteen sizes of the 64-bit range: such a request passes
as one for nothing. Up to there a request that returns gets a block of at
least its size in the heap's frames, and one larger than a frame holds
panics.
-/

namespace KbmOs

open ByteMemory LinkedList Tiling FreeList LabelledRuns

open KbmOs.System (heapBytes range)

variable {entries : List MemmapEntry} {hhdm n : ℕ} {free blocks : List Blk} {grown : List ℕ}
variable {c : System}

/-- **What a call that returns hands out.** -/
theorem KmallocOk.payload {r : ℕ} {pre post : List Blk} {b : Blk} {grown' : List ℕ} {k : Kernel}
    (hok : KmallocOk entries hhdm r c free blocks grown pre b post grown' k) :
    r ≤ blockSize k.mem b.addr ∧ range (b.addr + 32) (blockSize k.mem b.addr) ⊆
      heapBytes hhdm ⟨k, (b.addr + 32) :: c.live, c.frames⟩ := by
  have hmem : granted 32 16 r b ∈ granted 32 16 r b :: blocks := List.mem_cons_self
  have hsize : blockSize k.mem b.addr = (granted 32 16 r b).size := by
    have hstamp := (hok.inv.rep.taken _ hmem).size
    rwa [granted_addr] at hstamp
  rw [hsize]
  refine ⟨le_granted_size hok.fits, fun x hx => ?_⟩
  rw [← hok.inv.heapBytes_eq]
  refine hok.inv.held_region ⟨_, List.mem_append_right _ hmem, ?_⟩
  obtain ⟨hlo, hhi⟩ := hx
  unfold Blk.Holds Blk.stop
  rw [granted_addr]
  omega

namespace System

/-- **A request of `n` bytes is honoured**: the call panics, or the payload
it returns has `n` bytes at least and lies in the heap's frames. And where
no frame could hold it the panic is that of an overflow. -/
structure Honoured (hhdm : ℕ) (c : System) (n : ℕ) : Prop where
  outcome : (∃ message k, (KbmOs.kmalloc n).run c.kernel = .error (.panic message) k) ∨
    ∃ p k, (KbmOs.kmalloc n).run c.kernel = .ok p k ∧ n ≤ blockSize k.mem (p - 32) ∧
      range p (blockSize k.mem (p - 32)) ⊆ heapBytes hhdm ⟨k, p :: c.live, c.frames⟩
  overflow : 0x1000 - 32 < n →
    ∃ k, (KbmOs.kmalloc n).run c.kernel = .error (.panic "KBM_HEAP_OVERFLOW") k

/-- **Below the last fifteen sizes a request is honoured.** -/
theorem Inv.honoured (h : LimineOk entries hhdm) (hinv : Inv entries hhdm c free blocks grown)
    (hn : n ≤ 2 ^ 64 - 16) : Honoured hhdm c n := by
  obtain ⟨hle, hlt⟩ := le_roundUpTo16 hn
  rcases hinv.kmalloc_cases h n with ⟨rfl, herr⟩ | ⟨-, -, herr⟩ | ⟨-, hsmall, -, -, herr⟩ |
    ⟨-, hsmall, pre, b, post, grown', k, hsrc, hrun, hok⟩
  · exact ⟨Or.inl ⟨_, _, herr⟩, fun hlarge => absurd hlarge (by decide)⟩
  · exact ⟨Or.inl ⟨_, _, herr⟩, fun _ => ⟨_, herr⟩⟩
  · exact ⟨Or.inl ⟨_, _, herr⟩, fun hlarge => by omega⟩
  · obtain ⟨hsize, hbytes⟩ := hok.payload
    refine ⟨Or.inr ⟨_, k, hrun, ?_, ?_⟩, fun hlarge => by omega⟩
    · rw [Nat.add_sub_cancel]
      omega
    · rwa [Nat.add_sub_cancel]

/-- **Above, it is no overflow**: the rounded size is nothing. -/
theorem Inv.not_honoured (h : LimineOk entries hhdm) (hinv : Inv entries hhdm c free blocks grown)
    (hn : n < 2 ^ 64) (hlarge : 2 ^ 64 - 16 < n) : ¬ Honoured hhdm c n := by
  intro hon
  obtain ⟨k, hover⟩ := hon.overflow (by omega)
  have hzero := roundUpTo16_wraps hn hlarge
  rcases hinv.kmalloc_cases h n with ⟨rfl, herr⟩ | ⟨-, hr, -⟩ | ⟨-, -, -, -, herr⟩ |
    ⟨-, -, pre, b, post, grown', k', hsrc, hrun, hok⟩
  · omega
  · omega
  · rw [hover] at herr
    simp at herr
  · rw [hover] at hrun
    cases hrun

/-- **Requests of `kmalloc`.** In every reachable state a request for any
64-bit size is honoured exactly up to `2 ^ 64 - 16`, the last size whose
rounding does not wrap. -/
theorem kmalloc_honoured_iff (entries : List MemmapEntry) (hhdm : ℕ) (m : Mem) (es : List Event)
    (c : System) (n : ℕ) (h : LimineOk entries hhdm) (hc : Reachable entries hhdm m es c)
    (hpos : 0 < n) (hn : n < 2 ^ 64) : Honoured hhdm c n ↔ n ≤ 2 ^ 64 - 16 := by
  obtain ⟨free, blocks, grown, hinv⟩ := hc.inv h
  constructor
  · intro hon
    by_contra hlarge
    exact hinv.not_honoured h hn (by omega) hon
  · exact hinv.honoured h

/-- So one for 100 bytes is. -/
theorem kmalloc_honoured_iff_sampleMap : ∃ c p,
    Reachable sampleMap sampleOffset blankMem [.kmalloc 100 p] c ∧ Honoured sampleOffset c 100 := by
  obtain ⟨c, p, hc, -⟩ := sample_kmalloc
  exact ⟨c, p, hc, (kmalloc_honoured_iff sampleMap sampleOffset blankMem _ c 100 sampleMap_limineOk hc
    (by decide) (by decide)).2 (by decide)⟩

/-- **The largest 64-bit size gets an empty payload.** -/
theorem kmalloc_largest_empty : ∃ c, Reachable sampleMap sampleOffset blankMem [] c ∧
    (∃ p k, (KbmOs.kmalloc (2 ^ 64 - 1)).run c.kernel = .ok p k ∧
      blockSize k.mem (p - 32) = 0) ∧
    ¬ Honoured sampleOffset c (2 ^ 64 - 1) := by
  obtain ⟨c, hc⟩ := sampleMap_boots
  have hinv := hc.inv sampleMap_limineOk
  have hzero : roundUpTo16 (2 ^ 64 - 1) = 0 := by decide
  obtain ⟨k, hrun, hok⟩ := hinv.kmalloc_fresh sampleMap_limineOk (n := 2 ^ 64 - 1) (by decide)
    (by decide) (by simp) hc.sample_lowest
  refine ⟨c, ⟨c, hc, .nil⟩, ⟨_, k, hrun, ?_⟩, hinv.not_honoured sampleMap_limineOk (by decide)
    (by decide)⟩
  have hstamp := (hok.inv.rep.taken _ List.mem_cons_self).size
  rw [granted_addr, hzero] at hstamp
  rw [Nat.add_sub_cancel]
  exact hstamp.trans rfl

end System

end KbmOs
