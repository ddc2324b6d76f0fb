import KbmOs.Memory.Isolation
import Mathlib.Algebra.BigOperators.Group.List.Basic
import Mathlib.Algebra.Order.BigOperators.Group.List
import Mathlib.Algebra.Order.Group.Nat
/-!
# What the counters of the heap say

The blocks tile the frames the heap has taken, so headers, free payloads
and live payloads together make up 4096 bytes a frame. `kmalloc` counts the
size that is left after a split and `kfree` the one from before the merges,
and between the two no header of a live block changes: the bytes in use are
the sum of the live sizes in every reachable state, and neither counter
wraps.
-/

namespace KbmOs

open ByteMemory LinkedList Tiling FreeList LabelledRuns

variable {entries : List MemmapEntry} {hhdm p : ℕ} {m : Mem} {free blocks free' blocks' : List Blk}
variable {grown grown' : List ℕ} {b : Blk}

/-- Frames tile their bytes: they are blocks without a header. -/
theorem tiles_frames (h : grown.Nodup) :
    Tiles 0 (grown.map fun i => ⟨i * 0x1000 + hhdm, 0x1000⟩) (frameBytes hhdm grown) where
  apart := by
    refine List.pairwise_map.2 (h.imp fun {i j} hij => ?_)
    unfold Apart Blk.stop
    dsimp only
    omega
  cover x := by
    have hholds : ∀ i, InFrameOf hhdm i x ↔ (⟨i * 0x1000 + hhdm, 0x1000⟩ : Blk).Holds 0 x := by
      intro i
      unfold InFrameOf Blk.Holds Blk.stop
      dsimp only
      omega
    constructor
    · rintro ⟨i, hi, hix⟩
      exact ⟨_, List.mem_map_of_mem hi, (hholds i).1 hix⟩
    · rintro ⟨b, hb, hbx⟩
      obtain ⟨i, hi, rfl⟩ := List.mem_map.1 hb
      exact ⟨i, hi, (hholds i).2 hbx⟩

/-- What the headers and the payloads of a list of blocks take. -/
theorem sum_map_header (h : ℕ) (l : List Blk) :
    (l.map fun b => h + b.size).sum = h * l.length + (l.map Blk.size).sum := by
  induction l with
  | nil => rfl
  | cons b l ih =>
    rw [List.map_cons, List.sum_cons, List.map_cons, List.sum_cons, List.length_cons, ih]
    lia

namespace System

variable {c c' : System} {e : Event} {es es₁ es₂ : List Event}

/-- The frames the heap has taken from PMM: those given out that no caller
holds. -/
def heapFrames (c : System) : List ℕ :=
  (List.range c.kernel.frameCount).filter fun i =>
    frameState c.kernel i = .owned ∧ i * 0x1000 ∉ c.frames

/-- The payload size in the header in front of the pointer. -/
def payloadSize (c : System) (p : ℕ) : ℕ := blockSize c.kernel.mem (p - 32)

/-- **What the counters are to say.** -/
structure Tally (s : Kernel) (blocks : List Blk) (grown : List ℕ) : Prop where
  used : s.heapUsedBytes = (blocks.map Blk.size).sum
  count : s.heapFrameCount = grown.length

section Totals

variable (hinv : Inv entries hhdm c free blocks grown)
include hinv

/-- **Headers and payloads make up the frames.** -/
theorem Inv.total : 32 * (free.length + blocks.length) + ((free.map Blk.size).sum +
    (blocks.map Blk.size).sum) = 0x1000 * grown.length := by
  have hblocks := hinv.rep.tiles.encard
  rw [(tiles_frames hinv.nodup.2).encard, Nat.cast_inj, sum_map_header, sum_map_header,
    List.length_append, List.map_append, List.sum_append, List.map_map] at hblocks
  have hframes : (grown.map (Blk.size ∘ fun i => ⟨i * 0x1000 + hhdm, 0x1000⟩)).sum =
      0x1000 * grown.length := by
    show (grown.map fun _ => 0x1000).sum = _
    rw [List.map_const', List.sum_replicate_nat, Nat.mul_comm]
  omega

/-- The heap's frames are frames, each taken once. -/
theorem Inv.grown_lt : 0x1000 * grown.length < 2 ^ 64 := by
  have hframes := hinv.pmm.frames
  have hsub : grown ⊆ List.range c.kernel.frameCount := fun i hi =>
    List.mem_range.2 (hinv.apart i hi).1
  have hle := (hinv.nodup.2.subperm hsub).length_le
  rw [List.length_range] at hle
  omega

theorem Inv.heapFrames_length : c.heapFrames.length = grown.length := by
  refine List.Perm.length_eq ((List.perm_ext_iff_of_nodup (List.nodup_range.filter _)
    hinv.nodup.2).2 fun i => ?_)
  rw [List.mem_filter, List.mem_range, decide_eq_true_eq]
  constructor
  · rintro ⟨hi, howned, hno⟩
    exact ((hinv.owned i hi).1 howned).resolve_right hno
  · exact fun hi => ⟨(hinv.apart i hi).1, hinv.grown_owned hi, (hinv.apart i hi).2⟩

/-- The header in front of a live pointer is its block's. -/
theorem Inv.payloadSize_eq (hb : b ∈ blocks) : c.payloadSize (b.addr + 32) = b.size := by
  unfold payloadSize
  rw [Nat.add_sub_cancel]
  exact (hinv.rep.taken b hb).size

theorem Inv.live_sum : (c.live.map c.payloadSize).sum = (blocks.map Blk.size).sum := by
  rw [(hinv.live.map _).sum_eq, List.map_map]
  exact congrArg List.sum (List.map_congr_left fun b hb => hinv.payloadSize_eq hb)

theorem Inv.free_sum :
    ((free.map Blk.addr).map (blockSize c.kernel.mem)).sum = (free.map Blk.size).sum := by
  rw [List.map_map]
  exact congrArg List.sum (List.map_congr_left fun b hb => (hinv.rep.listed b hb).size)

/-- No pointer is live twice. -/
theorem Inv.live_nodup : c.live.Nodup := by
  have hblocks := (List.pairwise_append.1 hinv.rep.tiles.apart).2.1
  refine hinv.live.nodup_iff.2 (List.pairwise_map.2 (hblocks.imp fun {b d} hbd => ?_))
  unfold Apart Blk.stop at hbd
  omega

end Totals

/-! ## Steps -/

/-- **Every step keeps the counters true**: the sums stay below what the
frames hold, so neither counter wraps. -/
theorem Inv.tally (hinv : Inv entries hhdm c free blocks grown)
    (hinv' : Inv entries hhdm c' free' blocks' grown') (htally : Tally c.kernel blocks grown)
    (heffect : Effect entries hhdm c free blocks grown e c' free' blocks' grown') :
    Tally c'.kernel blocks' grown' := by
  have hused := htally.used
  have hcount := htally.count
  have htotal := hinv.total
  have hlt := hinv.grown_lt
  have htotal' := hinv'.total
  have hlt' := hinv'.grown_lt
  cases heffect with
  | kmalloc hn hsmall hsrc hok =>
    rw [List.map_cons, List.sum_cons] at htotal'
    constructor
    · rw [List.map_cons, List.sum_cons, hok.used, hused, Nat.add_comm, wrap_of_lt (by omega)]
    · cases hok.grows with
      | stays hpmm hsame => exact hsame.trans hcount
      | frame hi hpmm hnext =>
        rw [List.length_cons] at hlt' ⊢
        rw [hnext, hcount, wrap_of_lt (by omega)]
  | @kfree b k hb hok =>
    have hsum := ((List.perm_cons_erase hb).map Blk.size).sum_eq
    rw [List.map_cons, List.sum_cons] at hsum
    constructor
    · rw [hok.used, hused, wrapSub_of_le (by omega) (by omega)]
      omega
    · exact hok.count.trans hcount
  | allocateFrame hi => exact ⟨hused, hcount⟩
  | freeFrame ha => exact ⟨hused, hcount⟩
  | write hmay => exact ⟨hused, hcount⟩

/-- A live pointer was live before, unless it was just returned. -/
theorem Step.live_cases (hinv : Inv entries hhdm c free blocks grown) (hstep : Step c e c')
    (hp : p ∈ c'.live) : (∃ n, e = .kmalloc n p) ∨ (p ∈ c.live ∧ e ≠ .kfree p) := by
  cases hstep with
  | kmalloc hsize hrun =>
    rcases List.mem_cons.1 hp with rfl | hp
    · exact Or.inl ⟨_, rfl⟩
    · exact Or.inr ⟨hp, by simp⟩
  | kfree hlive hrun =>
    obtain ⟨hne, hp⟩ := hinv.live_nodup.mem_erase_iff.1 hp
    exact Or.inr ⟨hp, by simp [hne.symm]⟩
  | allocateFrame hrun => exact Or.inr ⟨hp, by simp⟩
  | freeFrame howned hrun => exact Or.inr ⟨hp, by simp⟩
  | write hmay => exact Or.inr ⟨hp, by simp⟩

/-- **No step changes the size of a live block**, but the one that frees it. -/
theorem Inv.payloadSize_kept (h : LimineOk entries hhdm)
    (hinv : Inv entries hhdm c free blocks grown) (hstep : Step c e c') (hp : p ∈ c.live)
    (hne : e ≠ .kfree p) : c'.payloadSize p = c.payloadSize p := by
  obtain ⟨free', blocks', grown', heffect, hinv'⟩ := hinv.effect h hstep
  obtain ⟨b, hb, rfl⟩ := hinv.block_of_live hp
  have hb' : b ∈ blocks' := by
    cases heffect with
    | kmalloc _ _ _ _ => exact List.mem_cons_of_mem _ hb
    | @kfree d _ _ _ =>
      refine (List.mem_erase_of_ne ?_).2 hb
      rintro rfl
      exact hne rfl
    | allocateFrame _ => exact hb
    | freeFrame _ => exact hb
    | write _ => exact hb
  rw [hinv.payloadSize_eq hb, hinv'.payloadSize_eq hb']

/-! ## Runs -/

/-- At first nothing is counted. -/
theorem tally_heapInit {s k : Kernel} (hheap : (heapInit hhdm).run s = .ok () k) :
    Tally k [] [] := by
  unfold heapInit at hheap
  rw [EStateM.run_modify] at hheap
  rw [← (EStateM.Result.ok.inj hheap).2]
  exact ⟨rfl, rfl⟩

/-- **The size is the one `kmalloc` granted**: since the call that returned
the pointer it was not freed, and its header says what it said then. -/
def SizeAsGranted (c₀ : System) (es : List Event) (c : System) (p : ℕ) : Prop :=
  ∃ es₁ n es₂ c₁, es = es₁ ++ .kmalloc n p :: es₂ ∧ .kfree p ∉ es₂ ∧
    Run Step c₀ (es₁ ++ [.kmalloc n p]) c₁ ∧ Run Step c₁ es₂ c ∧
    c.payloadSize p = c₁.payloadSize p

theorem Booted.sizeAsGranted {c₀ : System} (h : LimineOk entries hhdm)
    (hboot : Booted entries hhdm m c₀) (hrun : Run Step c₀ es c) (hp : p ∈ c.live) :
    SizeAsGranted c₀ es c p := by
  induction hrun with
  | nil =>
    rw [hboot.live] at hp
    cases hp
  | @snoc es e c c' hrun hstep ih =>
    obtain ⟨free, blocks, grown, hinv⟩ := Reachable.inv h ⟨c₀, hboot, hrun⟩
    obtain ⟨n, rfl⟩ | ⟨hold, hne⟩ := hstep.live_cases hinv hp
    · exact ⟨es, n, [], c', rfl, by simp, hrun.snoc hstep, .nil, rfl⟩
    · obtain ⟨es₁, n, es₂, c₁, rfl, hkept, hrun₁, hrun₂, hsize⟩ := ih hold
      refine ⟨es₁, n, es₂ ++ [e], c₁, by simp, ?_, hrun₁, hrun₂.snoc hstep, ?_⟩
      · rw [List.mem_append, List.mem_singleton]
        exact not_or.2 ⟨hkept, hne.symm⟩
      · rw [hinv.payloadSize_kept h hstep hold hne, hsize]

/-- **And the counters are true in every reachable state.** -/
theorem Reachable.tally (h : LimineOk entries hhdm) (hc : Reachable entries hhdm m es c) :
    ∃ free blocks grown, Inv entries hhdm c free blocks grown ∧ Tally c.kernel blocks grown := by
  obtain ⟨c₀, hboot, hrun⟩ := hc
  obtain ⟨⟨⟩, k, -, hheap⟩ := of_run_bind hboot.run
  refine (hboot.inv h).run h (P := fun c _ blocks grown => Tally c.kernel blocks grown)
    (fun _ _ _ hstep => hstep) (tally_heapInit hheap) ?_ hrun
  intro c free blocks grown e c' free' blocks' grown' hinv hinv' heffect _ htally
  exact hinv.tally hinv' htally heffect

/-- **The counters account for the heap**, with the free list's nodes given. -/
structure AccountsFor (c : System) (nodes : List ℕ) : Prop where
  list : FreeListIs c.kernel nodes
  /-- The bytes in use are those of the live payloads. -/
  used : heapGetUsedBytes c.kernel = (c.live.map c.payloadSize).sum
  frames : heapGetFrameCount c.kernel = c.heapFrames.length
  /-- Payloads, live and free, and the headers make up the frames. -/
  total : 0x1000 * heapGetFrameCount c.kernel = heapGetUsedBytes c.kernel +
    (nodes.map (blockSize c.kernel.mem)).sum + 32 * (c.live.length + nodes.length)
  /-- The subtraction of `kfree` does not underflow. -/
  freed : ∀ p ∈ c.live, c.payloadSize p ≤ heapGetUsedBytes c.kernel ∧
    ∃ k, (KbmOs.kfree p).run c.kernel = .ok () k ∧
      heapGetUsedBytes k = heapGetUsedBytes c.kernel - c.payloadSize p

theorem Inv.accountsFor (h : LimineOk entries hhdm) (hinv : Inv entries hhdm c free blocks grown)
    (htally : Tally c.kernel blocks grown) : AccountsFor c (free.map Blk.addr) := by
  have hused : c.kernel.heapUsedBytes = (blocks.map Blk.size).sum := htally.used
  have hcount : c.kernel.heapFrameCount = grown.length := htally.count
  have hlive : c.live.length = blocks.length := by rw [hinv.live.length_eq, List.length_map]
  have htotal := hinv.total
  have hlt := hinv.grown_lt
  exact {
    list := hinv.freeListIs
    used := hused.trans hinv.live_sum.symm
    frames := hcount.trans hinv.heapFrames_length.symm
    total := by
      show 0x1000 * c.kernel.heapFrameCount = c.kernel.heapUsedBytes + _ + _
      rw [hused, hcount, hinv.free_sum, List.length_map, hlive]
      omega
    freed := fun p hp => by
      obtain ⟨b, hb, rfl⟩ := hinv.block_of_live hp
      obtain ⟨k, hrun, hok⟩ := hinv.kfree h hb
      have hle := List.le_sum_of_mem (List.mem_map_of_mem (f := Blk.size) hb)
      rw [hinv.payloadSize_eq hb]
      show _ ≤ c.kernel.heapUsedBytes ∧ _
      refine ⟨by omega, k, hrun, hok.used.trans ?_⟩
      rw [wrapSub_of_le (by omega) (by omega)]
      rfl }

/-- **Heap accounting is exact.** In every reachable state the bytes in use
are the live payload sizes, each unchanged since its `kmalloc`; the frame
count is the number of frames taken from PMM; headers and payloads make up
these frames; `kfree` subtracts what was added; and with every block freed
nothing is in use. -/
theorem heap_accounting (entries : List MemmapEntry) (hhdm : ℕ) (m : Mem) (es : List Event)
    (c₀ c : System) (h : LimineOk entries hhdm) (hboot : Booted entries hhdm m c₀)
    (hrun : Run Step c₀ es c) :
    (∃ nodes, AccountsFor c nodes) ∧ (∀ p ∈ c.live, SizeAsGranted c₀ es c p) ∧
    (c.live = [] → heapGetUsedBytes c.kernel = 0) := by
  obtain ⟨free, blocks, grown, hinv, htally⟩ := Reachable.tally h ⟨c₀, hboot, hrun⟩
  have haccounts := hinv.accountsFor h htally
  refine ⟨⟨_, haccounts⟩, fun p hp => hboot.sizeAsGranted h hrun hp, fun hnone => ?_⟩
  rw [haccounts.used, hnone]
  rfl

/-- After the sample's calls the two live payloads are in use, of two
frames. -/
theorem heap_accounting_sampleMap : ∃ c₀ c, Booted sampleMap sampleOffset blankMem c₀ ∧
    Run Step c₀ sampleEvents c ∧ heapGetUsedBytes c.kernel = 16 + 4064 ∧
    heapGetFrameCount c.kernel = 2 := by
  obtain ⟨c₀, c, hboot, hrun, hinv⟩ := sample_run fun _ hstep _ => hstep
  obtain ⟨⟨nodes, haccounts⟩, -, -⟩ :=
    heap_accounting sampleMap sampleOffset blankMem _ c₀ c sampleMap_limineOk hboot hrun
  exact ⟨c₀, c, hboot, hrun, haccounts.used.trans hinv.live_sum,
    haccounts.frames.trans hinv.heapFrames_length⟩

end System

end KbmOs
