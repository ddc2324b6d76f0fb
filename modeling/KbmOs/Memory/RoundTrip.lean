import KbmOs.Memory.Accounting
import KbmOs.Memory.Coalescing
import KbmOs.Pmm.Accounting
/-!
# What `kfree` undoes

`kmalloc` cuts the block it takes in two and `kfree` joins the parts again,
but it joins them with what they touch as well. So the free list is what it
was where it was coalesced to begin with. It is as long as no caller gives
a frame back once the heap is set up: PMM then hands out ascending frames,
and every new one lies above all blocks of the heap.
-/

namespace KbmOs

open ByteMemory LinkedList Tiling FreeList LabelledRuns

variable {entries : List MemmapEntry} {hhdm i n p : ℕ} {m : Mem} {s s₀ s' k : Kernel}
variable {free blocks free' blocks' pre post : List Blk} {grown grown' : List ℕ} {b : Blk}
variable {calls : List PmmCall} {call : PmmCall}

/-! ## Up to `heap_init` -/

/-- **Every call keeps what PMM keeps.** -/
theorem PmmCalls.serves (hs : PmmServes entries hhdm s) (hstep : PmmCalls s call s') :
    PmmServes entries hhdm s' := by
  cases hstep with
  | allocated hrun =>
    obtain ⟨i, hi, rfl, rfl⟩ := of_pmmAllocateFrame hs.pmm hrun
    exact hs.claim hi.lt hi.free
  | freed hrun =>
    obtain ⟨ha, rfl⟩ := of_pmmFreeFrame hs.pmm hrun
    exact hs.release ha.2.1 ha.2.2
  | elsewhere hsame => exact hs.same hsame

namespace System

/-- **The state after `heap_init`**, with whatever calls of PMM between
`pmm_init` and it, as `kmain` makes them. -/
structure Started (entries : List MemmapEntry) (hhdm : ℕ) (m : Mem) (calls : List PmmCall)
    (c : System) : Prop where
  run : ∃ s₀ s, (pmmInit entries hhdm).run { mem := m } = .ok () s₀ ∧ Run PmmCalls s₀ calls s ∧
    (heapInit hhdm).run s = .ok () c.kernel
  live : c.live = []
  frames : c.frames = outstanding calls

variable {c c₀ c' : System} {e : Event} {es : List Event}

/-- **The invariant holds there.** -/
theorem Started.inv (h : LimineOk entries hhdm) (hc : Started entries hhdm m calls c) :
    Inv entries hhdm c [] [] [] := by
  obtain ⟨s₀, s, hinit, hrun, hheap⟩ := hc.run
  have hs₀ := of_pmmInit h.mapOk.sane hinit
  have hall := (hs₀.accounted h.mapOk.sane).run hrun
  refine Inv.of_heapInit (hrun.invariant (hs₀.serves h) fun s call s' => PmmCalls.serves) hheap
    hc.live ?_ fun a => ?_
  · rw [hc.frames]
    exact hall.nodup
  · rw [hc.frames]
    exact hall.mem_iff a

theorem Booted.started (hc : Booted entries hhdm m c) : Started entries hhdm m [] c := by
  obtain ⟨⟨⟩, s, hinit, hheap⟩ := of_run_bind hc.run
  exact ⟨⟨s, s, hinit, .nil, hheap⟩, hc.live, hc.frames⟩

/-! ## Ascending frames -/

/-- A step in which no caller gives a frame back. -/
def KeepingStep (c : System) (e : Event) (c' : System) : Prop :=
  Step c e c' ∧ ∀ a, e ≠ .freeFrame a

/-- **Free frames lie above the heap's.** -/
def FreeAbove (s : Kernel) (grown : List ℕ) : Prop :=
  ∀ i ∈ grown, ∀ j, j < s.frameCount → frameState s j = .free → i < j

/-- PMM's part of the state is all that counts. -/
theorem FreeAbove.congr (hs : PmmInv s) (hsame : SamePmm s s') (habove : FreeAbove s grown) :
    FreeAbove s' grown := by
  intro i hi j hj hfree
  rw [hsame.frameCount_eq] at hj
  rw [hsame.frameState hs hj] at hfree
  exact habove i hi j hj hfree

/-- **PMM gives out the lowest one**, to a caller or to the heap. -/
theorem FreeAbove.claim (hs : PmmInv s) (hi : LowestFree s i) (habove : FreeAbove s grown) :
    FreeAbove (claimFrame s i) (i :: grown) := by
  intro g hg j hj hfree
  rw [frameState_claimFrame hs hi.lt hj] at hfree
  by_cases hij : j = i
  · rw [if_pos hij] at hfree
    cases hfree
  · rw [if_neg hij] at hfree
    rcases List.mem_cons.1 hg with rfl | hg
    · have hle : ¬ j < g := fun hlt => hi.least j hlt hfree
      omega
    · exact habove g hg j hj hfree

/-- **And so they stay above**, as long as none is given back. -/
theorem Inv.freeAbove (h : LimineOk entries hhdm) (hinv : Inv entries hhdm c free blocks grown)
    (habove : FreeAbove c.kernel grown) (hkeep : ∀ a, e ≠ .freeFrame a)
    (heffect : Effect entries hhdm c free blocks grown e c' free' blocks' grown') :
    FreeAbove c'.kernel grown' := by
  cases heffect with
  | kmalloc _ _ _ hok =>
    have hgrows := hok.grows
    cases hgrows with
    | stays hpmm _ => exact habove.congr hinv.pmm hpmm
    | frame hi hpmm _ => exact (habove.claim hinv.pmm hi).congr (hinv.pmm.claim hi.lt hi.free) hpmm
  | kfree _ hok => exact habove.congr hinv.pmm hok.pmm
  | allocateFrame hi =>
    exact fun g hg => habove.claim hinv.pmm hi g (List.mem_cons_of_mem _ hg)
  | freeFrame _ => exact absurd rfl (hkeep _)
  | @write x value hmay =>
    refine habove.congr hinv.pmm ⟨rfl, fun y hy => store8_of_ne ?_⟩
    rintro rfl
    exact (hinv.mayWrite_apart h hmay).1 hy

section Above

variable (hinv : Inv entries hhdm c free blocks grown) (habove : FreeAbove c.kernel grown)
include hinv habove

/-- The blocks of the heap lie below every free frame. -/
theorem Inv.addr_lt_frame (hi : LowestFree c.kernel i) (hb : b ∈ free) :
    b.addr < i * 0x1000 + hhdm := by
  obtain ⟨g, hg, hin⟩ :=
    hinv.held_region ⟨b, List.mem_append_left _ hb, b.holds_addr (by decide)⟩
  have hlt := habove g hg i hi.lt hi.free
  unfold InFrameOf at hin
  omega

/-- So a new frame has its place at the end of the list. -/
theorem Inv.above_eq_nil (hi : LowestFree c.kernel i) : above (i * 0x1000 + hhdm) free = [] := by
  refine List.eq_nil_iff_forall_not_mem.2 fun b hb => ?_
  have hle := le_addr_of_mem_above hinv.rep.ascending hb
  have hlt := hinv.addr_lt_frame habove hi (mem_below_or_above.2 (Or.inr hb))
  omega

/-- And no request strands a block. -/
theorem Inv.not_strands (n : ℕ) : ¬ Strands hhdm c n := by
  rintro ⟨-, nodes, i, hnodes, -, hi, hbehind⟩
  rw [hnodes.unique hinv.freeListIs] at hbehind
  obtain ⟨d, hd, hdaddr⟩ := List.mem_map.1 hbehind
  have hlt := hinv.addr_lt_frame habove hi hd
  omega

end Above

/-- **The states a run leads to in which no frame is given back**: the
counters are true, the list is coalesced, and the free frames are above
it. -/
theorem Started.kept (h : LimineOk entries hhdm) (hstart : Started entries hhdm m calls c₀)
    (hrun : Run KeepingStep c₀ es c) : ∃ free blocks grown, Inv entries hhdm c free blocks grown ∧
      Tally c.kernel blocks grown ∧ Separated 32 free ∧ FreeAbove c.kernel grown := by
  obtain ⟨s₀, s, -, -, hheap⟩ := hstart.run
  refine (hstart.inv h).run h (P := fun c free blocks grown => Tally c.kernel blocks grown ∧
    Separated 32 free ∧ FreeAbove c.kernel grown) (fun _ _ _ hstep => hstep.1)
    ⟨tally_heapInit hheap, List.isChain_nil, fun i hi => (by cases hi)⟩ ?_ hrun
  rintro c free blocks grown e c' free' blocks' grown' hinv hinv' heffect ⟨-, hkeep⟩
    ⟨htally, hsep, habove⟩
  exact ⟨hinv.tally hinv' htally heffect,
    hinv.separated hsep heffect.moves fun n _ _ => hinv.not_strands habove n,
    hinv.freeAbove h habove hkeep heffect⟩

/-! ## Granting and freeing -/

/-- **Freeing what was just granted** releases the block into what granting
left, and uncounts it. -/
theorem Inv.kfree_granted {r : ℕ} (h : LimineOk entries hhdm)
    (htally : Tally c.kernel blocks grown)
    (hok : KmallocOk entries hhdm r c free blocks grown pre b post grown' k) :
    ∃ k', (KbmOs.kfree (b.addr + 32)).run k = .ok () k' ∧
      FreeBlocks k' (release 32 (granted 32 16 r b) (pre ++ remainder 32 16 r b ++ post)) ∧
      k'.heapUsedBytes = c.kernel.heapUsedBytes ∧ k'.heapFrameCount = k.heapFrameCount := by
  obtain ⟨k', hrun, hfreed⟩ := hok.inv.kfree h (b := granted 32 16 r b) List.mem_cons_self
  rw [granted_addr] at hrun
  have htotal := hok.inv.total
  have hlt := hok.inv.grown_lt
  have hused := htally.used
  rw [List.map_cons, List.sum_cons] at htotal
  refine ⟨k', hrun, hfreed.inv.freeBlocks, ?_, hfreed.count⟩
  rw [hfreed.used]
  show wrapSub k.heapUsedBytes _ = _
  rw [hok.used, wrap_of_lt (by omega), wrapSub_of_le (by omega) (by omega)]
  omega

/-- **`kfree` undoes `kmalloc`.** Let PMM be used between `pmm_init` and
`heap_init`, and no frame be given back after. In every state such a run
leads to, freeing what a request just got restores the bytes in use; and if
the request took no frame, the free list and the frame count too. If it
took one, PMM's lowest free frame `i`, its block is behind the old list,
joined with the last block of it where they touch. -/
theorem kfree_undoes_kmalloc (entries : List MemmapEntry) (hhdm : ℕ) (m : Mem)
    (calls : List PmmCall) (es : List Event) (c₀ c : System) (n p : ℕ) (k : Kernel)
    (h : LimineOk entries hhdm) (hstart : Started entries hhdm m calls c₀)
    (hrun : Run KeepingStep c₀ es c) (hcall : (KbmOs.kmalloc n).run c.kernel = .ok p k) :
    ∃ l k', FreeBlocks c.kernel l ∧ (KbmOs.kfree p).run k = .ok () k' ∧
      heapGetUsedBytes k' = heapGetUsedBytes c.kernel ∧
      (SamePmm c.kernel k →
        FreeBlocks k' l ∧ heapGetFrameCount k' = heapGetFrameCount c.kernel) ∧
      (¬ SamePmm c.kernel k → ∃ i, LowestFree c.kernel i ∧ SamePmm (claimFrame c.kernel i) k ∧
        p = i * 0x1000 + hhdm + 32 ∧ FreeBlocks k' (fuseLast 32 l [⟨i * 0x1000 + hhdm, 4064⟩]) ∧
        heapGetFrameCount k' = heapGetFrameCount c.kernel + 1) := by
  obtain ⟨free, blocks, grown, hinv, htally, hsep, habove⟩ := hstart.kept h hrun
  rcases hinv.kmalloc_cases h n with ⟨-, herr⟩ | ⟨-, -, herr⟩ | ⟨-, -, -, -, herr⟩ |
    ⟨-, hsmall, pre, b, post, grown', k₁, hsrc, hrun₁, hok⟩
  · rw [hcall] at herr
    cases herr
  · rw [hcall] at herr
    cases herr
  · rw [hcall] at herr
    cases herr
  rw [hcall] at hrun₁
  obtain ⟨rfl, rfl⟩ := EStateM.Result.ok.inj hrun₁
  obtain ⟨k', hfree, hblocks, hused, hcount⟩ := Inv.kfree_granted h htally hok
  refine ⟨free, k', hinv.freeBlocks, hfree, hused, ?_⟩
  have hgrows := hok.grows
  cases hsrc with
  | listed hsplit hfit =>
    cases hgrows with
    | stays hpmm hsame =>
      refine ⟨fun _ => ⟨?_, hcount.trans hsame⟩, fun hno => absurd hpmm hno⟩
      rw [hsplit] at hsep ⊢
      rwa [hsep.release_granted (by decide) hfit.fits] at hblocks
  | @fresh i hnone hi =>
    cases hgrows with
    | frame _ hpmm hnext =>
      refine ⟨fun hsame => ?_, fun _ => ⟨i, hi, hpmm, rfl, ?_, ?_⟩⟩
      · -- the frame was free and is given out
        have hlt : i < (claimFrame c.kernel i).frameCount := hi.lt
        have howned := hpmm.frameState (hinv.pmm.claim hi.lt hi.free) hlt
        rw [hsame.frameState hinv.pmm hi.lt, hi.free, frameState_claimFrame hinv.pmm hi.lt hi.lt,
          if_pos rfl] at howned
        cases howned
      · have hbelow := below_append_above (i * 0x1000 + hhdm) free
        have horder := hinv.frame_ascending hi
        rw [hinv.above_eq_nil habove hi, List.append_nil] at hbelow
        rw [hinv.above_eq_nil habove hi, hbelow] at horder hblocks
        rwa [release_granted (by decide) horder hok.fits (by simp)] at hblocks
      · have hlt := hok.inv.grown_lt
        rw [List.length_cons] at hlt
        show k'.heapFrameCount = c.kernel.heapFrameCount + 1
        rw [hcount, hnext, htally.count, wrap_of_lt (by omega)]

/-- So behind a first request a second leaves no trace. -/
theorem kfree_undoes_kmalloc_sampleMap : ∃ c₀ c p q k k' l,
    Started sampleMap sampleOffset blankMem [] c₀ ∧ Run KeepingStep c₀ [.kmalloc 100 p] c ∧
    (KbmOs.kmalloc 16).run c.kernel = .ok q k ∧ (KbmOs.kfree q).run k = .ok () k' ∧
    FreeBlocks c.kernel l ∧ FreeBlocks k' l := by
  obtain ⟨c₀, hc⟩ := sampleMap_boots
  obtain ⟨k₁, hrun₁, hok₁⟩ := (hc.inv sampleMap_limineOk).kmalloc_fresh sampleMap_limineOk
    (n := 100) (by decide) (by decide) (by simp) hc.sample_lowest
  have hone : Run KeepingStep c₀ ([] ++ [.kmalloc 100 _]) _ :=
    .snoc .nil ⟨.kmalloc (by decide) hrun₁, by simp⟩
  obtain ⟨k, hrun, hok⟩ := hok₁.inv.kmalloc_listed sampleMap_limineOk (n := 16) (by decide)
    (by decide) (List.nil_append _).symm ⟨by decide, by simp⟩
  obtain ⟨l, k', hbefore, hfree, -, hsame, -⟩ := kfree_undoes_kmalloc sampleMap sampleOffset blankMem
    [] _ c₀ _ 16 _ k sampleMap_limineOk hc.started hone hrun
  cases hok.grows with
  | stays hpmm _ => exact ⟨c₀, _, _, _, k, k', l, hc.started, hone, hrun, hfree, hbefore, (hsame hpmm).1⟩

end System

end KbmOs
