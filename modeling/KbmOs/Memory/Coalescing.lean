import KbmOs.Memory.Isolation
/-!
# Free blocks that touch

`kfree` joins the block it takes back with either neighbour, so it leaves
a gap between any two blocks of the free list. `kmalloc` links a new frame
into the list without joining it with anything: where the frame is cut and
a listed block starts right behind it, what is left of the frame touches
that block and both stay apart. `Strands` says when that happens; a run
that avoids it keeps the gaps.
-/

namespace KbmOs

open ByteMemory LinkedList Tiling FreeList LabelledRuns

namespace System

variable {entries : List MemmapEntry} {hhdm i n p : ℕ} {m : Mem} {free blocks : List Blk}
variable {free' blocks' : List Blk} {grown grown' : List ℕ} {c c' : System} {e : Event}

/-- **No block of the free list ends where the next one starts.** -/
def Coalesced (s : Kernel) : Prop :=
  ∃ nodes, FreeListIs s nodes ∧ nodes.IsChain fun b d => b + 32 + blockSize s.mem b < d

/-- **A request of `n` bytes strands a block**: no listed block fits, the
frame the heap grows by is large enough to be cut, and a listed block
starts where that frame ends. -/
def Strands (hhdm : ℕ) (c : System) (n : ℕ) : Prop :=
  roundUpTo16 n + 32 + 16 ≤ 0x1000 - 32 ∧ ∃ nodes i, FreeListIs c.kernel nodes ∧
    (∀ b ∈ nodes, blockSize c.kernel.mem b < roundUpTo16 n) ∧ LowestFree c.kernel i ∧
    (i + 1) * 0x1000 + hhdm ∈ nodes

/-- The gaps of the list are the gaps between the blocks. -/
theorem Inv.coalesced_iff (hinv : Inv entries hhdm c free blocks grown) :
    Coalesced c.kernel ↔ Separated 32 free := by
  have hsize : ∀ b ∈ free, b.addr + 32 + blockSize c.kernel.mem b.addr = b.stop 32 := by
    intro b hb
    rw [(hinv.rep.listed b hb).size]
    rfl
  have hchain : ((free.map Blk.addr).IsChain fun b d => b + 32 + blockSize c.kernel.mem b < d) ↔
      Separated 32 free := by
    have htrans : IsTrans ℕ fun b d => b + 32 + blockSize c.kernel.mem b < d :=
      ⟨fun a b d hab hbd => by omega⟩
    rw [List.isChain_iff_pairwise, List.pairwise_map, separated_iff]
    constructor
    · refine List.Pairwise.imp_of_mem fun {b d} hb _ hbd => ?_
      rwa [hsize b hb] at hbd
    · refine List.Pairwise.imp_of_mem fun {b d} hb _ hbd => ?_
      rwa [hsize b hb]
  constructor
  · rintro ⟨nodes, hnodes, hgaps⟩
    rw [hnodes.unique hinv.freeListIs] at hgaps
    exact hchain.1 hgaps
  · exact fun hsep => ⟨_, hinv.freeListIs, hchain.2 hsep⟩

/-- The block of a free frame has its place in the list. -/
theorem Inv.frame_ascending (hinv : Inv entries hhdm c free blocks grown)
    (hi : LowestFree c.kernel i) :
    Ascending 32 (below (i * 0x1000 + hhdm) free ++ frameBlock (i * 0x1000 + hhdm) ::
      above (i * 0x1000 + hhdm) free) := by
  refine hinv.rep.ascending.insert (b := frameBlock (i * 0x1000 + hhdm)) (by decide) fun d hd => ?_
  refine apart_of_not_holds (by decide) fun x hx hdx => ?_
  exact (hinv.frame_clear hi hx).2 (hinv.held_region ⟨d, List.mem_append_left _ hd, hdx⟩)

/-- **One move keeps the gaps**, unless it strands a block. -/
theorem Inv.separated (hinv : Inv entries hhdm c free blocks grown) (hsep : Separated 32 free)
    (hmove : Moves c.kernel hhdm e free blocks grown free' blocks' grown')
    (hkeep : ∀ n p, e = .kmalloc n p → ¬ Strands hhdm c n) : Separated 32 free' := by
  cases hmove with
  | @kmalloc n _ _ pre post b _ _ hn hsmall hsrc =>
    cases hsrc with
    | listed hfree hfit =>
      rw [hfree] at hsep
      exact hsep.remainder hfit.fits
    | @fresh i hnone hi =>
      refine Separated.insert (by decide) hsmall ?_ (hinv.frame_ascending hi) ?_
      · rwa [below_append_above]
      · -- a frame that is cut and touches what is behind it is one that strands
        intro hcut d hd htouch
        refine hkeep n _ rfl ⟨?_, _, i, hinv.freeListIs, fun b hb => ?_, hi, ?_⟩
        · unfold frameBlock at hcut
          dsimp only at hcut
          omega
        · obtain ⟨d, hd, rfl⟩ := List.mem_map.1 hb
          rw [(hinv.rep.listed d hd).size]
          exact hnone d hd
        · refine List.mem_map.2 ⟨d, mem_below_or_above.2 (Or.inr hd), ?_⟩
          unfold Blk.stop frameBlock at htouch
          dsimp only at htouch
          omega
  | @kfree _ _ b _ hb =>
    refine hsep.release (hinv.rep.ascending.insert (by decide) fun d hd => ?_)
    exact (hinv.rep.apart_free_live hd hb).symm
  | stays => exact hsep

/-- **And one that strands a block does not.** -/
theorem Inv.not_coalesced_of_strands (h : LimineOk entries hhdm)
    (hinv : Inv entries hhdm c free blocks grown) (hstep : Step c (.kmalloc n p) c')
    (hstrands : Strands hhdm c n) : ¬ Coalesced c'.kernel := by
  obtain ⟨hsize, nodes, i, hnodes, hnone, hi, hbehind⟩ := hstrands
  rw [hnodes.unique hinv.freeListIs] at hnone hbehind
  obtain ⟨d, hd, hdaddr⟩ := List.mem_map.1 hbehind
  have hfits : ∀ b ∈ free, b.size < roundUpTo16 n := by
    intro b hb
    have hlt := hnone b.addr (List.mem_map_of_mem hb)
    rwa [(hinv.rep.listed b hb).size] at hlt
  cases hstep with
  | @kmalloc _ _ k hlt hrun =>
    -- a request for nothing fits the block behind, so it is not one
    have hn : n ≠ 0 := by
      rintro rfl
      have hr := hfits d hd
      rw [roundUpTo16_eq] at hr
      omega
    obtain ⟨k', hrun', hok⟩ := hinv.kmalloc_fresh h hn (by omega) hfits hi
    rw [hrun] at hrun'
    obtain ⟨rfl, rfl⟩ := EStateM.Result.ok.inj hrun'
    rw [hok.inv.coalesced_iff]
    refine not_separated_remainder (c := d) ?_ ?_ ?_
    · unfold frameBlock
      dsimp only
      omega
    · -- the block behind is above the frame's, and what is left of the frame ends there
      refine (mem_below_or_above.1 hd).resolve_left fun hbelow => ?_
      have hlt := addr_lt_of_mem_below hbelow
      omega
    · unfold Blk.stop frameBlock
      dsimp only
      omega

/-- A step in which no request strands a block. -/
def CoalescingStep (hhdm : ℕ) (c : System) (e : Event) (c' : System) : Prop :=
  Step c e c' ∧ ∀ n p, e = .kmalloc n p → ¬ Strands hhdm c n

/-- **The free list stays coalesced.** In every run of the allocators and
their clients in which no request strands a block, no block of the free
list ends where the next one starts. -/
theorem heap_coalesced (entries : List MemmapEntry) (hhdm : ℕ) (m : Mem) (es : List Event)
    (c₀ c : System) (h : LimineOk entries hhdm) (hboot : Booted entries hhdm m c₀)
    (hrun : Run (CoalescingStep hhdm) c₀ es c) : Coalesced c.kernel := by
  have hkept : ∃ free blocks grown, Inv entries hhdm c free blocks grown ∧ Separated 32 free := by
    refine (hboot.inv h).run h (P := fun _ free _ _ => Separated 32 free)
      (fun _ _ _ hstep => hstep.1) List.isChain_nil ?_ hrun
    rintro c free blocks grown e c' free' blocks' grown' hinv - heffect ⟨-, hkeep⟩ hsep
    exact hinv.separated hsep heffect.moves hkeep
  obtain ⟨free, blocks, grown, hinv, hsep⟩ := hkept
  exact hinv.coalesced_iff.2 hsep

/-- Where a block fits, or none is listed, nothing is stranded. -/
theorem Inv.not_strands_of_served (hinv : Inv entries hhdm c free blocks grown)
    (hserved : Served free (.kmalloc n p)) : ¬ Strands hhdm c n := by
  rintro ⟨-, nodes, i, hnodes, hnone, -, hbehind⟩
  rw [hnodes.unique hinv.freeListIs] at hnone hbehind
  rcases hserved with rfl | ⟨b, hb, hfits⟩
  · cases hbehind
  · have hlt := hnone b.addr (List.mem_map_of_mem hb)
    rw [(hinv.rep.listed b hb).size] at hlt
    omega

/-- After the sample's calls, two of which merge blocks, two are listed and
a live one keeps them apart. -/
theorem heap_coalesced_sampleMap : ∃ c₀ c, Booted sampleMap sampleOffset blankMem c₀ ∧
    Run (CoalescingStep sampleOffset) c₀ sampleEvents c ∧
    FreeListIs c.kernel [sampleOffset + 0x3000, sampleOffset + 0x3090] ∧ Coalesced c.kernel := by
  obtain ⟨c₀, c, hboot, hrun, hinv⟩ := sample_run (R := CoalescingStep sampleOffset)
    fun hinv hstep hserved => ⟨hstep, fun n p he => by
      subst he
      exact hinv.not_strands_of_served hserved⟩
  exact ⟨c₀, c, hboot, hrun, hinv.freeListIs,
    heap_coalesced sampleMap sampleOffset blankMem _ c₀ c sampleMap_limineOk hboot hrun⟩

/-- A caller holds frame 2 while the heap grows by frame 3 and the block at
its start is freed; then frame 2 is given back and a request cuts it. -/
def strandingEvents : List Event :=
  [.allocateFrame 0x2000, .kmalloc 16 (sampleOffset + 0x3020), .kmalloc 16 (sampleOffset + 0x3050),
    .kfree (sampleOffset + 0x3020), .freeFrame 0x2000, .kmalloc 4000 (sampleOffset + 0x2020)]

/-- **After these two free blocks touch.** -/
theorem heap_not_coalesced : ∃ c, Reachable sampleMap sampleOffset blankMem strandingEvents c ∧
    ¬ Coalesced c.kernel := by
  obtain ⟨c₀, hc⟩ := sampleMap_boots
  have hinv := hc.inv sampleMap_limineOk
  have hlow := hc.sample_lowest
  have hrun₁ := pmmAllocateFrame_found hinv.pmm hlow
  obtain ⟨hinv₁, -⟩ := hinv.allocateFrame sampleMap_limineOk hlow
  have hlow₁ : LowestFree (claimFrame c₀.kernel 2) 3 := hc.sample_next ⟨rfl, fun _ _ => rfl⟩
  -- frame 2 is held, so the heap grows by frame 3
  obtain ⟨k₂, hrun₂, hok₂⟩ := hinv₁.kmalloc_fresh sampleMap_limineOk (n := 16) (by decide)
    (by decide) (by simp) hlow₁
  have hinv₂ : Inv sampleMap sampleOffset _ [⟨3 * 0x1000 + sampleOffset + 48, 4016⟩]
    [⟨3 * 0x1000 + sampleOffset, 16⟩] [3] := hok₂.inv
  obtain ⟨k₃, hrun₃, hok₃⟩ := hinv₂.kmalloc_listed sampleMap_limineOk (n := 16)
    (by decide) (by decide)
    (List.nil_append _).symm ⟨by decide, by simp⟩
  have hinv₃ : Inv sampleMap sampleOffset _ [⟨3 * 0x1000 + sampleOffset + 96, 3968⟩]
    [⟨3 * 0x1000 + sampleOffset + 48, 16⟩, ⟨3 * 0x1000 + sampleOffset, 16⟩] [3] := hok₃.inv
  obtain ⟨k₄, hrun₄, hok₄⟩ := hinv₃.kfree sampleMap_limineOk
    (b := ⟨3 * 0x1000 + sampleOffset, 16⟩) (by decide)
  have hinv₄ : Inv sampleMap sampleOffset _
    [⟨3 * 0x1000 + sampleOffset, 16⟩, ⟨3 * 0x1000 + sampleOffset + 96, 3968⟩]
    [⟨3 * 0x1000 + sampleOffset + 48, 16⟩] [3] := hok₄.inv
  have howned : 2 * 0x1000 ∈ 2 * 0x1000 :: c₀.frames := List.mem_cons_self
  obtain ⟨hrun₅, hinv₅, -⟩ := hinv₄.freeFrame sampleMap_limineOk howned
  -- given back, it is again the lowest
  have hlow₅ : LowestFree (releaseFrame k₄ 2) 2 := by
    have hlt : 2 < k₄.frameCount := (hinv₄.frames _ howned).2
    refine ⟨hlt, ?_, fun j hj => hinv₅.sample_reserved hj⟩
    rw [frameState_releaseFrame hinv₄.pmm hlt hlt, if_pos rfl]
  -- the block left at frame 3 is too small for what frame 2 is cut for
  obtain ⟨k₆, hrun₆, -⟩ := hinv₅.kmalloc_fresh sampleMap_limineOk (n := 4000) (by decide) (by decide)
    (by decide) hlow₅
  have hstep₆ := Step.kmalloc (c := ⟨releaseFrame k₄ 2, _, _⟩) (by decide) hrun₆
  have hall := (Run.nil : Run Step _ [] _) |>.snoc (.allocateFrame hrun₁)
    |>.snoc (.kmalloc (by decide) hrun₂) |>.snoc (.kmalloc (by decide) hrun₃)
    |>.snoc (.kfree (hinv₃.live_of_block (List.mem_cons_of_mem _ List.mem_cons_self)) hrun₄)
    |>.snoc (.freeFrame howned hrun₅) |>.snoc hstep₆
  refine ⟨_, ⟨c₀, hc, hall⟩, ?_⟩
  refine hinv₅.not_coalesced_of_strands sampleMap_limineOk hstep₆ ⟨by decide, _, 2,
    hinv₅.freeListIs, fun b hb => ?_, hlow₅, by decide⟩
  obtain ⟨d, hd, rfl⟩ := List.mem_map.1 hb
  rw [(hinv₅.rep.listed d hd).size]
  revert d
  decide

end System

end KbmOs
