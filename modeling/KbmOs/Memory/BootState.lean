import KbmOs.Memory.SelfTest
/-!
# What the boot tests leave

The heap's tests are run on a heap that is empty at first, so each call
meets blocks that can be written down: three blocks of 16 bytes and a rest
of 3920 in the first frame, a block over all of a second frame, and the
rest cut, joined and handed out whole. `Tested` carries the blocks from
call to call, with the frames accounted for.
-/

namespace KbmOs

open ByteMemory LinkedList Tiling FreeList LabelledRuns Outcomes

variable {entries : List MemmapEntry} {hhdm i n p r v : ℕ} {m : Mem} {s k : Kernel}
variable {free blocks pre post : List Blk} {grown : List ℕ} {b : Blk}

namespace System

/-- **The heap under test**: it came from `c₀` by calls that give no frame
back, and what PMM has lost since is the heap's. -/
structure Tested (entries : List MemmapEntry) (hhdm : ℕ) (c₀ c : System) (free blocks : List Blk)
    (grown : List ℕ) : Prop where
  run : ∃ es, Run KeepingStep c₀ es c
  inv : Inv entries hhdm c free blocks grown
  tally : Tally c.kernel blocks grown
  count : freeFrames c.kernel + grown.length = freeFrames c₀.kernel

variable {c₀ c : System}

/-- The state after `kmalloc` has returned `p` and left `k`. -/
abbrev given (c : System) (k : Kernel) (p : ℕ) : System := ⟨k, p :: c.live, c.frames⟩

/-- The state after a client has written. -/
abbrev stored (c : System) (mem : Mem) : System := ⟨{ c.kernel with mem := mem }, c.live, c.frames⟩

/-- A size `kmalloc` takes, and what it rounds it to. -/
structure Request (n r : ℕ) : Prop where
  pos : n ≠ 0
  lt : n < 2 ^ 64
  rounds : roundUpTo16 n = r
  small : r ≤ 4064

namespace Tested

variable (h : LimineOk entries hhdm) (ht : Tested entries hhdm c₀ c free blocks grown)
include h ht

/-- **A block that fits** is handed out, and PMM is not asked. -/
theorem listed (hn : Request n r) (hfree : free = pre ++ b :: post) (hfit : FirstFit r pre b) :
    ∃ k, (KbmOs.kmalloc n).run c.kernel = .ok (b.addr + 32) k ∧
      Tested entries hhdm c₀ (c.given k (b.addr + 32)) (pre ++ remainder 32 16 r b ++ post)
        (granted 32 16 r b :: blocks) grown ∧
      k.heapUsedBytes = wrap (c.kernel.heapUsedBytes + (granted 32 16 r b).size) ∧
      k.heapFrameCount = c.kernel.heapFrameCount := by
  obtain ⟨hpos, hlt, rfl, hsmall⟩ := hn
  obtain ⟨k, hrun, hok⟩ := ht.inv.kmalloc_listed h hpos hsmall hfree hfit
  obtain ⟨es, hes⟩ := ht.run
  cases hok.grows with
  | stays hpmm hcount =>
    refine ⟨k, hrun, ⟨⟨es ++ [_], hes.snoc ⟨.kmalloc hlt hrun, by simp⟩⟩, hok.inv,
      ht.inv.tally hok.inv ht.tally (.kmalloc hpos hsmall (.listed hfree hfit) hok), ?_⟩,
      hok.used, hcount⟩
    change freeFrames k + _ = _
    rw [hpmm.freeFrames_eq ht.inv.pmm]
    exact ht.count

/-- **A request that fits nowhere** takes a frame, or stops for want of one. -/
theorem fresh (hn : Request n r) (hnone : ∀ d ∈ free, d.size < r) :
    Ends (KbmOs.kmalloc n) c.kernel (fun p k => ∃ i, LowestFree c.kernel i ∧
        p = i * 0x1000 + hhdm + 32 ∧ freeFrames k + 1 = freeFrames c.kernel ∧
        Tested entries hhdm c₀ (c.given k p)
          (below (i * 0x1000 + hhdm) free ++ remainder 32 16 r (frameBlock (i * 0x1000 + hhdm)) ++
            above (i * 0x1000 + hhdm) free)
          (granted 32 16 r (frameBlock (i * 0x1000 + hhdm)) :: blocks) (i :: grown))
      (OutOfFrames (freeFrames c.kernel = 0)) := by
  obtain ⟨hpos, hlt, rfl, hsmall⟩ := hn
  rcases lowestFree_or_none c.kernel with ⟨i, hi⟩ | hfull
  swap
  · refine Ends.of_error (t := c.kernel) ?_ ⟨rfl, freeBelow_eq_zero hfull le_rfl⟩
    rw [kmalloc_none ht.inv.rep hpos hsmall hnone]
    unfold growHeap
    exact run_bind_error (run_bind_error (pmmAllocateFrame_none ht.inv.pmm hfull))
  obtain ⟨k, hrun, hok⟩ := ht.inv.kmalloc_fresh h hpos hsmall hnone hi
  obtain ⟨es, hes⟩ := ht.run
  have hcount := ht.count
  cases hok.grows with
  | frame hi' hpmm _ =>
    have hfree : freeFrames k + 1 = freeFrames c.kernel := by
      rw [hpmm.freeFrames_eq (ht.inv.pmm.claim hi.lt hi.free)]
      exact freeFrames_claimFrame ht.inv.pmm hi
    refine Ends.of_ok hrun ⟨i, hi, rfl, hfree, ⟨es ++ [_], hes.snoc ⟨.kmalloc hlt hrun, by simp⟩⟩,
      hok.inv, ht.inv.tally hok.inv ht.tally (.kmalloc hpos hsmall (.fresh hnone hi) hok), ?_⟩
    change freeFrames k + _ = _
    rw [List.length_cons]
    omega

/-- **A live block** is freed. -/
theorem kfree (hb : b ∈ blocks) : ∃ k, (KbmOs.kfree (b.addr + 32)).run c.kernel = .ok () k ∧
    Tested entries hhdm c₀ ⟨k, c.live.erase (b.addr + 32), c.frames⟩ (release 32 b free)
      (blocks.erase b) grown ∧
    k.heapUsedBytes = wrapSub c.kernel.heapUsedBytes b.size ∧
    k.heapFrameCount = c.kernel.heapFrameCount := by
  obtain ⟨k, hrun, hok⟩ := ht.inv.kfree h hb
  obtain ⟨es, hes⟩ := ht.run
  refine ⟨k, hrun, ⟨⟨es ++ [_], hes.snoc ⟨.kfree (ht.inv.live_of_block hb) hrun, by simp⟩⟩,
    hok.inv, ht.inv.tally hok.inv ht.tally (.kfree hb hok), ?_⟩, hok.used, hok.count⟩
  change freeFrames k + _ = _
  rw [hok.pmm.freeFrames_eq ht.inv.pmm]
  exact ht.count

/-- **What is written into a payload** changes no block and no frame. -/
theorem write (l : List (ℕ × BitVec 8)) (hb : b ∈ blocks)
    (hl : ∀ w ∈ l, b.addr + 32 ≤ w.1 ∧ w.1 < b.stop 32) :
    Tested entries hhdm c₀ (c.stored (l.foldl (fun m w => store8 m w.1 w.2) c.kernel.mem)) free
      blocks grown := by
  induction l generalizing c with
  | nil => exact ht
  | cons w l ih =>
    have hmay : c.MayWrite w.1 := Or.inl
      ⟨_, ht.inv.live_of_block hb, (ht.inv.inPayload_iff hb).2 (hl w List.mem_cons_self)⟩
    obtain ⟨es, hes⟩ := ht.run
    have hstep : Step c (.write w.1 w.2) (c.stored (store8 c.kernel.mem w.1 w.2)) := .write hmay
    have hinv := ht.inv.write h w.2 hmay
    refine ih (c := c.stored (store8 c.kernel.mem w.1 w.2))
      ⟨⟨es ++ [_], hes.snoc ⟨hstep, by simp⟩⟩, hinv,
        ht.inv.tally hinv ht.tally (.write hmay), ?_⟩ fun w' hw' => hl w' (List.mem_cons_of_mem _ hw')
    have hsame : SamePmm c.kernel (c.stored (store8 c.kernel.mem w.1 w.2)).kernel := by
      refine ⟨rfl, fun x hx => store8_of_ne ?_⟩
      rintro rfl
      exact (ht.inv.mayWrite_apart h hmay).1 hx
    rw [hsame.freeFrames_eq ht.inv.pmm]
    exact ht.count

/-- A whole word. -/
theorem writeWord (hb : b ∈ blocks) (hlo : b.addr + 32 ≤ p) (hhi : p + 8 ≤ b.stop 32) (v : ℕ) :
    Tested entries hhdm c₀ (c.stored (store64 c.kernel.mem p v)) free blocks grown := by
  have hw := ht.write h (wordBytes p v) hb fun w hw => by
    obtain ⟨i, hi, rfl⟩ := List.mem_map.1 hw
    have hlt := List.mem_range.1 hi
    exact ⟨by dsimp only; omega, by dsimp only; omega⟩
  rwa [foldl_wordBytes] at hw

end Tested

/-! ## The tests -/

theorem writeUint64_run (p v : ℕ) (s : Kernel) :
    (writeUint64 p v).run s = .ok () { s with mem := store64 s.mem p v } := rfl

theorem readUint64_run (p : ℕ) (s : Kernel) : (readUint64 p).run s = .ok (load64 s.mem p) s := rfl

/-- The blocks of the three numbers, in the frame at `a`. -/
def numberBlocks (a : ℕ) : List Blk := [⟨a + 96, 16⟩, ⟨a + 48, 16⟩, ⟨a, 16⟩]

/-- **Three numbers are kept apart** in the heap's first frame. -/
theorem heapValuesTest_ends (h : LimineOk entries hhdm)
    (ht : Tested entries hhdm c₀ c [] [] []) :
    Ends heapValuesTest c.kernel (fun r k => ∃ i a, a = i * 0x1000 + hhdm ∧
        r = ([31, 52, 69], [a + 32, a + 80, a + 128]) ∧
        Tested entries hhdm c₀ ⟨k, (a + 128) :: (a + 80) :: (a + 32) :: c.live, c.frames⟩
          [⟨a + 144, 3920⟩] (numberBlocks a) [i])
      (OutOfFrames (freeFrames c.kernel = 0)) := by
  have hn : Request 8 16 := ⟨by decide, by decide, by decide, by decide⟩
  unfold heapValuesTest
  refine (ht.fresh h hn (by simp)).bind ?_
  rintro _ k₁ ⟨i, -, rfl, -, ht₁⟩
  obtain ⟨a, ha⟩ : ∃ a, a = i * 0x1000 + hhdm := ⟨_, rfl⟩
  rw [← ha] at ht₁ ⊢
  -- each request cuts 16 bytes off the one free block
  replace ht₁ : Tested entries hhdm c₀ (c.given k₁ (a + 32)) [⟨a + 48, 4016⟩] [⟨a, 16⟩] [i] := ht₁
  obtain ⟨k₂, hrun₂, ht₂, -⟩ := ht₁.listed h hn (List.nil_append _).symm ⟨by simp, by simp⟩
  replace ht₂ : Tested entries hhdm c₀ ((c.given k₁ (a + 32)).given k₂ (a + 80))
    [⟨a + 96, 3968⟩] [⟨a + 48, 16⟩, ⟨a, 16⟩] [i] := ht₂
  obtain ⟨k₃, hrun₃, ht₃, -⟩ := ht₂.listed h hn (List.nil_append _).symm ⟨by simp, by simp⟩
  replace ht₃ : Tested entries hhdm c₀
    (((c.given k₁ (a + 32)).given k₂ (a + 80)).given k₃ (a + 128)) [⟨a + 144, 3920⟩]
    (numberBlocks a) [i] := ht₃
  have hfirst := ht₃.writeWord h (b := ⟨a, 16⟩) (p := a + 32) (by simp [numberBlocks]) (by simp)
    (by simp [Blk.stop]) 31
  have hsecond := hfirst.writeWord h (b := ⟨a + 48, 16⟩) (p := a + 80) (by simp [numberBlocks])
    (by simp) (by simp [Blk.stop]) 52
  have hthird := hsecond.writeWord h (b := ⟨a + 96, 16⟩) (p := a + 128) (by simp [numberBlocks])
    (by simp) (by simp [Blk.stop]) 69
  refine Ends.step hrun₂ (Ends.step hrun₃ (Ends.step (writeUint64_run _ _ _)
    (Ends.step (writeUint64_run _ _ _) (Ends.step (writeUint64_run _ _ _) ?_))))
  refine Ends.step (readUint64_run _ _) (Ends.step (readUint64_run _ _)
    (Ends.step (readUint64_run _ _) (Ends.pure ⟨i, a, ha, ?_, hthird⟩)))
  -- the three payloads are apart, so each word is what was written there
  have hread₁ : load64 (store64 (store64 (store64 k₃.mem (a + 32) 31) (a + 80) 52) (a + 128) 69)
      (a + 32) = 31 := by
    rw [load64_store64_of_apart (by omega), load64_store64_of_apart (by omega),
      load64_store64_same (by decide)]
  have hread₂ : load64 (store64 (store64 (store64 k₃.mem (a + 32) 31) (a + 80) 52) (a + 128) 69)
      (a + 80) = 52 := by
    rw [load64_store64_of_apart (by omega), load64_store64_same (by decide)]
  have hread₃ : load64 (store64 (store64 (store64 k₃.mem (a + 32) 31) (a + 80) 52) (a + 128) 69)
      (a + 128) = 69 := load64_store64_same (by decide)
  exact Prod.ext (congrArg₂ List.cons hread₁ (congrArg₂ List.cons hread₂
    (congrArg₂ List.cons hread₃ rfl))) rfl

/-- The blocks once the second frame is taken, at `b`. -/
def twoFrameBlocks (a b : ℕ) : List Blk := ⟨b, 4064⟩ :: numberBlocks a

/-- **A large request takes a frame** of its own, all of it. -/
theorem heapNewFrameTest_ends {a : ℕ} (h : LimineOk entries hhdm)
    (ht : Tested entries hhdm c₀ c [⟨a + 144, 3920⟩] (numberBlocks a) [i]) :
    Ends heapNewFrameTest c.kernel (fun r k => ∃ j b, b = j * 0x1000 + hhdm ∧ r = (b + 32, 0xB2) ∧
        Tested entries hhdm c₀ ⟨k, (b + 32) :: c.live, c.frames⟩ [⟨a + 144, 3920⟩]
          (twoFrameBlocks a b) [j, i])
      (OutOfFrames (freeFrames c.kernel = 0)) := by
  have hlt := freeFrames_lt ht.inv.pmm
  unfold heapNewFrameTest
  refine Ends.step (pmmGetFreeFrameCount_run ht.inv.pmm) ?_
  refine (ht.fresh h (n := 0xFD0) (r := 4048) ⟨by decide, by decide, by decide, by decide⟩
    (by simp)).bind ?_
  rintro _ k ⟨j, -, rfl, hcount, htaken⟩
  obtain ⟨b, hb⟩ : ∃ b, b = j * 0x1000 + hhdm := ⟨_, rfl⟩
  rw [← hb] at htaken ⊢
  have hwhole : remainder 32 16 4048 (frameBlock b) = [] := by simp [remainder, frameBlock]
  have hall : granted 32 16 4048 (frameBlock b) = ⟨b, 4064⟩ := by simp [granted, frameBlock]
  rw [hwhole, hall, List.append_nil, below_append_above] at htaken
  replace htaken : Tested entries hhdm c₀ (c.given k (b + 32)) [⟨a + 144, 3920⟩]
    (twoFrameBlocks a b) [j, i] := htaken
  have hwritten := htaken.write h [(b + 32, 0xB2)] (b := ⟨b, 4064⟩) List.mem_cons_self fun w hw => by
    rw [List.mem_singleton.1 hw]
    simp [Blk.stop]
  unfold freeFrames at hcount hlt
  refine Ends.step (pmmGetFreeFrameCount_run htaken.inv.pmm) (Ends.step (EStateM.run_modify _ _) ?_)
  rw [wrapSub_of_le (by omega) (by omega), if_neg (by omega)]
  refine Ends.step (EStateM.run_get _) ?_
  have hread : store8 k.mem (b + 32) 0xB2 (b + 32) = 0xB2 := store8_same _ _ _
  rw [if_neg (not_not.2 hread)]
  exact Ends.pure ⟨j, b, hb, Prod.ext rfl hread, hwritten⟩

/-- **A small request is aligned and counted.** -/
theorem heapAccountingTest_ends {a b : ℕ} (h : LimineOk entries hhdm) (ha : a % 16 = 0)
    (ht : Tested entries hhdm c₀ c [⟨a + 144, 3920⟩] (twoFrameBlocks a b) grown)
    (E : Stop → Kernel → Prop) :
    Ends heapAccountingTest c.kernel (fun p k => p = a + 176 ∧
      Tested entries hhdm c₀ (c.given k (a + 176)) [⟨a + 192, 3872⟩]
        (⟨a + 144, 16⟩ :: twoFrameBlocks a b) grown) E := by
  obtain ⟨k, hrun, htaken, hused, -⟩ := ht.listed h (n := 13) (r := 16)
    ⟨by decide, by decide, by decide, by decide⟩ (List.nil_append _).symm ⟨by simp, by simp⟩
  replace hused : heapGetUsedBytes k = wrap (heapGetUsedBytes c.kernel + 16) := hused
  have haligned : (a + 144 + 32) &&& 0xF = 0 := by
    rw [show (0xF : ℕ) = 2 ^ 4 - 1 by rfl, Nat.and_two_pow_sub_one_eq_mod]
    omega
  unfold heapAccountingTest
  refine Ends.step (EStateM.run_get _) (Ends.step hrun ?_)
  rw [if_neg (not_not.2 haligned)]
  refine Ends.step (EStateM.run_get _) ?_
  rw [if_neg (not_not.2 hused)]
  exact Ends.pure ⟨rfl, htaken⟩

/-- **The blocks `kmain` leaves on the heap**: the rest of the first frame
was cut, joined and handed out whole. -/
def bootBlocks (a b : ℕ) : List Blk := ⟨a + 144, 3920⟩ :: twoFrameBlocks a b

/-- **What was freed is joined with its neighbour**, so the larger request
needs no frame and gets the same place. -/
theorem heapMergeTest_ends {a b : ℕ} (h : LimineOk entries hhdm)
    (ht : Tested entries hhdm c₀ (c.given k (a + 176)) [⟨a + 192, 3872⟩]
      (⟨a + 144, 16⟩ :: twoFrameBlocks a b) grown) (E : Stop → Kernel → Prop) :
    Ends (heapMergeTest (a + 176)) k (fun r k => r = (4128, 4112) ∧
      Tested entries hhdm c₀ (c.given k (a + 176)) [] (bootBlocks a b) grown) E := by
  have hused : heapGetUsedBytes k = 4128 := ht.tally.used
  obtain ⟨k₁, hfree, hfreed, hused₁, hcount₁⟩ := ht.kfree h (b := ⟨a + 144, 16⟩) List.mem_cons_self
  -- the cut is undone
  have hjoined : release 32 ⟨a + 144, 16⟩ [⟨a + 192, 3872⟩] = [⟨a + 144, 3920⟩] := by
    simp [release, below, above, fuse, fuseLast, Blk.stop]
  rw [hjoined, List.erase_cons_head (a := (⟨a + 144, 16⟩ : Blk))] at hfreed
  have herase : ((a + 144 + 32) :: c.live).erase (a + 144 + 32) = c.live := List.erase_cons_head ..
  change Tested _ _ _ ⟨k₁, ((a + 144 + 32) :: c.live).erase (a + 144 + 32), c.frames⟩ _ _ _ at hfreed
  rw [herase] at hfreed
  obtain ⟨k₂, hrun, htaken, -, hcount₂⟩ := hfreed.listed h (n := 3900) (r := 3904)
    ⟨by decide, by decide, by decide, by decide⟩ (List.nil_append _).symm ⟨by simp, by simp⟩
  have hwhole : remainder 32 16 3904 ⟨a + 144, 3920⟩ = [] := by simp [remainder]
  have hall : granted 32 16 3904 ⟨a + 144, 3920⟩ = ⟨a + 144, 3920⟩ := by simp [granted]
  rw [hwhole, hall] at htaken
  replace hused₁ : heapGetUsedBytes k₁ = wrapSub (heapGetUsedBytes k) 16 := hused₁
  replace hcount₁ : heapGetFrameCount k₁ = heapGetFrameCount k := hcount₁
  have hcount : heapGetFrameCount k₂ = heapGetFrameCount k := hcount₂.trans hcount₁
  have hrest : heapGetUsedBytes k₁ = 4112 := by
    rw [hused₁, hused]
    decide
  unfold heapMergeTest
  refine Ends.step (EStateM.run_get _) (Ends.step hfree (Ends.step (EStateM.run_get _) ?_))
  rw [if_neg (not_not.2 hused₁), if_neg (not_not.2 hcount₁)]
  refine Ends.step hrun ?_
  rw [if_neg (not_not.2 rfl)]
  refine Ends.step (EStateM.run_get _) ?_
  rw [if_neg (not_not.2 hcount)]
  exact Ends.pure ⟨Prod.ext hused hrest, htaken⟩

end System

/-! ## All of them -/

/-- **What boot has made of memory** when the tests are passed: six frames
are out, a heap of two frames has five blocks and nothing free, and the
state is one that calls of the allocators lead to from `heap_init`. -/
structure TestsPassed (entries : List MemmapEntry) (hhdm : ℕ) (m : Mem) (s₀ : Kernel)
    (report : MemoryReport) (k : Kernel) : Prop where
  run : ∃ calls c₀ es c i j, System.Started entries hhdm m calls c₀ ∧
    (outstanding calls).length = 6 ∧ Run System.KeepingStep c₀ es c ∧ c.kernel = k ∧
    report.heapAddress =
      [i * 0x1000 + hhdm + 32, i * 0x1000 + hhdm + 80, i * 0x1000 + hhdm + 128] ∧
    c.live = [i * 0x1000 + hhdm + 176, j * 0x1000 + hhdm + 32, i * 0x1000 + hhdm + 128,
      i * 0x1000 + hhdm + 80, i * 0x1000 + hhdm + 32]
  list : FreeListIs k []
  used : heapGetUsedBytes k = 8032
  frames : heapGetFrameCount k = 2
  free : freeFrames k + 8 = freeFrames s₀
  /-- The numbers read back are the ones written. -/
  values : report.testFrameValue = 31 ∧ report.heapValue = [31, 52, 69] ∧
    report.heapSecondFrameTestOk = 0xB2
  taken : report.pmmFrame.length = 5

variable {s₀ : Kernel}

theorem heapInit_samePmm (hheap : (heapInit hhdm).run s = .ok () k) : SamePmm s k := by
  unfold heapInit at hheap
  rw [EStateM.run_modify] at hheap
  rw [← (EStateM.Result.ok.inj hheap).2]
  exact ⟨rfl, fun _ _ => rfl⟩

/-- **`heap_init` starts the heap's tests**, with what PMM has given out in
`kmain`'s hands. -/
theorem Outstanding.started (h : LimineOk entries hhdm) (hs : Outstanding entries hhdm m s₀ n s)
    (hheap : (heapInit hhdm).run s = .ok () k) : ∃ calls c₀,
      System.Started entries hhdm m calls c₀ ∧ (outstanding calls).length = n ∧ c₀.kernel = k ∧
      c₀.live = [] ∧ System.Tested entries hhdm c₀ c₀ [] [] [] ∧
      freeFrames k + n = freeFrames s₀ := by
  obtain ⟨calls, hcalls, hlength⟩ := hs.calls
  have hstart : System.Started entries hhdm m calls ⟨k, [], outstanding calls⟩ :=
    ⟨⟨s₀, s, hs.init, hcalls, hheap⟩, rfl, rfl⟩
  refine ⟨calls, _, hstart, hlength, rfl, rfl,
    ⟨⟨[], .nil⟩, hstart.inv h, System.tally_heapInit hheap, rfl⟩, ?_⟩
  rw [(heapInit_samePmm hheap).freeFrames_eq (hs.serves h).pmm]
  exact hs.free h

/-- **Once `pmm_init` has returned** every test is passed, or too few frames
were free. -/
theorem kmainMemory_ends (h : LimineOk entries hhdm)
    (hinit : (pmmInit entries hhdm).run { mem := m } = .ok () s₀) :
    Ends (kmainMemory entries hhdm) { mem := m }
      (fun report k => TestsPassed entries hhdm m s₀ report k)
      (OutOfFrames (freeFrames s₀ < 8)) := by
  have hnone : Outstanding entries hhdm m s₀ 0 s₀ := ⟨hinit, [], .nil, rfl⟩
  unfold kmainMemory
  refine Ends.step hinit (((pmmOwnerTest_ends (hnone.serves h).pmm).mono (fun _ _ hr => hr)
    (F := OutOfFrames (freeFrames s₀ < 8)) fun e t he => ⟨he.1, by have := he.2; omega⟩).bind ?_)
  rintro _ _ ⟨hsame, -⟩
  rw [hsame]
  refine Ends.step (EStateM.run_get _) ((pmmFrames_ends h 5 hnone (by decide)).bind ?_)
  rintro frames s ⟨hframes, hs⟩
  refine (pmmReuseTest_ends h hs (by decide)).bind ?_
  rintro ⟨value, recycled⟩ t ⟨hvalue, hout⟩
  -- from here on the frames are the heap's
  obtain ⟨k₀, hheap⟩ : ∃ k₀, (heapInit hhdm).run t = .ok () k₀ := ⟨_, rfl⟩
  obtain ⟨calls, c₀, hstart, hlength, rfl, hlive, htested, hfree⟩ := hout.started h hheap
  refine Ends.step (EStateM.run_get _) (Ends.step hheap ?_)
  refine ((System.heapValuesTest_ends h htested).mono (fun _ _ hr => hr)
    (F := OutOfFrames (freeFrames s₀ < 8)) fun e t he => ⟨he.1, by have := he.2; omega⟩).bind ?_
  rintro _ k₁ ⟨i, a, ha, rfl, h₁⟩
  have hcount := h₁.count
  refine ((System.heapNewFrameTest_ends h h₁).mono (fun _ _ hr => hr)
    (F := OutOfFrames (freeFrames s₀ < 8)) fun e t he => ⟨he.1, by
      have := he.2
      rw [List.length_singleton] at hcount
      omega⟩).bind ?_
  rintro _ k₂ ⟨j, b, hb, rfl, h₂⟩
  have haligned : a % 16 = 0 := by
    have hpage := h.aligned
    omega
  refine (System.heapAccountingTest_ends h haligned h₂ _).bind ?_
  rintro _ k₃ ⟨rfl, h₃⟩
  refine (System.heapMergeTest_ends h h₃ _).bind ?_
  rintro _ k₄ ⟨rfl, h₄⟩
  obtain ⟨es, hrun⟩ := h₄.run
  have hlast := h₄.count
  refine Ends.pure ⟨⟨calls, c₀, es, _, i, j, hstart, hlength, hrun, rfl, ?_, ?_⟩,
    h₄.inv.freeListIs, h₄.tally.used, h₄.tally.count, ?_, ⟨hvalue, rfl, rfl⟩, hframes⟩
  · rw [ha]
  · rw [ha, hb, hlive]
  · change freeFrames k₄ + 2 = _ at hlast
    omega

/-! ## In terms of the map -/

/-- The frames below `n` that lie wholly inside usable memory. -/
def usableFrames (entries : List MemmapEntry) : ℕ → ℕ
  | 0 => 0
  | n + 1 => usableFrames entries n +
      if entries.any fun e => decide (e.Usable ∧ e.firstFrame ≤ n ∧ n < e.endFrame) then 1 else 0

/-- **Usable frames are free at first, or the bitmaps'.** -/
theorem Initialised.usableFrames_eq (hs : Initialised entries hhdm m s) (hn : n ≤ s.frameCount) :
    usableFrames entries n = freeBelow s n +
      (min n (s.bitmapPhysicalAddress / 0x1000 + 2 * s.bitmapPageCount) -
        min n (s.bitmapPhysicalAddress / 0x1000)) := by
  classical
  obtain ⟨e, hfirst, -, hend, hbase⟩ := hs.range
  obtain ⟨he, hu⟩ := hfirst.mem
  have hnext := hs.next
  have hroom := hs.room
  induction n with
  | zero => simp [usableFrames, freeBelow]
  | succ n ih =>
    have husable : (entries.any fun e => decide (e.Usable ∧ e.firstFrame ≤ n ∧ n < e.endFrame)) ↔
        ∃ e ∈ entries, e.Usable ∧ e.HasFrame n := by
      simp only [List.any_eq_true, decide_eq_true_eq, MemmapEntry.hasFrame_iff]
    have hfree := hs.primary n hn
    have hstorage : StorageFrame s n ↔ s.bitmapPhysicalAddress / 0x1000 ≤ n ∧
        n < s.bitmapPhysicalAddress / 0x1000 + 2 * s.bitmapPageCount := by
      unfold StorageFrame
      omega
    unfold usableFrames freeBelow
    rw [ih (by omega), if_congr husable rfl rfl, if_congr hfree rfl rfl, hstorage]
    by_cases hin : s.bitmapPhysicalAddress / 0x1000 ≤ n ∧
        n < s.bitmapPhysicalAddress / 0x1000 + 2 * s.bitmapPageCount
    · -- a bitmap's own frame is usable
      have hmem : ∃ e ∈ entries, e.Usable ∧ e.HasFrame n :=
        ⟨e, he, hu, MemmapEntry.hasFrame_iff.2 ⟨by omega, by omega⟩⟩
      rw [if_pos hmem, if_neg fun hboth => hboth.2 hin]
      omega
    · by_cases hmem : ∃ e ∈ entries, e.Usable ∧ e.HasFrame n
      · rw [if_pos hmem, if_pos ⟨hmem, hin⟩]
        omega
      · rw [if_neg hmem, if_neg fun hboth => hmem hboth.1]
        omega

/-- **What `pmm_init` leaves free** is what is usable, but for two bitmaps. -/
theorem Initialised.freeFrames_add (hs : Initialised entries hhdm m s) :
    freeFrames s + 2 * mapPages entries = usableFrames entries (mapFrames entries) := by
  obtain ⟨e, hfirst, -, hend, hbase⟩ := hs.range
  obtain ⟨he, hu⟩ := hfirst.mem
  have hnext := hs.next
  have hroom := hs.room
  have hle := endFrame_le_mapFrames he hu
  have hcount := hs.frameCount
  have heq := hs.usableFrames_eq (le_refl s.frameCount)
  rw [← hs.pageCount, ← hcount, heq]
  unfold freeFrames
  omega

/-- Eight usable frames beside the bitmaps are enough. -/
theorem kmainMemory_returns (h : LimineOk entries hhdm) (m : Mem)
    (hall : HasUsable entries ∧ RoomForBitmaps entries ∧
      2 * mapPages entries + 8 ≤ usableFrames entries (mapFrames entries)) :
    ∃ report k, (kmainMemory entries hhdm).run { mem := m } = .ok report k := by
  obtain ⟨husable, hroom, henough⟩ := hall
  obtain ⟨s₀, hinit, hs⟩ := pmmInit_run hhdm m h.mapOk.sane (h.mapOk.hasFrames_iff.2 husable) hroom
  have hfree := hs.freeFrames_add
  rcases (kmainMemory_ends h hinit).cases with ⟨report, k, hrun, -⟩ | ⟨e, k, -, -, hfew⟩
  · exact ⟨report, k, hrun⟩
  · omega

/-- **Boot passes its own tests.** On every map that Limine promises `kmain`
comes to the UI exactly when some entry is usable, the longest range has
room for both bitmaps, and eight usable frames remain beside them. Where it
does not, `pmm_init` has panicked or the frames ran out: no test fails. -/
theorem kmain_passes_iff (entries : List MemmapEntry) (hhdm : ℕ) (m : Mem)
    (h : LimineOk entries hhdm) :
    ((∃ report k, (kmainMemory entries hhdm).run { mem := m } = .ok report k) ↔
      HasUsable entries ∧ RoomForBitmaps entries ∧
        2 * mapPages entries + 8 ≤ usableFrames entries (mapFrames entries)) ∧
    ∀ e k, (kmainMemory entries hhdm).run { mem := m } = .error e k →
      e = .panic "KBM_OUT_OF_MEMORY" ∨ (pmmInit entries hhdm).run { mem := m } = .error e k := by
  refine ⟨⟨?_, kmainMemory_returns h m⟩, fun e k herr => ?_⟩
  · rintro ⟨report, k, hrun⟩
    obtain ⟨⟨⟩, s₀, hinit, -⟩ := of_run_bind hrun
    have hs := of_pmmInit h.mapOk.sane hinit
    obtain ⟨hwhole, hroom⟩ := (pmmInit_returns_iff hhdm m h.mapOk.sane).1 ⟨s₀, hinit⟩
    have hfree := hs.freeFrames_add
    refine ⟨h.mapOk.hasFrames_iff.1 hwhole, hroom, ?_⟩
    rcases (kmainMemory_ends h hinit).cases with ⟨report', k', -, hpassed⟩ | ⟨e, k', herr, -⟩
    · have hcount := hpassed.free
      omega
    · rw [hrun] at herr
      cases herr
  · rcases hinit : (pmmInit entries hhdm).run { mem := m } with ⟨⟨⟩, s₀⟩ | ⟨e₀, s₀⟩
    · rcases (kmainMemory_ends h hinit).cases with ⟨report, k', hrun, -⟩ | ⟨e', k', hrun, he, -⟩
      · rw [hrun] at herr
        cases herr
      · rw [hrun] at herr
        cases herr
        exact Or.inl he
    · have hstops : (kmainMemory entries hhdm).run { mem := m } = .error e₀ s₀ :=
        run_bind_error hinit
      rw [hstops] at herr
      cases herr
      exact Or.inr rfl

/-- A map of 32 usable frames. -/
def roomyMap : List MemmapEntry := [⟨0x1000, 0x20000, 0⟩]

theorem roomyMap_limineOk : LimineOk roomyMap System.sampleOffset where
  frame e he hu := by
    rw [List.mem_singleton.1 he]
    exact ⟨1, by decide, by decide⟩
  pos := by decide
  aligned := by decide
  linear e he hu := by
    rw [List.mem_singleton.1 he]
    decide

theorem roomyMap_boots : HasUsable roomyMap ∧ RoomForBitmaps roomyMap ∧
    2 * mapPages roomyMap + 8 ≤ usableFrames roomyMap (mapFrames roomyMap) :=
  ⟨⟨_, List.mem_cons_self, rfl⟩, by unfold RoomForBitmaps; decide, by decide⟩

/-- Boot passes on it. -/
theorem kmain_passes_roomyMap :
    ∃ report k, (kmainMemory roomyMap System.sampleOffset).run { mem := blankMem } = .ok report k :=
  (kmain_passes_iff roomyMap System.sampleOffset blankMem roomyMap_limineOk).1.2 roomyMap_boots

/-- **What boot leaves behind** is a state the allocators reach, with two
frames and five blocks in the heap. -/
theorem kmain_leaves (entries : List MemmapEntry) (hhdm : ℕ) (m : Mem) (report : MemoryReport)
    (k : Kernel) (h : LimineOk entries hhdm)
    (hrun : (kmainMemory entries hhdm).run { mem := m } = .ok report k) :
    ∃ s₀, (pmmInit entries hhdm).run { mem := m } = .ok () s₀ ∧
      TestsPassed entries hhdm m s₀ report k := by
  obtain ⟨⟨⟩, s₀, hinit, -⟩ := of_run_bind hrun
  refine ⟨s₀, hinit, ?_⟩
  rcases (kmainMemory_ends h hinit).cases with ⟨report', k', hok, hpassed⟩ | ⟨e, k', herr, -⟩
  · rw [hrun] at hok
    cases hok
    exact hpassed
  · rw [hrun] at herr
    cases herr

/-- On that map it leaves a heap of two frames. -/
theorem kmain_leaves_roomyMap : ∃ report k,
    (kmainMemory roomyMap System.sampleOffset).run { mem := blankMem } = .ok report k ∧
      heapGetFrameCount k = 2 := by
  obtain ⟨report, k, hrun⟩ := kmainMemory_returns roomyMap_limineOk blankMem roomyMap_boots
  obtain ⟨s₀, -, hpassed⟩ := kmain_leaves roomyMap System.sampleOffset blankMem report k
    roomyMap_limineOk hrun
  exact ⟨report, k, hrun, hpassed.frames⟩

end KbmOs
