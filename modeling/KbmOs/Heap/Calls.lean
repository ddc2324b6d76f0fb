import KbmOs.Heap.Steps
import KbmOs.Pmm.Table
/-!
# What `kmalloc` and `kfree` do

The two calls, each put together from the steps of the free list. `kfree`
of a live block is `release` on the list of free blocks. `kmalloc` hands
out the first block that fits, and where none does the block that a fresh
frame becomes; it fails on a size too large and on a PMM without a free
frame, and in both cases nothing has changed.
-/

namespace KbmOs

open ByteMemory LinkedList Tiling FreeList

variable {s s' : Kernel} {free live live' pre post : List Blk} {S : Set ℕ} {b c : Blk}
variable {i n r x : ℕ}

/-! ## Rounding -/

theorem roundUpTo16_eq (n : ℕ) : roundUpTo16 n = (n + 15) % 2 ^ 64 / 16 * 16 :=
  and_highMask (by decide) (Nat.mod_lt _ (Nat.two_pow_pos 64))

theorem roundUpTo16_mod (n : ℕ) : roundUpTo16 n % 16 = 0 := by
  rw [roundUpTo16_eq]
  omega

/-- **Rounding goes up**, as long as the sum does not wrap. -/
theorem le_roundUpTo16 (hn : n ≤ 2 ^ 64 - 16) : n ≤ roundUpTo16 n ∧ roundUpTo16 n < n + 16 := by
  rw [roundUpTo16_eq]
  omega

/-- The sixteen sizes whose sum wraps, less the one that needs no rounding,
become zero. -/
theorem roundUpTo16_wraps (hn : n < 2 ^ 64) (hlarge : 2 ^ 64 - 16 < n) : roundUpTo16 n = 0 := by
  rw [roundUpTo16_eq]
  omega

/-! ## `kfree` -/

/-- The order in which live blocks are listed is free. -/
theorem HeapRep.perm_live (hp : live.Perm live') (hs : HeapRep s free live S) :
    HeapRep s free live' S where
  ready := hs.ready
  sorted := hs.sorted
  tiles := hs.tiles.perm (hp.append_left free)
  range := hs.range
  placed b hb := hs.placed b (((hp.append_left free).mem_iff).2 hb)
  leads := hs.leads
  listed := hs.listed
  taken b hb := hs.taken b (hp.mem_iff.2 hb)

/-- The first block of a fused list starts where its first part did. -/
theorem fuse_eq_cons (h : ℕ) (b : Blk) (l : List Blk) :
    ∃ c l', fuse h b l = c :: l' ∧ c.addr = b.addr := by
  cases l with
  | nil => exact ⟨b, [], rfl, rfl⟩
  | cons c l =>
    rw [fuse_cons]
    split
    · exact ⟨_, _, rfl, rfl⟩
    · exact ⟨_, _, rfl, rfl⟩

/-- The blocks of a fused list hold what its parts held. -/
theorem held_fuse (hx : Held (pre ++ fuse 32 b post) x) : Held (pre ++ b :: post) x := by
  obtain ⟨c, hc, hxc⟩ := hx
  rcases List.mem_append.1 hc with hc | hc
  · exact ⟨c, List.mem_append_left _ hc, hxc⟩
  cases post with
  | nil => exact ⟨c, List.mem_append_right _ hc, hxc⟩
  | cons d post =>
    rw [fuse_cons] at hc
    split at hc
    · rename_i htouch
      rcases List.mem_cons.1 hc with rfl | hc
      · -- the fused block: its bytes are those of `b` up to where `d` starts
        by_cases hd : x < d.addr
        · refine ⟨b, by simp, ?_⟩
          unfold Blk.Holds Blk.stop at *
          dsimp only at *
          omega
        · refine ⟨d, by simp, ?_⟩
          unfold Blk.Holds Blk.stop at *
          dsimp only at *
          omega
      · exact ⟨c, by simp [hc], hxc⟩
    · exact ⟨c, List.mem_append_right _ hc, hxc⟩

/-- **`kfree` of a live block**: the block is back on the free list, joined
with its neighbours, and its header is accepted no more. -/
theorem kfree_run (hs : HeapRep s free (b :: live) S) :
    ∃ s', (kfree (b.addr + 32)).run s = .ok () s' ∧
      HeapRep s' (release 32 b free) live S ∧ HeapWrite (Held (b :: free)) s s' ∧
      s'.heapUsedBytes = wrapSub s.heapUsedBytes b.size ∧ s'.heapFrameCount = s.heapFrameCount ∧
      (∀ except, NoForgery except s.mem s'.mem) ∧ ¬ Accepted s'.mem b.addr := by
  have hmem : b ∈ free ++ b :: live := by simp
  have hplaced := hs.placed b hmem
  have haddr := hplaced.addr
  have hpayload := hplaced.payload
  obtain ⟨hpos, hstop⟩ := hs.bounds hmem
  have hb := hs.taken b (by simp)
  have hblock : wrapSub (b.addr + 32) heapBlockSize = b.addr := by
    change wrapSub (b.addr + 32) 32 = b.addr
    rw [wrapSub_of_le hpayload (by omega)]
    omega
  -- everything else is apart from the block, so the flag is in no other header
  have hothers : ∀ d ∈ free ++ live, Apart 32 b d :=
    (List.pairwise_cons.1 (hs.tiles.perm List.perm_middle).apart).1
  -- the flag is set first
  obtain ⟨t, ht⟩ : ∃ t : Kernel, t = { s with mem := store64 s.mem (b.addr + 16) 1 } := ⟨_, rfl⟩
  have htmem : ∀ x, (x < b.addr + 16 ∨ b.addr + 24 ≤ x) → t.mem x = s.mem x := by
    intro x hx
    rw [ht]
    exact store64_of_apart (by omega)
  have htrep : HeapRep t free live (S \ {x | b.Holds 32 x}) := by
    refine hs.lend.congr (by rw [ht]) (by rw [ht]) fun d hd x h1 h2 => htmem x ?_
    have hbd := hothers d hd
    unfold Apart Blk.stop at hbd
    omega
  have hflag : blockIsFree t.mem b.addr = 1 := by
    unfold blockIsFree
    rw [ht, load64_store64_same (by decide)]
  have hstamp : Stamp t.mem b 1 :=
    ⟨(load64_congr fun x h1 h2 => htmem x (by omega)).trans hb.size, hflag,
      (load64_congr fun x h1 h2 => htmem x (by omega)).trans hb.magic⟩
  have hrefused : ¬ Accepted t.mem b.addr := by
    intro hacc
    rw [Accepted, hflag] at hacc
    exact absurd hacc.2 one_ne_zero
  have hforge : ∀ except, NoForgery except s.mem t.mem := by
    intro except
    rw [ht]
    exact NoForgery.isFree haddr
  -- then it is linked in, and the two merges work on the longer list
  obtain ⟨u, hrun_u, hrep_u, hst_u, hoff_u, hforge_u⟩ :=
    linkInOrder_run htrep hstamp hplaced hpos hstop fun x hx hxS => hxS.2 hx
  have hregion : {x | b.Holds 32 x} ∪ (S \ {x | b.Holds 32 x}) = S := by
    refine Set.union_sdiff_cancel fun x hx => hs.tiles.mem_of_holds hmem hx
  rw [hregion] at hrep_u
  obtain ⟨v, hrun_v, hrep_v, hst_v, hoff_v, hforge_v⟩ := mergeNext_run hrep_u
  obtain ⟨b', post', hfuse, hb'⟩ := fuse_eq_cons 32 b (above b.addr free)
  have hheld : ∀ x, Held (below b.addr free ++ b :: above b.addr free) x → Held (b :: free) x := by
    rintro x ⟨c, hc, hxc⟩
    exact ⟨c, mem_placed.1 hc, hxc⟩
  have hheld' : ∀ x, Held (below b.addr free ++ b' :: post') x → Held (b :: free) x := by
    intro x hx
    rw [← hfuse] at hx
    exact hheld x (held_fuse hx)
  rw [hfuse] at hrep_v
  obtain ⟨w, hrun_w, hrep_w, hst_w, hoff_w, hforge_w⟩ := mergePrevious_run hrep_v
  rw [hb'] at hrun_w
  -- none of the three forges a header, and the block's own is refused from the start
  have hforge_tw : ∀ except, NoForgery except t.mem w.mem := fun except =>
    ((hforge_u except).trans (hforge_v except)).trans (hforge_w except)
  have hused : w.heapUsedBytes = s.heapUsedBytes := by rw [hst_w, hst_v, hst_u, ht]
  refine ⟨{ w with heapUsedBytes := wrapSub s.heapUsedBytes b.size }, ?_, ?_, ⟨?_, fun x hx => ?_⟩,
    rfl, ?_, fun except => (hforge except).trans (hforge_tw except), fun hacc => ?_⟩
  · unfold kfree
    rw [if_neg (by omega), run_bind_ok (EStateM.run_get s)]
    dsimp only
    rw [hblock, if_neg hs.ready, if_neg (not_not.2 hb.magic), if_neg (not_not.2 hb.isFree),
      run_bind_ok setIsFree_run, ← ht, run_bind_ok hrun_u, run_bind_ok hrun_v, run_bind_ok hrun_w,
      EStateM.run_modify, hused, hb.size]
  · rw [release, hfuse]
    exact hrep_w.congr rfl rfl fun _ _ _ _ _ => rfl
  · rw [hst_w, hst_v, hst_u, ht]
  · have hxb : ¬ b.Holds 32 x := fun h => hx ⟨b, by simp, h⟩
    have hxfree : ¬ Held free x := fun ⟨c, hc, hxc⟩ => hx ⟨c, by simp [hc], hxc⟩
    unfold Blk.Holds Blk.stop at hxb
    change w.mem x = s.mem x
    rw [hoff_w x fun h => hx (hheld' x h), hoff_v x fun h => hx (hheld x h),
      hoff_u x hxfree (by omega), htmem x (by omega)]
  · rw [hst_w, hst_v, hst_u, ht]
  · exact hrefused (hforge_tw (fun _ => False) b.addr haddr (fun h => h) hacc)

/-! ## `kmalloc` -/

/-- A size too large is refused. -/
theorem kmalloc_overflow (hready : s.heapReady ≠ 0) (hn : n ≠ 0) (hlarge : 4064 < roundUpTo16 n) :
    (kmalloc n).run s = .error (.panic "KBM_HEAP_OVERFLOW") s := by
  unfold kmalloc
  rw [run_bind_ok (EStateM.run_get s), if_neg hready, if_neg hn, if_pos (by exact hlarge)]
  rfl

/-- **A block that fits is handed out**, the first one. -/
theorem kmalloc_found (hs : HeapRep s (pre ++ b :: post) live S) (hn : n ≠ 0)
    (hsmall : roundUpTo16 n ≤ 4064) (hfit : FirstFit (roundUpTo16 n) pre b) :
    (kmalloc n).run s = (handOut (lastAddr pre) b.addr (roundUpTo16 n)).run s := by
  have hb := hs.listed b (by simp)
  obtain ⟨-, -, hpos, -, -⟩ := hs.facts
  unfold kmalloc
  rw [run_bind_ok (EStateM.run_get s), if_neg hs.ready, if_neg hn, if_neg (by exact not_lt.2 hsmall),
    run_bind_ok (walkFreeList_run hs (fun c hc => ?_) (fun c hc => ?_))]
  · change (if b.addr = 0 then _ else handOut (lastAddr pre) b.addr (roundUpTo16 n)).run s = _
    rw [if_neg (by omega)]
  · -- the blocks before it are free too, so it is their size the test fails on
    have hstamp := hs.listed c (by simp [hc])
    have hlt := hfit.first c hc
    refine decide_eq_false fun h => ?_
    rw [hstamp.size] at h
    omega
  · rw [List.head?_cons, Option.some_inj] at hc
    subst hc
    exact decide_eq_true ⟨hb.isFree, by rw [hb.size]; exact hfit.fits⟩

/-- **Where none fits the heap grows first.** -/
theorem kmalloc_none (hs : HeapRep s free live S) (hn : n ≠ 0) (hsmall : roundUpTo16 n ≤ 4064)
    (hnone : ∀ c ∈ free, c.size < roundUpTo16 n) :
    (kmalloc n).run s = (growHeap >>= fun found =>
      handOut found.1 found.2 (roundUpTo16 n)).run s := by
  have hs' : HeapRep s (free ++ []) live S := by simpa using hs
  unfold kmalloc
  rw [run_bind_ok (EStateM.run_get s), if_neg hs.ready, if_neg hn, if_neg (by exact not_lt.2 hsmall),
    run_bind_ok (walkFreeList_run hs' (fun c hc => ?_) (fun c hc => by cases hc))]
  · rfl
  · have hstamp := hs.listed c hc
    have hlt := hnone c hc
    refine decide_eq_false fun h => ?_
    rw [hstamp.size] at h
    omega

/-- The block a fresh frame at `a` becomes. -/
def frameBlock (a : ℕ) : Blk := ⟨a, 4064⟩

/-- The header `growHeap` writes at the start of a frame, all but its link. -/
theorem frameHeader {m m' : Mem} {a : ℕ} (h16 : a % 16 = 0)
    (hm' : m' = store64 (store64 (store64 m a 4064) (a + 16) 1) (a + 24) heapBlockMagic) :
    Stamp m' (frameBlock a) 1 ∧ (∀ x, (x < a ∨ a + 32 ≤ x) → m' x = m x) ∧
      ∀ except, NoForgery except m m' := by
  have hflag : blockIsFree m' a = 1 := by
    unfold blockIsFree
    rw [hm', load64_store64_of_apart (by omega), load64_store64_same (by decide)]
  have hsize : blockSize m' a = 4064 := by
    unfold blockSize
    rw [hm', load64_store64_of_apart (by omega), load64_store64_of_apart (by omega),
      load64_store64_same (by decide)]
  have hmagic : blockMagic m' a = heapBlockMagic := by
    unfold blockMagic
    rw [hm', load64_store64_same (by decide)]
  refine ⟨⟨hsize, hflag, hmagic⟩, fun x hx => ?_, fun except => ?_⟩
  · rw [hm', store64_of_apart (by omega), store64_of_apart (by omega), store64_of_apart (by omega)]
  · -- the magic number comes last, when the flag already says free
    rw [hm']
    refine NoForgery.trans (NoForgery.size (n := 4064) h16 (by decide) (Or.inl (by decide))) ?_
    refine NoForgery.trans (NoForgery.isFree h16) (NoForgery.magic h16 ?_)
    unfold blockIsFree
    rw [load64_store64_same (by decide)]
    exact one_ne_zero

/-- **The heap grows** by PMM's lowest free frame, linked in as one free
block. -/
theorem growHeap_run (hp : PmmInv s) (hi : LowestFree s i) (hs : HeapRep s free live S) {a : ℕ}
    (ha : a = i * 0x1000 + s.heapHhdmOffset) (h16 : a % 16 = 0) (hpos : 0 < a)
    (htop : a + 4096 ≤ 2 ^ 64) (hclear : ∀ x, (frameBlock a).Holds 32 x → x ∉ S)
    (hbits : ∀ x ∈ S, ¬ BitmapByte s x) :
    ∃ s', growHeap.run s = .ok (lastAddr (below a free), a) s' ∧
      HeapRep s' (below a free ++ frameBlock a :: above a free) live
        ({x | (frameBlock a).Holds 32 x} ∪ S) ∧
      HeapWrite (Held (frameBlock a :: free)) (claimFrame s i) s' ∧
      s'.heapUsedBytes = s.heapUsedBytes ∧ s'.heapFrameCount = wrap (s.heapFrameCount + 1) ∧
      ∀ except, NoForgery except (claimFrame s i).mem s'.mem := by
  -- claiming the frame writes the bitmaps, which lie outside the heap
  obtain ⟨t, ht⟩ : ∃ t, t = claimFrame s i := ⟨_, rfl⟩
  have htmem : ∀ x ∈ S, t.mem x = s.mem x := by
    intro x hx
    rw [ht]
    exact claimFrame_mem hp hi.lt (hbits x hx)
  have htrep : HeapRep t free live S := by
    refine hs.congr (by rw [ht]; rfl) (by rw [ht]; rfl) fun b hb x h1 h2 => htmem x ?_
    exact hs.tiles.mem_of_holds hb ⟨h1, by unfold Blk.stop; omega⟩
  obtain ⟨m', hm'⟩ : ∃ m', m' =
    store64 (store64 (store64 t.mem a 4064) (a + 16) 1) (a + 24) heapBlockMagic := ⟨_, rfl⟩
  obtain ⟨hstamp, humem, hforge⟩ := frameHeader h16 hm'
  obtain ⟨u, hu⟩ : ∃ u : Kernel, u = { t with mem := m' } := ⟨_, rfl⟩
  have hum : u.mem = m' := by rw [hu]
  rw [← hum] at hstamp humem hforge
  have hin : ∀ x, a ≤ x → x < a + 4096 → (frameBlock a).Holds 32 x := fun x h1 h2 =>
    ⟨h1, by unfold Blk.stop frameBlock; dsimp only; omega⟩
  -- the header is written in the frame, and no block of the heap reaches there
  have hurep : HeapRep u free live S := by
    refine htrep.congr (by rw [hu]) (by rw [hu]) fun b hb x h1 h2 => humem x ?_
    by_contra hx
    exact hclear x (hin x (by omega) (by omega))
      (hs.tiles.mem_of_holds hb ⟨h1, by unfold Blk.stop; omega⟩)
  have hplaced : Placed (frameBlock a) := by
    unfold frameBlock
    exact ⟨h16, by dsimp only, by dsimp only; omega⟩
  have hstop : (frameBlock a).stop 32 ≤ 2 ^ 64 := by
    unfold Blk.stop frameBlock
    dsimp only
    omega
  obtain ⟨v, hrun, hrep, hst, hoff, hforge'⟩ :=
    linkInOrder_run hurep hstamp hplaced hpos hstop hclear
  change (linkInOrder a).run u = .ok (lastAddr (below a free)) v at hrun
  have hheap : t.heapHhdmOffset = s.heapHhdmOffset := by rw [ht]; rfl
  have hcount : v.heapFrameCount = s.heapFrameCount := by rw [hst, hu, ht]; rfl
  have haddr : wrap (i * 0x1000 + t.heapHhdmOffset) = a := by
    rw [hheap, ← ha]
    exact wrap_of_lt (by omega)
  refine ⟨{ v with heapFrameCount := wrap (s.heapFrameCount + 1) }, ?_, ?_, ⟨?_, fun x hx => ?_⟩, ?_,
    rfl, fun except => ?_⟩
  · unfold growHeap
    rw [run_bind_ok (pmmAllocateFrame_found hp hi), ← ht, run_bind_ok (EStateM.run_get t)]
    dsimp only
    rw [haddr, show 0x1000 - heapBlockSize = 4064 from rfl, run_bind_ok setSize_run,
      run_bind_ok setIsFree_run, run_bind_ok setMagic_run]
    dsimp only
    rw [← hm', ← hu, run_bind_ok hrun, run_bind_ok (EStateM.run_modify _ _), EStateM.run_pure,
      hcount]
  · exact hrep.congr rfl rfl fun _ _ _ _ _ => rfl
  · rw [hst, hu, ht]
  · have hxa : ¬ (frameBlock a).Holds 32 x := fun h => hx ⟨_, List.mem_cons_self, h⟩
    have hxfree : ¬ Held free x := fun ⟨c, hc, hxc⟩ => hx ⟨c, List.mem_cons_of_mem _ hc, hxc⟩
    have hxa' : x < a ∨ a + 4096 ≤ x := by
      by_contra h
      exact hxa (hin x (by omega) (by omega))
    change v.mem x = _
    rw [hoff x hxfree (by unfold frameBlock; dsimp only; omega), humem x (by omega), ht]
  · rw [hst, hu, ht]
    rfl
  · rw [← ht]
    exact (hforge except).trans (hforge' except)

end KbmOs
