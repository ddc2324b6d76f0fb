import KbmOs.Memory.Isolation
/-!
# First fit

`kmalloc` walks the free list to the first block that is large enough, and
only where there is none asks PMM for a frame, which it links in at its
place and cuts like any other block. Either way one block is taken between
the blocks before it and those behind, so one lemma says what becomes of
it and of the others.
-/

namespace KbmOs

open ByteMemory LinkedList Tiling FreeList LabelledRuns

variable {entries : List MemmapEntry} {hhdm i n r : ℕ} {m : Mem} {free blocks : List Blk}
variable {pre post : List Blk} {grown grown' : List ℕ} {b : Blk} {c : System} {k : Kernel}

/-- **What `kmalloc` makes of the block at `b`**, of `size` bytes, for a
request of `r`, with the blocks at `pre` before it in the free list and
those at `post` behind it. -/
structure CutFrom (c : System) (r : ℕ) (pre : List ℕ) (b size : ℕ) (post : List ℕ) (k : Kernel) :
    Prop where
  /-- What is left of the block takes its place, directly behind the
  granted payload; too small a rest goes with the block. -/
  list : FreeListIs k (pre ++ (if r + 48 ≤ size then [b + 32 + r] else []) ++ post)
  granted : blockSize k.mem b = if r + 48 ≤ size then r else size
  rest : r + 48 ≤ size → blockSize k.mem (b + 32 + r) = size - r - 32
  enough : r ≤ blockSize k.mem b
  waste : blockSize k.mem b < r + 48
  /-- Every other block keeps its size, and its address with it. -/
  free : ∀ d ∈ pre ++ post, blockSize k.mem d = blockSize c.kernel.mem d
  live : ∀ p ∈ c.live, blockSize k.mem (p - 32) = blockSize c.kernel.mem (p - 32)

/-- Both parts of a block, by whether it is cut. -/
theorem granted_size (r : ℕ) (b : Blk) :
    (granted 32 16 r b).size = if r + 48 ≤ b.size then r else b.size := by
  unfold granted
  by_cases hcut : r + 48 ≤ b.size
  · rw [if_pos hcut, if_pos (by omega)]
  · rw [if_neg hcut, if_neg (by omega)]

theorem remainder_eq (r : ℕ) (b : Blk) : remainder 32 16 r b =
    if r + 48 ≤ b.size then [⟨b.addr + 32 + r, b.size - r - 32⟩] else [] := by
  unfold remainder
  by_cases hcut : r + 48 ≤ b.size
  · rw [if_pos hcut, if_pos (by omega)]
  · rw [if_neg hcut, if_neg (by omega)]

/-- **The block that is handed out is cut, the others stay.** -/
theorem KmallocOk.cutFrom (hinv : System.Inv entries hhdm c free blocks grown)
    (hok : KmallocOk entries hhdm r c free blocks grown pre b post grown' k)
    (hfree : ∀ d ∈ pre ++ post, d ∈ free) :
    CutFrom c r (pre.map Blk.addr) b.addr b.size (post.map Blk.addr) k := by
  have hrep := hok.inv.rep
  have hfits := hok.fits
  have hgranted : blockSize k.mem b.addr = if r + 48 ≤ b.size then r else b.size := by
    have hstamp := (hrep.taken _ List.mem_cons_self).size
    rwa [granted_addr, granted_size] at hstamp
  have hlist := hok.inv.freeListIs
  rw [List.map_append, List.map_append, remainder_eq, apply_ite (List.map Blk.addr)] at hlist
  refine ⟨hlist, hgranted, fun hcut => ?_, ?_, ?_, fun d hd => ?_, fun p hp => ?_⟩
  · have hmem : (⟨b.addr + 32 + r, b.size - r - 32⟩ : Blk) ∈ pre ++ remainder 32 16 r b ++ post := by
      rw [remainder_eq, if_pos hcut]
      simp
    exact (hrep.listed _ hmem).size
  · rw [hgranted]
    split <;> omega
  · rw [hgranted]
    split <;> omega
  · rw [← List.map_append] at hd
    obtain ⟨e, he, rfl⟩ := List.mem_map.1 hd
    have hmem : e ∈ pre ++ remainder 32 16 r b ++ post := by
      rcases List.mem_append.1 he with he | he <;> simp [he]
    rw [(hrep.listed e hmem).size, (hinv.rep.listed e (hfree e he)).size]
  · obtain ⟨d, hd, rfl⟩ := hinv.block_of_live hp
    rw [Nat.add_sub_cancel, (hrep.taken d (List.mem_cons_of_mem _ hd)).size,
      (hinv.rep.taken d hd).size]

namespace System

section Calls

variable (h : LimineOk entries hhdm) (hinv : Inv entries hhdm c free blocks grown)
include h hinv

/-- **Where a block fits the lowest one is taken**, and PMM is not asked. -/
theorem Inv.first_fit (hn : n ≠ 0) (hsmall : roundUpTo16 n ≤ 4064)
    (hsplit : free = pre ++ b :: post) (hfit : FirstFit (roundUpTo16 n) pre b) :
    ∃ k, (KbmOs.kmalloc n).run c.kernel = .ok (b.addr + 32) k ∧ SamePmm c.kernel k ∧
      CutFrom c (roundUpTo16 n) (pre.map Blk.addr) b.addr b.size (post.map Blk.addr) k := by
  obtain ⟨k, hrun, hok⟩ := hinv.kmalloc_listed h hn hsmall hsplit hfit
  refine ⟨k, hrun, ?_, hok.cutFrom hinv fun d hd => ?_⟩
  · cases hok.grows with
    | stays hpmm _ => exact hpmm
  · rw [hsplit]
    rcases List.mem_append.1 hd with hd | hd <;> simp [hd]

/-- **Where none fits PMM's lowest free frame is**, and the block is at its
start. -/
theorem Inv.fresh_fit (hn : n ≠ 0) (hsmall : roundUpTo16 n ≤ 4064)
    (hnone : ∀ d ∈ free, d.size < roundUpTo16 n) (hi : LowestFree c.kernel i) :
    ∃ k, (KbmOs.kmalloc n).run c.kernel = .ok (i * 0x1000 + hhdm + 32) k ∧
      SamePmm (claimFrame c.kernel i) k ∧
      CutFrom c (roundUpTo16 n) ((below (i * 0x1000 + hhdm) free).map Blk.addr)
        (i * 0x1000 + hhdm) 4064 ((above (i * 0x1000 + hhdm) free).map Blk.addr) k := by
  obtain ⟨k, hrun, hok⟩ := hinv.kmalloc_fresh h hn hsmall hnone hi
  refine ⟨k, hrun, ?_, hok.cutFrom hinv fun d hd => ?_⟩
  · cases hok.grows with
    | frame _ hpmm _ => exact hpmm
  · rwa [below_append_above] at hd

omit h in
/-- No listed block starts where a free frame does. -/
theorem Inv.addr_ne_frame (hi : LowestFree c.kernel i) (hb : b ∈ free) :
    b.addr ≠ i * 0x1000 + hhdm := by
  intro heq
  refine (hinv.frame_clear hi ((frameBlock (i * 0x1000 + hhdm)).holds_addr (by decide))).2 ?_
  show i * 0x1000 + hhdm ∈ _
  rw [← heq]
  exact hinv.held_region ⟨b, List.mem_append_left _ hb, b.holds_addr (by decide)⟩

/-- **Where there is no frame either the call panics**, and only there. -/
theorem Inv.out_of_memory_iff (hn : n ≠ 0) (hsmall : roundUpTo16 n ≤ 4064) :
    (∃ k, (KbmOs.kmalloc n).run c.kernel = .error (.panic "KBM_OUT_OF_MEMORY") k) ↔
      (∀ d ∈ free, d.size < roundUpTo16 n) ∧
        ∀ j, j < c.kernel.frameCount → frameState c.kernel j ≠ .free := by
  rcases hinv.kmalloc_cases h n with ⟨hzero, -⟩ | ⟨-, hover, -⟩ | ⟨-, -, hnone, hfull, herr⟩ |
    ⟨-, -, pre, b, post, grown', k, hsrc, hrun, -⟩
  · exact absurd hzero hn
  · exact absurd hsmall (not_le.2 hover)
  · exact ⟨fun _ => ⟨hnone, hfull⟩, fun _ => ⟨_, herr⟩⟩
  · constructor
    · rintro ⟨k', herr⟩
      rw [hrun] at herr
      cases herr
    · rintro ⟨hnone, hfull⟩
      cases hsrc with
      | listed hfree hfit => exact absurd hfit.fits (not_le.2 (hnone b (by simp [hfree])))
      | fresh _ hi => exact absurd hi.free (hfull _ hi.lt)

end Calls

/-- **First fit, and growth only where nothing fits.** In every reachable
state a request of 1 to 4064 bytes, rounded up to `r`, gets the
lowest-addressed listed block of `r` bytes or more, with PMM left alone; where there is
none, the start of PMM's lowest free frame, the only frame that is taken;
and where there is no such frame either, and only there, the call panics
for lack of memory. -/
theorem kmalloc_first_fit (entries : List MemmapEntry) (hhdm : ℕ) (m : Mem) (es : List Event)
    (c : System) (n : ℕ) (h : LimineOk entries hhdm) (hc : Reachable entries hhdm m es c)
    (hpos : 1 ≤ n) (hle : n ≤ 4064) : ∃ r nodes, r % 16 = 0 ∧ n ≤ r ∧ r < n + 16 ∧
      FreeListIs c.kernel nodes ∧
      ((∃ d ∈ nodes, r ≤ blockSize c.kernel.mem d) → ∃ pre b post k, nodes = pre ++ b :: post ∧
        r ≤ blockSize c.kernel.mem b ∧ (∀ d ∈ nodes, r ≤ blockSize c.kernel.mem d → b ≤ d) ∧
        (KbmOs.kmalloc n).run c.kernel = .ok (b + 32) k ∧ SamePmm c.kernel k ∧
        CutFrom c r pre b (blockSize c.kernel.mem b) post k) ∧
      ((∀ d ∈ nodes, blockSize c.kernel.mem d < r) →
        (∃ j, j < c.kernel.frameCount ∧ frameState c.kernel j = .free) → ∃ i pre post k,
          LowestFree c.kernel i ∧ nodes = pre ++ post ∧ (∀ d ∈ pre, d < i * 0x1000 + hhdm) ∧
          (∀ d ∈ post, i * 0x1000 + hhdm < d) ∧
          (KbmOs.kmalloc n).run c.kernel = .ok (i * 0x1000 + hhdm + 32) k ∧
          SamePmm (claimFrame c.kernel i) k ∧
          CutFrom c r pre (i * 0x1000 + hhdm) 4064 post k) ∧
      ((∃ k, (KbmOs.kmalloc n).run c.kernel = .error (.panic "KBM_OUT_OF_MEMORY") k) ↔
        (∀ d ∈ nodes, blockSize c.kernel.mem d < r) ∧
          ∀ j, j < c.kernel.frameCount → frameState c.kernel j ≠ .free) := by
  obtain ⟨free, blocks, grown, hinv⟩ := hc.inv h
  have hr := roundUpTo16_mod n
  obtain ⟨hlow, hhigh⟩ := le_roundUpTo16 (n := n) (by omega)
  have hn : n ≠ 0 := by omega
  have hsmall : roundUpTo16 n ≤ 4064 := by omega
  have hsize : ∀ d ∈ free, blockSize c.kernel.mem d.addr = d.size := fun d hd =>
    (hinv.rep.listed d hd).size
  have hfits : (∀ d ∈ free.map Blk.addr, blockSize c.kernel.mem d < roundUpTo16 n) ↔
      ∀ d ∈ free, d.size < roundUpTo16 n := by
    rw [List.forall_mem_map]
    refine forall₂_congr fun d hd => ?_
    rw [hsize d hd]
  refine ⟨roundUpTo16 n, free.map Blk.addr, hr, hlow, hhigh, hinv.freeListIs, ?_, ?_, ?_⟩
  · rintro ⟨_, hmem, hlarge⟩
    obtain ⟨pre, b, post, rfl, hfit⟩ | hnone := firstFit_or_none (roundUpTo16 n) free
    swap
    · exact absurd hlarge (not_le.2 (hfits.2 hnone _ hmem))
    obtain ⟨k, hrun, hpmm, hcut⟩ := hinv.first_fit h hn hsmall rfl hfit
    have hb := hsize b (by simp)
    refine ⟨pre.map Blk.addr, b.addr, post.map Blk.addr, k, by simp, ?_, ?_, hrun, hpmm, ?_⟩
    · rw [hb]
      exact hfit.fits
    · intro a ha hlarge
      obtain ⟨d, hd, rfl⟩ := List.mem_map.1 ha
      rw [hsize d hd] at hlarge
      exact hfit.le_addr hinv.rep.sorted hd hlarge
    · rw [hb]
      exact hcut
  · rintro hnone ⟨j, hj, hfree⟩
    obtain ⟨i, hi⟩ | hfull := lowestFree_or_none c.kernel
    swap
    · exact absurd hfree (hfull j hj)
    obtain ⟨k, hrun, hpmm, hcut⟩ := hinv.fresh_fit h hn hsmall (hfits.1 hnone) hi
    refine ⟨i, _, _, k, hi, ?_, ?_, ?_, hrun, hpmm, hcut⟩
    · rw [← List.map_append, below_append_above]
    · rintro a ha
      obtain ⟨d, hd, rfl⟩ := List.mem_map.1 ha
      exact addr_lt_of_mem_below hd
    · rintro a ha
      obtain ⟨d, hd, rfl⟩ := List.mem_map.1 ha
      exact lt_of_le_of_ne (le_addr_of_mem_above hinv.rep.ascending hd)
        (hinv.addr_ne_frame hi (mem_below_or_above.2 (Or.inr hd))).symm
  · rw [hfits]
    exact hinv.out_of_memory_iff h hn hsmall

/-- So after the sample's calls a request for 100 bytes passes over the
first listed block, of 64 bytes, and cuts the second. -/
theorem kmalloc_first_fit_sampleMap : ∃ c k,
    Reachable sampleMap sampleOffset blankMem sampleEvents c ∧
    (KbmOs.kmalloc 100).run c.kernel = .ok (sampleOffset + 0x3090 + 32) k ∧
    SamePmm c.kernel k ∧
    CutFrom c 112 [sampleOffset + 0x3000] (sampleOffset + 0x3090) 3920 [] k := by
  obtain ⟨c₀, c, hboot, hrun, hinv⟩ := sample_run fun _ hstep _ => hstep
  have hc : Reachable sampleMap sampleOffset blankMem sampleEvents c := ⟨c₀, hboot, hrun⟩
  obtain ⟨r, nodes, hr, hle, hlt, hlist, hlisted, -, -⟩ := kmalloc_first_fit sampleMap sampleOffset
    blankMem _ c 100 sampleMap_limineOk hc (by decide) (by decide)
  obtain rfl : nodes = [sampleOffset + 0x3000, sampleOffset + 0x3090] :=
    hlist.unique hinv.freeListIs
  obtain rfl : r = 112 := by omega
  have hfirst : blockSize c.kernel.mem (sampleOffset + 0x3000) = 64 :=
    (hinv.rep.listed ⟨sampleOffset + 0x3000, 64⟩ (by decide)).size
  have hsecond : blockSize c.kernel.mem (sampleOffset + 0x3090) = 3920 :=
    (hinv.rep.listed ⟨sampleOffset + 0x3090, 3920⟩ (by decide)).size
  obtain ⟨pre, b, post, k, hnodes, hfits, -, hcall, hpmm, hcut⟩ :=
    hlisted ⟨sampleOffset + 0x3090, by simp, by rw [hsecond]; decide⟩
  -- the first block is too small, so the split is behind it
  rcases pre with _ | ⟨a, _ | ⟨d, pre⟩⟩
  · obtain ⟨rfl, -⟩ := List.cons.inj hnodes
    omega
  · obtain ⟨rfl, hrest⟩ := List.cons.inj hnodes
    obtain ⟨rfl, rfl⟩ := List.cons.inj hrest
    rw [hsecond] at hcut
    exact ⟨c, k, hc, hcall, hpmm, hcut⟩
  · have hlength := congrArg List.length hnodes
    simp at hlength

end System

end KbmOs
