import KbmOs.Memory.Invariant
/-!
# What each event does to the memory system

One theorem an event: the call returns or panics with nothing changed, the
blocks and frames it leaves, and the bytes it writes. Together they are
the step of every invariant of the system; `Inv.effect` collects them.
-/

namespace KbmOs

open ByteMemory LinkedList Tiling FreeList LabelledRuns

variable {entries : List MemmapEntry} {hhdm i j n r a p x : ℕ} {s s' k : Kernel} {W : ℕ → Prop}
variable {free blocks pre post : List Blk} {grown grown' : List ℕ} {b : Blk}

/-- **Writes off the bitmaps leave PMM as it is.** -/
theorem HeapWrite.samePmm (hw : HeapWrite W s s') (hW : ∀ x, W x → ¬ BitmapByte s x) :
    SamePmm s s' := by
  refine ⟨?_, fun x hx => hw.mem x fun hwritten => hW x hwritten hx⟩
  rw [hw.statics]

/-- What `kfree` of a live block leaves. -/
structure KfreeOk (entries : List MemmapEntry) (hhdm : ℕ) (c : System) (free blocks : List Blk)
    (grown : List ℕ) (b : Blk) (k : Kernel) : Prop where
  inv : System.Inv entries hhdm ⟨k, c.live.erase (b.addr + 32), c.frames⟩ (release 32 b free)
    (blocks.erase b) grown
  mem : ∀ x, ¬ Held (b :: free) x → k.mem x = c.kernel.mem x
  used : k.heapUsedBytes = wrapSub c.kernel.heapUsedBytes b.size
  count : k.heapFrameCount = c.kernel.heapFrameCount
  pmm : SamePmm c.kernel k
  forge : ∀ except, NoForgery except c.kernel.mem k.mem
  refused : ¬ Accepted k.mem b.addr

namespace System

variable {c c' : System} {e : Event} (h : LimineOk entries hhdm)
variable (hinv : Inv entries hhdm c free blocks grown)
include h hinv

/-- A frame that is not reserved holds no bitmap byte. -/
theorem Inv.not_bitmapByte (hne : frameState c.kernel i ≠ .reserved)
    (hx : InFrameOf hhdm i x) : ¬ BitmapByte c.kernel x := by
  intro hbyte
  obtain ⟨hlo, hhi⟩ := hinv.layout.range_of_bitmapByte h hbyte
  obtain ⟨j, hst, hj, hjx⟩ := hinv.layout.storageFrame_of_range hlo hhi
  have hij := hx.unique hjx
  rw [hij] at hne
  exact hne (hinv.reserved j hst hj)

omit h in
theorem Inv.grown_owned (hi : i ∈ grown) : frameState c.kernel i = .owned :=
  (hinv.owned i (hinv.apart i hi).1).2 (Or.inl hi)

/-- The heap's region holds no bitmap byte. -/
theorem Inv.region_not_bitmapByte (hx : x ∈ frameBytes hhdm grown) : ¬ BitmapByte c.kernel x := by
  obtain ⟨i, hi, hix⟩ := hx
  refine hinv.not_bitmapByte h ?_ hix
  rw [hinv.grown_owned hi]
  decide

omit h in
theorem Inv.held_region (hx : Held (free ++ blocks) x) : x ∈ frameBytes hhdm grown := by
  obtain ⟨b, hb, hbx⟩ := hx
  exact hinv.rep.tiles.mem_of_holds hb hbx

omit h in
/-- **Writes off the bitmaps, and frames that change hands**: what is kept
when the heap and the callers still own the same frames together. -/
theorem Inv.rearrange {live' frames' : List ℕ} {free' blocks' : List Blk}
    (hw : HeapWrite W c.kernel k) (hW : ∀ x, W x → ¬ BitmapByte c.kernel x)
    (hrep : HeapRep k free' blocks' (frameBytes hhdm grown'))
    (hlive : live'.Perm (blocks'.map fun b => b.addr + 32))
    (howned : ∀ j, (j ∈ grown' ∨ j * 0x1000 ∈ frames') ↔ (j ∈ grown ∨ j * 0x1000 ∈ c.frames))
    (hapart : ∀ j ∈ grown', j < c.kernel.frameCount ∧ j * 0x1000 ∉ frames')
    (hframes : ∀ a ∈ frames', a ∈ c.frames) (hnodup : frames'.Nodup ∧ grown'.Nodup) :
    Inv entries hhdm ⟨k, live', frames'⟩ free' blocks' grown' := by
  have hsame := hw.samePmm hW
  have hserves := hinv.serves.same hsame
  have hcount := hsame.frameCount_eq
  exact {
    pmm := hserves.pmm
    layout := hserves.layout
    offset := by rw [hw.statics]; exact hinv.offset
    rep := hrep
    live := hlive
    owned := by
      intro i hi
      change i < k.frameCount at hi
      rw [hcount] at hi
      rw [hsame.frameState hinv.pmm hi, hinv.owned i hi]
      exact (howned i).symm
    apart := by
      intro i hi
      change i < k.frameCount ∧ _
      rw [hcount]
      exact hapart i hi
    frames := by
      intro a ha
      change _ ∧ _ < k.frameCount
      rw [hcount]
      exact hinv.frames a (hframes a ha)
    nodup := hnodup
    usable := hserves.usable
    reserved := hserves.reserved }

omit h in
/-- The frames need not change hands. -/
theorem Inv.heapWrite {live' : List ℕ} {free' blocks' : List Blk} (hw : HeapWrite W c.kernel k)
    (hW : ∀ x, W x → ¬ BitmapByte c.kernel x)
    (hrep : HeapRep k free' blocks' (frameBytes hhdm grown))
    (hlive : live'.Perm (blocks'.map fun b => b.addr + 32)) :
    Inv entries hhdm ⟨k, live', c.frames⟩ free' blocks' grown :=
  hinv.rearrange hw hW hrep hlive (fun _ => Iff.rfl) hinv.apart (fun _ ha => ha) hinv.nodup

/-! ## Frames -/

/-- **A caller gets PMM's lowest free frame.** -/
theorem Inv.allocateFrame (hi : LowestFree c.kernel i) :
    Inv entries hhdm ⟨claimFrame c.kernel i, c.live, i * 0x1000 :: c.frames⟩ free blocks grown ∧
      ∀ x, ¬ BitmapByte c.kernel x → (claimFrame c.kernel i).mem x = c.kernel.mem x := by
  have hfree := hi.free
  have hmem : ∀ x, ¬ BitmapByte c.kernel x → (claimFrame c.kernel i).mem x = c.kernel.mem x :=
    fun x hx => claimFrame_mem hinv.pmm hi.lt hx
  -- the frame was free, so neither the heap nor a caller had it
  have hnot : i ∉ grown ∧ i * 0x1000 ∉ c.frames := by
    have hne : frameState c.kernel i ≠ .owned := by
      rw [hfree]
      decide
    exact not_or.1 fun hor => hne ((hinv.owned i hi.lt).2 hor)
  have hserves := hinv.serves.claim hi.lt hfree
  refine ⟨{
    pmm := hserves.pmm
    layout := hserves.layout
    offset := hinv.offset
    rep := hinv.rep.congr rfl rfl fun b hb x h1 h2 => hmem x ?_
    live := hinv.live
    owned := fun j hj => ?_
    apart := fun j hj => ?_
    frames := fun a ha => ?_
    nodup := ⟨List.nodup_cons.2 ⟨hnot.2, hinv.nodup.1⟩, hinv.nodup.2⟩
    usable := hserves.usable
    reserved := hserves.reserved }, hmem⟩
  · refine hinv.region_not_bitmapByte h (hinv.rep.tiles.mem_of_holds hb ⟨h1, ?_⟩)
    unfold Blk.stop
    omega
  · rw [frameState_claimFrame hinv.pmm hi.lt hj, List.mem_cons]
    split
    · rename_i hij
      simp [hij]
    · rename_i hij
      rw [hinv.owned j hj]
      have hne : j * 0x1000 ≠ i * 0x1000 := by omega
      simp [hne]
  · refine ⟨(hinv.apart j hj).1, fun hin => ?_⟩
    rcases List.mem_cons.1 hin with heq | hin
    · have hij : j = i := by omega
      exact hnot.1 (hij ▸ hj)
    · exact (hinv.apart j hj).2 hin
  · rcases List.mem_cons.1 ha with rfl | ha
    · have hlt := hi.lt
      exact ⟨by omega, by change i * 0x1000 / 0x1000 < c.kernel.frameCount; omega⟩
    · exact hinv.frames a ha

/-- **A caller gives a frame back.** -/
theorem Inv.freeFrame (ha : a ∈ c.frames) :
    (pmmFreeFrame a).run c.kernel = .ok () (releaseFrame c.kernel (a / 0x1000)) ∧
      Inv entries hhdm ⟨releaseFrame c.kernel (a / 0x1000), c.live, c.frames.erase a⟩ free blocks
        grown ∧
      ∀ x, ¬ BitmapByte c.kernel x → (releaseFrame c.kernel (a / 0x1000)).mem x = c.kernel.mem x := by
  obtain ⟨halign, hlt⟩ := hinv.frames a ha
  have hmul : a / 0x1000 * 0x1000 = a := by omega
  -- the frame is the caller's, so PMM has it as owned
  have how : frameState c.kernel (a / 0x1000) = .owned :=
    (hinv.owned _ hlt).2 (Or.inr (by rw [hmul]; exact ha))
  have hmem : ∀ x, ¬ BitmapByte c.kernel x →
      (releaseFrame c.kernel (a / 0x1000)).mem x = c.kernel.mem x :=
    fun x hx => releaseFrame_mem hinv.pmm hlt hx
  have herase : ∀ d, d ∈ c.frames.erase a ↔ d ≠ a ∧ d ∈ c.frames := fun d =>
    hinv.nodup.1.mem_erase_iff
  have hserves := hinv.serves.release hlt how
  refine ⟨pmmFreeFrame_owned hinv.pmm ⟨halign, hlt, how⟩, {
    pmm := hserves.pmm
    layout := hserves.layout
    offset := hinv.offset
    rep := hinv.rep.congr rfl rfl fun b hb x h1 h2 => hmem x ?_
    live := hinv.live
    owned := fun j hj => ?_
    apart := fun j hj => ?_
    frames := fun d hd => hinv.frames d ((herase d).1 hd).2
    nodup := ⟨hinv.nodup.1.erase a, hinv.nodup.2⟩
    usable := hserves.usable
    reserved := hserves.reserved }, hmem⟩
  · refine hinv.region_not_bitmapByte h (hinv.rep.tiles.mem_of_holds hb ⟨h1, ?_⟩)
    unfold Blk.stop
    omega
  · rw [frameState_releaseFrame hinv.pmm hlt hj, herase]
    split
    · rename_i hij
      -- and it is not one the heap has taken
      have hgrown : j ∉ grown := fun hin => (hinv.apart j hin).2 (by rw [hij, hmul]; exact ha)
      simp [hij ▸ hgrown, hij, hmul]
    · rename_i hij
      rw [hinv.owned j hj]
      have hne : j * 0x1000 ≠ a := by omega
      simp [hne]
  · exact ⟨(hinv.apart j hj).1, fun hin => (hinv.apart j hj).2 ((herase _).1 hin).2⟩

/-! ## The heap -/

omit h in
/-- A live pointer is the payload of a live block. -/
theorem Inv.block_of_live (hp : p ∈ c.live) : ∃ b ∈ blocks, p = b.addr + 32 := by
  obtain ⟨b, hb, heq⟩ := List.mem_map.1 ((hinv.live.mem_iff).1 hp)
  exact ⟨b, hb, heq.symm⟩

omit h in
/-- And the other way round. -/
theorem Inv.live_of_block (hb : b ∈ blocks) : b.addr + 32 ∈ c.live :=
  hinv.live.mem_iff.2 (List.mem_map_of_mem hb)

/-- **A live pointer is freed**, and never panics. -/
theorem Inv.kfree (hb : b ∈ blocks) : ∃ k, (KbmOs.kfree (b.addr + 32)).run c.kernel = .ok () k ∧
    KfreeOk entries hhdm c free blocks grown b k := by
  have hperm := List.perm_cons_erase hb
  obtain ⟨k, hrun, hrep, hw, hused, hcount, hforge, hrefused⟩ :=
    kfree_run (hinv.rep.perm_live hperm)
  have hoff : ∀ x, Held (b :: free) x → ¬ BitmapByte c.kernel x := by
    rintro x ⟨d, hd, hdx⟩
    refine hinv.region_not_bitmapByte h (hinv.held_region ⟨d, ?_, hdx⟩)
    rcases List.mem_cons.1 hd with rfl | hd
    · exact List.mem_append_right _ hb
    · exact List.mem_append_left _ hd
  have hlive := (hinv.live.trans (hperm.map _)).erase (b.addr + 32)
  rw [List.map_cons, List.erase_cons_head] at hlive
  exact ⟨k, hrun, {
    inv := hinv.heapWrite hw hoff hrep hlive
    mem := hw.mem
    used := hused
    count := hcount
    pmm := hw.samePmm hoff
    forge := hforge
    refused := hrefused }⟩

end System

/-- **Where `kmalloc` finds the block for `r` bytes**: the first listed one
that fits, or the one PMM's lowest free frame becomes. -/
inductive Source (s : Kernel) (hhdm r : ℕ) (free : List Blk) (grown : List ℕ) :
    List Blk → Blk → List Blk → List ℕ → Prop
  | listed {pre post : List Blk} {b : Blk} (hfree : free = pre ++ b :: post)
      (hfit : FirstFit r pre b) : Source s hhdm r free grown pre b post grown
  | fresh {i : ℕ} (hnone : ∀ c ∈ free, c.size < r) (hi : LowestFree s i) :
      Source s hhdm r free grown (below (i * 0x1000 + hhdm) free) (frameBlock (i * 0x1000 + hhdm))
        (above (i * 0x1000 + hhdm) free) (i :: grown)

/-- **How `kmalloc` grows the heap**: not at all, with PMM left alone, or by
PMM's lowest free frame, which is given out and counted. -/
inductive Grows (s k : Kernel) (grown : List ℕ) : List ℕ → Prop
  | stays (hpmm : SamePmm s k) (hcount : k.heapFrameCount = s.heapFrameCount) : Grows s k grown grown
  | frame {i : ℕ} (hi : LowestFree s i) (hpmm : SamePmm (claimFrame s i) k)
      (hcount : k.heapFrameCount = wrap (s.heapFrameCount + 1)) : Grows s k grown (i :: grown)

/-- What a call of `kmalloc` that takes its block from `Source` leaves:
the blocks, the counters, the bytes it did not write and the headers it
did not forge. -/
structure KmallocOk (entries : List MemmapEntry) (hhdm r : ℕ) (c : System) (free blocks : List Blk)
    (grown : List ℕ) (pre : List Blk) (b : Blk) (post : List Blk) (grown' : List ℕ)
    (k : Kernel) : Prop where
  inv : System.Inv entries hhdm ⟨k, (b.addr + 32) :: c.live, c.frames⟩
    (pre ++ remainder 32 16 r b ++ post) (granted 32 16 r b :: blocks) grown'
  fits : r ≤ b.size
  mem : ∀ x, ¬ Held (b :: free) x → ¬ BitmapByte c.kernel x → k.mem x = c.kernel.mem x
  used : k.heapUsedBytes = wrap (c.kernel.heapUsedBytes + (granted 32 16 r b).size)
  grows : Grows c.kernel k grown grown'
  forge : ∀ block, block % 16 = 0 → block ≠ b.addr →
    (∀ x, block + 16 ≤ x → x < block + 32 → x ∈ frameBytes hhdm grown) →
    Accepted k.mem block → Accepted c.kernel.mem block
  /-- The block is clear of what was live. -/
  clear : ∀ d ∈ blocks, ∀ x, d.Holds 32 x → ¬ b.Holds 32 x

namespace System

variable {c c' : System} {e : Event} (h : LimineOk entries hhdm)
variable (hinv : Inv entries hhdm c free blocks grown)
include h hinv

omit h in
theorem Inv.granted_live (b : Blk) : ((b.addr + 32) :: c.live).Perm
    ((granted 32 16 r b :: blocks).map fun b => b.addr + 32) := by
  rw [List.map_cons, granted_addr]
  exact hinv.live.cons _

/-- A header in the heap's region reads what it read where no byte of the
region was written. -/
theorem Inv.accepted_congr {block : ℕ}
    (hin : ∀ x, block + 16 ≤ x → x < block + 32 → x ∈ frameBytes hhdm grown)
    (hmem : ∀ x, ¬ BitmapByte c.kernel x → k.mem x = c.kernel.mem x) :
    Accepted k.mem block ↔ Accepted c.kernel.mem block := by
  have hsame : ∀ x, block + 16 ≤ x → x < block + 32 → k.mem x = c.kernel.mem x := fun x h1 h2 =>
    hmem x (hinv.region_not_bitmapByte h (hin x h1 h2))
  unfold Accepted blockMagic blockIsFree
  rw [load64_congr fun x h1 h2 => hsame x (by omega) (by omega),
    load64_congr fun x h1 h2 => hsame x (by omega) (by omega)]

/-- **A listed block that fits is handed out.** -/
theorem Inv.kmalloc_listed (hn : n ≠ 0) (hsmall : roundUpTo16 n ≤ 4064)
    (hfree : free = pre ++ b :: post) (hfit : FirstFit (roundUpTo16 n) pre b) :
    ∃ k, (KbmOs.kmalloc n).run c.kernel = .ok (b.addr + 32) k ∧
      KmallocOk entries hhdm (roundUpTo16 n) c free blocks grown pre b post grown k := by
  subst hfree
  obtain ⟨k, hrun, hrep, hw, hused, hcount, hforge⟩ :=
    handOut_run hinv.rep (roundUpTo16_mod n) hfit.fits
  have hoff : ∀ x, Held (pre ++ b :: post) x → ¬ BitmapByte c.kernel x := by
    rintro x ⟨d, hd, hdx⟩
    exact hinv.region_not_bitmapByte h (hinv.held_region ⟨d, List.mem_append_left _ hd, hdx⟩)
  refine ⟨k, by rw [kmalloc_found hinv.rep hn hsmall hfit, hrun], {
    inv := hinv.heapWrite hw hoff hrep (hinv.granted_live b)
    fits := hfit.fits
    mem := fun x hx _ => hw.mem x fun hheld => hx ?_
    used := hused
    grows := .stays (hw.samePmm hoff) hcount
    forge := fun block h16 hne _ hacc => hforge block h16 hne hacc
    clear := fun d hd x hdx hbx => ?_ }⟩
  · obtain ⟨d, hd, hdx⟩ := hheld
    exact ⟨d, List.mem_cons_of_mem _ hd, hdx⟩
  · exact (hinv.rep.apart_free_live (b := b) (by simp) hd).not_holds hbx hdx

omit h in
/-- A free frame holds no byte of the heap. -/
theorem Inv.frame_clear (hi : LowestFree c.kernel i)
    (hx : (frameBlock (i * 0x1000 + hhdm)).Holds 32 x) :
    InFrameOf hhdm i x ∧ x ∉ frameBytes hhdm grown := by
  have hin : InFrameOf hhdm i x := by
    unfold Blk.Holds Blk.stop frameBlock at hx
    exact ⟨hx.1, by have := hx.2; dsimp only at this; omega⟩
  refine ⟨hin, fun ⟨j, hj, hjx⟩ => ?_⟩
  have hij := hin.unique hjx
  have how := hinv.grown_owned hj
  rw [← hij, hi.free] at how
  cases how

/-- **Where none fits the heap grows by PMM's lowest free frame**, and the
block is at its start. -/
theorem Inv.kmalloc_fresh (hn : n ≠ 0) (hsmall : roundUpTo16 n ≤ 4064)
    (hnone : ∀ d ∈ free, d.size < roundUpTo16 n) (hi : LowestFree c.kernel i) :
    ∃ k, (KbmOs.kmalloc n).run c.kernel = .ok (i * 0x1000 + hhdm + 32) k ∧
      KmallocOk entries hhdm (roundUpTo16 n) c free blocks grown
        (below (i * 0x1000 + hhdm) free) (frameBlock (i * 0x1000 + hhdm))
        (above (i * 0x1000 + hhdm) free) (i :: grown) k := by
  obtain ⟨a, ha⟩ : ∃ a, a = i * 0x1000 + hhdm := ⟨_, rfl⟩
  have haligned := h.aligned
  have hpos := h.pos
  have htop := h.frame_top (hinv.usable i hi.lt (by rw [hi.free]; decide))
  -- the frame passes through a caller's hands: claimed first, then the heap's
  obtain ⟨hinv', hmem'⟩ := hinv.allocateFrame h hi
  have hclear : ∀ x, (frameBlock a).Holds 32 x → InFrameOf hhdm i x ∧ x ∉ frameBytes hhdm grown :=
    fun x hx => hinv.frame_clear hi (ha ▸ hx)
  obtain ⟨t, hrun_t, hrep_t, hw_t, hused_t, hcount_t, hforge_t⟩ :=
    growHeap_run (a := a) hinv.pmm hi hinv.rep (by rw [ha, hinv.offset]) (by omega) (by omega)
      (by omega) (fun x hx => (hclear x hx).2) (fun x hx => hinv.region_not_bitmapByte h hx)
  have hfits : roundUpTo16 n ≤ (frameBlock a).size := hsmall
  obtain ⟨k, hrun, hrep, hw, hused, hcount, hforge⟩ :=
    handOut_run hrep_t (roundUpTo16_mod n) hfits
  have hregion : {x | (frameBlock a).Holds 32 x} ∪ frameBytes hhdm grown =
      frameBytes hhdm (i :: grown) := by
    ext x
    unfold frameBytes
    simp only [Set.mem_union, Set.mem_ofPred_eq, List.mem_cons, exists_eq_or_imp]
    refine or_congr_left ⟨fun hx => (hclear x hx).1, fun hx => ?_⟩
    unfold InFrameOf at hx
    refine ⟨by unfold frameBlock; dsimp only; omega, ?_⟩
    unfold Blk.stop frameBlock
    dsimp only
    omega
  have hheld : ∀ x, Held (below a free ++ frameBlock a :: above a free) x →
      Held (frameBlock a :: free) x := by
    rintro x ⟨d, hd, hdx⟩
    exact ⟨d, mem_placed.1 hd, hdx⟩
  have hw' : HeapWrite (Held (frameBlock a :: free)) (claimFrame c.kernel i) k :=
    hw_t.trans (hw.mono hheld)
  have hfresh : i ∉ grown := by
    intro hin
    have how := hinv.grown_owned hin
    rw [hi.free] at how
    cases how
  have hnotframe : i * 0x1000 ∉ c.frames := (List.nodup_cons.1 hinv'.nodup.1).1
  -- what is written holds no byte of a bitmap
  have hoff : ∀ x, Held (frameBlock a :: free) x → ¬ BitmapByte (claimFrame c.kernel i) x := by
    rintro x ⟨d, hd, hdx⟩
    rcases List.mem_cons.1 hd with rfl | hd
    · exact hinv.not_bitmapByte h (i := i) (by rw [hi.free]; decide) (hclear x hdx).1
    · exact hinv.region_not_bitmapByte h (hinv.held_region ⟨d, List.mem_append_left _ hd, hdx⟩)
  rw [hregion] at hrep
  rw [← ha]
  refine ⟨k, ?_, {
    inv := hinv'.rearrange hw' hoff hrep (hinv.granted_live (frameBlock a)) (fun j => ?_)
      (fun j hj => ?_) (fun d hd => List.mem_cons_of_mem _ hd)
      ⟨hinv.nodup.1, List.nodup_cons.2 ⟨hfresh, hinv.nodup.2⟩⟩
    fits := hfits
    mem := fun x hx hbyte => (hw'.mem x hx).trans (hmem' x hbyte)
    used := by rw [hused, hused_t]
    grows := .frame hi (hw'.samePmm hoff) (by rw [hcount, hcount_t])
    forge := fun block h16 hne hin hacc => ?_
    clear := fun d hd x hdx hbx => ?_ }⟩
  · rw [kmalloc_none hinv.rep hn hsmall hnone, run_bind_ok hrun_t]
    exact hrun
  · change (j ∈ i :: grown ∨ _ ∈ c.frames) ↔ (j ∈ grown ∨ _ ∈ i * 0x1000 :: c.frames)
    rw [List.mem_cons, List.mem_cons]
    have hij : j = i ↔ j * 0x1000 = i * 0x1000 := by omega
    rw [hij]
    constructor
    · rintro ((hj | hj) | hj) <;> simp [hj]
    · rintro (hj | hj | hj) <;> simp [hj]
  · rcases List.mem_cons.1 hj with rfl | hj
    · exact ⟨hi.lt, hnotframe⟩
    · exact hinv.apart j hj
  · have hacc' := hforge_t (fun _ => False) block h16 (fun hf => hf) (hforge block h16 hne hacc)
    exact (hinv.accepted_congr h hin hmem').1 hacc'
  · exact (hclear x hbx).2 (hinv.held_region ⟨d, List.mem_append_right _ hd, hdx⟩)

/-- **Every call of `kmalloc`**: a size of zero, one too large and a PMM
without a free frame panic with nothing changed; else it returns. -/
theorem Inv.kmalloc_cases (n : ℕ) :
    (n = 0 ∧ (KbmOs.kmalloc n).run c.kernel = .error (.panic "KBM_0_HEAP_ALLOCATION") c.kernel) ∨
    (n ≠ 0 ∧ 4064 < roundUpTo16 n ∧
      (KbmOs.kmalloc n).run c.kernel = .error (.panic "KBM_HEAP_OVERFLOW") c.kernel) ∨
    (n ≠ 0 ∧ roundUpTo16 n ≤ 4064 ∧ (∀ d ∈ free, d.size < roundUpTo16 n) ∧
      (∀ i, i < c.kernel.frameCount → frameState c.kernel i ≠ .free) ∧
      (KbmOs.kmalloc n).run c.kernel = .error (.panic "KBM_OUT_OF_MEMORY") c.kernel) ∨
    (n ≠ 0 ∧ roundUpTo16 n ≤ 4064 ∧ ∃ pre b post grown' k,
      Source c.kernel hhdm (roundUpTo16 n) free grown pre b post grown' ∧
      (KbmOs.kmalloc n).run c.kernel = .ok (b.addr + 32) k ∧
      KmallocOk entries hhdm (roundUpTo16 n) c free blocks grown pre b post grown' k) := by
  by_cases hn : n = 0
  · refine Or.inl ⟨hn, ?_⟩
    unfold KbmOs.kmalloc
    rw [run_bind_ok (EStateM.run_get _), if_neg hinv.rep.ready, if_pos hn]
    rfl
  by_cases hlarge : 4064 < roundUpTo16 n
  · exact Or.inr (Or.inl ⟨hn, hlarge, kmalloc_overflow hinv.rep.ready hn hlarge⟩)
  have hsmall : roundUpTo16 n ≤ 4064 := not_lt.1 hlarge
  refine Or.inr (Or.inr ?_)
  -- the free list is asked first, PMM only where nothing fits
  rcases firstFit_or_none (roundUpTo16 n) free with ⟨pre, b, post, hfree, hfit⟩ | hnone
  · obtain ⟨k, hrun, hok⟩ := hinv.kmalloc_listed h hn hsmall hfree hfit
    exact Or.inr ⟨hn, hsmall, pre, b, post, grown, k, .listed hfree hfit, hrun, hok⟩
  rcases lowestFree_or_none c.kernel with ⟨i, hi⟩ | hfull
  · obtain ⟨k, hrun, hok⟩ := hinv.kmalloc_fresh h hn hsmall hnone hi
    exact Or.inr ⟨hn, hsmall, _, _, _, _, k, .fresh hnone hi, hrun, hok⟩
  · refine Or.inl ⟨hn, hsmall, hnone, hfull, ?_⟩
    rw [kmalloc_none hinv.rep hn hsmall hnone]
    refine run_bind_error ?_
    unfold growHeap
    exact run_bind_error (pmmAllocateFrame_none hinv.pmm hfull)

/-! ## Clients -/

omit h in
/-- The payload of a live pointer is its block's. -/
theorem Inv.inPayload_iff (hb : b ∈ blocks) :
    c.InPayload (b.addr + 32) x ↔ b.addr + 32 ≤ x ∧ x < b.stop 32 := by
  unfold InPayload
  rw [Nat.add_sub_cancel, (hinv.rep.taken b hb).size]
  rfl

omit h in
theorem Inv.inFrame_iff (ha : a ∈ c.frames) : c.InFrame a x ↔ InFrameOf hhdm (a / 0x1000) x := by
  have halign := (hinv.frames a ha).1
  have hmul : a / 0x1000 * 0x1000 = a := by omega
  unfold InFrame InFrameOf
  rw [hinv.offset, hmul]

/-- A caller's frame holds no byte of the heap and none of a bitmap. -/
theorem Inv.frame_apart (ha : a ∈ c.frames) (hx : c.InFrame a x) :
    x ∉ frameBytes hhdm grown ∧ ¬ BitmapByte c.kernel x := by
  obtain ⟨halign, hlt⟩ := hinv.frames a ha
  have hmul : a / 0x1000 * 0x1000 = a := by omega
  rw [hinv.inFrame_iff ha] at hx
  have how : frameState c.kernel (a / 0x1000) = .owned :=
    (hinv.owned _ hlt).2 (Or.inr (by rw [hmul]; exact ha))
  refine ⟨fun ⟨j, hj, hjx⟩ => ?_, hinv.not_bitmapByte h (by rw [how]; decide) hx⟩
  have hij := hx.unique hjx
  refine (hinv.apart j hj).2 ?_
  rw [← hij, hmul]
  exact ha

/-- A byte a client may write is in no header and no bitmap. -/
theorem Inv.mayWrite_apart (hx : c.MayWrite x) :
    ¬ BitmapByte c.kernel x ∧ ∀ d ∈ free ++ blocks, x < d.addr ∨ d.addr + 32 ≤ x := by
  rcases hx with ⟨p, hp, hx⟩ | ⟨a, ha, hx⟩
  · obtain ⟨b, hb, rfl⟩ := hinv.block_of_live hp
    rw [hinv.inPayload_iff hb] at hx
    have hbx : b.Holds 32 x := ⟨by omega, hx.2⟩
    refine ⟨hinv.region_not_bitmapByte h (hinv.held_region ⟨b, List.mem_append_right _ hb, hbx⟩),
      fun d hd => ?_⟩
    -- in the block itself the payload is behind the header, other blocks are apart
    by_cases hdb : d = b
    · rw [hdb]
      exact Or.inr hx.1
    · have hapart := hinv.rep.apart hd (List.mem_append_right _ hb) hdb
      unfold Apart Blk.stop at hapart
      unfold Blk.Holds Blk.stop at hbx
      omega
  · obtain ⟨hheap, hbyte⟩ := hinv.frame_apart h ha hx
    refine ⟨hbyte, fun d hd => ?_⟩
    by_contra hin
    refine hheap (hinv.held_region ⟨d, hd, ?_⟩)
    unfold Blk.Holds Blk.stop
    omega

/-- **A client's write changes no block and no frame.** -/
theorem Inv.write (value : BitVec 8) (hx : c.MayWrite x) :
    Inv entries hhdm ⟨{ c.kernel with mem := store8 c.kernel.mem x value }, c.live, c.frames⟩ free
      blocks grown := by
  obtain ⟨hbyte, hheaders⟩ := hinv.mayWrite_apart h hx
  have hw : HeapWrite (fun y => y = x) c.kernel
      { c.kernel with mem := store8 c.kernel.mem x value } :=
    ⟨rfl, fun y hy => store8_of_ne hy⟩
  refine hinv.heapWrite hw (fun y hy => hy ▸ hbyte) ?_ hinv.live
  refine hinv.rep.congr rfl rfl fun d hd y h1 h2 => store8_of_ne ?_
  have := hheaders d hd
  omega

end System

/-- **What a step can do**: the call it makes returned, and left what its
theorem says. -/
inductive Effect (entries : List MemmapEntry) (hhdm : ℕ) (c : System) (free blocks : List Blk)
    (grown : List ℕ) : Event → System → List Blk → List Blk → List ℕ → Prop
  | kmalloc {n : ℕ} {pre post : List Blk} {b : Blk} {grown' : List ℕ} {k : Kernel}
      (hn : n ≠ 0) (hsmall : roundUpTo16 n ≤ 4064)
      (hsrc : Source c.kernel hhdm (roundUpTo16 n) free grown pre b post grown')
      (hok : KmallocOk entries hhdm (roundUpTo16 n) c free blocks grown pre b post grown' k) :
      Effect entries hhdm c free blocks grown (.kmalloc n (b.addr + 32))
        ⟨k, (b.addr + 32) :: c.live, c.frames⟩ (pre ++ remainder 32 16 (roundUpTo16 n) b ++ post)
        (granted 32 16 (roundUpTo16 n) b :: blocks) grown'
  | kfree {b : Blk} {k : Kernel} (hb : b ∈ blocks)
      (hok : KfreeOk entries hhdm c free blocks grown b k) :
      Effect entries hhdm c free blocks grown (.kfree (b.addr + 32))
        ⟨k, c.live.erase (b.addr + 32), c.frames⟩ (release 32 b free) (blocks.erase b) grown
  | allocateFrame {i : ℕ} (hi : LowestFree c.kernel i) :
      Effect entries hhdm c free blocks grown (.allocateFrame (i * 0x1000))
        ⟨claimFrame c.kernel i, c.live, i * 0x1000 :: c.frames⟩ free blocks grown
  | freeFrame {a : ℕ} (ha : a ∈ c.frames) :
      Effect entries hhdm c free blocks grown (.freeFrame a)
        ⟨releaseFrame c.kernel (a / 0x1000), c.live, c.frames.erase a⟩ free blocks grown
  | write {x : ℕ} {value : BitVec 8} (hmay : c.MayWrite x) :
      Effect entries hhdm c free blocks grown (.write x value)
        ⟨{ c.kernel with mem := store8 c.kernel.mem x value }, c.live, c.frames⟩ free blocks grown

/-- **The abstract heap**: what an event does to the free blocks, the live
ones and the frames. -/
inductive Moves (s : Kernel) (hhdm : ℕ) :
    Event → List Blk → List Blk → List ℕ → List Blk → List Blk → List ℕ → Prop
  | kmalloc {n : ℕ} {free blocks pre post : List Blk} {b : Blk} {grown grown' : List ℕ}
      (hn : n ≠ 0) (hsmall : roundUpTo16 n ≤ 4064)
      (hsrc : Source s hhdm (roundUpTo16 n) free grown pre b post grown') :
      Moves s hhdm (.kmalloc n (b.addr + 32)) free blocks grown
        (pre ++ remainder 32 16 (roundUpTo16 n) b ++ post)
        (granted 32 16 (roundUpTo16 n) b :: blocks) grown'
  | kfree {free blocks : List Blk} {b : Blk} {grown : List ℕ} (hb : b ∈ blocks) :
      Moves s hhdm (.kfree (b.addr + 32)) free blocks grown (release 32 b free) (blocks.erase b) grown
  | stays {e : Event} {free blocks : List Blk} {grown : List ℕ}
      (hother : ∀ n p, e ≠ .kmalloc n p ∧ e ≠ .kfree p) :
      Moves s hhdm e free blocks grown free blocks grown

theorem Effect.moves {c c' : System} {e : Event} {free' blocks' : List Blk}
    (heffect : Effect entries hhdm c free blocks grown e c' free' blocks' grown') :
    Moves c.kernel hhdm e free blocks grown free' blocks' grown' := by
  cases heffect with
  | kmalloc hn hsmall hsrc _ => exact .kmalloc hn hsmall hsrc
  | kfree hb _ => exact .kfree hb
  | allocateFrame _ => exact .stays (by simp)
  | freeFrame _ => exact .stays (by simp)
  | write _ => exact .stays (by simp)

namespace System

variable {c c' : System} {e : Event} {es : List Event} {m : Mem}

/-- **Every step is one of these and keeps the invariant.** -/
theorem Inv.effect (h : LimineOk entries hhdm) (hinv : Inv entries hhdm c free blocks grown)
    (hstep : Step c e c') : ∃ free' blocks' grown',
      Effect entries hhdm c free blocks grown e c' free' blocks' grown' ∧
      Inv entries hhdm c' free' blocks' grown' := by
  cases hstep with
  | @kmalloc size p k hsize hrun =>
    rcases hinv.kmalloc_cases h size with ⟨-, herr⟩ | ⟨-, -, herr⟩ | ⟨-, -, -, -, herr⟩ |
      ⟨hn, hsmall, pre, b, post, grown', k', hsrc, hrun', hok⟩
    · rw [hrun] at herr
      cases herr
    · rw [hrun] at herr
      cases herr
    · rw [hrun] at herr
      cases herr
    · rw [hrun] at hrun'
      obtain ⟨rfl, rfl⟩ := EStateM.Result.ok.inj hrun'
      exact ⟨_, _, _, .kmalloc hn hsmall hsrc hok, hok.inv⟩
  | @kfree p k hlive hrun =>
    obtain ⟨b, hb, rfl⟩ := hinv.block_of_live hlive
    obtain ⟨k', hrun', hok⟩ := hinv.kfree h hb
    rw [hrun] at hrun'
    obtain ⟨-, rfl⟩ := EStateM.Result.ok.inj hrun'
    exact ⟨_, _, _, .kfree hb hok, hok.inv⟩
  | @allocateFrame a k hrun =>
    obtain ⟨i, hi, rfl, rfl⟩ := of_pmmAllocateFrame hinv.pmm hrun
    exact ⟨_, _, _, .allocateFrame hi, (hinv.allocateFrame h hi).1⟩
  | @freeFrame a k howned hrun =>
    obtain ⟨hrun', hinv', -⟩ := hinv.freeFrame h howned
    rw [hrun] at hrun'
    obtain ⟨-, rfl⟩ := EStateM.Result.ok.inj hrun'
    exact ⟨_, _, _, .freeFrame howned, hinv'⟩
  | @write x value hmay => exact ⟨_, _, _, .write hmay, hinv.write h value hmay⟩

/-- **What every effect keeps every run keeps**, and the invariant with it.
The steps may be restricted further, by `R`. -/
theorem Inv.run {R : System → Event → System → Prop}
    {P : System → List Blk → List Blk → List ℕ → Prop} {c₀ : System} (h : LimineOk entries hhdm)
    (hR : ∀ c e c', R c e c' → Step c e c') (hinv : Inv entries hhdm c₀ free blocks grown)
    (hinit : P c₀ free blocks grown)
    (hkeep : ∀ {c free blocks grown e c' free' blocks' grown'},
      Inv entries hhdm c free blocks grown → Inv entries hhdm c' free' blocks' grown' →
      Effect entries hhdm c free blocks grown e c' free' blocks' grown' → R c e c' →
      P c free blocks grown → P c' free' blocks' grown')
    (hrun : Run R c₀ es c) :
    ∃ free blocks grown, Inv entries hhdm c free blocks grown ∧ P c free blocks grown := by
  refine hrun.invariant
    (P := fun c => ∃ free blocks grown, Inv entries hhdm c free blocks grown ∧ P c free blocks grown)
    ⟨free, blocks, grown, hinv, hinit⟩ ?_
  rintro c e c' ⟨free, blocks, grown, hinv, hP⟩ hstep
  obtain ⟨free', blocks', grown', heffect, hinv'⟩ := hinv.effect h (hR c e c' hstep)
  exact ⟨free', blocks', grown', hinv', hkeep hinv hinv' heffect hstep hP⟩

/-- **Every reachable state satisfies the invariant.** -/
theorem Reachable.inv (h : LimineOk entries hhdm) (hc : Reachable entries hhdm m es c) :
    ∃ free blocks grown, Inv entries hhdm c free blocks grown := by
  obtain ⟨c₀, hboot, hrun⟩ := hc
  obtain ⟨free, blocks, grown, hinv, -⟩ := (hboot.inv h).run h (P := fun _ _ _ _ => True)
    (fun _ _ _ hstep => hstep) trivial (fun _ _ _ _ _ => trivial) hrun
  exact ⟨free, blocks, grown, hinv⟩

end System

end KbmOs
