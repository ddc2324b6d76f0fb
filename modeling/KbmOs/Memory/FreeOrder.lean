import KbmOs.Lib.BlockEnds
import KbmOs.Memory.Accounting
/-!
# The order of frees

Each `kfree` decides by what happens to be free whether to join the block
with a neighbour, so two orders of the same frees pass through different
lists. They end in one: `kfree` is `release` on the list of free blocks,
and releases commute. The bytes in use go down by the same sum.
-/

namespace KbmOs

open ByteMemory LinkedList Tiling FreeList LabelledRuns

variable {entries : List MemmapEntry} {hhdm p : ℕ} {m : Mem} {free blocks bs : List Blk}
variable {grown : List ℕ} {b : Blk}

namespace System

variable {c : System}

/-- The block whose payload a live pointer is. -/
def blockOf (c : System) (p : ℕ) : Blk := ⟨p - 32, c.payloadSize p⟩

theorem Inv.blockOf_live (hinv : Inv entries hhdm c free blocks grown) (hp : p ∈ c.live) :
    c.blockOf p ∈ blocks ∧ (c.blockOf p).addr + 32 = p := by
  obtain ⟨b, hb, rfl⟩ := hinv.block_of_live hp
  have hblock : c.blockOf (b.addr + 32) = b := by
    unfold blockOf
    rw [hinv.payloadSize_eq hb, Nat.add_sub_cancel]
  rw [hblock]
  exact ⟨hb, rfl⟩

/-- Distinct live pointers are the payloads of distinct live blocks. -/
theorem Inv.blocks_of_live (hinv : Inv entries hhdm c free blocks grown) {l : List ℕ}
    (hl : l.Nodup) (hlive : ∀ p ∈ l, p ∈ c.live) :
    (l.map c.blockOf).Nodup ∧ (∀ b ∈ l.map c.blockOf, b ∈ blocks) ∧
      (l.map c.blockOf).map (fun b => b.addr + 32) = l := by
  have hback : (l.map c.blockOf).map (fun b => b.addr + 32) = l := by
    rw [List.map_map]
    exact (List.map_congr_left fun p hp => (hinv.blockOf_live (hlive p hp)).2).trans (List.map_id l)
  refine ⟨List.Nodup.of_map (fun b => b.addr + 32) (by rwa [hback]), fun b hb => ?_, hback⟩
  obtain ⟨p, hp, rfl⟩ := List.mem_map.1 hb
  exact (hinv.blockOf_live (hlive p hp)).1

/-- **Live blocks are freed one after the other**, each released into the
list. -/
theorem Inv.kfree_all (h : LimineOk entries hhdm) (hinv : Inv entries hhdm c free blocks grown)
    (htally : Tally c.kernel blocks grown) (hbs : bs.Nodup) (hlive : ∀ b ∈ bs, b ∈ blocks) :
    ∃ k, ((bs.map fun b => b.addr + 32).forM KbmOs.kfree).run c.kernel = .ok () k ∧
      FreeBlocks k (releaseAll 32 free bs) ∧
      k.heapUsedBytes + (bs.map Blk.size).sum = c.kernel.heapUsedBytes ∧
      k.heapFrameCount = c.kernel.heapFrameCount := by
  induction bs generalizing c free blocks with
  | nil => exact ⟨c.kernel, rfl, hinv.freeBlocks, rfl, rfl⟩
  | cons b bs ih =>
    obtain ⟨hnew, hbs⟩ := List.nodup_cons.1 hbs
    have hb := hlive b List.mem_cons_self
    obtain ⟨k, hrun, hok⟩ := hinv.kfree h hb
    have hrest : ∀ d ∈ bs, d ∈ blocks.erase b := by
      intro d hd
      have hne : d ≠ b := by
        rintro rfl
        exact hnew hd
      exact (List.mem_erase_of_ne hne).2 (hlive d (List.mem_cons_of_mem _ hd))
    obtain ⟨k', hrun', hblocks, hused, hcount⟩ :=
      ih hok.inv (hinv.tally hok.inv htally (.kfree hb hok)) hbs hrest
    refine ⟨k', ?_, hblocks, ?_, hcount.trans hok.count⟩
    · show (KbmOs.kfree (b.addr + 32) >>= fun _ =>
        (bs.map fun b => b.addr + 32).forM KbmOs.kfree).run c.kernel = _
      rw [run_bind_ok hrun]
      exact hrun'
    · -- the block is counted, so taking its size off does not underflow
      have hle := List.le_sum_of_mem (List.mem_map_of_mem (f := Blk.size) hb)
      have htotal := hinv.total
      have hlt := hinv.grown_lt
      have hfreed := hok.used
      rw [htally.used, wrapSub_of_le (by omega) (by omega)] at hfreed
      rw [List.map_cons, List.sum_cons, htally.used]
      change k'.heapUsedBytes + _ = k.heapUsedBytes at hused
      omega

/-- **The order of frees does not matter.** In every reachable state,
distinct live pointers passed to `kfree` in two orders leave the same free
list, the same bytes in use and the same frame count, and neither order
panics. -/
theorem kfree_order (entries : List MemmapEntry) (hhdm : ℕ) (m : Mem) (es : List Event)
    (c : System) (l l' : List ℕ) (h : LimineOk entries hhdm) (hc : Reachable entries hhdm m es c)
    (hl : l.Nodup) (hlive : ∀ p ∈ l, p ∈ c.live) (hperm : l.Perm l') :
    ∃ k k' listed, (l.forM KbmOs.kfree).run c.kernel = .ok () k ∧
      (l'.forM KbmOs.kfree).run c.kernel = .ok () k' ∧
      FreeBlocks k listed ∧ FreeBlocks k' listed ∧
      heapGetUsedBytes k = heapGetUsedBytes k' ∧ heapGetFrameCount k = heapGetFrameCount k' := by
  obtain ⟨free, blocks, grown, hinv, htally⟩ := hc.tally h
  obtain ⟨hnodup, hmem, hback⟩ := hinv.blocks_of_live hl hlive
  obtain ⟨hnodup', hmem', hback'⟩ := hinv.blocks_of_live (hperm.nodup hl) fun p hp =>
    hlive p (hperm.mem_iff.2 hp)
  obtain ⟨k, hrun, hlist, hused, hcount⟩ := hinv.kfree_all h htally hnodup hmem
  obtain ⟨k', hrun', hlist', hused', hcount'⟩ := hinv.kfree_all h htally hnodup' hmem'
  rw [hback] at hrun
  rw [hback'] at hrun'
  have hbs := hperm.map c.blockOf
  have horder : releaseAll 32 free (l.map c.blockOf) = releaseAll 32 free (l'.map c.blockOf) := by
    obtain ⟨-, hapart, -⟩ := List.pairwise_append.1 hinv.rep.tiles.apart
    refine releaseAll_perm (by decide) hbs hinv.rep.ascending ?_ fun b hb d hd =>
      (hinv.rep.apart_free_live hd (hmem b hb)).symm
    exact hnodup.imp_of_mem fun {b d} hb hd hne => hapart.forall (hmem b hb) (hmem d hd) hne
  have hsum := (hbs.map Blk.size).sum_eq
  refine ⟨k, k', _, hrun, hrun', hlist, ?_, ?_, hcount.trans hcount'.symm⟩
  · rw [horder]
    exact hlist'
  · show k.heapUsedBytes = k'.heapUsedBytes
    omega

/-- Such as the pointers of the first two requests. -/
theorem kfree_order_sampleMap : ∃ c p q k k' listed,
    Reachable sampleMap sampleOffset blankMem [.kmalloc 100 p, .kmalloc 16 q] c ∧
    ([p, q].forM KbmOs.kfree).run c.kernel = .ok () k ∧
    ([q, p].forM KbmOs.kfree).run c.kernel = .ok () k' ∧
    FreeBlocks k listed ∧ FreeBlocks k' listed := by
  obtain ⟨c₀, hc⟩ := sampleMap_boots
  obtain ⟨k₁, hrun₁, hok₁⟩ := (hc.inv sampleMap_limineOk).kmalloc_fresh sampleMap_limineOk
    (n := 100) (by decide) (by decide) (by simp) hc.sample_lowest
  obtain ⟨k₂, hrun₂, hok₂⟩ := hok₁.inv.kmalloc_listed sampleMap_limineOk (n := 16) (by decide)
    (by decide) (List.nil_append _).symm ⟨by decide, by simp⟩
  have hboth : Run Step c₀ (([] ++ [.kmalloc 100 _]) ++ [.kmalloc 16 _]) _ :=
    (Run.nil.snoc (.kmalloc (by decide) hrun₁)).snoc (.kmalloc (by decide) hrun₂)
  have hlive := hok₂.inv.live_nodup
  rw [hc.live] at hlive
  obtain ⟨k, k', listed, hrun, hrun', hlist, hlist', -⟩ := kfree_order sampleMap sampleOffset blankMem
    _ _ _ _ sampleMap_limineOk ⟨c₀, hc, hboth⟩ hlive (by simp [hc.live]) (.swap _ _ [])
  exact ⟨_, _, _, k', k, listed, ⟨c₀, hc, hboth⟩, hrun', hrun, hlist', hlist⟩

end System

end KbmOs
