import KbmOs.Memory.Events
import Mathlib.Order.Interval.Set.Basic
import Mathlib.Data.Set.Lattice
import Mathlib.Data.Set.Pairwise.Basic
import Mathlib.Order.CompletePartialOrder
/-!
# The heap's representation, and who owns which bytes

Two consequences of the invariant, over whole runs. The free list is what
the header fields say it is, and its blocks and the live ones tile the
frames the heap has taken. And the live payloads, the headers, the
callers' frames and the bitmaps are disjoint ranges of usable RAM, so no
call changes a byte a client may write, and a live pointer is freed
without a panic.
-/

namespace KbmOs

open ByteMemory LinkedList Tiling FreeList LabelledRuns

variable {entries : List MemmapEntry} {hhdm i n a p x : ℕ} {m : Mem} {s k : Kernel}
variable {free blocks : List Blk} {grown : List ℕ} {b : Blk}

/-- The nodes of the free list, in order. -/
structure FreeListIs (s : Kernel) (nodes : List ℕ) : Prop where
  head : s.heapFreeList = nodes.headD 0
  linked : Seg (blockNext s.mem) nodes 0
  nonnull : ∀ b ∈ nodes, b ≠ 0

/-- The head and the links leave no choice. -/
theorem FreeListIs.unique {s : Kernel} {l l' : List ℕ} (hl : FreeListIs s l)
    (hl' : FreeListIs s l') : l = l' :=
  Seg.unique hl.nonnull hl'.nonnull (hl.head.symm.trans hl'.head) hl.linked hl'.linked

/-- The blocks of the free list, in order, as their headers say. -/
structure FreeBlocks (s : Kernel) (l : List Blk) : Prop where
  list : FreeListIs s (l.map Blk.addr)
  size : ∀ b ∈ l, blockSize s.mem b.addr = b.size

/-- The bytes of usable RAM, as pointers. -/
def usableRam (entries : List MemmapEntry) (hhdm : ℕ) : Set ℕ :=
  {x | ∃ e ∈ entries, e.Usable ∧ e.base + hhdm ≤ x ∧ x < e.base + e.length + hhdm}

namespace System

/-- The bytes of the frames the heap has taken from PMM: those given out
that no caller holds. -/
def heapBytes (hhdm : ℕ) (c : System) : Set ℕ :=
  {x | ∃ i, i < c.kernel.frameCount ∧ frameState c.kernel i = .owned ∧ i * 0x1000 ∉ c.frames ∧
    InFrameOf hhdm i x}

variable {c : System} {es : List Event}

theorem Inv.heapBytes_eq (hinv : Inv entries hhdm c free blocks grown) :
    frameBytes hhdm grown = heapBytes hhdm c := by
  ext x
  constructor
  · rintro ⟨i, hi, hx⟩
    exact ⟨i, (hinv.apart i hi).1, hinv.grown_owned hi, (hinv.apart i hi).2, hx⟩
  · rintro ⟨i, hi, how, hno, hx⟩
    exact ⟨i, ((hinv.owned i hi).1 how).resolve_right hno, hx⟩

theorem Inv.freeListIs (hinv : Inv entries hhdm c free blocks grown) :
    FreeListIs c.kernel (free.map Blk.addr) where
  head := hinv.rep.leads.1
  linked := hinv.rep.leads.2
  nonnull a ha := by
    obtain ⟨b, hb, rfl⟩ := List.mem_map.1 ha
    have := (hinv.rep.bounds (List.mem_append_left _ hb)).1
    omega

theorem Inv.freeBlocks (hinv : Inv entries hhdm c free blocks grown) : FreeBlocks c.kernel free :=
  ⟨hinv.freeListIs, fun b hb => (hinv.rep.listed b hb).size⟩

/-! ## A machine that boots -/

/-- **A map with room for its bitmaps boots.** -/
theorem exists_booted (h : LimineOk entries hhdm) (hu : HasUsable entries)
    (hroom : RoomForBitmaps entries) (m : Mem) : ∃ c, Booted entries hhdm m c := by
  obtain ⟨k, hrun, -⟩ := pmmInit_run hhdm m h.mapOk.sane (h.mapOk.hasFrames_iff.2 hu) hroom
  exact ⟨⟨_, [], []⟩, ⟨(run_bind_ok hrun).trans rfl, rfl, rfl⟩⟩

/-- Limine's offset in the higher half. -/
def sampleOffset : ℕ := 0xFFFF800000000000

theorem sampleMap_limineOk : LimineOk sampleMap sampleOffset where
  frame := sampleMap_ok.frame
  pos := by decide
  aligned := by decide
  linear e he hu := by
    simp only [sampleMap, List.mem_cons, List.not_mem_nil, or_false] at he
    rcases he with rfl | rfl | rfl <;> decide

/-- Its frames 2, 3 and 4 are free at boot. -/
theorem Booted.sample_free (hc : Booted sampleMap sampleOffset m c) (hi : 2 ≤ i ∧ i ≤ 4) :
    i < c.kernel.frameCount ∧ frameState c.kernel i = .free := by
  obtain ⟨⟨⟩, k, hinit, hheap⟩ := of_run_bind hc.run
  have hs := (of_pmmInit sampleMap_ok.sane hinit).sample_free hi
  unfold heapInit at hheap
  rw [EStateM.run_modify] at hheap
  rw [← (EStateM.Result.ok.inj hheap).2]
  exact hs

/-- Its first two frames never are. -/
theorem Inv.sample_reserved (hinv : Inv sampleMap sampleOffset c free blocks grown) (hi : i < 2) :
    frameState c.kernel i ≠ .free := by
  intro hfree
  obtain ⟨hlt, hstate⟩ : i < c.kernel.frameCount ∧ frameState c.kernel i ≠ .reserved := by
    refine ⟨?_, by rw [hfree]; decide⟩
    have hsize : mapFrames sampleMap = 17 := by decide
    rw [hinv.layout.count]
    omega
  obtain ⟨e, he, hu, hframe⟩ := hinv.usable i hlt hstate
  rw [MemmapEntry.hasFrame_iff] at hframe
  simp only [sampleMap, List.mem_cons, List.not_mem_nil, or_false] at he
  rcases he with rfl | rfl | rfl
  · have hstart : (⟨0x1800, 0x4000, 0⟩ : MemmapEntry).firstFrame = 2 := by decide
    omega
  · exact absurd hu (by decide)
  · have hstart : (⟨0x8000, 0x9000, 0⟩ : MemmapEntry).firstFrame = 8 := by decide
    omega

theorem Booted.sample_lowest (hc : Booted sampleMap sampleOffset m c) :
    LowestFree c.kernel 2 where
  lt := (hc.sample_free (i := 2) (by decide)).1
  free := (hc.sample_free (i := 2) (by decide)).2
  least _ hj := (hc.inv sampleMap_limineOk).sample_reserved hj

theorem sampleMap_boots : ∃ c, Booted sampleMap sampleOffset blankMem c :=
  exists_booted sampleMap_limineOk ⟨_, List.mem_cons_self, rfl⟩
    (by unfold RoomForBitmaps; decide) blankMem

/-- A caller of `kmalloc` gets a pointer there. -/
theorem sample_kmalloc : ∃ c p, Reachable sampleMap sampleOffset blankMem [.kmalloc 100 p] c ∧
    p ∈ c.live := by
  obtain ⟨c, hc⟩ := sampleMap_boots
  have hinv := hc.inv sampleMap_limineOk
  obtain ⟨k, hrun, -⟩ := hinv.kmalloc_fresh sampleMap_limineOk (n := 100) (by decide) (by decide)
    (by simp) hc.sample_lowest
  exact ⟨_, _, ⟨c, hc, show Run Step c ([] ++ [_]) _ from .snoc .nil (.kmalloc (by decide) hrun)⟩,
    List.mem_cons_self⟩

/-- With frame 2 taken the lowest free frame is frame 3. -/
theorem Booted.sample_next {k : Kernel} (hc : Booted sampleMap sampleOffset m c)
    (hsame : SamePmm (claimFrame c.kernel 2) k) : LowestFree k 3 := by
  have hinv := hc.inv sampleMap_limineOk
  have hlow := hc.sample_lowest
  obtain ⟨hlt, hfree⟩ := hc.sample_free (i := 3) (by decide)
  have hpmm := (hinv.allocateFrame sampleMap_limineOk hlow).1.pmm
  have hstate : ∀ j, j < c.kernel.frameCount →
      frameState k j = if j = 2 then .owned else frameState c.kernel j := fun j hj => by
    rw [hsame.frameState hpmm hj, frameState_claimFrame hinv.pmm hlow.lt hj]
  refine ⟨?_, ?_, fun j hj => ?_⟩
  · rw [hsame.frameCount_eq]
    exact hlt
  · rw [hstate 3 hlt]
    exact hfree
  · rw [hstate j (by omega)]
    split
    · decide
    · exact hinv.sample_reserved (by omega)

/-- Where a block is listed a request finds one that fits. -/
def Served (free : List Blk) : Event → Prop
  | .kmalloc n _ => free = [] ∨ ∃ b ∈ free, roundUpTo16 n ≤ b.size
  | _ => True

/-- Four requests: the first takes frame 2 whole, and frame 3 is cut for the
others. -/
def sampleRequests : List Event :=
  [.kmalloc 4064 (sampleOffset + 0x2020), .kmalloc 16 (sampleOffset + 0x3020),
    .kmalloc 16 (sampleOffset + 0x3050), .kmalloc 16 (sampleOffset + 0x3080)]

/-- The second block of frame 3 is freed, and then the first. -/
def sampleEvents : List Event :=
  sampleRequests ++ [.kfree (sampleOffset + 0x3050), .kfree (sampleOffset + 0x3020)]

section Sample

variable {R : System → Event → System → Prop}
variable (hR : ∀ {c c' : System} {e : Event} {free blocks : List Blk} {grown : List ℕ},
  Inv sampleMap sampleOffset c free blocks grown → Step c e c' → Served free e → R c e c')
include hR

/-- **The requests are granted.** -/
theorem sample_requests : ∃ c₀ c, Booted sampleMap sampleOffset blankMem c₀ ∧
    Run R c₀ sampleRequests c ∧
    Inv sampleMap sampleOffset c [⟨sampleOffset + 0x3090, 3920⟩]
      [⟨sampleOffset + 0x3060, 16⟩, ⟨sampleOffset + 0x3030, 16⟩, ⟨sampleOffset + 0x3000, 16⟩,
        ⟨sampleOffset + 0x2000, 4064⟩] [3, 2] := by
  obtain ⟨c₀, hc⟩ := sampleMap_boots
  have hinv := hc.inv sampleMap_limineOk
  obtain ⟨k₁, hrun₁, hok₁⟩ := hinv.kmalloc_fresh sampleMap_limineOk (n := 4064) (by decide)
    (by decide) (by simp) hc.sample_lowest
  -- nothing is left of a frame that is taken whole
  have hgranted : granted 32 16 (roundUpTo16 4064) (frameBlock (2 * 0x1000 + sampleOffset)) =
      ⟨sampleOffset + 0x2000, 4064⟩ := by decide
  have hrest : remainder 32 16 (roundUpTo16 4064) (frameBlock (2 * 0x1000 + sampleOffset)) = [] := by
    decide
  have hinv₁ := hok₁.inv
  rw [hgranted, hrest] at hinv₁
  change Inv sampleMap sampleOffset _ [] [⟨sampleOffset + 0x2000, 4064⟩] [2] at hinv₁
  have hlow : LowestFree k₁ 3 := by
    cases hok₁.grows with
    | frame _ hpmm _ => exact hc.sample_next hpmm
  obtain ⟨k₂, hrun₂, hok₂⟩ := hinv₁.kmalloc_fresh sampleMap_limineOk (n := 16) (by decide)
    (by decide) (by simp) hlow
  have hinv₂ : Inv sampleMap sampleOffset _ [⟨sampleOffset + 0x3030, 4016⟩]
    [⟨sampleOffset + 0x3000, 16⟩, ⟨sampleOffset + 0x2000, 4064⟩] [3, 2] := hok₂.inv
  obtain ⟨k₃, hrun₃, hok₃⟩ := hinv₂.kmalloc_listed sampleMap_limineOk (n := 16) (by decide)
    (by decide) (List.nil_append _).symm ⟨by decide, by simp⟩
  have hinv₃ : Inv sampleMap sampleOffset _ [⟨sampleOffset + 0x3060, 3968⟩]
    [⟨sampleOffset + 0x3030, 16⟩, ⟨sampleOffset + 0x3000, 16⟩, ⟨sampleOffset + 0x2000, 4064⟩]
    [3, 2] := hok₃.inv
  obtain ⟨k₄, hrun₄, hok₄⟩ := hinv₃.kmalloc_listed sampleMap_limineOk (n := 16) (by decide)
    (by decide) (List.nil_append _).symm ⟨by decide, by simp⟩
  have hall := (Run.nil : Run R c₀ [] c₀)
    |>.snoc (hR hinv (.kmalloc (by decide) hrun₁) (Or.inl rfl))
    |>.snoc (hR hinv₁ (.kmalloc (by decide) hrun₂) (Or.inl rfl))
    |>.snoc (hR hinv₂ (.kmalloc (by decide) hrun₃) (Or.inr ⟨_, List.mem_cons_self, by decide⟩))
    |>.snoc (hR hinv₃ (.kmalloc (by decide) hrun₄) (Or.inr ⟨_, List.mem_cons_self, by decide⟩))
  exact ⟨c₀, _, hc, hall, hok₄.inv⟩

/-- **The two that are freed are merged**, in front of what is left of the
frame. -/
theorem sample_run : ∃ c₀ c, Booted sampleMap sampleOffset blankMem c₀ ∧ Run R c₀ sampleEvents c ∧
    Inv sampleMap sampleOffset c [⟨sampleOffset + 0x3000, 64⟩, ⟨sampleOffset + 0x3090, 3920⟩]
      [⟨sampleOffset + 0x3060, 16⟩, ⟨sampleOffset + 0x2000, 4064⟩] [3, 2] := by
  obtain ⟨c₀, c, hc, hrun, hinv⟩ := sample_requests hR
  obtain ⟨k₅, hrun₅, hok₅⟩ := hinv.kfree sampleMap_limineOk (b := ⟨sampleOffset + 0x3030, 16⟩)
    (by decide)
  have hinv₅ : Inv sampleMap sampleOffset _
    [⟨sampleOffset + 0x3030, 16⟩, ⟨sampleOffset + 0x3090, 3920⟩]
    [⟨sampleOffset + 0x3060, 16⟩, ⟨sampleOffset + 0x3000, 16⟩, ⟨sampleOffset + 0x2000, 4064⟩]
    [3, 2] := hok₅.inv
  obtain ⟨k₆, hrun₆, hok₆⟩ := hinv₅.kfree sampleMap_limineOk (b := ⟨sampleOffset + 0x3000, 16⟩)
    (by decide)
  have hall := hrun
    |>.snoc (hR hinv (.kfree (hinv.live_of_block (by decide)) hrun₅) trivial)
    |>.snoc (hR hinv₅ (.kfree (hinv₅.live_of_block (by decide)) hrun₆) trivial)
  exact ⟨c₀, _, hc, hall, hok₆.inv⟩

end Sample

/-- **The heap's representation.** In every reachable state the free list
is a chain of strictly ascending blocks, each flagged free; the live
pointers are those of blocks flagged live and not on it; headers say size
and magic; addresses and sizes are multiples of 16; and the blocks tile
exactly the frames the heap has taken from PMM. -/
theorem heap_representation (entries : List MemmapEntry) (hhdm : ℕ) (m : Mem) (es : List Event)
    (c : System) (h : LimineOk entries hhdm) (hc : Reachable entries hhdm m es c) :
    ∃ free live : List Blk,
      FreeListIs c.kernel (free.map Blk.addr) ∧
      free.Pairwise (fun b d => b.addr < d.addr) ∧
      (∀ b ∈ free, Stamp c.kernel.mem b 1) ∧
      c.live.Perm (live.map fun b => b.addr + 32) ∧
      (∀ b ∈ live, Stamp c.kernel.mem b 0 ∧ b.addr ∉ free.map Blk.addr) ∧
      (∀ b ∈ free ++ live, b.addr % 16 = 0 ∧ b.size % 16 = 0) ∧
      Tiles 32 (free ++ live) (heapBytes hhdm c) := by
  obtain ⟨free, blocks, grown, hinv⟩ := hc.inv h
  have hrep := hinv.rep
  refine ⟨free, blocks, hinv.freeListIs, hrep.sorted, hrep.listed, hinv.live, fun b hb => ?_,
    fun b hb => ⟨(hrep.placed b hb).addr, (hrep.placed b hb).size⟩, ?_⟩
  · refine ⟨hrep.taken b hb, fun hin => ?_⟩
    obtain ⟨d, hd, hdb⟩ := List.mem_map.1 hin
    have hapart := hrep.apart_free_live hd hb
    unfold Apart Blk.stop at hapart
    omega
  · rw [← hinv.heapBytes_eq]
    exact hrep.tiles

/-- So after the sample's calls two blocks are listed, and two are live. -/
theorem heap_representation_sampleMap : ∃ c, ∃ free live : List Blk,
    Reachable sampleMap sampleOffset blankMem sampleEvents c ∧
    free.map Blk.addr = [sampleOffset + 0x3000, sampleOffset + 0x3090] ∧ live.length = 2 ∧
    (∀ b ∈ live, b.addr ∉ free.map Blk.addr) ∧ Tiles 32 (free ++ live) (heapBytes sampleOffset c) := by
  obtain ⟨c₀, c, hboot, hrun, hinv⟩ := sample_run fun _ hstep _ => hstep
  have hc : Reachable sampleMap sampleOffset blankMem sampleEvents c := ⟨c₀, hboot, hrun⟩
  obtain ⟨free, live, hlist, -, -, hlive, htaken, -, htiles⟩ :=
    heap_representation sampleMap sampleOffset blankMem _ c sampleMap_limineOk hc
  have htwo : live.length = 2 := by
    have hlength := (hlive.symm.trans hinv.live).length_eq
    rwa [List.length_map, List.length_map] at hlength
  exact ⟨c, free, live, hc, hlist.unique hinv.freeListIs, htwo, fun b hb => (htaken b hb).2, htiles⟩

/-! ## Isolation -/

/-- The bytes from `a` on. -/
abbrev range (a length : ℕ) : Set ℕ := Set.Ico a (a + length)

/-- **The ranges of the memory system**, with the free list's nodes given:
the live payloads, the headers in front of them, the headers of the listed
blocks, the callers' frames and the storage of the two bitmaps. -/
def regions (c : System) (nodes : List ℕ) : List (Set ℕ) :=
  c.live.map (fun p => range p (blockSize c.kernel.mem (p - 32))) ++
  c.live.map (fun p => range (p - 32) 32) ++
  nodes.map (fun b => range b 32) ++
  c.frames.map (fun a => range (a + c.kernel.heapHhdmOffset) 0x1000) ++
  [range (c.kernel.bitmapPhysicalAddress + c.kernel.heapHhdmOffset)
      (c.kernel.bitmapPageCount * 0x1000),
    range (c.kernel.ownershipBitmapPhysicalAddress + c.kernel.heapHhdmOffset)
      (c.kernel.bitmapPageCount * 0x1000)]

/-- The state a call ends in, whether it returns or panics. -/
def endState {α : Type} : EStateM.Result Stop Kernel α → Kernel
  | .ok _ k => k
  | .error _ k => k

/-- What two ranges are when neither block reaches into the other. -/
theorem disjoint_range {a d l r : ℕ} (hor : a + l ≤ d ∨ d + r ≤ a) :
    Disjoint (range a l) (range d r) := by
  rw [Set.disjoint_left]
  rintro x ⟨h1, h2⟩ ⟨h3, h4⟩
  omega

section Disjointness

variable (hinv : Inv entries hhdm c free blocks grown)
include hinv

/-- The payloads and headers of the live blocks. -/
theorem Inv.live_regions_disjoint :
    ((blocks.map fun b => range (b.addr + 32) b.size) ++
      (blocks.map fun b => range b.addr 32) ++
      (free.map fun b => range b.addr 32)).Pairwise Disjoint := by
  obtain ⟨hfree, hlive, hcross⟩ := List.pairwise_append.1 hinv.rep.tiles.apart
  have happ : ∀ b ∈ blocks, ∀ d ∈ blocks, b = d ∨ Apart 32 b d := by
    intro b hb d hd
    by_cases hbd : b = d
    · exact Or.inl hbd
    · exact Or.inr (hlive.forall hb hd hbd)
  refine List.pairwise_append.2 ⟨List.pairwise_append.2 ⟨?_, ?_, ?_⟩, ?_, ?_⟩
  · refine List.pairwise_map.2 (hlive.imp fun {b d} hbd => disjoint_range ?_)
    unfold Apart Blk.stop at hbd
    omega
  · refine List.pairwise_map.2 (hlive.imp fun {b d} hbd => disjoint_range ?_)
    unfold Apart Blk.stop at hbd
    omega
  · intro R hR Q hQ
    obtain ⟨b, hb, rfl⟩ := List.mem_map.1 hR
    obtain ⟨d, hd, rfl⟩ := List.mem_map.1 hQ
    refine disjoint_range ?_
    rcases happ b hb d hd with rfl | hbd
    · omega
    · unfold Apart Blk.stop at hbd
      omega
  · refine List.pairwise_map.2 (hfree.imp fun {b d} hbd => disjoint_range ?_)
    unfold Apart Blk.stop at hbd
    omega
  · intro R hR Q hQ
    obtain ⟨d, hd, rfl⟩ := List.mem_map.1 hQ
    rcases List.mem_append.1 hR with hR | hR
    · obtain ⟨b, hb, rfl⟩ := List.mem_map.1 hR
      have hdb := hcross d hd b hb
      unfold Apart Blk.stop at hdb
      exact disjoint_range (by omega)
    · obtain ⟨b, hb, rfl⟩ := List.mem_map.1 hR
      have hdb := hcross d hd b hb
      unfold Apart Blk.stop at hdb
      exact disjoint_range (by omega)

/-- They lie in the heap's frames. -/
theorem Inv.live_regions_subset {R : Set ℕ}
    (hR : R ∈ (blocks.map fun b => range (b.addr + 32) b.size) ++
      (blocks.map fun b => range b.addr 32) ++ (free.map fun b => range b.addr 32)) :
    R ⊆ frameBytes hhdm grown := by
  intro x hx
  simp only [List.mem_append, List.mem_map] at hR
  rcases hR with (⟨b, hb, rfl⟩ | ⟨b, hb, rfl⟩) | ⟨b, hb, rfl⟩
  · refine hinv.held_region ⟨b, List.mem_append_right _ hb, ?_, ?_⟩
    · exact le_trans (Nat.le_add_right _ _) hx.1
    · exact hx.2
  · refine hinv.held_region ⟨b, List.mem_append_right _ hb, hx.1, ?_⟩
    exact lt_of_lt_of_le hx.2 (Nat.le_add_right _ _)
  · refine hinv.held_region ⟨b, List.mem_append_left _ hb, hx.1, ?_⟩
    exact lt_of_lt_of_le hx.2 (Nat.le_add_right _ _)

/-- The callers' frames are apart, and the heap's. -/
theorem Inv.frame_regions_disjoint :
    (c.frames.map fun a => range (a + c.kernel.heapHhdmOffset) 0x1000).Pairwise Disjoint := by
  refine List.pairwise_map.2 ((List.nodup_iff_pairwise_ne.1 hinv.nodup.1).imp_of_mem ?_)
  intro a d ha hd hne
  have ha' := (hinv.frames a ha).1
  have hd' := (hinv.frames d hd).1
  exact disjoint_range (by omega)

/-- The storage of the bitmaps lies in reserved frames. -/
theorem Inv.storage_apart
    (hlo : c.kernel.bitmapPhysicalAddress + hhdm ≤ x)
    (hhi : x < c.kernel.ownershipBitmapPhysicalAddress + c.kernel.bitmapPageCount * 0x1000 + hhdm) :
    x ∉ frameBytes hhdm grown ∧ ∀ a ∈ c.frames, ¬ c.InFrame a x := by
  obtain ⟨j, hst, hj, hjx⟩ := hinv.layout.storageFrame_of_range hlo hhi
  have hres := hinv.reserved j hst hj
  constructor
  · rintro ⟨i, hi, hix⟩
    have how := hinv.grown_owned hi
    rw [hix.unique hjx, hres] at how
    cases how
  · intro a ha hax
    obtain ⟨halign, hlt⟩ := hinv.frames a ha
    have hmul : a / 0x1000 * 0x1000 = a := by omega
    have how : frameState c.kernel (a / 0x1000) = .owned :=
      (hinv.owned _ hlt).2 (Or.inr (by rw [hmul]; exact ha))
    rw [hinv.inFrame_iff ha] at hax
    rw [hax.unique hjx, hres] at how
    cases how

/-- The payloads and headers by pointer are those by block. -/
theorem Inv.live_regions_perm :
    (c.live.map (fun p => range p (blockSize c.kernel.mem (p - 32))) ++
      c.live.map (fun p => range (p - 32) 32)).Perm
    ((blocks.map fun b => range (b.addr + 32) b.size) ++
      (blocks.map fun b => range b.addr 32)) := by
  refine List.Perm.append ?_ ?_
  · refine (hinv.live.map _).trans ?_
    rw [List.map_map]
    refine List.Perm.of_eq (List.map_congr_left fun b hb => ?_)
    simp only [Function.comp_apply, Nat.add_sub_cancel]
    rw [(hinv.rep.taken b hb).size]
  · refine (hinv.live.map _).trans ?_
    rw [List.map_map]
    refine List.Perm.of_eq (List.map_congr_left fun b _ => ?_)
    simp only [Function.comp_apply, Nat.add_sub_cancel]

/-- **The ranges are disjoint.** -/
theorem Inv.regions_disjoint (h : LimineOk entries hhdm) :
    (regions c (free.map Blk.addr)).Pairwise Disjoint := by
  have hheap := hinv.live_regions_disjoint
  have hperm := hinv.live_regions_perm.append_right (free.map fun b => range b.addr 32)
  have hnext := hinv.layout.next
  -- no block of the heap, no frame of a caller reaches into the storage
  have hsub : ∀ R ∈ c.live.map (fun p => range p (blockSize c.kernel.mem (p - 32))) ++
      c.live.map (fun p => range (p - 32) 32) ++ free.map (fun b => range b.addr 32),
      R ⊆ frameBytes hhdm grown := fun R hR => hinv.live_regions_subset (hperm.mem_iff.1 hR)
  have hframe : ∀ a ∈ c.frames, ∀ x ∈ range (a + c.kernel.heapHhdmOffset) 0x1000,
      c.InFrame a x := fun a _ x hx => hx
  unfold regions
  rw [List.map_map]
  -- the heap's ranges, then the frames, then the storage, each against those before
  refine List.pairwise_append.2 ⟨List.pairwise_append.2 ⟨?_, hinv.frame_regions_disjoint, ?_⟩, ?_, ?_⟩
  · exact (hperm.pairwise_iff (fun hRQ => hRQ.symm)).2 hheap
  · intro R hR Q hQ
    obtain ⟨a, ha, rfl⟩ := List.mem_map.1 hQ
    refine Set.disjoint_left.2 fun x hxR hxQ => ?_
    exact (hinv.frame_apart h ha (hframe a ha x hxQ)).1 (hsub R hR hxR)
  · refine List.pairwise_pair.2 (disjoint_range ?_)
    omega
  · intro R hR Q hQ
    refine Set.disjoint_left.2 fun x hxR hxQ => ?_
    have hst := hinv.storage_apart (x := x)
    rw [← hinv.offset] at hst
    simp only [List.mem_cons, List.not_mem_nil, or_false] at hQ
    have hrange : c.kernel.bitmapPhysicalAddress + c.kernel.heapHhdmOffset ≤ x ∧
        x < c.kernel.ownershipBitmapPhysicalAddress + c.kernel.bitmapPageCount * 0x1000 +
          c.kernel.heapHhdmOffset := by
      rcases hQ with rfl | rfl <;> obtain ⟨h1, h2⟩ := hxQ <;> omega
    obtain ⟨hnoheap, hnoframe⟩ := hst hrange.1 hrange.2
    rcases List.mem_append.1 hR with hR | hR
    · rw [hinv.offset] at hnoheap
      exact hnoheap (hsub R hR hxR)
    · obtain ⟨a, ha, rfl⟩ := List.mem_map.1 hR
      exact hnoframe a ha hxR

/-- A frame that is not reserved is usable RAM. -/
theorem Inv.frame_usable (hi : i < c.kernel.frameCount)
    (hne : frameState c.kernel i ≠ .reserved) (hx : InFrameOf hhdm i x) :
    x ∈ usableRam entries hhdm := by
  obtain ⟨e, he, hu, hlo, hhi⟩ := hinv.usable i hi hne
  unfold InFrameOf at hx
  exact ⟨e, he, hu, by omega, by omega⟩

/-- **They lie in usable RAM.** -/
theorem Inv.regions_usable {R : Set ℕ} (hR : R ∈ regions c (free.map Blk.addr)) :
    R ⊆ usableRam entries hhdm := by
  have hperm := hinv.live_regions_perm.append_right (free.map fun b => range b.addr 32)
  unfold regions at hR
  rw [List.map_map] at hR
  intro x hx
  rcases List.mem_append.1 hR with hR | hR
  · rcases List.mem_append.1 hR with hR | hR
    · obtain ⟨i, hi, hix⟩ := hinv.live_regions_subset (hperm.mem_iff.1 hR) hx
      exact hinv.frame_usable (hinv.apart i hi).1 (by rw [hinv.grown_owned hi]; decide) hix
    · obtain ⟨a, ha, rfl⟩ := List.mem_map.1 hR
      obtain ⟨halign, hlt⟩ := hinv.frames a ha
      have hmul : a / 0x1000 * 0x1000 = a := by omega
      have how : frameState c.kernel (a / 0x1000) = .owned :=
        (hinv.owned _ hlt).2 (Or.inr (by rw [hmul]; exact ha))
      exact hinv.frame_usable hlt (by rw [how]; decide) ((hinv.inFrame_iff ha).1 hx)
  · obtain ⟨e, he, hu, hlo, hhi⟩ := hinv.layout.storage
    have hnext := hinv.layout.next
    have hoff := hinv.offset
    simp only [List.mem_cons, List.not_mem_nil, or_false] at hR
    refine ⟨e, he, hu, ?_, ?_⟩ <;> rcases hR with rfl | rfl <;> obtain ⟨h1, h2⟩ := hx <;> omega

/-- Where `kmalloc` takes its block from no caller's frame. -/
theorem Inv.source_apart {r : ℕ} {pre post : List Blk} {grown' : List ℕ}
    (h : LimineOk entries hhdm) (hsrc : Source c.kernel hhdm r free grown pre b post grown')
    (hb : b.Holds 32 x) (ha : a ∈ c.frames) : ¬ c.InFrame a x := by
  intro hx
  cases hsrc with
  | listed hfree hfit =>
    refine (hinv.frame_apart h ha hx).1 (hinv.held_region ⟨b, ?_, hb⟩)
    simp [hfree]
  | @fresh i hnone hi =>
    obtain ⟨halign, hlt⟩ := hinv.frames a ha
    have hmul : a / 0x1000 * 0x1000 = a := by omega
    have how : frameState c.kernel (a / 0x1000) = .owned :=
      (hinv.owned _ hlt).2 (Or.inr (by rw [hmul]; exact ha))
    rw [hinv.inFrame_iff ha] at hx
    rw [hx.unique (hinv.frame_clear hi hb).1, hi.free] at how
    cases how

/-- **No call of `kmalloc` writes what a client may.** -/
theorem Inv.kmalloc_frame (h : LimineOk entries hhdm) (n : ℕ) (hx : c.MayWrite x) :
    (endState ((KbmOs.kmalloc n).run c.kernel)).mem x = c.kernel.mem x := by
  rcases hinv.kmalloc_cases h n with ⟨-, herr⟩ | ⟨-, -, herr⟩ | ⟨-, -, -, -, herr⟩ |
    ⟨-, -, pre, b, post, grown', k, hsrc, hrun, hok⟩
  · rw [herr]
    rfl
  · rw [herr]
    rfl
  · rw [herr]
    rfl
  · rw [hrun]
    refine hok.mem x ?_ (hinv.mayWrite_apart h hx).1
    rintro ⟨d, hd, hdx⟩
    -- a payload is a live block's, and the frame of a caller is not the heap's
    rcases hx with ⟨p, hp, hx⟩ | ⟨a, ha, hx⟩
    · obtain ⟨l, hl, rfl⟩ := hinv.block_of_live hp
      rw [hinv.inPayload_iff hl] at hx
      have hlx : l.Holds 32 x := ⟨by omega, hx.2⟩
      rcases List.mem_cons.1 hd with rfl | hd
      · exact hok.clear l hl x hlx hdx
      · exact (hinv.rep.apart_free_live hd hl).not_holds hdx hlx
    · have hheap := (hinv.frame_apart h ha hx).1
      rcases List.mem_cons.1 hd with rfl | hd
      · exact hinv.source_apart h hsrc hdx ha hx
      · exact hheap (hinv.held_region ⟨d, List.mem_append_left _ hd, hdx⟩)

/-- **Nor does one of `pmm_allocate_frame`.** -/
theorem Inv.allocateFrame_frame (h : LimineOk entries hhdm) (hx : c.MayWrite x) :
    (endState (pmmAllocateFrame.run c.kernel)).mem x = c.kernel.mem x := by
  rcases lowestFree_or_none c.kernel with ⟨i, hi⟩ | hfull
  · rw [pmmAllocateFrame_found hinv.pmm hi]
    exact (hinv.allocateFrame h hi).2 x (hinv.mayWrite_apart h hx).1
  · rw [pmmAllocateFrame_none hinv.pmm hfull]
    rfl

/-- **`kfree` writes no other payload and no frame.** -/
theorem Inv.kfree_frame (h : LimineOk entries hhdm) (hp : p ∈ c.live) :
    ∃ k, (KbmOs.kfree p).run c.kernel = .ok () k ∧
      ∀ x, c.MayWrite x → ¬ c.InPayload p x → k.mem x = c.kernel.mem x := by
  obtain ⟨b, hb, rfl⟩ := hinv.block_of_live hp
  obtain ⟨k, hrun, hok⟩ := hinv.kfree h hb
  refine ⟨k, hrun, fun x hx hno => hok.mem x ?_⟩
  rintro ⟨d, hd, hdx⟩
  rw [hinv.inPayload_iff hb] at hno
  -- the header of the block goes with it, but a client may not write there
  have hbx := (hinv.mayWrite_apart h hx).2 b (List.mem_append_right _ hb)
  rcases List.mem_cons.1 hd with rfl | hd
  · unfold Blk.Holds at hdx
    omega
  · rcases hx with ⟨q, hq, hx⟩ | ⟨a, ha, hx⟩
    · obtain ⟨l, hl, rfl⟩ := hinv.block_of_live hq
      rw [hinv.inPayload_iff hl] at hx
      have hlx : l.Holds 32 x := ⟨by omega, hx.2⟩
      exact (hinv.rep.apart_free_live hd hl).not_holds hdx hlx
    · refine (hinv.frame_apart h ha hx).1 (hinv.held_region ⟨d, List.mem_append_left _ hd, hdx⟩)

/-- **And `pmm_free_frame` none at all.** -/
theorem Inv.freeFrame_frame (h : LimineOk entries hhdm) (ha : a ∈ c.frames) :
    ∃ k, (pmmFreeFrame a).run c.kernel = .ok () k ∧
      ∀ x, c.MayWrite x → k.mem x = c.kernel.mem x := by
  obtain ⟨hrun, -, hmem⟩ := hinv.freeFrame h ha
  exact ⟨_, hrun, fun x hx => hmem x (hinv.mayWrite_apart h hx).1⟩

end Disjointness

/-- **Memory isolation.** In every reachable state the live payloads, the
headers, the callers' frames and the bitmaps are disjoint ranges of usable
RAM. So no call changes a byte of a payload or frame a caller holds, other
than the one it gives back, and what a caller holds is given back without a
panic. -/
theorem memory_isolation (entries : List MemmapEntry) (hhdm : ℕ) (m : Mem) (es : List Event)
    (c : System) (h : LimineOk entries hhdm) (hc : Reachable entries hhdm m es c) :
    (∃ nodes, FreeListIs c.kernel nodes ∧ (regions c nodes).Pairwise Disjoint ∧
      ∀ R ∈ regions c nodes, R ⊆ usableRam entries hhdm) ∧
    (∀ n x, c.MayWrite x → (endState ((KbmOs.kmalloc n).run c.kernel)).mem x = c.kernel.mem x) ∧
    (∀ x, c.MayWrite x → (endState (pmmAllocateFrame.run c.kernel)).mem x = c.kernel.mem x) ∧
    (∀ p ∈ c.live, ∃ k, (KbmOs.kfree p).run c.kernel = .ok () k ∧
      ∀ x, c.MayWrite x → ¬ c.InPayload p x → k.mem x = c.kernel.mem x) ∧
    (∀ a ∈ c.frames, ∃ k, (pmmFreeFrame a).run c.kernel = .ok () k ∧
      ∀ x, c.MayWrite x → k.mem x = c.kernel.mem x) := by
  obtain ⟨free, blocks, grown, hinv⟩ := hc.inv h
  refine ⟨⟨_, hinv.freeListIs, hinv.regions_disjoint h, fun R hR => hinv.regions_usable hR⟩,
    fun n x hx => hinv.kmalloc_frame h n hx, fun x hx => hinv.allocateFrame_frame h hx,
    fun p hp => hinv.kfree_frame h hp, fun a ha => hinv.freeFrame_frame h ha⟩

/-- So after the sample's calls the third small block is freed, and the
large one keeps its bytes. -/
theorem memory_isolation_sampleMap : ∃ c k,
    Reachable sampleMap sampleOffset blankMem sampleEvents c ∧
    (KbmOs.kfree (sampleOffset + 0x3080)).run c.kernel = .ok () k ∧
    ∀ x, sampleOffset + 0x2020 ≤ x → x < sampleOffset + 0x3000 → k.mem x = c.kernel.mem x := by
  obtain ⟨c₀, c, hboot, hrun, hinv⟩ := sample_run fun _ hstep _ => hstep
  have hc : Reachable sampleMap sampleOffset blankMem sampleEvents c := ⟨c₀, hboot, hrun⟩
  have hsmall : (⟨sampleOffset + 0x3060, 16⟩ : Blk) ∈ [⟨sampleOffset + 0x3060, 16⟩,
    (⟨sampleOffset + 0x2000, 4064⟩ : Blk)] := by decide
  have hlarge : (⟨sampleOffset + 0x2000, 4064⟩ : Blk) ∈ [⟨sampleOffset + 0x3060, 16⟩,
    (⟨sampleOffset + 0x2000, 4064⟩ : Blk)] := by decide
  obtain ⟨-, -, -, hfree, -⟩ :=
    memory_isolation sampleMap sampleOffset blankMem _ c sampleMap_limineOk hc
  obtain ⟨k, hfreed, hkept⟩ := hfree _ (hinv.live_of_block hsmall)
  refine ⟨c, k, hc, hfreed, fun x hlo hhi => hkept x ?_ ?_⟩
  · refine Or.inl ⟨_, hinv.live_of_block hlarge, (hinv.inPayload_iff hlarge).2 ?_⟩
    unfold Blk.stop
    dsimp only
    omega
  · rw [hinv.inPayload_iff hsmall]
    dsimp only
    omega

end System

end KbmOs
