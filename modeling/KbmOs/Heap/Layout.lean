import KbmOs.Heap.Model
import KbmOs.Lib.Tiling
/-!
# The blocks the heap stands for

The heap's memory is read as two lists of blocks, the free ones in list
order and the live ones, over the region it owns. `HeapRep` says when the
reading is sound: the list is the linked one and ascends, the blocks tile
the region, and every header says what its block is. Each step of
`kmalloc` and `kfree` replaces a run of consecutive free blocks and some
live ones, so `HeapRep.replace` says once what that takes.
-/

namespace KbmOs

open ByteMemory LinkedList Tiling

/-- The block's header holds its size, the flag and the magic value. -/
structure Stamp (m : Mem) (b : Blk) (flag : ℕ) : Prop where
  size : blockSize m b.addr = b.size
  isFree : blockIsFree m b.addr = flag
  magic : blockMagic m b.addr = heapBlockMagic

/-- The block lies on a 16-byte boundary, and its payload starts below the
top of memory. -/
structure Placed (b : Blk) : Prop where
  addr : b.addr % 16 = 0
  size : b.size % 16 = 0
  payload : b.addr + 32 < 2 ^ 64

/-- The address of the first block of the list, null if it is empty. -/
def headAddr (l : List Blk) : ℕ := (l.map Blk.addr).headD 0

/-- The address of the last one. -/
def lastAddr (l : List Blk) : ℕ := (l.map Blk.addr).getLastD 0

/-- The free list starts with `l` and goes on at `p`. -/
def Leads (s : Kernel) (l : List Blk) (p : ℕ) : Prop :=
  s.heapFreeList = (l.map Blk.addr).headD p ∧ Seg (blockNext s.mem) (l.map Blk.addr) p

/-- **The heap of `s` is the free blocks `free` and the live ones `live`**,
over the region `S`. -/
structure HeapRep (s : Kernel) (free live : List Blk) (S : Set ℕ) : Prop where
  ready : s.heapReady ≠ 0
  sorted : free.Pairwise fun b c => b.addr < c.addr
  tiles : Tiles 32 (free ++ live) S
  range : ∀ x ∈ S, 0 < x ∧ x < 2 ^ 64
  placed : ∀ b ∈ free ++ live, Placed b
  leads : Leads s free 0
  listed : ∀ b ∈ free, Stamp s.mem b 1
  taken : ∀ b ∈ live, Stamp s.mem b 0

/-- The byte at `x` is in a block of the list. -/
def Held (l : List Blk) (x : ℕ) : Prop := ∃ b ∈ l, b.Holds 32 x

/-- `s'` differs from `s` inside `W`, and in the heap's own statics. -/
structure HeapWrite (W : ℕ → Prop) (s s' : Kernel) : Prop where
  statics : s' = { s with
    mem := s'.mem
    heapFreeList := s'.heapFreeList
    heapUsedBytes := s'.heapUsedBytes
    heapFrameCount := s'.heapFrameCount }
  mem : ∀ x, ¬ W x → s'.mem x = s.mem x

variable {s s' s'' : Kernel} {m m' : Mem} {free live pre post olds out l l₁ l₂ : List Blk}
variable {S S' : Set ℕ} {b c d : Blk} {flag p v x : ℕ} {W W' : ℕ → Prop}

theorem HeapWrite.trans (h : HeapWrite W s s') (h' : HeapWrite W s' s'') : HeapWrite W s s'' where
  statics := by rw [h'.statics, h.statics]
  mem x hx := (h'.mem x hx).trans (h.mem x hx)

theorem HeapWrite.mono (hW : ∀ x, W x → W' x) (h : HeapWrite W s s') : HeapWrite W' s s' where
  statics := h.statics
  mem x hx := h.mem x fun hWx => hx (hW x hWx)

/-! ## Headers -/

/-- A header word is read from its eight bytes. -/
theorem Stamp.congr (h : ∀ x, b.addr ≤ x → x < b.addr + 32 →
    (x < b.addr + 8 ∨ b.addr + 16 ≤ x) → m' x = m x) (hb : Stamp m b flag) : Stamp m' b flag where
  size := (load64_congr fun x h1 h2 => h x h1 (by omega) (by omega)).trans hb.size
  isFree := (load64_congr fun x h1 h2 => h x (by omega) (by omega) (by omega)).trans hb.isFree
  magic := (load64_congr fun x h1 h2 => h x (by omega) (by omega) (by omega)).trans hb.magic

theorem blockNext_congr (h : ∀ x, b.addr ≤ x → x < b.addr + 32 → m' x = m x) :
    blockNext m' b.addr = blockNext m b.addr :=
  load64_congr fun x h1 h2 => h x (by omega) (by omega)

/-- **The list in two parts.** -/
theorem leads_append : Leads s (l₁ ++ l₂) 0 ↔
    Leads s l₁ (headAddr l₂) ∧ Seg (blockNext s.mem) (l₂.map Blk.addr) 0 := by
  unfold Leads headAddr
  rw [List.map_append, seg_append, and_assoc]
  have hhead : (l₁.map Blk.addr ++ l₂.map Blk.addr).headD 0 =
      (l₁.map Blk.addr).headD ((l₂.map Blk.addr).headD 0) := by
    cases l₁.map Blk.addr <;> simp
  rw [hhead]

/-- The next word of each block of `l` is what it was. -/
theorem seg_next_congr (h : ∀ b ∈ l, blockNext m' b.addr = blockNext m b.addr)
    (hs : Seg (blockNext m) (l.map Blk.addr) p) : Seg (blockNext m') (l.map Blk.addr) p := by
  refine hs.congr fun a ha => ?_
  obtain ⟨b, hb, rfl⟩ := List.mem_map.1 ha
  exact h b hb

namespace HeapRep

variable (hs : HeapRep s free live S)
include hs

theorem mem_range (hb : b ∈ free ++ live) (hx : b.Holds 32 x) : 0 < x ∧ x < 2 ^ 64 :=
  hs.range x (hs.tiles.mem_of_holds hb hx)

/-- A block starts above null and stops by the top of memory. -/
theorem bounds (hb : b ∈ free ++ live) :
    0 < b.addr ∧ b.addr + 32 + b.size ≤ 2 ^ 64 := by
  have hlo := hs.mem_range hb (b.holds_addr (by decide))
  have hhi := hs.mem_range hb
    (show b.Holds 32 (b.addr + 32 + b.size - 1) by
      unfold Blk.Holds Blk.stop
      omega)
  exact ⟨hlo.1, by omega⟩

theorem apart (hb : b ∈ free ++ live) (hc : c ∈ free ++ live) (hne : b ≠ c) :
    Apart 32 b c := hs.tiles.apart_of_mem hb hc hne

/-- A block is not its neighbour in the list of all blocks. -/
theorem apart_free_live (hb : b ∈ free) (hc : c ∈ live) : Apart 32 b c :=
  (List.pairwise_append.1 hs.tiles.apart).2.2 b hb c hc

/-- The free list is shorter than memory. -/
theorem length_lt : free.length < 2 ^ 64 := by
  have hlen : (0 :: free.map Blk.addr).length ≤ 2 ^ 64 := by
    refine length_le_of_pairwise_lt (List.pairwise_cons.2 ⟨fun a ha => ?_, ?_⟩) fun a ha => ?_
    · obtain ⟨b, hb, rfl⟩ := List.mem_map.1 ha
      exact (hs.bounds (List.mem_append_left _ hb)).1
    · exact List.pairwise_map.2 hs.sorted
    · rcases List.mem_cons.1 ha with rfl | ha
      · exact Nat.two_pow_pos 64
      · obtain ⟨b, hb, rfl⟩ := List.mem_map.1 ha
        have hle := (hs.bounds (List.mem_append_left _ hb)).2
        omega
  rw [List.length_cons, List.length_map] at hlen
  exact hlen

/-- A word of a header other than the link is no listed block's link. -/
theorem off_links (hb : b ∈ free ++ live) (hc : c ∈ free) (hlo : b.addr ≤ x) (hhi : x < b.addr + 32)
    (hoff : x < b.addr + 8 ∨ b.addr + 16 ≤ x) : x < c.addr + 8 ∨ c.addr + 16 ≤ x := by
  by_cases hne : b = c
  · rw [← hne]
    exact hoff
  · have hapart := hs.apart hb (List.mem_append_left _ hc) hne
    unfold Apart Blk.stop at hapart
    omega

end HeapRep

/-- The blocks at one place of the list, and some live ones, before all
others. -/
theorem perm_front (pre news post given live : List Blk) :
    (pre ++ news ++ post ++ (given ++ live)).Perm (given ++ news ++ (pre ++ post ++ live)) :=
  List.perm_iff_count.2 fun a => by
    simp only [List.count_append]
    omega

theorem HeapRep.front (hs : HeapRep s (pre ++ olds ++ post) (out ++ live) S) :
    Tiles 32 (out ++ olds ++ (pre ++ post ++ live)) S :=
  hs.tiles.perm (perm_front pre olds post out live)

/-- **Replacing blocks.** Consecutive free blocks `olds` and live ones
`out` give way to `news` and `given`; every other block keeps its header,
except that what the list leads to after `pre` is now the first new one. -/
theorem HeapRep.replace (news given : List Blk)
    (hs : HeapRep s (pre ++ olds ++ post) (out ++ live) S)
    (hready : s'.heapReady = s.heapReady)
    (hsorted : (pre ++ news ++ post).Pairwise fun b c => b.addr < c.addr)
    (htiles : Tiles 32 (given ++ news ++ (pre ++ post ++ live)) S')
    (hrange : ∀ x ∈ S', 0 < x ∧ x < 2 ^ 64)
    (hleads : Leads s' pre (headAddr (news ++ post)))
    (hnews : Seg (blockNext s'.mem) (news.map Blk.addr) (headAddr post))
    (hkept : ∀ d ∈ pre ++ post ++ live, ∀ x, d.addr ≤ x → x < d.addr + 32 →
      (x < d.addr + 8 ∨ d.addr + 16 ≤ x) → s'.mem x = s.mem x)
    (hnext : ∀ d ∈ post, blockNext s'.mem d.addr = blockNext s.mem d.addr)
    (hfresh : ∀ d ∈ news, Stamp s'.mem d 1 ∧ Placed d)
    (hgiven : ∀ d ∈ given, Stamp s'.mem d 0 ∧ Placed d) :
    HeapRep s' (pre ++ news ++ post) (given ++ live) S' where
  ready := by rw [hready]; exact hs.ready
  sorted := hsorted
  tiles := htiles.perm (perm_front pre news post given live).symm
  range := hrange
  placed b hb := by
    simp only [List.mem_append] at hb
    rcases hb with ((hb | hb) | hb) | (hb | hb)
    · exact hs.placed b (by simp [hb])
    · exact (hfresh b hb).2
    · exact hs.placed b (by simp [hb])
    · exact (hgiven b hb).2
    · exact hs.placed b (by simp [hb])
  leads := by
    have hold := hs.leads
    rw [List.append_assoc, leads_append] at hold
    rw [List.map_append, seg_append] at hold
    rw [List.append_assoc, leads_append, List.map_append, seg_append]
    exact ⟨hleads, hnews, seg_next_congr hnext hold.2.2⟩
  listed b hb := by
    simp only [List.mem_append] at hb
    rcases hb with (hb | hb) | hb
    · exact (hs.listed b (by simp [hb])).congr (hkept b (by simp [hb]))
    · exact (hfresh b hb).1
    · exact (hs.listed b (by simp [hb])).congr (hkept b (by simp [hb]))
  taken b hb := by
    simp only [List.mem_append] at hb
    rcases hb with hb | hb
    · exact (hgiven b hb).1
    · exact (hs.taken b (by simp [hb])).congr (hkept b (by simp [hb]))

/-- The heap is read from the region's bytes and the heap's statics. -/
theorem HeapRep.congr (hs : HeapRep s free live S) (hready : s'.heapReady = s.heapReady)
    (hlist : s'.heapFreeList = s.heapFreeList)
    (hmem : ∀ b ∈ free ++ live, ∀ x, b.addr ≤ x → x < b.addr + 32 → s'.mem x = s.mem x) :
    HeapRep s' free live S where
  ready := by rw [hready]; exact hs.ready
  sorted := hs.sorted
  tiles := hs.tiles
  range := hs.range
  placed := hs.placed
  leads := ⟨hlist.trans hs.leads.1, seg_next_congr
    (fun b hb => blockNext_congr (hmem b (List.mem_append_left _ hb))) hs.leads.2⟩
  listed b hb := (hs.listed b hb).congr fun x h1 h2 _ => hmem b (List.mem_append_left _ hb) x h1 h2
  taken b hb := (hs.taken b hb).congr fun x h1 h2 _ => hmem b (List.mem_append_right _ hb) x h1 h2

/-- A live block may be set aside: the rest is a heap over the rest of the
region. -/
theorem HeapRep.lend (hs : HeapRep s free (b :: live) S) :
    HeapRep s free live (S \ {x | b.Holds 32 x}) where
  ready := hs.ready
  sorted := hs.sorted
  tiles := (hs.tiles.perm List.perm_middle).erase
  range x hx := hs.range x hx.1
  placed c hc := hs.placed c (by
    rcases List.mem_append.1 hc with hc | hc <;> simp [hc])
  leads := hs.leads
  listed := hs.listed
  taken c hc := hs.taken c (List.mem_cons_of_mem _ hc)

/-! ## Walks and links -/

/-- **A walk stops at the first block that passes its test.** -/
theorem walkFreeList_run {test : Mem → ℕ → Bool} (hs : HeapRep s (pre ++ post) live S)
    (hpass : ∀ b ∈ pre, test s.mem b.addr = false)
    (hstop : ∀ b, post.head? = some b → test s.mem b.addr = true) :
    (walkFreeList test).run s = .ok (lastAddr pre, headAddr post) s := by
  have hlen := hs.length_lt
  have hwalk : walk (blockNext s.mem) (test s.mem) (2 ^ 64) 0
      ((pre.map Blk.addr ++ post.map Blk.addr).headD 0) =
        some ((pre.map Blk.addr).getLastD 0, (post.map Blk.addr).headD 0) := by
    refine walk_eq ?_ ?_ (2 ^ 64) 0 ?_ ?_ ?_
    · intro a ha
      rw [List.head?_map, Option.map_eq_some_iff] at ha
      obtain ⟨b, hb, rfl⟩ := ha
      exact hstop b hb
    · intro a ha
      rw [← List.map_append] at ha
      obtain ⟨b, hb, rfl⟩ := List.mem_map.1 ha
      have := (hs.bounds (List.mem_append_left _ hb)).1
      omega
    · rw [List.length_map]
      rw [List.length_append] at hlen
      omega
    · intro a ha
      obtain ⟨b, hb, rfl⟩ := List.mem_map.1 ha
      exact hpass b hb
    · rw [← List.map_append]
      exact hs.leads.2
  unfold walkFreeList
  rw [run_bind_ok (EStateM.run_get s), hs.leads.1, List.map_append, hwalk]
  rfl

/-- The state with the link after `l` set to `p`. -/
def linkAfter (s : Kernel) (l : List Blk) (p : ℕ) : Kernel :=
  match l.getLast? with
  | none => { s with heapFreeList := p }
  | some c => { s with mem := store64 s.mem (c.addr + 8) p }

theorem setSuccessor_run (hl : ∀ b ∈ l, b.addr ≠ 0) :
    (setSuccessor (lastAddr l) p).run s = .ok () (linkAfter s l p) := by
  unfold setSuccessor linkAfter lastAddr
  rcases List.eq_nil_or_concat l with rfl | ⟨l, c, rfl⟩
  · rfl
  · have hc : c.addr ≠ 0 := hl c (by simp)
    simp only [List.concat_eq_append, List.map_append, List.map_cons, List.map_nil,
      List.getLastD_concat, List.getLast?_concat, if_neg hc]
    rfl

theorem linkAfter_statics : linkAfter s l p =
    { s with mem := (linkAfter s l p).mem, heapFreeList := (linkAfter s l p).heapFreeList } := by
  unfold linkAfter
  split <;> rfl

/-- Only a link of `l` is written. -/
theorem linkAfter_mem (hx : ∀ c ∈ l, x < c.addr + 8 ∨ c.addr + 16 ≤ x) :
    (linkAfter s l p).mem x = s.mem x := by
  unfold linkAfter
  split
  · rfl
  · rename_i c hc
    exact store64_of_apart (hx c (List.mem_of_getLast? hc))

/-- **The list then leads to `p`.** -/
theorem leads_linkAfter (hp : p < 2 ^ 64) (hl : l.Pairwise (Apart 32)) (hlead : Leads s l v) :
    Leads (linkAfter s l p) l p := by
  unfold linkAfter
  rcases List.eq_nil_or_concat l with rfl | ⟨l, c, rfl⟩
  · exact ⟨rfl, trivial⟩
  · rw [List.concat_eq_append] at hl hlead ⊢
    obtain ⟨hhead, hseg⟩ := hlead
    rw [List.map_append, List.map_cons, List.map_nil, seg_concat] at hseg
    rw [List.getLast?_concat]
    refine ⟨?_, ?_⟩
    · rw [List.map_append] at hhead ⊢
      refine hhead.trans ?_
      cases l <;> rfl
    · rw [List.map_append, List.map_cons, List.map_nil, seg_concat]
      refine ⟨seg_next_congr (fun b hb => ?_) hseg.1, load64_store64_same hp⟩
      have hapart := (List.pairwise_append.1 hl).2.2 b hb c List.mem_cons_self
      unfold Apart Blk.stop at hapart
      exact load64_store64_of_apart (by omega)

end KbmOs
