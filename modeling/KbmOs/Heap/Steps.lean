import KbmOs.Heap.Layout
import KbmOs.Lib.FreeList
/-!
# The steps of `kmalloc` and `kfree`

Four steps change the free list: a fresh frame is linked in, a block is
handed out, a freed one is linked in, and a block absorbs the one behind
it. Each is run here on a heap of known layout: which blocks it leaves,
which bytes it writes, and which headers it can make `kfree` accept, which
is none but the one handed out.
-/

namespace KbmOs

open ByteMemory LinkedList Tiling FreeList

/-! ## Headers that `kfree` accepts -/

/-- The two checks of `kfree` pass at this header. -/
def Accepted (m : Mem) (block : ℕ) : Prop :=
  blockMagic m block = heapBlockMagic ∧ blockIsFree m block = 0

/-- No header of `m'` is accepted that was not in `m`, `except` aside. -/
def NoForgery (except : ℕ → Prop) (m m' : Mem) : Prop :=
  ∀ block, block % 16 = 0 → ¬ except block → Accepted m' block → Accepted m block

variable {m m' m'' : Mem} {a n v p r block : ℕ} {except : ℕ → Prop}

theorem NoForgery.refl : NoForgery except m m := fun _ _ _ h => h

theorem NoForgery.trans (h : NoForgery except m m') (h' : NoForgery except m' m'') :
    NoForgery except m m'' := fun block h16 hex hacc => h block h16 hex (h' block h16 hex hacc)

/-- A size lies where a header 16 bytes before has its flag. -/
theorem NoForgery.size (ha : a % 16 = 0) (hn : n < 2 ^ 64)
    (hne : n ≠ 0 ∨ blockNext m a ≠ heapBlockMagic) : NoForgery except m (store64 m a n) := by
  intro block h16 _ hacc
  obtain ⟨hmagic, hfree⟩ := hacc
  unfold blockMagic at hmagic
  rw [load64_store64_of_apart (by omega)] at hmagic
  by_cases heq : block + 16 = a
  · unfold blockIsFree at hfree
    rw [heq, load64_store64_same hn] at hfree
    have hnext : blockNext m a = heapBlockMagic := by
      unfold blockNext
      rw [← heq, Nat.add_assoc]
      exact hmagic
    exact absurd hnext (hne.resolve_left (not_not.2 hfree))
  · unfold blockIsFree at hfree
    rw [load64_store64_of_apart (by omega)] at hfree
    exact ⟨hmagic, hfree⟩

/-- A link lies where it has its magic value, which is no block's
address. -/
theorem NoForgery.next (ha : a % 16 = 0) (hn : n < 2 ^ 64) (hn16 : n % 16 = 0) :
    NoForgery except m (store64 m (a + 8) n) := by
  intro block h16 _ hacc
  obtain ⟨hmagic, hfree⟩ := hacc
  unfold blockIsFree at hfree
  rw [load64_store64_of_apart (by omega)] at hfree
  unfold blockMagic heapBlockMagic at hmagic
  by_cases heq : block + 24 = a + 8
  · rw [heq, load64_store64_same hn] at hmagic
    omega
  · rw [load64_store64_of_apart (by omega)] at hmagic
    exact ⟨hmagic, hfree⟩

/-- A flag that is not zero is refused. -/
theorem NoForgery.isFree (ha : a % 16 = 0) : NoForgery except m (store64 m (a + 16) 1) := by
  intro block h16 _ hacc
  obtain ⟨hmagic, hfree⟩ := hacc
  unfold blockMagic at hmagic
  rw [load64_store64_of_apart (by omega)] at hmagic
  unfold blockIsFree at hfree
  by_cases heq : block + 16 = a + 16
  · rw [heq, load64_store64_same (by decide)] at hfree
    cases hfree
  · rw [load64_store64_of_apart (by omega)] at hfree
    exact ⟨hmagic, hfree⟩

/-- Only the block handed out has its flag cleared. -/
theorem NoForgery.taken (ha : a % 16 = 0) :
    NoForgery (fun block => block = a) m (store64 m (a + 16) 0) := by
  intro block h16 hne hacc
  obtain ⟨hmagic, hfree⟩ := hacc
  unfold blockMagic at hmagic
  rw [load64_store64_of_apart (by omega)] at hmagic
  unfold blockIsFree at hfree
  rw [load64_store64_of_apart (by omega)] at hfree
  exact ⟨hmagic, hfree⟩

/-- The magic value is written to headers whose flag is set. -/
theorem NoForgery.magic (ha : a % 16 = 0) (hfree : blockIsFree m a ≠ 0) :
    NoForgery except m (store64 m (a + 24) heapBlockMagic) := by
  intro block h16 _ hacc
  obtain ⟨hmagic, hflag⟩ := hacc
  unfold blockIsFree at hflag
  rw [load64_store64_of_apart (by omega)] at hflag
  by_cases heq : block = a
  · rw [heq] at hflag
    exact absurd hflag hfree
  · unfold blockMagic at hmagic
    rw [load64_store64_of_apart (by omega)] at hmagic
    exact ⟨hmagic, hflag⟩

variable {s s' : Kernel} {free live pre post l : List Blk} {S : Set ℕ} {b c d : Blk} {x : ℕ}

theorem NoForgery.link (hl : ∀ b ∈ l, b.addr % 16 = 0) (hp : p < 2 ^ 64) (hp16 : p % 16 = 0) :
    NoForgery except s.mem (linkAfter s l p).mem := by
  unfold linkAfter
  split
  · exact NoForgery.refl
  · rename_i c hc
    exact NoForgery.next (hl c (List.mem_of_getLast? hc)) hp hp16

/-- The address of a list's first block is one. -/
theorem HeapRep.headAddr_lt (hs : HeapRep s (pre ++ post) live S) :
    headAddr post < 2 ^ 64 ∧ headAddr post % 16 = 0 := by
  cases post with
  | nil => exact ⟨Nat.two_pow_pos 64, rfl⟩
  | cons b post =>
    have hb := hs.placed b (by simp)
    have h16 := hb.addr
    have hlt := hb.payload
    change b.addr < 2 ^ 64 ∧ b.addr % 16 = 0
    exact ⟨by omega, h16⟩

/-- A listed block's link is the next one's address. -/
theorem HeapRep.next_eq (hs : HeapRep s (pre ++ b :: post) live S) :
    blockNext s.mem b.addr = headAddr post := by
  have hseg := (leads_append.1 hs.leads).2
  rw [List.map_cons, seg_cons] at hseg
  exact hseg.1

/-- The free list ascends. -/
theorem HeapRep.ascending (hs : HeapRep s free live S) : Ascending 32 free :=
  ascending_of_apart (by decide) hs.sorted (List.pairwise_append.1 hs.tiles.apart).1

/-- What a listed block of a heap brings to arithmetic. -/
theorem HeapRep.facts (hs : HeapRep s (pre ++ b :: post) live S) :
    b.addr % 16 = 0 ∧ b.size % 16 = 0 ∧ 0 < b.addr ∧ b.addr + 32 < 2 ^ 64 ∧
      b.addr + 32 + b.size ≤ 2 ^ 64 := by
  have hb : b ∈ pre ++ b :: post ++ live := by simp
  have hplaced := hs.placed b hb
  have hbounds := hs.bounds hb
  exact ⟨hplaced.addr, hplaced.size, hbounds.1, hplaced.payload, hbounds.2⟩

/-- No link before a block lies in it. -/
theorem HeapRep.link_apart (hs : HeapRep s (pre ++ b :: post) live S) (hc : c ∈ pre) :
    c.addr + 32 ≤ b.addr := by
  have hcb := (List.pairwise_append.1 hs.ascending).2.2 c hc b List.mem_cons_self
  unfold Blk.stop at hcb
  omega

theorem setSize_run : (setSize a n).run s = .ok () { s with mem := store64 s.mem a n } := rfl

theorem setNext_run : (setNext a n).run s = .ok () { s with mem := store64 s.mem (a + 8) n } := rfl

theorem setIsFree_run : (setIsFree a n).run s = .ok () { s with mem := store64 s.mem (a + 16) n } :=
  rfl

theorem setMagic_run :
    (setMagic a).run s = .ok () { s with mem := store64 s.mem (a + 24) heapBlockMagic } := rfl

/-! ## A fresh header -/

/-- Memory with the header of a free block written at `a`. -/
def writeHeader (m : Mem) (a n p : ℕ) : Mem :=
  store64 (store64 (store64 (store64 m a n) (a + 8) p) (a + 16) 1) (a + 24) heapBlockMagic

theorem writeHeader_of_apart (hx : x < a ∨ a + 32 ≤ x) : writeHeader m a n p x = m x := by
  unfold writeHeader
  rw [store64_of_apart (by omega), store64_of_apart (by omega), store64_of_apart (by omega),
    store64_of_apart (by omega)]

theorem stamp_writeHeader (hn : n < 2 ^ 64) : Stamp (writeHeader m a n p) ⟨a, n⟩ 1 where
  size := by
    unfold blockSize writeHeader
    dsimp only
    rw [load64_store64_of_apart (by omega), load64_store64_of_apart (by omega),
      load64_store64_of_apart (by omega), load64_store64_same hn]
  isFree := by
    unfold blockIsFree writeHeader
    dsimp only
    rw [load64_store64_of_apart (by omega), load64_store64_same (by decide)]
  magic := by
    unfold blockMagic writeHeader
    rw [load64_store64_same (by decide)]

theorem blockNext_writeHeader (hp : p < 2 ^ 64) : blockNext (writeHeader m a n p) a = p := by
  unfold blockNext writeHeader
  rw [load64_store64_of_apart (by omega), load64_store64_of_apart (by omega),
    load64_store64_same hp]

theorem NoForgery.header (ha : a % 16 = 0) (hn : n < 2 ^ 64) (hne : n ≠ 0) (hp : p < 2 ^ 64)
    (hp16 : p % 16 = 0) : NoForgery except m (writeHeader m a n p) := by
  refine NoForgery.trans (NoForgery.size ha hn (Or.inl hne)) ?_
  refine NoForgery.trans (NoForgery.next ha hp hp16) ?_
  refine NoForgery.trans (NoForgery.isFree ha) (NoForgery.magic ha ?_)
  unfold blockIsFree
  rw [load64_store64_same (by decide)]
  exact one_ne_zero

/-! ## Handing a block out -/

/-- What the blocks before a place in the list bring to writing a link. -/
theorem HeapRep.before (hs : HeapRep s (pre ++ post) live S) :
    (∀ c ∈ pre, c.addr ≠ 0) ∧ (∀ c ∈ pre, c.addr % 16 = 0) ∧ pre.Pairwise (Apart 32) := by
  refine ⟨fun c hc => ?_, fun c hc => (hs.placed c (by simp [hc])).addr, ?_⟩
  · have hbounds := hs.bounds (show c ∈ pre ++ post ++ live by simp [hc])
    omega
  · exact (List.pairwise_append.1 (List.pairwise_append.1 hs.tiles.apart).1).1

section Cut

variable {m' : Mem} {u : Kernel} {nb : ℕ}

/-- **A block that is large enough is cut**: a header is written behind the
granted bytes, linked in where the block was, and the size comes last. -/
theorem cutBlock_split_run (hs : HeapRep s (pre ++ b :: post) live S)
    (hcut : 32 + 16 ≤ b.size - r) (hnb : nb = b.addr + 32 + r)
    (hm' : m' = writeHeader s.mem nb (b.size - r - 32) (headAddr post))
    (hu : u = linkAfter { s with mem := m' } pre nb) :
    (cutBlock (lastAddr pre) b.addr r).run s =
      .ok () { u with mem := store64 u.mem b.addr r } := by
  obtain ⟨-, -, hpos, hpayload, hstop⟩ := hs.facts
  obtain ⟨hne, -, -⟩ := hs.before
  have hstamp := hs.listed b (by simp)
  have hremaining : wrapSub (blockSize s.mem b.addr) r = b.size - r := by
    rw [hstamp.size]
    exact wrapSub_of_le (by omega) (by omega)
  have hwrap : wrap (b.addr + heapBlockSize + r) = nb := by
    change wrap (b.addr + 32 + r) = nb
    rw [hnb]
    exact wrap_of_lt (by omega)
  have hless : wrapSub (b.size - r) heapBlockSize = b.size - r - 32 := by
    change wrapSub (b.size - r) 32 = b.size - r - 32
    exact wrapSub_of_le (by omega) (by omega)
  -- the link is read after the new size is written, which is not in its way
  have hnext : blockNext (store64 s.mem nb (b.size - r - 32)) b.addr = headAddr post :=
    (load64_store64_of_apart (by omega)).trans hs.next_eq
  unfold cutBlock
  rw [run_bind_ok (EStateM.run_get s)]
  dsimp only
  rw [hremaining, if_pos (by exact hcut), hwrap, hless, run_bind_ok setSize_run,
    run_bind_ok (EStateM.run_get _)]
  dsimp only
  rw [hnext, run_bind_ok setNext_run, run_bind_ok setIsFree_run, run_bind_ok setMagic_run]
  dsimp only
  rw [← writeHeader, ← hm', run_bind_ok (setSuccessor_run hne), ← hu, setSize_run]

/-- What is in memory once the new block is linked in, before the size of
the old one is written. -/
theorem cut_linked (hs : HeapRep s (pre ++ b :: post) live S) (hcut : 32 + 16 ≤ b.size - r)
    (hnb : nb = b.addr + 32 + r)
    (hm' : m' = writeHeader s.mem nb (b.size - r - 32) (headAddr post))
    (hu : u = linkAfter { s with mem := m' } pre nb) :
    Leads u pre nb ∧
      (∀ x, (∀ c ∈ pre, x < c.addr + 8 ∨ c.addr + 16 ≤ x) → u.mem x = m' x) ∧
      ∀ x, x < nb ∨ nb + 32 ≤ x → m' x = s.mem x := by
  obtain ⟨-, -, hpos, hpayload, hstop⟩ := hs.facts
  obtain ⟨-, -, hapart⟩ := hs.before
  have hlead := (leads_append.1 hs.leads).1
  have hoff : ∀ x, x < nb ∨ nb + 32 ≤ x → m' x = s.mem x := by
    intro x hx
    rw [hm']
    exact writeHeader_of_apart hx
  have hlead' : Leads { s with mem := m' } pre (headAddr (b :: post)) := by
    refine ⟨hlead.1, seg_next_congr (fun c hc => ?_) hlead.2⟩
    have hbefore := hs.link_apart hc
    exact blockNext_congr fun x h1 h2 => hoff x (by omega)
  rw [hu]
  exact ⟨leads_linkAfter (by omega) hapart hlead', fun x hx => linkAfter_mem hx, hoff⟩

end Cut

/-- **The block leaves the list and what is left of it takes its place.** -/
theorem cutBlock_run (hs : HeapRep s (pre ++ b :: post) live S) (hr : r % 16 = 0)
    (hle : r ≤ b.size) :
    ∃ t, (cutBlock (lastAddr pre) b.addr r).run s = .ok () t ∧
      t = { s with mem := t.mem, heapFreeList := t.heapFreeList } ∧
      Leads t pre (headAddr (remainder 32 16 r b ++ post)) ∧
      Seg (blockNext t.mem) ((remainder 32 16 r b).map Blk.addr) (headAddr post) ∧
      (∀ d ∈ remainder 32 16 r b, Stamp t.mem d 1 ∧ Placed d) ∧
      blockSize t.mem b.addr = (granted 32 16 r b).size ∧
      (∀ x, (∀ c ∈ pre, x < c.addr + 8 ∨ c.addr + 16 ≤ x) →
        (x < b.addr ∨ (b.addr + 8 ≤ x ∧ x < b.addr + 32) ∨ b.stop 32 ≤ x) → t.mem x = s.mem x) ∧
      ∀ except, NoForgery except s.mem t.mem := by
  obtain ⟨haddr, hsize, hpos, hpayload, hstop⟩ := hs.facts
  obtain ⟨hne, hpre16, hapart⟩ := hs.before
  have hstamp := hs.listed b (by simp)
  have hnext := hs.next_eq
  have hsnoc : HeapRep s ((pre ++ [b]) ++ post) live S := by simpa using hs
  have hpost := hsnoc.headAddr_lt
  unfold remainder granted
  by_cases hcut : 32 + 16 ≤ b.size - r
  · obtain ⟨nb, hnb⟩ : ∃ nb, nb = b.addr + 32 + r := ⟨_, rfl⟩
    obtain ⟨m', hm'⟩ : ∃ m', m' = writeHeader s.mem nb (b.size - r - 32) (headAddr post) := ⟨_, rfl⟩
    obtain ⟨u, hu⟩ : ∃ u, u = linkAfter { s with mem := m' } pre nb := ⟨_, rfl⟩
    obtain ⟨hlead_u, humem, hoff⟩ := cut_linked hs hcut hnb hm' hu
    have hnb16 : nb % 16 = 0 := by omega
    have hfits : nb + 32 + (b.size - r - 32) = b.addr + 32 + b.size := by omega
    -- the new header is not written to again
    have hnew : ∀ x, nb ≤ x → x < nb + 32 → store64 u.mem b.addr r x = m' x := by
      intro x h1 h2
      rw [store64_of_apart (by omega)]
      exact humem x fun c hc => by
        have := hs.link_apart hc
        omega
    rw [if_pos hcut, if_pos hcut]
    refine ⟨_, cutBlock_split_run hs hcut hnb hm' hu, ?_, ?_, ?_, ?_,
      load64_store64_same (by omega), fun x hx hxb => ?_, fun except => ?_⟩
    · rw [hu, linkAfter_statics]
    · rw [List.singleton_append, headAddr, List.map_cons, List.headD_cons, ← hnb]
      refine ⟨hlead_u.1, seg_next_congr (fun c hc => ?_) hlead_u.2⟩
      have := hs.link_apart hc
      exact load64_store64_of_apart (by omega)
    · rw [List.map_cons, List.map_nil, seg_cons, ← hnb]
      refine ⟨(load64_congr (a := nb + 8) fun x h1 h2 =>
        hnew x (by omega) (by omega)).trans ?_, trivial⟩
      rw [hm']
      exact blockNext_writeHeader hpost.1
    · intro d hd
      rw [List.mem_singleton, ← hnb] at hd
      rw [hd]
      refine ⟨Stamp.congr (m := m') (fun x h1 h2 _ => hnew x h1 h2) ?_,
        ⟨hnb16, by dsimp only; omega, by dsimp only; omega⟩⟩
      rw [hm']
      exact stamp_writeHeader (by omega)
    · unfold Blk.stop at hxb
      dsimp only
      rw [store64_of_apart (by omega), humem x hx, hoff x (by omega)]
    · -- the size goes where the link still is an address, so no header is forged by it
      have hnext_u : blockNext u.mem b.addr ≠ heapBlockMagic := by
        have heq : blockNext u.mem b.addr = headAddr post := by
          refine Eq.trans (load64_congr fun x h1 h2 => ?_) hnext
          rw [humem x fun c hc => by have := hs.link_apart hc; omega, hoff x (by omega)]
        rw [heq]
        unfold heapBlockMagic
        omega
      refine NoForgery.trans ?_ (NoForgery.size haddr (by omega) (Or.inr hnext_u))
      rw [hu]
      refine NoForgery.trans ?_ (NoForgery.link hpre16 (by omega) hnb16)
      change NoForgery except s.mem m'
      rw [hm']
      exact NoForgery.header hnb16 (by omega) (by omega) hpost.1 hpost.2
  · -- too little is left for a header and a payload: the block goes whole
    have hremaining : wrapSub (blockSize s.mem b.addr) r = b.size - r := by
      rw [hstamp.size]
      exact wrapSub_of_le (by omega) hle
    unfold cutBlock
    rw [run_bind_ok (EStateM.run_get s)]
    dsimp only
    rw [hremaining, if_neg hcut, if_neg hcut, if_neg (by exact hcut), hnext, setSuccessor_run hne]
    refine ⟨_, rfl, linkAfter_statics, ?_, trivial, by simp, ?_, fun x hx _ => ?_,
      fun except => NoForgery.link hpre16 hpost.1 hpost.2⟩
    · exact leads_linkAfter hpost.1 hapart (leads_append.1 hs.leads).1
    · refine (load64_congr fun x h1 h2 => linkAfter_mem fun c hc => ?_).trans hstamp.size
      have := hs.link_apart hc
      omega
    · exact linkAfter_mem hx

/-- **Handing out a listed block**: it becomes live, cut to `r` bytes where
the rest can be a block. -/
theorem handOut_run (hs : HeapRep s (pre ++ b :: post) live S) (hr : r % 16 = 0)
    (hle : r ≤ b.size) :
    ∃ s', (handOut (lastAddr pre) b.addr r).run s = .ok (b.addr + 32) s' ∧
      HeapRep s' (pre ++ remainder 32 16 r b ++ post) (granted 32 16 r b :: live) S ∧
      HeapWrite (Held (pre ++ b :: post)) s s' ∧
      s'.heapUsedBytes = wrap (s.heapUsedBytes + (granted 32 16 r b).size) ∧
      s'.heapFrameCount = s.heapFrameCount ∧
      NoForgery (fun block => block = b.addr) s.mem s'.mem := by
  obtain ⟨haddr, hsize, hpos, hpayload, hstop⟩ := hs.facts
  obtain ⟨t, hrun, ht, hlead, hseg, hrest, hgrant, hoff, hforge⟩ := cutBlock_run hs hr hle
  obtain ⟨m', hm'⟩ : ∃ m', m' = store64 (store64 t.mem (b.addr + 16) 0) (b.addr + 8) 0 := ⟨_, rfl⟩
  have hgrant_addr : (granted 32 16 r b).addr = b.addr := granted_addr 32 16 r b
  have hsize' : blockSize m' b.addr = (granted 32 16 r b).size := by
    unfold blockSize
    rw [hm', load64_store64_of_apart (by omega), load64_store64_of_apart (by omega)]
    exact hgrant
  -- outside the header, the last two writes change nothing
  have hm'_off : ∀ x, x < b.addr ∨ b.addr + 32 ≤ x → m' x = t.mem x := by
    intro x hx
    rw [hm', store64_of_apart (by omega), store64_of_apart (by omega)]
  have hpre : ∀ c ∈ pre, c.addr + 32 ≤ b.addr := fun c hc => hs.link_apart hc
  have hcut : ∀ d ∈ remainder 32 16 r b, b.addr + 32 ≤ d.addr := by
    intro d hd
    unfold remainder at hd
    split at hd
    · rw [List.mem_singleton.1 hd]
      dsimp only
      omega
    · cases hd
  have hs' : HeapRep s (pre ++ [b] ++ post) ([] ++ live) S := by simpa using hs
  have hfront : Tiles 32 (b :: (pre ++ post ++ live)) S := hs'.front
  have hothers : ∀ d ∈ pre ++ post ++ live, d.addr + 32 ≤ b.addr ∨ b.stop 32 ≤ d.addr := by
    intro d hd
    have hapart := (List.pairwise_cons.1 hfront.apart).1 d hd
    unfold Apart Blk.stop at *
    omega
  have hkept : ∀ d ∈ pre ++ post ++ live, ∀ x, d.addr ≤ x → x < d.addr + 32 →
      (x < d.addr + 8 ∨ d.addr + 16 ≤ x) → m' x = s.mem x := by
    intro d hd x h1 h2 hlink
    have hd' := hothers d hd
    unfold Blk.stop at hd'
    rw [hm'_off x (by omega)]
    refine hoff x (fun c hc => hs.off_links (b := d) ?_ (by simp [hc]) h1 h2 hlink)
      (by unfold Blk.stop; omega)
    simp only [List.mem_append] at hd
    rcases hd with (hd | hd) | hd <;> simp [hd]
  have hused : t.heapUsedBytes = s.heapUsedBytes := by rw [ht]
  have hptr : wrap (b.addr + heapBlockSize) = b.addr + 32 := wrap_of_lt hpayload
  refine ⟨{ t with
    mem := m'
    heapUsedBytes := wrap (s.heapUsedBytes + (granted 32 16 r b).size) }, ?_, ?_, ⟨?_, fun x hx => ?_⟩,
    rfl, by rw [ht], ?_⟩
  · unfold handOut
    rw [run_bind_ok hrun, run_bind_ok setIsFree_run, run_bind_ok setNext_run]
    dsimp only
    rw [← hm', run_bind_ok (EStateM.run_modify _ _)]
    dsimp only
    rw [hsize', hused, hptr, EStateM.run_pure]
  · refine hs'.replace (remainder 32 16 r b) [granted 32 16 r b] (by rw [ht])
      ((hs.ascending.remainder hle).sorted (by decide)) (tiles_granted hle hfront) hs.range ?_ ?_
      hkept ?_ ?_ ?_
    · refine ⟨hlead.1, seg_next_congr (fun c hc => ?_) hlead.2⟩
      have := hpre c hc
      exact blockNext_congr fun x h1 h2 => hm'_off x (by omega)
    · refine seg_next_congr (fun d hd => ?_) hseg
      have := hcut d hd
      exact blockNext_congr fun x h1 h2 => hm'_off x (by omega)
    · intro d hd
      have hd' := hothers d (by simp [hd])
      unfold Blk.stop at hd'
      refine load64_congr fun x h1 h2 => ?_
      dsimp only
      rw [hm'_off x (by omega)]
      refine hoff x (fun c hc => ?_) (by unfold Blk.stop; omega)
      have hcd := (List.pairwise_append.1 hs.ascending).2.2 c hc d (List.mem_cons_of_mem _ hd)
      unfold Blk.stop at hcd
      omega
    · intro d hd
      have := hcut d hd
      exact ⟨(hrest d hd).1.congr fun x h1 h2 _ => hm'_off x (by omega), (hrest d hd).2⟩
    · intro d hd
      rw [List.mem_singleton] at hd
      rw [hd]
      have hstamp := hs.listed b (by simp)
      refine ⟨⟨by rw [hgrant_addr]; exact hsize', ?_, ?_⟩,
        ⟨by rwa [hgrant_addr], ?_, by rwa [hgrant_addr]⟩⟩
      · rw [hgrant_addr]
        unfold blockIsFree
        dsimp only
        rw [hm', load64_store64_of_apart (by omega), load64_store64_same (by decide)]
      · rw [hgrant_addr]
        refine Eq.trans (load64_congr fun x h1 h2 => ?_) hstamp.magic
        dsimp only
        rw [hm', store64_of_apart (by omega), store64_of_apart (by omega)]
        refine hoff x (fun c hc => ?_) (by omega)
        have := hpre c hc
        omega
      · unfold granted
        split
        · exact hr
        · exact hsize
  · rw [ht]
  · -- what is written lies in the block or in a link before it
    have hx' : ∀ c ∈ pre ++ b :: post, x < c.addr ∨ c.stop 32 ≤ x := by
      intro c hc
      by_contra hin
      exact hx ⟨c, hc, by unfold Blk.Holds; omega⟩
    have hb := hx' b (by simp)
    unfold Blk.stop at hb
    dsimp only
    rw [hm'_off x (by omega)]
    refine hoff x (fun c hc => ?_) (by unfold Blk.stop; omega)
    have hc := hx' c (by simp [hc])
    unfold Blk.stop at hc
    omega
  · refine NoForgery.trans (hforge _) ?_
    rw [hm']
    exact NoForgery.trans (NoForgery.taken haddr) (NoForgery.next haddr (by decide) rfl)

/-! ## Linking a block in -/

/-- **A free block clear of the heap is linked in at its place.** -/
theorem linkInOrder_run (hs : HeapRep s free live S) (hstamp : Stamp s.mem b 1) (hplaced : Placed b)
    (hpos : 0 < b.addr) (hstop : b.stop 32 ≤ 2 ^ 64) (hclear : ∀ x, b.Holds 32 x → x ∉ S) :
    ∃ s', (linkInOrder b.addr).run s = .ok (lastAddr (below b.addr free)) s' ∧
      HeapRep s' (below b.addr free ++ b :: above b.addr free) live ({x | b.Holds 32 x} ∪ S) ∧
      s' = { s with mem := s'.mem, heapFreeList := s'.heapFreeList } ∧
      (∀ x, ¬ Held free x → (x < b.addr + 8 ∨ b.addr + 16 ≤ x) → s'.mem x = s.mem x) ∧
      ∀ except, NoForgery except s.mem s'.mem := by
  have hsplit := below_append_above b.addr free
  generalize hpre : below b.addr free = pre at *
  generalize hpost : above b.addr free = post at *
  have hs' : HeapRep s (pre ++ post) live S := by rwa [hsplit]
  have hbelow : ∀ c ∈ pre, c.addr < b.addr := by
    intro c hc
    rw [← hpre] at hc
    exact addr_lt_of_mem_below hc
  have habove : ∀ c ∈ post, b.addr ≤ c.addr := by
    intro c hc
    rw [← hpost] at hc
    exact le_addr_of_mem_above hs.ascending hc
  have hmem : ∀ d, d ∈ free ↔ d ∈ pre ∨ d ∈ post := fun d => by rw [← hsplit, List.mem_append]
  have hap : ∀ d ∈ free ++ live, b.stop 32 ≤ d.addr ∨ d.stop 32 ≤ b.addr := fun d hd =>
    apart_of_not_holds (by decide) fun x hx hdx => hclear x hx (hs.tiles.mem_of_holds hd hdx)
  have hhead := HeapRep.headAddr_lt hs'
  have h16 := hplaced.addr
  have hpayload := hplaced.payload
  obtain ⟨hne, hpre16, hapart⟩ := hs'.before
  obtain ⟨m', hm'⟩ : ∃ m', m' = store64 s.mem (b.addr + 8) (headAddr post) := ⟨_, rfl⟩
  obtain ⟨u, hu⟩ : ∃ u, u = linkAfter { s with mem := m' } pre b.addr := ⟨_, rfl⟩
  have hm'_off : ∀ x, (x < b.addr + 8 ∨ b.addr + 16 ≤ x) → m' x = s.mem x := by
    intro x hx
    rw [hm']
    exact store64_of_apart (by omega)
  have humem : ∀ x, (∀ c ∈ pre, x < c.addr + 8 ∨ c.addr + 16 ≤ x) → u.mem x = m' x := by
    intro x hx
    rw [hu]
    exact linkAfter_mem hx
  -- a byte of `b`'s header is in no link before it
  have hlink : ∀ x, b.addr ≤ x → x < b.addr + 32 → ∀ c ∈ pre, x < c.addr + 8 ∨ c.addr + 16 ≤ x := by
    intro x h1 h2 c hc
    have hbc := hap c (by simp [(hmem c).2 (Or.inl hc)])
    unfold Blk.stop at hbc
    omega
  -- every other header keeps what is not its link
  have hkept : ∀ d ∈ pre ++ post ++ live, ∀ x, d.addr ≤ x → x < d.addr + 32 →
      (x < d.addr + 8 ∨ d.addr + 16 ≤ x) → u.mem x = s.mem x := by
    intro d hd x h1 h2 hoff
    rw [hsplit] at hd
    have hbd := hap d hd
    unfold Blk.stop at hbd
    rw [humem x fun c hc => hs.off_links hd ((hmem c).2 (Or.inl hc)) h1 h2 hoff]
    exact hm'_off x (by omega)
  have hlead : Leads { s with mem := m' } pre (headAddr post) := by
    have hold := (leads_append.1 hs'.leads).1
    refine ⟨hold.1, seg_next_congr (fun c hc => ?_) hold.2⟩
    have hbc := hap c (by simp [(hmem c).2 (Or.inl hc)])
    unfold Blk.stop at hbc
    exact blockNext_congr fun x h1 h2 => hm'_off x (by omega)
  have hnext_b : blockNext u.mem b.addr = headAddr post := by
    refine Eq.trans (load64_congr fun x h1 h2 => humem x (hlink x (by omega) (by omega))) ?_
    rw [hm']
    exact load64_store64_same hhead.1
  have hstamp_b : Stamp u.mem b 1 := hstamp.congr fun x h1 h2 hoff => by
    rw [humem x (hlink x h1 h2), hm'_off x (by omega)]
  refine ⟨u, ?_, ?_, ?_, fun x hx hoff => ?_, fun except => ?_⟩
  · unfold linkInOrder
    rw [run_bind_ok (walkFreeList_run hs' (fun c hc => ?_) (fun c hc => ?_))]
    · rw [run_bind_ok setNext_run, ← hm', run_bind_ok (setSuccessor_run hne), ← hu,
        EStateM.run_pure]
    · exact decide_eq_false (not_le.2 (hbelow c hc))
    · exact decide_eq_true (habove c (List.mem_of_mem_head? hc))
  · have hs'' : HeapRep s (pre ++ [] ++ post) ([] ++ live) S := by simpa using hs'
    -- sorted: what is behind starts after `b`, as it cannot start with it
    have hsorted : (pre ++ [b] ++ post).Pairwise fun b c => b.addr < c.addr := by
      obtain ⟨h1, h2, h3⟩ := List.pairwise_append.1 hs'.sorted
      have hb : ∀ c ∈ post, b.addr < c.addr := by
        intro c hc
        have hbc := hap c (by simp [(hmem c).2 (Or.inr hc)])
        have hle := habove c hc
        unfold Blk.stop at hbc
        omega
      rw [List.append_assoc]
      refine List.pairwise_append.2 ⟨h1, List.pairwise_cons.2 ⟨hb, h2⟩, fun c hc d hd => ?_⟩
      rcases List.mem_cons.1 hd with rfl | hd
      · exact hbelow c hc
      · exact h3 c hc d hd
    have hrep := hs''.replace [b] [] (show u.heapReady = s.heapReady by rw [hu, linkAfter_statics])
      hsorted (hs'.tiles.insert (by decide) hclear) (fun x hx => ?_) ?_ ?_ hkept
      (fun d hd => ?_) (fun d hd => ?_) (by simp)
    · simpa using hrep
    · rcases hx with hx | hx
      · exact ⟨lt_of_lt_of_le hpos hx.1, lt_of_lt_of_le hx.2 hstop⟩
      · exact hs.range x hx
    · rw [hu]
      exact leads_linkAfter (by omega) hapart hlead
    · exact ⟨hnext_b, trivial⟩
    · have hbd := hap d (by simp [(hmem d).2 (Or.inr hd)])
      unfold Blk.stop at hbd
      refine blockNext_congr fun x h1 h2 => ?_
      rw [humem x fun c hc => ?_, hm'_off x (by omega)]
      have hcd := (List.pairwise_append.1 hs'.ascending).2.2 c hc d hd
      unfold Blk.stop at hcd
      omega
    · rw [List.mem_singleton] at hd
      rw [hd]
      exact ⟨hstamp_b, hplaced⟩
  · rw [hu, linkAfter_statics]
  · rw [humem x fun c hc => ?_, hm'_off x hoff]
    by_contra hin
    exact hx ⟨c, (hmem c).2 (Or.inl hc), by unfold Blk.Holds Blk.stop; omega⟩
  · rw [hu]
    refine NoForgery.trans ?_ (NoForgery.link hpre16 (by omega) h16)
    change NoForgery except s.mem m'
    rw [hm']
    exact NoForgery.next h16 hhead.1 hhead.2

/-! ## Merging -/

/-- **A listed block absorbs the one it touches.** -/
theorem absorb_run (hs : HeapRep s (pre ++ b :: c :: post) live S) (htouch : b.stop 32 = c.addr) :
    ∃ s', (absorb b.addr c.addr).run s = .ok () s' ∧
      HeapRep s' (pre ++ ⟨b.addr, b.size + 32 + c.size⟩ :: post) live S ∧
      s' = { s with mem := s'.mem } ∧
      (∀ x, (x < b.addr ∨ b.addr + 16 ≤ x) → s'.mem x = s.mem x) ∧
      ∀ except, NoForgery except s.mem s'.mem := by
  obtain ⟨haddr, hsize, hpos, hpayload, hstop⟩ := hs.facts
  have hs₂ : HeapRep s ((pre ++ [b]) ++ c :: post) live S := by simpa using hs
  obtain ⟨-, hsize_c, -, -, hstop_c⟩ := hs₂.facts
  have hb := hs.listed b (by simp)
  have hc := hs.listed c (by simp)
  have hsnoc : HeapRep s ((pre ++ [b, c]) ++ post) live S := by simpa using hs
  have hpost := hsnoc.headAddr_lt
  unfold Blk.stop at htouch
  have hgrown : wrap (blockSize s.mem b.addr + wrap (heapBlockSize + blockSize s.mem c.addr)) =
      b.size + 32 + c.size := by
    change wrap (blockSize s.mem b.addr + wrap (32 + blockSize s.mem c.addr)) = _
    rw [hb.size, hc.size, wrap_of_lt (n := 32 + c.size) (by omega), wrap_of_lt (by omega)]
    omega
  obtain ⟨m', hm'⟩ : ∃ m', m' = store64 (store64 s.mem b.addr (b.size + 32 + c.size)) (b.addr + 8)
    (headAddr post) := ⟨_, rfl⟩
  have hoff : ∀ x, (x < b.addr ∨ b.addr + 16 ≤ x) → m' x = s.mem x := by
    intro x hx
    rw [hm', store64_of_apart (by omega), store64_of_apart (by omega)]
  -- the second link is read after the size is written
  have hnext : blockNext (store64 s.mem b.addr (b.size + 32 + c.size)) c.addr = headAddr post :=
    (load64_store64_of_apart (by omega)).trans hs₂.next_eq
  have hs' : HeapRep s (pre ++ [b, c] ++ post) ([] ++ live) S := by simpa using hs
  have htiles : Tiles 32 (b :: c :: (pre ++ post ++ live)) S := hs'.front
  -- the two words written are in the header of `b` alone
  have hothers : ∀ d ∈ pre ++ post ++ live, d.addr + 32 ≤ b.addr ∨ b.addr + 32 ≤ d.addr := by
    intro d hd
    have hbd := (List.pairwise_cons.1 htiles.apart).1 d (List.mem_cons_of_mem _ hd)
    unfold Apart Blk.stop at hbd
    omega
  refine ⟨{ s with mem := m' }, ?_, ?_, rfl, hoff, fun except => ?_⟩
  · unfold absorb
    rw [run_bind_ok (EStateM.run_get s), hgrown, run_bind_ok setSize_run,
      run_bind_ok (EStateM.run_get _)]
    dsimp only
    rw [hnext, setNext_run, ← hm']
  · have hjoin : Blk.stop 32 ⟨b.addr, b.size + 32 + c.size⟩ = c.stop 32 := by
      unfold Blk.stop
      dsimp only
      omega
    have hsorted := (hs.ascending.join (d := ⟨b.addr, b.size + 32 + c.size⟩) rfl hjoin).sorted
      (by decide)
    have hrep := hs'.replace [⟨b.addr, b.size + 32 + c.size⟩] []
      (show Kernel.heapReady { s with mem := m' } = s.heapReady from rfl) (by simpa using hsorted)
      (htiles.join (b := ⟨b.addr, b.size + 32 + c.size⟩) (by decide) rfl htouch hjoin) hs.range ?_ ?_
      (fun d hd x h1 h2 _ => hoff x (by have := hothers d hd; omega))
      (fun d hd => blockNext_congr fun x h1 h2 => hoff x (by
        have := hothers d (by simp [hd])
        omega)) (fun d hd => ?_) (by simp)
    · simpa using hrep
    · have hlead := (leads_append.1 hs.leads).1
      refine ⟨hlead.1, seg_next_congr (fun d hd => ?_) hlead.2⟩
      have hd' := hs.link_apart hd
      exact blockNext_congr fun x h1 h2 => hoff x (by omega)
    · refine ⟨?_, trivial⟩
      rw [hm']
      exact load64_store64_same hpost.1
    · rw [List.mem_singleton] at hd
      rw [hd]
      refine ⟨⟨?_, ?_, ?_⟩, ⟨haddr, by dsimp only; omega, hpayload⟩⟩
      · unfold blockSize
        dsimp only
        rw [hm', load64_store64_of_apart (by omega), load64_store64_same (by omega)]
      · exact (load64_congr (a := b.addr + 16) fun x h1 h2 => hoff x (by omega)).trans hb.isFree
      · exact (load64_congr (a := b.addr + 24) fun x h1 h2 => hoff x (by omega)).trans hb.magic
  · change NoForgery except s.mem m'
    rw [hm']
    exact NoForgery.trans (NoForgery.size haddr (by omega) (Or.inl (by omega)))
      (NoForgery.next haddr hpost.1 hpost.2)

/-- **The first merge**: a listed block is fused with the one behind it. -/
theorem mergeNext_run (hs : HeapRep s (pre ++ b :: post) live S) :
    ∃ s', (mergeNext b.addr).run s = .ok () s' ∧
      HeapRep s' (pre ++ fuse 32 b post) live S ∧ s' = { s with mem := s'.mem } ∧
      (∀ x, ¬ Held (pre ++ b :: post) x → s'.mem x = s.mem x) ∧
      ∀ except, NoForgery except s.mem s'.mem := by
  obtain ⟨haddr, hsize, hpos, hpayload, hstop⟩ := hs.facts
  have hb := hs.listed b (by simp)
  unfold mergeNext
  rw [run_bind_ok (EStateM.run_get s)]
  dsimp only
  rw [hs.next_eq]
  have hsum : b.addr + heapBlockSize + blockSize s.mem b.addr = b.stop 32 := by
    rw [hb.size]
    rfl
  rw [hsum]
  cases post with
  | nil =>
    rw [if_neg fun h => h.1 rfl]
    exact ⟨s, rfl, hs, rfl, fun _ _ => rfl, fun _ => NoForgery.refl⟩
  | cons c post =>
    have hs₂ : HeapRep s ((pre ++ [b]) ++ c :: post) live S := by simpa using hs
    obtain ⟨-, -, hpos_c, hpayload_c, -⟩ := hs₂.facts
    change ∃ s', (if c.addr ≠ 0 ∧ wrap (b.stop 32) = c.addr then absorb b.addr c.addr
      else pure ()).run s = _ ∧ _
    rw [fuse_cons]
    by_cases htouch : b.stop 32 = c.addr
    · have hwrap : wrap (b.stop 32) = c.addr := by
        rw [htouch]
        exact wrap_of_lt (by omega)
      rw [if_pos ⟨by omega, hwrap⟩, if_pos htouch]
      obtain ⟨s', hrun, hrep, hst, hoff, hforge⟩ := absorb_run hs htouch
      refine ⟨s', hrun, hrep, hst, fun x hx => hoff x ?_, hforge⟩
      by_contra hin
      exact hx ⟨b, by simp, by unfold Blk.Holds Blk.stop; omega⟩
    · -- no wrap can make them touch: the block ends inside memory
      have hno : ¬ (c.addr ≠ 0 ∧ wrap (b.stop 32) = c.addr) := by
        rintro ⟨-, hwrap⟩
        unfold wrap at hwrap
        unfold Blk.stop at *
        omega
      rw [if_neg hno, if_neg htouch]
      exact ⟨s, rfl, hs, rfl, fun _ _ => rfl, fun _ => NoForgery.refl⟩

/-- **And the second**: it is fused with the one before. -/
theorem mergePrevious_run (hs : HeapRep s (pre ++ b :: post) live S) :
    ∃ s', (mergePrevious (lastAddr pre) b.addr).run s = .ok () s' ∧
      HeapRep s' (fuseLast 32 pre (b :: post)) live S ∧ s' = { s with mem := s'.mem } ∧
      (∀ x, ¬ Held (pre ++ b :: post) x → s'.mem x = s.mem x) ∧
      ∀ except, NoForgery except s.mem s'.mem := by
  obtain ⟨-, -, -, hpayload, -⟩ := hs.facts
  unfold mergePrevious
  rw [run_bind_ok (EStateM.run_get s)]
  rcases List.eq_nil_or_concat pre with rfl | ⟨pre, c, rfl⟩
  · rw [if_neg fun h => h.1 rfl]
    exact ⟨s, rfl, hs, rfl, fun _ _ => rfl, fun _ => NoForgery.refl⟩
  · rw [List.concat_eq_append] at *
    have hs₂ : HeapRep s (pre ++ c :: b :: post) live S := by simpa using hs
    obtain ⟨haddr_c, hsize_c, hpos_c, hpayload_c, hstop_c⟩ := hs₂.facts
    have hc := hs₂.listed c (by simp)
    have hlast : lastAddr (pre ++ [c]) = c.addr := by
      unfold lastAddr
      rw [List.map_append, List.map_cons, List.map_nil, List.getLastD_concat]
    have hsum : c.addr + heapBlockSize + blockSize s.mem c.addr = c.stop 32 := by
      rw [hc.size]
      rfl
    have hcb : c.stop 32 ≤ b.addr :=
      (List.pairwise_cons.1 (List.pairwise_append.1 hs₂.ascending).2.1).1 b List.mem_cons_self
    rw [hlast, fuseLast_concat, fuse_cons, hsum, wrap_of_lt (by omega)]
    by_cases htouch : c.stop 32 = b.addr
    · rw [if_pos ⟨by omega, htouch⟩, if_pos htouch]
      obtain ⟨s', hrun, hrep, hst, hoff, hforge⟩ := absorb_run hs₂ htouch
      refine ⟨s', hrun, hrep, hst, fun x hx => hoff x ?_, hforge⟩
      by_contra hin
      exact hx ⟨c, by simp, by unfold Blk.Holds Blk.stop; omega⟩
    · rw [if_neg fun h => htouch h.2, if_neg htouch]
      exact ⟨s, rfl, hs₂, rfl, fun _ _ => rfl, fun _ => NoForgery.refl⟩

end KbmOs
