import KbmOs.Memory.Isolation
/-!
# Pointers freed twice

`kfree` trusts the header in front of the pointer. Once a block is freed
that header is refused, and no later call makes it acceptable, whatever it
merges, cuts or hands out there, unless `kmalloc` returns the pointer
again. Only a client can: where the old header has come to lie in a live
payload, the bytes of a header of a live block are bytes it may write.
-/

namespace KbmOs

open ByteMemory LinkedList Tiling FreeList LabelledRuns

/-- **A header that is not acceptable is refused**, with nothing changed. -/
theorem kfree_refused {s : Kernel} {p : ℕ} (hready : s.heapReady ≠ 0) (hp : 32 ≤ p)
    (hlt : p < 2 ^ 64) (hno : ¬ Accepted s.mem (p - 32)) :
    ∃ message, (message = "KBM_HEAP_DOUBLE_FREE" ∨ message = "KBM_HEAP_INVALID_FREE") ∧
      (kfree p).run s = .error (.panic message) s := by
  have hblock : wrapSub p heapBlockSize = p - 32 := wrapSub_of_le hlt hp
  have hrun : (kfree p).run s = (if blockMagic s.mem (p - 32) ≠ heapBlockMagic then
      panic "KBM_HEAP_INVALID_FREE"
    else if blockIsFree s.mem (p - 32) ≠ 0 then panic "KBM_HEAP_DOUBLE_FREE"
    else do
      setIsFree (p - 32) 1
      let previous ← linkInOrder (p - 32)
      mergeNext (p - 32)
      mergePrevious previous (p - 32)
      modify fun t =>
        { t with heapUsedBytes := wrapSub t.heapUsedBytes (blockSize s.mem (p - 32)) }).run s := by
    unfold kfree
    rw [if_neg (by omega), run_bind_ok (EStateM.run_get _)]
    dsimp only
    rw [hblock, if_neg hready]
  rw [hrun]
  by_cases hmagic : blockMagic s.mem (p - 32) = heapBlockMagic
  · have hfree : blockIsFree s.mem (p - 32) ≠ 0 := fun hzero => hno ⟨hmagic, hzero⟩
    rw [if_neg (not_not.2 hmagic), if_pos hfree]
    exact ⟨_, Or.inl rfl, rfl⟩
  · rw [if_pos hmagic]
    exact ⟨_, Or.inr rfl, rfl⟩

namespace System

variable {entries : List MemmapEntry} {hhdm p : ℕ} {m : Mem} {free blocks : List Blk}
variable {grown : List ℕ} {c c' : System} {e : Event}

/-- A step after which `p` is still stale: `kmalloc` does not return it,
and no byte a client writes in front of it completes a header `kfree`
accepts. -/
def StaleStep (p : ℕ) (c : System) (e : Event) (c' : System) : Prop :=
  Step c e c' ∧ (∀ n, e ≠ .kmalloc n p) ∧
    ∀ x value, e = .write x value → p - 16 ≤ x → x < p → ¬ Accepted c'.kernel.mem (p - 32)

/-- **The pointer is stale**: it has a header in the heap's frames that
`kfree` refuses. -/
structure Stale (hhdm p : ℕ) (c : System) (grown : List ℕ) : Prop where
  low : 32 ≤ p
  high : p < 2 ^ 64
  aligned : p % 16 = 0
  header : ∀ x, p - 16 ≤ x → x < p → x ∈ frameBytes hhdm grown
  refused : ¬ Accepted c.kernel.mem (p - 32)

/-- A state that accepts no more there, of a heap no smaller. -/
theorem Stale.of_accepted {grown' : List ℕ} (hs : Stale hhdm p c grown)
    (hsub : ∀ i ∈ grown, i ∈ grown')
    (hacc : Accepted c'.kernel.mem (p - 32) → Accepted c.kernel.mem (p - 32)) :
    Stale hhdm p c' grown' where
  low := hs.low
  high := hs.high
  aligned := hs.aligned
  header x hlo hhi := by
    obtain ⟨i, hi, hix⟩ := hs.header x hlo hhi
    exact ⟨i, hsub i hi, hix⟩
  refused h := hs.refused (hacc h)

/-- **Freeing a live pointer makes it stale.** -/
theorem Inv.stale_of_kfree (h : LimineOk entries hhdm) (hinv : Inv entries hhdm c free blocks grown)
    (hstep : Step c (.kfree p) c') :
    ∃ free' blocks', Inv entries hhdm c' free' blocks' grown ∧ Stale hhdm p c' grown := by
  obtain ⟨free', blocks', grown', heffect, hinv'⟩ := hinv.effect h hstep
  cases heffect with
  | @kfree b k hb hok =>
    have hin : b ∈ free ++ blocks := List.mem_append_right _ hb
    have hplaced := hinv.rep.placed b hin
    have haddr := hplaced.addr
    refine ⟨_, _, hinv', by omega, hplaced.payload, by omega, fun x hlo hhi => ?_, ?_⟩
    · refine hinv.held_region ⟨b, hin, ?_⟩
      unfold Blk.Holds Blk.stop
      omega
    · rw [Nat.add_sub_cancel]
      exact hok.refused

/-- **One step keeps a stale pointer stale.** -/
theorem Inv.stale_step {free' blocks' : List Blk} {grown' : List ℕ} (h : LimineOk entries hhdm)
    (hinv : Inv entries hhdm c free blocks grown) (hs : Stale hhdm p c grown)
    (hstep : StaleStep p c e c')
    (heffect : Effect entries hhdm c free blocks grown e c' free' blocks' grown') :
    Stale hhdm p c' grown' := by
  obtain ⟨-, hnew, hwrite⟩ := hstep
  have hlow := hs.low
  have haligned := hs.aligned
  have hheader : ∀ x, p - 32 + 16 ≤ x → x < p - 32 + 32 → x ∈ frameBytes hhdm grown :=
    fun x hlo hhi => hs.header x (by omega) (by omega)
  cases heffect with
  | @kmalloc n _ _ b _ _ _ _ hsrc hok =>
    -- the only header it makes acceptable is that of the block it returns
    have hne : p - 32 ≠ b.addr := fun heq => hnew n (by rw [← heq, Nat.sub_add_cancel hlow])
    refine hs.of_accepted (fun i hi => ?_) (hok.forge (p - 32) (by omega) hne hheader)
    cases hsrc with
    | listed _ _ => exact hi
    | fresh _ _ => exact List.mem_cons_of_mem _ hi
  | kfree _ hok =>
    exact hs.of_accepted (fun i hi => hi)
      (hok.forge (fun _ => False) (p - 32) (by omega) fun hf => hf)
  | allocateFrame hi =>
    -- a frame changing hands writes the bitmaps only, where no header lies
    exact hs.of_accepted (fun i hi => hi)
      (hinv.accepted_congr h hheader (hinv.allocateFrame h hi).2).1
  | freeFrame ha =>
    exact hs.of_accepted (fun i hi => hi)
      (hinv.accepted_congr h hheader (hinv.freeFrame h ha).2.2).1
  | @write x value hmay =>
    refine hs.of_accepted (fun i hi => hi) fun hacc => ?_
    by_cases hx : p - 16 ≤ x ∧ x < p
    · exact absurd hacc (hwrite x value rfl hx.1 hx.2)
    · -- the byte is not one of the header's flag or magic value
      have hsame : ∀ y, p - 32 + 16 ≤ y → y < p - 32 + 32 →
          store8 c.kernel.mem x value y = c.kernel.mem y := fun y hlo hhi =>
        store8_of_ne (by omega)
      unfold Accepted blockMagic blockIsFree at hacc ⊢
      rwa [load64_congr fun y h1 h2 => hsame y (by omega) (by omega),
        load64_congr fun y h1 h2 => hsame y (by omega) (by omega)] at hacc

/-- **A stale free is caught.** After a live pointer is freed, in every run
in which `kmalloc` does not return it again and no byte a client writes
completes an acceptable header in front of it, freeing it panics and
changes nothing. -/
theorem stale_free_panics (entries : List MemmapEntry) (hhdm : ℕ) (m : Mem) (es₁ es₂ : List Event)
    (p : ℕ) (c₁ c : System) (h : LimineOk entries hhdm)
    (hfreed : Reachable entries hhdm m (es₁ ++ [.kfree p]) c₁) (hrun : Run (StaleStep p) c₁ es₂ c) :
    ∃ message, (message = "KBM_HEAP_DOUBLE_FREE" ∨ message = "KBM_HEAP_INVALID_FREE") ∧
      (KbmOs.kfree p).run c.kernel = .error (.panic message) c.kernel := by
  obtain ⟨c₀, hboot, hall⟩ := hfreed
  obtain ⟨d, hd, hlast⟩ := run_append.1 hall
  obtain ⟨d', hstep, hnil⟩ := run_cons.1 hlast
  obtain rfl : d' = c₁ := run_nil.1 hnil
  -- the free starts it, and every later step keeps the header refused
  obtain ⟨free, blocks, grown, hinv⟩ := Reachable.inv h ⟨c₀, hboot, hd⟩
  obtain ⟨free', blocks', hinv', hstale⟩ := hinv.stale_of_kfree h hstep
  have hkept : ∃ free blocks grown, Inv entries hhdm c free blocks grown ∧ Stale hhdm p c grown := by
    refine hinv'.run h (P := fun c _ _ grown => Stale hhdm p c grown) (fun _ _ _ hstep => hstep.1)
      hstale ?_ hrun
    intro c free blocks grown e c' free' blocks' grown' hinv _ heffect hstep hs
    exact hinv.stale_step h hs hstep heffect
  obtain ⟨free, blocks, grown, hinv, hs⟩ := hkept
  exact kfree_refused hinv.rep.ready hs.low hs.high hs.refused

/-- What comes after the sample's second small block is freed: the first is
freed too, and merged with it, a block of 64 bytes is handed out over both,
and its client writes over the old header's magic value. -/
def staleEvents : List Event :=
  [.kfree (sampleOffset + 0x3020), .kmalloc 50 (sampleOffset + 0x3020),
    .write (sampleOffset + 0x3048) 0]

/-- No header is accepted whose magic value has lost its lowest byte. -/
theorem not_accepted_store8 (m : Mem) (block : ℕ) : ¬ Accepted (store8 m (block + 24) 0) block := by
  rintro ⟨hmagic, -⟩
  have hlow : blockMagic (store8 m (block + 24) 0) block % 2 ^ 8 = 0 := by
    unfold blockMagic
    rw [load64_mod, store8_same]
    rfl
  rw [hmagic] at hlow
  cases hlow

theorem staleEvents_run : ∃ c₁ c, Reachable sampleMap sampleOffset blankMem
      (sampleRequests ++ [.kfree (sampleOffset + 0x3050)]) c₁ ∧
    Run (StaleStep (sampleOffset + 0x3050)) c₁ staleEvents c := by
  obtain ⟨c₀, c, hboot, hrun, hinv⟩ := sample_requests fun _ hstep _ => hstep
  obtain ⟨k₁, hrun₁, hok₁⟩ := hinv.kfree sampleMap_limineOk (b := ⟨sampleOffset + 0x3030, 16⟩)
    (by decide)
  have hinv₁ : Inv sampleMap sampleOffset _
    [⟨sampleOffset + 0x3030, 16⟩, ⟨sampleOffset + 0x3090, 3920⟩]
    [⟨sampleOffset + 0x3060, 16⟩, ⟨sampleOffset + 0x3000, 16⟩, ⟨sampleOffset + 0x2000, 4064⟩]
    [3, 2] := hok₁.inv
  obtain ⟨k₂, hrun₂, hok₂⟩ := hinv₁.kfree sampleMap_limineOk (b := ⟨sampleOffset + 0x3000, 16⟩)
    (by decide)
  have hinv₂ : Inv sampleMap sampleOffset _
    [⟨sampleOffset + 0x3000, 64⟩, ⟨sampleOffset + 0x3090, 3920⟩]
    [⟨sampleOffset + 0x3060, 16⟩, ⟨sampleOffset + 0x2000, 4064⟩] [3, 2] := hok₂.inv
  -- the merged block is handed out whole, the old header in its payload
  obtain ⟨k₃, hrun₃, hok₃⟩ := hinv₂.kmalloc_listed sampleMap_limineOk (n := 50) (by decide)
    (by decide) (List.nil_append _).symm ⟨by decide, by simp⟩
  have hinv₃ : Inv sampleMap sampleOffset _ [⟨sampleOffset + 0x3090, 3920⟩]
    [⟨sampleOffset + 0x3000, 64⟩, ⟨sampleOffset + 0x3060, 16⟩, ⟨sampleOffset + 0x2000, 4064⟩]
    [3, 2] := hok₃.inv
  have hin : (⟨sampleOffset + 0x3000, 64⟩ : Blk) ∈ [⟨sampleOffset + 0x3000, 64⟩,
    ⟨sampleOffset + 0x3060, 16⟩, (⟨sampleOffset + 0x2000, 4064⟩ : Blk)] := List.mem_cons_self
  have hmay : MayWrite _ (sampleOffset + 0x3048) :=
    Or.inl ⟨_, hinv₃.live_of_block hin, (hinv₃.inPayload_iff hin).2 (by decide)⟩
  have hfreed := hrun.snoc (.kfree (hinv.live_of_block (by decide)) hrun₁)
  have hlater := (Run.nil : Run (StaleStep (sampleOffset + 0x3050)) _ [] _)
    |>.snoc ⟨.kfree (hinv₁.live_of_block (by decide)) hrun₂, nofun, nofun⟩
    |>.snoc ⟨.kmalloc (by decide) hrun₃, fun n hn => absurd (Event.kmalloc.inj hn).2 (by decide), nofun⟩
    |>.snoc ⟨.write hmay, nofun, fun x value hw _ _ => by
      obtain ⟨rfl, rfl⟩ := Event.write.inj hw
      exact not_accepted_store8 _ (sampleOffset + 0x3030)⟩
  exact ⟨_, _, ⟨c₀, hboot, hfreed⟩, hlater⟩

/-- And then freeing the second once more panics. -/
theorem stale_free_panics_sampleMap : ∃ c₁ c message,
    Reachable sampleMap sampleOffset blankMem
      (sampleRequests ++ [.kfree (sampleOffset + 0x3050)]) c₁ ∧
    Run (StaleStep (sampleOffset + 0x3050)) c₁ staleEvents c ∧
    (KbmOs.kfree (sampleOffset + 0x3050)).run c.kernel = .error (.panic message) c.kernel := by
  obtain ⟨c₁, c, hfreed, hrun⟩ := staleEvents_run
  obtain ⟨message, -, herr⟩ := stale_free_panics sampleMap sampleOffset blankMem _ staleEvents
    (sampleOffset + 0x3050) c₁ c sampleMap_limineOk hfreed hrun
  exact ⟨c₁, c, message, hfreed, hrun, herr⟩

/-! ## A header a client forges -/

/-- Bytes a client writes, in order. -/
def clientWrites (l : List (ℕ × BitVec 8)) : List Event := l.map fun w => .write w.1 w.2

/-- **A client writes what it likes in a payload it holds.** -/
theorem Inv.clientWrites (h : LimineOk entries hhdm) (l : List (ℕ × BitVec 8)) {b : Blk}
    (hinv : Inv entries hhdm c free blocks grown) (hb : b ∈ blocks)
    (hl : ∀ w ∈ l, b.addr + 32 ≤ w.1 ∧ w.1 < b.stop 32) :
    ∃ c', Run Step c (clientWrites l) c' ∧ Inv entries hhdm c' free blocks grown ∧
      c'.kernel.mem = l.foldl (fun m w => store8 m w.1 w.2) c.kernel.mem := by
  induction l generalizing c with
  | nil => exact ⟨c, .nil, hinv, rfl⟩
  | cons w l ih =>
    have hmay : c.MayWrite w.1 :=
      Or.inl ⟨_, hinv.live_of_block hb, (hinv.inPayload_iff hb).2 (hl w List.mem_cons_self)⟩
    obtain ⟨c', hrun, hinv', hmem⟩ := ih (hinv.write h w.2 hmay) fun v hv =>
      hl v (List.mem_cons_of_mem _ hv)
    exact ⟨c', run_cons.2 ⟨_, .write hmay, hrun⟩, hinv', hmem⟩

end System

/-- **A forged header makes a block**: beside the listed blocks of a heap,
any bytes that read as the header of a live block apart from them. -/
theorem HeapRep.forged {s : Kernel} {free live : List Blk} {S : Set ℕ} {b : Blk}
    (hs : HeapRep s free live S) (hb : Stamp s.mem b 0) (hplaced : Placed b) (hpos : 0 < b.addr)
    (hstop : b.stop 32 ≤ 2 ^ 64) (hapart : ∀ d ∈ free, Apart 32 d b) :
    HeapRep s free [b] {x | Held (free ++ [b]) x} where
  ready := hs.ready
  sorted := hs.sorted
  tiles := by
    refine ⟨List.pairwise_append.2 ⟨(List.pairwise_append.1 hs.tiles.apart).1,
      List.pairwise_singleton _ _, fun d hd e he => ?_⟩, fun x => Iff.rfl⟩
    rw [List.mem_singleton.1 he]
    exact hapart d hd
  range x hx := by
    obtain ⟨d, hd, hdx⟩ := hx
    rcases List.mem_append.1 hd with hd | hd
    · exact hs.mem_range (List.mem_append_left _ hd) hdx
    · rw [List.mem_singleton.1 hd] at hdx
      unfold Blk.Holds at hdx
      omega
  placed d hd := by
    rcases List.mem_append.1 hd with hd | hd
    · exact hs.placed d (List.mem_append_left _ hd)
    · rw [List.mem_singleton.1 hd]
      exact hplaced
  leads := hs.leads
  listed := hs.listed
  taken d hd := by
    rw [List.mem_singleton.1 hd]
    exact hb

namespace System

/-- The size, the flag and the magic value of a live block of 16 bytes,
written into the payload of one that covers an old header. -/
def forgedWrites : List (ℕ × BitVec 8) :=
  wordBytes (sampleOffset + 0x2030) 16 ++ wordBytes (sampleOffset + 0x2040) 0 ++
    wordBytes (sampleOffset + 0x2048) heapBlockMagic

/-- **A stale free that is not caught.** Two blocks of 16 bytes are freed,
the second first, and a block of 100 bytes is handed out over both. Its
client writes a header where the second block had its own, and the second
block's pointer is freed again. -/
theorem stale_free_accepted : ∃ c₁ c k,
    Reachable sampleMap sampleOffset blankMem
      ([.kmalloc 16 (sampleOffset + 0x2020), .kmalloc 16 (sampleOffset + 0x2050)] ++
        [.kfree (sampleOffset + 0x2050)]) c₁ ∧
    Run Step c₁ ([.kfree (sampleOffset + 0x2020), .kmalloc 100 (sampleOffset + 0x2020)] ++
      clientWrites forgedWrites) c ∧
    (KbmOs.kfree (sampleOffset + 0x2050)).run c.kernel = .ok () k := by
  obtain ⟨c₀, hc⟩ := sampleMap_boots
  have hinv := hc.inv sampleMap_limineOk
  obtain ⟨k₁, hrun₁, hok₁⟩ := hinv.kmalloc_fresh sampleMap_limineOk (n := 16) (by decide)
    (by decide) (by simp) hc.sample_lowest
  -- the frame is cut: 16 bytes are live and the rest is one free block
  have hinv₁ : Inv sampleMap sampleOffset _ [⟨sampleOffset + 0x2030, 4016⟩]
    [⟨sampleOffset + 0x2000, 16⟩] [2] := hok₁.inv
  obtain ⟨k₂, hrun₂, hok₂⟩ := hinv₁.kmalloc_listed sampleMap_limineOk (n := 16)
    (by decide) (by decide)
    (List.nil_append _).symm ⟨by decide, by simp⟩
  have hinv₂ : Inv sampleMap sampleOffset _ [⟨sampleOffset + 0x2060, 3968⟩]
    [⟨sampleOffset + 0x2030, 16⟩, ⟨sampleOffset + 0x2000, 16⟩] [2] := hok₂.inv
  obtain ⟨k₃, hrun₃, hok₃⟩ := hinv₂.kfree sampleMap_limineOk
    (b := ⟨sampleOffset + 0x2030, 16⟩) (by decide)
  -- the second block merges with what is behind it
  have hinv₃ : Inv sampleMap sampleOffset _ [⟨sampleOffset + 0x2030, 4016⟩]
    [⟨sampleOffset + 0x2000, 16⟩] [2] := hok₃.inv
  obtain ⟨k₄, hrun₄, hok₄⟩ := hinv₃.kfree sampleMap_limineOk
    (b := ⟨sampleOffset + 0x2000, 16⟩) (by decide)
  -- and the first with all of it: the old header is inside a free block
  have hinv₄ : Inv sampleMap sampleOffset _ [⟨sampleOffset + 0x2000, 4064⟩] [] [2] := hok₄.inv
  obtain ⟨k₅, hrun₅, hok₅⟩ := hinv₄.kmalloc_listed sampleMap_limineOk (n := 100)
    (by decide) (by decide)
    (List.nil_append _).symm ⟨by decide, by simp⟩
  -- handed out again, it is payload
  have hinv₅ : Inv sampleMap sampleOffset _ [⟨sampleOffset + 0x2090, 3920⟩]
    [⟨sampleOffset + 0x2000, 112⟩] [2] := hok₅.inv
  obtain ⟨c, hwrites, hinv₆, hmem⟩ := hinv₅.clientWrites sampleMap_limineOk forgedWrites
    (b := ⟨sampleOffset + 0x2000, 112⟩) (by decide) (by decide)
  have hstamp : Stamp c.kernel.mem ⟨sampleOffset + 0x2030, 16⟩ 0 := by
    rw [hmem]
    unfold forgedWrites
    rw [List.foldl_append, List.foldl_append, foldl_wordBytes, foldl_wordBytes, foldl_wordBytes]
    refine ⟨?_, ?_, ?_⟩
    · unfold blockSize
      rw [load64_store64_of_apart (by decide), load64_store64_of_apart (by decide),
        load64_store64_same (by decide)]
    · unfold blockIsFree
      rw [load64_store64_of_apart (by decide), load64_store64_same (by decide)]
    · unfold blockMagic
      exact load64_store64_same (by decide)
  have hfake := hinv₆.rep.forged hstamp ⟨by decide, by decide, by decide⟩ (by decide) (by decide)
    fun d hd => by
      rw [List.mem_singleton.1 hd]
      exact Or.inr (by decide)
  obtain ⟨k, hrun, -⟩ := kfree_run hfake
  have hfirst := (Run.nil : Run Step c₀ [] c₀) |>.snoc (.kmalloc (by decide) hrun₁)
    |>.snoc (.kmalloc (by decide) hrun₂)
    |>.snoc (.kfree (hinv₂.live_of_block List.mem_cons_self) hrun₃)
  have hsecond := (Run.nil : Run Step _ [] _)
    |>.snoc (.kfree (hinv₃.live_of_block List.mem_cons_self) hrun₄) |>.snoc (.kmalloc (by decide) hrun₅)
  exact ⟨_, c, k, ⟨c₀, hc, hfirst⟩, run_append.2 ⟨_, hsecond, hwrites⟩, hrun⟩

end System

end KbmOs
