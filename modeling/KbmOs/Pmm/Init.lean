import KbmOs.Pmm.Map
import KbmOs.Pmm.Table
/-!
# What `pmm_init` leaves behind

The run of `pmm_init`, loop by loop. The bump allocator hands out
consecutive frames of the longest range, `memset` writes one byte of a
bitmap per turn, and each marking loop changes exactly the primary bits of
the frames it names. Put together: on a map whose usable entries hold a
whole frame it returns exactly when the longest range has room for both
bitmaps, in the state `Initialised` describes.
-/

namespace KbmOs

open ByteMemory PackedBits

variable {e : MemmapEntry} {entries : List MemmapEntry} {hhdm i j k n a c p v x : ℕ}
variable {s s' s'' : Kernel} {m : Mem}

/-! ## The bump allocator -/

/-- Before the bitmap is ready a frame is the next of the range. -/
theorem pmmAllocateFrame_bump (hready : s.bitmapReady = 0)
    (hroom : s.nextFrameAddress + 0x1000 ≤ s.pmmEnd) (hend : s.pmmEnd < 2 ^ 64) :
    pmmAllocateFrame.run s =
      .ok s.nextFrameAddress { s with nextFrameAddress := s.nextFrameAddress + 0x1000 } := by
  have hwrap : wrap (s.nextFrameAddress + 0x1000) = s.nextFrameAddress + 0x1000 :=
    wrap_of_lt (lt_of_le_of_lt hroom hend)
  unfold pmmAllocateFrame bumpFrame
  rw [run_bind_ok (EStateM.run_get s), if_pos hready, run_bind_ok (EStateM.run_get s), hwrap,
    if_pos hroom]
  rfl

/-- Unless the range has run out. -/
theorem pmmAllocateFrame_bump_none (hready : s.bitmapReady = 0)
    (hroom : s.pmmEnd < wrap (s.nextFrameAddress + 0x1000)) :
    pmmAllocateFrame.run s = .error (.panic "KBM_OUT_OF_MEMORY") s := by
  unfold pmmAllocateFrame bumpFrame
  rw [run_bind_ok (EStateM.run_get s), if_pos hready, run_bind_ok (EStateM.run_get s),
    if_neg (not_le.2 hroom)]
  rfl

/-- **Dropped frames are passed over in one stride.** -/
theorem forUpTo_dropFrame (hready : s.bitmapReady = 0) (hend : s.pmmEnd < 2 ^ 64)
    (hroom : s.nextFrameAddress + n * 0x1000 ≤ s.pmmEnd) :
    (forUpTo dropFrame n).run s =
      .ok () { s with nextFrameAddress := s.nextFrameAddress + n * 0x1000 } := by
  induction n with
  | zero =>
    rw [Nat.zero_mul]
    rfl
  | succ n ih =>
    rw [Nat.add_one_mul, ← Nat.add_assoc] at hroom ⊢
    have hcall := pmmAllocateFrame_bump
      (s := { s with nextFrameAddress := s.nextFrameAddress + n * 0x1000 }) hready hroom hend
    unfold forUpTo
    rw [run_bind_ok (ih (le_trans (Nat.le_add_right _ _) hroom))]
    unfold dropFrame
    rw [run_bind_ok hcall]
    rfl

/-! ## The memory writes -/

/-- **`memset` gives each of the `n` bytes the value**, and no other byte. -/
theorem memset_run (hn : n ≤ 2 ^ 64) : ∃ m, (memset p c n).run s = .ok () { s with mem := m } ∧
    (∀ i, i < n → m (wrap (p + i)) = BitVec.ofNat 8 c) ∧
    ∀ x, (∀ i, i < n → x ≠ wrap (p + i)) → m x = s.mem x := by
  unfold memset
  induction n with
  | zero => exact ⟨s.mem, rfl, fun i hi => absurd hi (Nat.not_lt_zero i), fun x _ => rfl⟩
  | succ n ih =>
    obtain ⟨m, hrun, hset, hother⟩ := ih (by omega)
    refine ⟨store8 m (wrap (p + n)) (BitVec.ofNat 8 c), ?_, fun i hi => ?_, fun x hx => ?_⟩
    · unfold forUpTo
      rw [run_bind_ok hrun]
      rfl
    · -- fewer than all addresses are written, so no turn comes back to an earlier byte
      rcases Nat.lt_succ_iff_lt_or_eq.1 hi with hlt | rfl
      · have hne : wrap (p + i) ≠ wrap (p + n) := by
          unfold wrap
          omega
        rw [store8_of_ne hne]
        exact hset i hlt
      · exact store8_same _ _ _
    · rw [store8_of_ne (hx n (Nat.lt_succ_self n))]
      exact hother x fun i hi => hx i (Nat.lt_succ_of_lt hi)

/-- `s'` is `s` with the primary bits of the frames `A` set to `v`. -/
structure Marks (v : Bool) (A : ℕ → Prop) (s s' : Kernel) : Prop where
  statics : s' = { s with mem := s'.mem }
  on : ∀ i, i / 8 < s.bitmapByteCount → A i → primaryBit s' i = v
  off : ∀ i, i / 8 < s.bitmapByteCount → ¬ A i → primaryBit s' i = primaryBit s i
  other : ∀ x, (∀ k, k < s.bitmapByteCount → x ≠ bitmapAddr s.bitmapPointer k) →
    s'.mem x = s.mem x

variable {b : Bool} {A B : ℕ → Prop}

theorem Marks.refl (hA : ∀ i, ¬ A i) : Marks b A s s where
  statics := rfl
  on i _ hi := absurd hi (hA i)
  off _ _ _ := rfl
  other _ _ := rfl

/-- One marking after another. -/
theorem Marks.trans (h : Marks b A s s') (h' : Marks b B s' s'') :
    Marks b (fun i => A i ∨ B i) s s'' := by
  have hcount : s'.bitmapByteCount = s.bitmapByteCount := by rw [h.statics]
  have hpointer : s'.bitmapPointer = s.bitmapPointer := by rw [h.statics]
  refine ⟨?_, fun i hi hAB => ?_, fun i hi hAB => ?_, fun x hx => ?_⟩
  · rw [h'.statics, h.statics]
  · -- the later marking wins, and where it is silent the earlier one holds
    by_cases hB : B i
    · exact h'.on i (hcount ▸ hi) hB
    · rw [h'.off i (hcount ▸ hi) hB]
      exact h.on i hi (hAB.resolve_right hB)
  · rw [not_or] at hAB
    rw [h'.off i (hcount ▸ hi) hAB.2]
    exact h.off i hi hAB.1
  · rw [h'.other x fun k hk => hpointer ▸ hx k (hcount ▸ hk)]
    exact h.other x hx

theorem Marks.congr (h : Marks b A s s') (hAB : ∀ i, A i ↔ B i) : Marks b B s s' := by
  have : A = B := funext fun i => propext (hAB i)
  exact this ▸ h

/-- One helper call marks one frame free. -/
theorem pmmBitmapMarkFrameFree_marks (hk : a / 0x1000 / 8 < s.bitmapByteCount)
    (hbytes : s.bitmapByteCount ≤ 2 ^ 64) :
    ∃ s', (pmmBitmapMarkFrameFree a).run s = .ok () s' ∧
      Marks false (fun i => i = a / 0x1000) s s' := by
  refine ⟨_, markFrameFree_run hk, rfl, fun i hi hA => ?_, fun i hi hA => ?_, fun x hx => ?_⟩
  · subst hA
    exact (bit_clearBit fun _ => rfl).trans (by simp)
  · refine (bit_clearBit fun h => bitmapAddr_inj (by omega) (by omega) h).trans ?_
    rw [decide_eq_false hA]
    rfl
  · exact clearBit_of_ne (hx _ hk)

/-- And one marks one used. -/
theorem pmmBitmapMarkFrameUsed_marks (hk : a / 0x1000 / 8 < s.bitmapByteCount)
    (hbytes : s.bitmapByteCount ≤ 2 ^ 64) :
    ∃ s', (pmmBitmapMarkFrameUsed a).run s = .ok () s' ∧
      Marks true (fun i => i = a / 0x1000) s s' := by
  refine ⟨_, markFrameUsed_run hk, rfl, fun i hi hA => ?_, fun i hi hA => ?_, fun x hx => ?_⟩
  · subst hA
    exact (bit_setBit fun _ => rfl).trans (by simp)
  · refine (bit_setBit fun h => bitmapAddr_inj (by omega) (by omega) h).trans ?_
    rw [decide_eq_false hA]
    rfl
  · exact setBit_of_ne (hx _ hk)

/-- **A loop of markings marks the frames its turns mark.** -/
theorem forUpTo_marks {body : ℕ → KernelM Unit} (frame : ℕ → ℕ) (hcount : s.bitmapByteCount = c)
    (hbody : ∀ k, k < n → ∀ t : Kernel, t.bitmapByteCount = c →
      ∃ t', (body k).run t = .ok () t' ∧ Marks b (fun i => i = frame k) t t') :
    ∃ s', (forUpTo body n).run s = .ok () s' ∧ Marks b (fun i => ∃ k, k < n ∧ i = frame k) s s' := by
  induction n with
  | zero => exact ⟨s, rfl, Marks.refl fun i hi => by obtain ⟨k, hk, -⟩ := hi; omega⟩
  | succ n ih =>
    obtain ⟨t, hrun, hmarks⟩ := ih fun k hk => hbody k (by omega)
    have ht : t.bitmapByteCount = c := by rw [hmarks.statics, hcount]
    obtain ⟨t', hrun', hmarks'⟩ := hbody n (Nat.lt_succ_self n) t ht
    refine ⟨t', ?_, (hmarks.trans hmarks').congr fun i => ?_⟩
    · unfold forUpTo
      rw [run_bind_ok hrun, hrun']
    · constructor
      · rintro (⟨k, hk, rfl⟩ | rfl)
        · exact ⟨k, by omega, rfl⟩
        · exact ⟨n, by omega, rfl⟩
      · rintro ⟨k, hk, rfl⟩
        rcases Nat.lt_succ_iff_lt_or_eq.1 hk with hlt | rfl
        · exact Or.inl ⟨k, hlt, rfl⟩
        · exact Or.inr rfl

/-! ## The marking loops -/

/-- The second loop marks one entry's whole frames free. -/
theorem freeEntry_marks (h : NoWrap entries) (he : e ∈ entries)
    (hcount : s.bitmapByteCount = mapBytes entries) :
    ∃ s', (freeEntry e).run s = .ok () s' ∧ Marks false (fun i => e.Usable ∧ e.HasFrame i) s s' := by
  unfold freeEntry
  by_cases hu : e.Usable
  · have hle := endFrame_le_mapFrames he hu
    have hmap := h.mapFrames_lt
    have hturns : (e.endFrame * 0x1000 - e.firstFrame * 0x1000) / 0x1000 =
        e.endFrame - e.firstFrame := by omega
    rw [if_pos (show e.type = limineMemmapUsable from hu), h.usableBase_eq he hu,
      h.usableEnd_eq he hu, hturns]
    -- each turn marks the frame of its address, which is a whole one
    have hbody : ∀ k, k < e.endFrame - e.firstFrame → ∀ t : Kernel,
        t.bitmapByteCount = mapBytes entries →
        ∃ t', (pmmBitmapMarkFrameFree (e.firstFrame * 0x1000 + k * 0x1000)).run t = .ok () t' ∧
          Marks false (fun i => i = e.firstFrame + k) t t' := by
      intro k hk t ht
      have hindex : (e.firstFrame * 0x1000 + k * 0x1000) / 0x1000 = e.firstFrame + k := by omega
      have hbyte : (e.firstFrame + k) / 8 < mapBytes entries := by
        unfold mapBytes
        omega
      have hbytes : mapBytes entries ≤ 2 ^ 64 := by
        unfold mapBytes
        omega
      have hmark := pmmBitmapMarkFrameFree_marks (s := t)
        (a := e.firstFrame * 0x1000 + k * 0x1000) (by rw [hindex, ht]; exact hbyte) (by rwa [ht])
      rwa [hindex] at hmark
    obtain ⟨s', hrun, hmarks⟩ := forUpTo_marks (e.firstFrame + ·) hcount hbody
    refine ⟨s', hrun, hmarks.congr fun i => ?_⟩
    rw [MemmapEntry.hasFrame_iff]
    constructor
    · rintro ⟨k, hk, rfl⟩
      exact ⟨hu, by omega, by omega⟩
    · rintro ⟨-, hlo, hhi⟩
      exact ⟨i - e.firstFrame, by omega, by omega⟩
  · rw [if_neg (show ¬ e.type = limineMemmapUsable from hu)]
    exact ⟨s, rfl, Marks.refl fun i hi => hu hi.1⟩

/-- **And the whole of it every usable entry's.** -/
theorem freeEntries_marks (h : NoWrap entries) : ∀ (l : List MemmapEntry) (s : Kernel), l ⊆ entries →
    s.bitmapByteCount = mapBytes entries → ∃ s', (freeEntries l).run s = .ok () s' ∧
      Marks false (fun i => ∃ e ∈ l, e.Usable ∧ e.HasFrame i) s s'
  | [], s, _, _ => ⟨s, rfl, Marks.refl fun i hi => by obtain ⟨e, he, -⟩ := hi; cases he⟩
  | e :: l, s, hl, hcount => by
    obtain ⟨t, hrun, hmarks⟩ := freeEntry_marks h (hl List.mem_cons_self) hcount
    have ht : t.bitmapByteCount = mapBytes entries := by rw [hmarks.statics, hcount]
    obtain ⟨s', hrun', hmarks'⟩ := freeEntries_marks h l t
      (fun e' he' => hl (List.mem_cons_of_mem _ he')) ht
    refine ⟨s', ?_, (hmarks.trans hmarks').congr fun i => ?_⟩
    · unfold freeEntries
      rw [run_bind_ok hrun, hrun']
    · simp only [List.mem_cons, exists_eq_or_imp]

/-- The last two loops mark a bitmap's storage used. -/
theorem storage_marks {f : ℕ} (hcount : s.bitmapByteCount = mapBytes entries)
    (hend : f + n ≤ mapFrames entries) (hmap : mapFrames entries * 0x1000 + 0xFFF < 2 ^ 64) :
    ∃ s', (forUpTo (fun i =>
        pmmBitmapMarkFrameUsed (wrap (f * 0x1000 + wrap (i * 0x1000)))) n).run s =
        .ok () s' ∧ Marks true (fun i => f ≤ i ∧ i < f + n) s s' := by
  have hbody : ∀ k, k < n → ∀ t : Kernel, t.bitmapByteCount = mapBytes entries →
      ∃ t', (pmmBitmapMarkFrameUsed (wrap (f * 0x1000 + wrap (k * 0x1000)))).run t = .ok () t' ∧
        Marks true (fun i => i = f + k) t t' := by
    intro k hk t ht
    have hin : wrap (k * 0x1000) = k * 0x1000 := wrap_of_lt (by lia)
    have hout : wrap (f * 0x1000 + k * 0x1000) = f * 0x1000 + k * 0x1000 := wrap_of_lt (by lia)
    have hindex : (f * 0x1000 + k * 0x1000) / 0x1000 = f + k := by omega
    have hbyte : (f + k) / 8 < mapBytes entries := by
      unfold mapBytes
      omega
    have hbytes : mapBytes entries ≤ 2 ^ 64 := by
      unfold mapBytes
      omega
    have hmark := pmmBitmapMarkFrameUsed_marks (s := t) (a := f * 0x1000 + k * 0x1000)
      (by rw [hindex, ht]; exact hbyte) (by rwa [ht])
    rw [hin, hout]
    rwa [hindex] at hmark
  obtain ⟨s', hrun, hmarks⟩ := forUpTo_marks (f + ·) hcount hbody
  refine ⟨s', hrun, hmarks.congr fun i => ?_⟩
  constructor
  · rintro ⟨k, hk, rfl⟩
    exact ⟨by omega, by omega⟩
  · rintro ⟨hlo, hhi⟩
    exact ⟨i - f, by omega, by omega⟩

/-! ## The two halves -/

/-- The frames taken are the range's first, the primary bitmap's before
the ownership bitmap's. -/
theorem takeBitmapFrames_run {scan : RangeScan} {f g : ℕ} (hready : s.bitmapReady = 0)
    (hp : s.bitmapPageCount = p) (hpages : 0 < p) (hbase : scan.largestUsableBase = f * 0x1000)
    (hend : scan.largestUsableEnd = g * 0x1000) (hg : g * 0x1000 < 2 ^ 64)
    (hroom : f + 2 * p ≤ g) :
    (takeBitmapFrames scan).run s = .ok () { s with
      pmmBase := f * 0x1000
      pmmEnd := g * 0x1000
      nextFrameAddress := (f + 2 * p) * 0x1000
      bitmapPhysicalAddress := f * 0x1000
      ownershipBitmapPhysicalAddress := (f + p) * 0x1000 } := by
  -- one call takes the bitmap's first frame, the loop drops the others
  have hless : wrapSub p 1 = p - 1 := wrapSub_of_le (by lia) hpages
  have hmid : f * 0x1000 + 0x1000 + (p - 1) * 0x1000 = (f + p) * 0x1000 := by lia
  have hlast : (f + p) * 0x1000 + 0x1000 + (p - 1) * 0x1000 = (f + 2 * p) * 0x1000 := by lia
  have hmid_le : (f + p) * 0x1000 + 0x1000 ≤ g * 0x1000 := by lia
  have hlast_le : (f + 2 * p) * 0x1000 ≤ g * 0x1000 := by lia
  unfold takeBitmapFrames
  rw [hbase, hend]
  refine (run_bind_ok (EStateM.run_modify _ _)).trans ?_
  refine (run_bind_ok (pmmAllocateFrame_bump (by exact hready) (by dsimp only; lia)
    (by exact hg))).trans ?_
  refine (run_bind_ok (EStateM.run_modify _ _)).trans ?_
  refine (run_bind_ok (EStateM.run_get _)).trans ?_
  dsimp only
  rw [hp, hless]
  refine (run_bind_ok (forUpTo_dropFrame (by exact hready) (by exact hg)
    (by dsimp only; lia))).trans ?_
  dsimp only
  rw [hmid]
  refine (run_bind_ok (pmmAllocateFrame_bump (by exact hready) (by exact hmid_le)
    (by exact hg))).trans ?_
  refine (run_bind_ok (EStateM.run_modify _ _)).trans ?_
  refine (run_bind_ok (EStateM.run_get _)).trans ?_
  dsimp only
  rw [hless]
  refine (forUpTo_dropFrame (by exact hready) (by exact hg) (by dsimp only; lia)).trans ?_
  dsimp only
  rw [hlast]

/-- A whole number of pages holds the bitmap's bytes. -/
theorem mapBytes_le (entries : List MemmapEntry) : mapBytes entries ≤ mapPages entries * 0x1000 := by
  unfold mapPages
  omega

/-- Two bitmaps on adjacent pages share no byte. -/
theorem bitmapAddr_apart {f P B : ℕ} (hB : B ≤ P * 0x1000) (hP : 2 * P * 0x1000 < 2 ^ 64)
    (hj : j < B) (hk : k < B) :
    bitmapAddr (wrap (f * 0x1000 + hhdm)) j ≠ bitmapAddr (wrap ((f + P) * 0x1000 + hhdm)) k := by
  unfold bitmapAddr wrap
  omega

/-- An ownership byte is none that a marking touches. -/
theorem Marks.ownerBit (h : Marks b A s s')
    (hapart : ∀ k, k < s.bitmapByteCount →
      bitmapAddr s.bitmapPointer k ≠ bitmapAddr s.ownershipBitmapPointer (i / 8)) :
    ownerBit s' i = ownerBit s i := by
  have hpointer : s'.ownershipBitmapPointer = s.ownershipBitmapPointer := by rw [h.statics]
  unfold KbmOs.ownerBit
  rw [hpointer]
  exact bit_congr (h.other _ fun k hk => (hapart k hk).symm)

/-- **The two bitmaps before any marking**: every frame used, none owned. -/
theorem blankBitmaps_run {q : ℕ} (hn : n ≤ 2 ^ 64)
    (hapart : ∀ j k, j < n → k < n → bitmapAddr p j ≠ bitmapAddr q k) :
    ∃ m₁ m₂, (memset p 0xFF n).run s = .ok () { s with mem := m₁ } ∧
      (memset q 0x00 n).run { s with mem := m₁ } = .ok () { s with mem := m₂ } ∧
      (∀ i, i / 8 < n → bit m₂ (bitmapAddr p) i = true) ∧
      (∀ i, i / 8 < n → bit m₂ (bitmapAddr q) i = false) ∧
      ∀ x, (∀ k, k < n → x ≠ bitmapAddr p k) → (∀ k, k < n → x ≠ bitmapAddr q k) →
        m₂ x = s.mem x := by
  obtain ⟨m₁, hrun₁, hset₁, hother₁⟩ := memset_run (s := s) (p := p) (c := 0xFF) hn
  obtain ⟨m₂, hrun₂, hset₂, hother₂⟩ := memset_run (s := { s with mem := m₁ }) (p := q) (c := 0x00)
    hn
  refine ⟨m₁, m₂, hrun₁, hrun₂, fun i hi => bit_of_ones ?_, fun i hi => bit_of_zeros (hset₂ _ hi),
    fun x hxp hxq => (hother₂ x hxq).trans (hother₁ x hxp)⟩
  -- the second memset leaves the primary bitmap alone
  exact (hother₂ _ fun k hk => hapart _ _ hi hk).trans (hset₁ _ hi)

/-- **The two bitmaps, filled.** -/
theorem fillBitmaps_run {f : ℕ} (hhdm : ℕ) (h : NoWrap entries)
    (hcount : s.bitmapByteCount = mapBytes entries)
    (hpages : s.bitmapPageCount = mapPages entries)
    (hprimary : s.bitmapPhysicalAddress = f * 0x1000)
    (howner : s.ownershipBitmapPhysicalAddress = (f + mapPages entries) * 0x1000)
    (hroom : f + 2 * mapPages entries ≤ mapFrames entries) :
    ∃ s', (fillBitmaps entries hhdm).run s = .ok () s' ∧
      s' = { s with
        mem := s'.mem
        bitmapPointer := wrap (f * 0x1000 + hhdm)
        ownershipBitmapPointer := wrap ((f + mapPages entries) * 0x1000 + hhdm)
        bitmapReady := 1 } ∧
      (∀ i, i / 8 < mapBytes entries → (primaryBit s' i = false ↔
        (∃ e ∈ entries, e.Usable ∧ e.HasFrame i) ∧ ¬ (f ≤ i ∧ i < f + 2 * mapPages entries))) ∧
      (∀ i, i / 8 < mapBytes entries → ownerBit s' i = false) ∧
      ∀ x, ¬ BitmapByte s' x → s'.mem x = s.mem x := by
  have hmap := h.mapFrames_lt
  have hB := mapBytes_le entries
  have hbytes : mapBytes entries ≤ 2 ^ 64 := by
    unfold mapBytes
    omega
  have hP : 2 * mapPages entries * 0x1000 < 2 ^ 64 := by lia
  obtain ⟨p, hpp⟩ : ∃ p, wrap (f * 0x1000 + hhdm) = p := ⟨_, rfl⟩
  obtain ⟨q, hqq⟩ : ∃ q, wrap ((f + mapPages entries) * 0x1000 + hhdm) = q := ⟨_, rfl⟩
  rw [hpp, hqq]
  have hapart : ∀ j k, j < mapBytes entries → k < mapBytes entries →
      bitmapAddr p j ≠ bitmapAddr q k := by
    intro j k hj hk
    rw [← hpp, ← hqq]
    exact bitmapAddr_apart hB hP hj hk
  -- the state before anything is written
  obtain ⟨t, ht⟩ : ∃ t : Kernel, t = { s with bitmapPointer := p, ownershipBitmapPointer := q } :=
    ⟨_, rfl⟩
  obtain ⟨m₁, m₂, hrun₁, hrun₂, hones, hzeros, hother₂⟩ := blankBitmaps_run (s := t) hbytes hapart
  obtain ⟨u, hu⟩ : ∃ u : Kernel, u = { t with mem := m₂ } := ⟨_, rfl⟩
  have hum : u.mem = m₂ := by rw [hu]
  have hup : u.bitmapPointer = p := by rw [hu, ht]
  have huq : u.ownershipBitmapPointer = q := by rw [hu, ht]
  have huB : u.bitmapByteCount = mapBytes entries := by rw [hu, ht, ← hcount]
  have hprim : ∀ i, i / 8 < mapBytes entries → primaryBit u i = true := by
    intro i hi
    unfold primaryBit
    rw [hup, hum]
    exact hones i hi
  have hown : ∀ i, i / 8 < mapBytes entries → ownerBit u i = false := by
    intro i hi
    unfold ownerBit
    rw [huq, hum]
    exact hzeros i hi
  -- the usable frames are freed, then the bitmaps' own are taken back
  obtain ⟨v, hrun₃, hmark₃⟩ := freeEntries_marks h entries u (fun _ he => he) huB
  have hvB : v.bitmapByteCount = mapBytes entries := by rw [hmark₃.statics, huB]
  obtain ⟨w, hrun₄, hmark₄⟩ := storage_marks (n := mapPages entries) (f := f) hvB (by omega) hmap
  have hwB : w.bitmapByteCount = mapBytes entries := by rw [hmark₄.statics, hvB]
  obtain ⟨z, hrun₅, hmark₅⟩ := storage_marks (n := mapPages entries)
    (f := f + mapPages entries) hwB (by omega) hmap
  have hmark := hmark₄.trans hmark₅
  have hvp : v.bitmapPointer = p := by rw [hmark₃.statics, hup]
  have hvq : v.ownershipBitmapPointer = q := by rw [hmark₃.statics, huq]
  refine ⟨{ z with bitmapReady := 1 }, ?_, ?_, fun i hi => ?_, fun i hi => ?_, fun x hx => ?_⟩
  · unfold fillBitmaps
    refine (run_bind_ok (EStateM.run_modify _ _)).trans ?_
    refine (run_bind_ok (EStateM.run_get _)).trans ?_
    dsimp only
    have ht' := ht
    rw [hprimary, howner] at ht'
    rw [hprimary, howner, hpp, hqq, ← ht', hcount, hpages, run_bind_ok hrun₁, run_bind_ok hrun₂,
      ← hu, run_bind_ok hrun₃, run_bind_ok hrun₄, run_bind_ok hrun₅]
    rfl
  · rw [hmark.statics, hmark₃.statics, hu, ht]
  · change primaryBit z i = false ↔ _
    have hstore : (f ≤ i ∧ i < f + 2 * mapPages entries) ↔
        (f ≤ i ∧ i < f + mapPages entries) ∨
          (f + mapPages entries ≤ i ∧ i < f + mapPages entries + mapPages entries) := by omega
    rw [hstore]
    -- taken back wins over freed, and freed over the first fill
    by_cases hin : (f ≤ i ∧ i < f + mapPages entries) ∨
        (f + mapPages entries ≤ i ∧ i < f + mapPages entries + mapPages entries)
    · simp [hmark.on i (hvB ▸ hi) hin, hin]
    · rw [hmark.off i (hvB ▸ hi) hin]
      by_cases hfree : ∃ e ∈ entries, e.Usable ∧ e.HasFrame i
      · simp [hmark₃.on i (huB ▸ hi) hfree, hin, hfree]
      · rw [hmark₃.off i (huB ▸ hi) hfree, hprim i hi]
        simp [hfree]
  · -- the two bitmaps share no byte, so no marking shows in the second
    change ownerBit z i = false
    rw [hmark.ownerBit (by rw [hvB, hvp, hvq]; exact fun k hk => hapart _ _ hk hi),
      hmark₃.ownerBit (by rw [huB, hup, huq]; exact fun k hk => hapart _ _ hk hi)]
    exact hown i hi
  · change z.mem x = s.mem x
    have hzB : z.bitmapByteCount = mapBytes entries := by rw [hmark₅.statics, hwB]
    have hzp : z.bitmapPointer = p := by rw [hmark.statics, hvp]
    have hzq : z.ownershipBitmapPointer = q := by rw [hmark.statics, hvq]
    have hxp : ∀ k, k < mapBytes entries → x ≠ bitmapAddr p k := fun k hk hxk =>
      hx ⟨k, hzB.symm ▸ hk, Or.inl (hzp.symm ▸ hxk)⟩
    have hxq : ∀ k, k < mapBytes entries → x ≠ bitmapAddr q k := fun k hk hxk =>
      hx ⟨k, hzB.symm ▸ hk, Or.inr (hzq.symm ▸ hxk)⟩
    rw [hmark.other x (by rw [hvB, hvp]; exact hxp), hmark₃.other x (by rw [huB, hup]; exact hxp),
      hum]
    exact (hother₂ x hxp hxq).trans (by rw [ht])

/-! ## The whole run -/

/-- Frame `i` is one of the two bitmaps' own. -/
def StorageFrame (s : Kernel) (i : ℕ) : Prop :=
  s.bitmapPhysicalAddress ≤ i * 0x1000 ∧
    i * 0x1000 < s.ownershipBitmapPhysicalAddress + s.bitmapPageCount * 0x1000

/-- **The state `pmm_init` leaves**, from RAM `m` and statics still zero. -/
structure Initialised (entries : List MemmapEntry) (hhdm : ℕ) (m : Mem) (s : Kernel) : Prop where
  frameCount : s.frameCount = mapFrames entries
  byteCount : s.bitmapByteCount = mapBytes entries
  pageCount : s.bitmapPageCount = mapPages entries
  ready : s.bitmapReady = 1
  /-- The storage is the start of the first longest range: the primary
  bitmap's pages, then the ownership bitmap's. -/
  range : ∃ e, FirstLongest entries e ∧ s.pmmBase = e.firstFrame * 0x1000 ∧
    s.pmmEnd = e.endFrame * 0x1000 ∧ s.bitmapPhysicalAddress = e.firstFrame * 0x1000
  /-- `bitmap_byte_count` bytes fit in either. -/
  fits : s.bitmapByteCount ≤ s.bitmapPageCount * 0x1000
  next : s.ownershipBitmapPhysicalAddress =
    s.bitmapPhysicalAddress + s.bitmapPageCount * 0x1000
  bump : s.nextFrameAddress = s.ownershipBitmapPhysicalAddress + s.bitmapPageCount * 0x1000
  room : s.ownershipBitmapPhysicalAddress + s.bitmapPageCount * 0x1000 ≤ s.pmmEnd
  pointer : s.bitmapPointer = wrap (s.bitmapPhysicalAddress + hhdm)
  ownershipPointer : s.ownershipBitmapPointer = wrap (s.ownershipBitmapPhysicalAddress + hhdm)
  primary : ∀ i, i < s.frameCount →
    (primaryBit s i = false ↔ (∃ e ∈ entries, e.Usable ∧ e.HasFrame i) ∧ ¬ StorageFrame s i)
  owner : ∀ i, i < s.frameCount → ownerBit s i = false
  /-- Nothing but the bitmaps is written. -/
  other : ∀ x, ¬ BitmapByte s x → s.mem x = m x
  heap : s.heapReady = 0 ∧ s.heapUsedBytes = 0 ∧ s.heapFrameCount = 0 ∧ s.heapFreeList = 0

/-- The sizes `pmm_init` derives from the highest usable end. -/
theorem NoWrap.sizes (h : NoWrap entries) :
    wrap (mapFrames entries * 0x1000 + 0xFFF) / 0x1000 = mapFrames entries ∧
    wrap (mapFrames entries + 7) / 8 = mapBytes entries ∧
    wrap (mapBytes entries + 0xFFF) / 0x1000 = mapPages entries ∧
    wrap (wrap (mapPages entries * 0x1000) * 2) = 2 * mapPages entries * 0x1000 := by
  have hmap := h.mapFrames_lt
  have hP : mapPages entries ≤ mapFrames entries := by
    unfold mapPages mapBytes
    omega
  have hB : mapBytes entries ≤ mapFrames entries := by
    unfold mapBytes
    omega
  have hPB : mapPages entries * 0x1000 ≤ mapBytes entries + 0xFFF := by
    unfold mapPages
    omega
  refine ⟨?_, ?_, ?_, ?_⟩
  · rw [wrap_of_lt hmap]
    omega
  · rw [wrap_of_lt (by omega)]
    rfl
  · rw [wrap_of_lt (by omega)]
    rfl
  · have hB' : mapBytes entries * 8 ≤ mapFrames entries + 7 := by
      unfold mapBytes
      omega
    rw [wrap_of_lt (n := mapPages entries * 0x1000) (by lia), wrap_of_lt (by lia)]
    lia

theorem FirstLongest.mem (he : FirstLongest entries e) : e ∈ entries ∧ e.Usable := by
  obtain ⟨l₁, l₂, rfl, hu, -, -⟩ := he
  exact ⟨by simp, hu⟩

theorem FirstLongest.wholeLength_eq (he : FirstLongest entries e) :
    e.wholeLength = longestRange entries := by
  obtain ⟨l₁, l₂, -, -, hl, -⟩ := he
  exact hl

/-- **With a whole frame and room for both bitmaps `pmm_init` returns.** -/
theorem pmmInit_run (hhdm : ℕ) (m : Mem) (h : MapSane entries) (hwhole : HasFrames entries)
    (hroom : RoomForBitmaps entries) :
    ∃ s, (pmmInit entries hhdm).run { mem := m } = .ok () s ∧ Initialised entries hhdm m s := by
  obtain ⟨hzero, -⟩ | ⟨e, hfirst, -, hbase, hend, hlength⟩ := h.scan_longest
  · exact absurd hzero (longestRange_pos hwhole).ne'
  have hhigh : (entries.foldl RangeScan.step {}).highestUsableEnd = mapFrames entries * 0x1000 :=
    (h.noWrap.scan_highest {}).trans (Nat.zero_max _)
  obtain ⟨hframes, hbytes, hpages, hdouble⟩ := h.noWrap.sizes
  obtain ⟨hmem, husable⟩ := hfirst.mem
  have hend_lt := h.noWrap.endFrame_lt hmem husable
  have hle := endFrame_le_mapFrames hmem husable
  have hpos := mapFrames_pos hwhole
  have hP : 0 < mapPages entries := by
    unfold mapPages mapBytes
    omega
  -- the longest range is the one the bump allocator works in
  have hfit : e.firstFrame + 2 * mapPages entries ≤ e.endFrame := by
    have hwhole := hfirst.wholeLength_eq
    unfold RoomForBitmaps at hroom
    unfold MemmapEntry.wholeLength at hwhole
    omega
  -- the state once the sizes are known
  obtain ⟨t, ht⟩ : ∃ t : Kernel, t = {
      mem := m
      frameCount := mapFrames entries
      bitmapByteCount := mapBytes entries
      bitmapPageCount := mapPages entries } := ⟨_, rfl⟩
  have htP : t.bitmapPageCount = mapPages entries := by rw [ht]
  have htake := takeBitmapFrames_run (s := t) (f := e.firstFrame) (g := e.endFrame) (by rw [ht])
    htP hP hbase hend (lt_of_le_of_lt (Nat.le_add_right _ _) hend_lt) hfit
  obtain ⟨u, hu⟩ : ∃ u : Kernel, u = { t with
      pmmBase := e.firstFrame * 0x1000
      pmmEnd := e.endFrame * 0x1000
      nextFrameAddress := (e.firstFrame + 2 * mapPages entries) * 0x1000
      bitmapPhysicalAddress := e.firstFrame * 0x1000
      ownershipBitmapPhysicalAddress := (e.firstFrame + mapPages entries) * 0x1000 } := ⟨_, rfl⟩
  rw [← hu] at htake
  obtain ⟨s, hrun, hstatics, hprimary, howner, hother⟩ := fillBitmaps_run (s := u)
    (f := e.firstFrame) hhdm h.noWrap (by rw [hu, ht]) (by rw [hu, htP]) (by rw [hu]) (by rw [hu]) (by omega)
  have hbyte : ∀ i, i < mapFrames entries → i / 8 < mapBytes entries := by
    intro i hi
    unfold mapBytes
    omega
  have hcount : s.frameCount = mapFrames entries := by rw [hstatics, hu, ht]
  refine ⟨s, ?_, ?_⟩
  · unfold pmmInit
    dsimp only
    rw [hhigh, hframes, hbytes, hpages, hlength, hdouble]
    refine (run_bind_ok (EStateM.run_modify _ _)).trans ?_
    dsimp only
    rw [if_neg (not_lt.2 hroom), ← ht, run_bind_ok htake, hrun]
  · have hbitmap : s.bitmapPhysicalAddress = e.firstFrame * 0x1000 := by rw [hstatics, hu]
    have hownership : s.ownershipBitmapPhysicalAddress =
        (e.firstFrame + mapPages entries) * 0x1000 := by rw [hstatics, hu]
    have hpage : s.bitmapPageCount = mapPages entries := by rw [hstatics, hu, htP]
    have hstorage : ∀ i, StorageFrame s i ↔
        e.firstFrame ≤ i ∧ i < e.firstFrame + 2 * mapPages entries := by
      intro i
      unfold StorageFrame
      rw [hbitmap, hownership, hpage]
      omega
    refine {
      frameCount := hcount
      byteCount := by rw [hstatics, hu, ht]
      pageCount := hpage
      ready := by rw [hstatics]
      range := ⟨e, hfirst, by rw [hstatics, hu], by rw [hstatics, hu], hbitmap⟩
      fits := by rw [hpage, hstatics, hu, ht]; exact mapBytes_le entries
      next := by rw [hownership, hbitmap, hpage]; omega
      bump := by rw [hownership, hpage, hstatics, hu]; dsimp only; omega
      room := by rw [hownership, hpage, hstatics, hu]; dsimp only; omega
      pointer := by rw [hbitmap, hstatics]
      ownershipPointer := by rw [hownership, hstatics]
      primary := fun i hi => ?_
      owner := fun i hi => howner i (hbyte i (hcount ▸ hi))
      other := fun x hx => ?_
      heap := by rw [hstatics, hu, ht]; exact ⟨rfl, rfl, rfl, rfl⟩ }
    · rw [hprimary i (hbyte i (hcount ▸ hi)), hstorage]
    · rw [hother x hx, hu, ht]

/-- **And panics otherwise.** -/
theorem pmmInit_panics (hhdm : ℕ) (m : Mem) (h : MapSane entries)
    (hno : ¬ (HasFrames entries ∧ RoomForBitmaps entries)) :
    ∃ message s, (pmmInit entries hhdm).run { mem := m } = .error (.panic message) s := by
  obtain ⟨hframes, hbytes, hpages, hdouble⟩ := h.noWrap.sizes
  have hhigh : (entries.foldl RangeScan.step {}).highestUsableEnd = mapFrames entries * 0x1000 :=
    (h.noWrap.scan_highest {}).trans (Nat.zero_max _)
  have hlength : (entries.foldl RangeScan.step {}).largestUsableLength = longestRange entries := by
    obtain ⟨hzero, -, -, hlength⟩ | ⟨e, -, -, -, -, hlength⟩ := h.scan_longest
    · exact hlength.trans hzero.symm
    · exact hlength
  by_cases hroom : RoomForBitmaps entries
  swap
  · unfold pmmInit
    dsimp only
    rw [hhigh, hframes, hbytes, hpages, hlength, hdouble]
    rw [run_bind_ok (EStateM.run_modify _ _), if_pos (not_le.1 hroom)]
    exact ⟨_, _, rfl⟩
  · -- no frame is whole, so the range is empty and the first frame runs out
    have hlong := longestRange_eq_zero fun hwhole => hno ⟨hwhole, hroom⟩
    obtain ⟨-, hbase, hend, -⟩ | ⟨e, -, hlt, -⟩ := h.scan_longest
    · unfold pmmInit
      dsimp only
      rw [hhigh, hframes, hbytes, hpages, hlength, hdouble]
      rw [run_bind_ok (EStateM.run_modify _ _), if_neg (not_lt.2 hroom)]
      unfold takeBitmapFrames
      rw [hbase, hend]
      exact ⟨_, _, run_bind_error ((run_bind_ok (EStateM.run_modify _ _)).trans
        (run_bind_error (pmmAllocateFrame_bump_none rfl (show 0 < wrap (0 + 0x1000) by decide))))⟩
    · rw [hlong] at hlt
      exact absurd hlt (lt_irrefl 0)

/-- It returns exactly when both hold. -/
theorem pmmInit_returns_iff (hhdm : ℕ) (m : Mem) (h : MapSane entries) :
    (∃ s, (pmmInit entries hhdm).run { mem := m } = .ok () s) ↔
      HasFrames entries ∧ RoomForBitmaps entries := by
  constructor
  · rintro ⟨s, hs⟩
    by_contra hno
    obtain ⟨message, s', hrun⟩ := pmmInit_panics hhdm m h hno
    rw [hrun] at hs
    cases hs
  · rintro ⟨hwhole, hroom⟩
    obtain ⟨s, hrun, -⟩ := pmmInit_run hhdm m h hwhole hroom
    exact ⟨s, hrun⟩

/-- **What a call of `pmm_init` that returns leaves.** -/
theorem of_pmmInit (h : MapSane entries)
    (hrun : (pmmInit entries hhdm).run { mem := m } = .ok () s) : Initialised entries hhdm m s := by
  obtain ⟨hwhole, hroom⟩ := (pmmInit_returns_iff hhdm m h).1 ⟨s, hrun⟩
  obtain ⟨s', hrun', hinit⟩ := pmmInit_run hhdm m h hwhole hroom
  rw [hrun] at hrun'
  cases hrun'
  exact hinit

/-- **`pmm_init` computes exactly the initial state.** It returns exactly
when some entry is usable and the longest range has room for both bitmaps;
what it leaves is `Initialised`; and whatever stops it is a panic, so no
bitmap byte beyond `bitmap_byte_count` is touched. -/
theorem pmmInit_exact (entries : List MemmapEntry) (hhdm : ℕ) (m : Mem) (h : MapOk entries) :
    ((∃ s, (pmmInit entries hhdm).run { mem := m } = .ok () s) ↔
      HasUsable entries ∧ RoomForBitmaps entries) ∧
    (∀ s, (pmmInit entries hhdm).run { mem := m } = .ok () s → Initialised entries hhdm m s) ∧
    ∀ e s, (pmmInit entries hhdm).run { mem := m } = .error e s → ∃ message, e = .panic message := by
  have hreturns : (∃ s, (pmmInit entries hhdm).run { mem := m } = .ok () s) ↔
      HasUsable entries ∧ RoomForBitmaps entries := by
    rw [pmmInit_returns_iff hhdm m h.sane, h.hasFrames_iff]
  refine ⟨hreturns, fun s hs => of_pmmInit h.sane hs, fun e s hs => ?_⟩
  have hno : ¬ (HasFrames entries ∧ RoomForBitmaps entries) := by
    intro hyes
    obtain ⟨s', hrun⟩ := (pmmInit_returns_iff hhdm m h.sane).2 hyes
    rw [hrun] at hs
    cases hs
  obtain ⟨message, s', hrun⟩ := pmmInit_panics hhdm m h.sane hno
  rw [hrun] at hs
  cases hs
  exact ⟨message, rfl⟩

/-- A map with a reserved hole between two usable ranges. -/
def sampleMap : List MemmapEntry :=
  [⟨0x1800, 0x4000, 0⟩, ⟨0x6000, 0x2000, 1⟩, ⟨0x8000, 0x9000, 0⟩]

/-- RAM that was never written. -/
def blankMem : Mem := fun _ => 0

theorem sampleMap_ok : MapOk sampleMap where
  frame e he hu := by
    simp only [sampleMap, List.mem_cons, List.not_mem_nil, or_false] at he
    rcases he with rfl | rfl | rfl
    · exact ⟨2, by decide, by decide⟩
    · exact absurd hu (by decide)
    · exact ⟨8, by decide, by decide⟩
  noWrap e he hu := by
    simp only [sampleMap, List.mem_cons, List.not_mem_nil, or_false] at he
    rcases he with rfl | rfl | rfl <;> decide

/-- On that map it returns. -/
theorem pmmInit_exact_sampleMap :
    ∃ s, (pmmInit sampleMap 0).run { mem := blankMem } = .ok () s ∧
      Initialised sampleMap 0 blankMem s := by
  obtain ⟨s, hrun⟩ := (pmmInit_exact sampleMap 0 blankMem sampleMap_ok).1.2
    ⟨⟨_, List.mem_cons_self, rfl⟩, by unfold RoomForBitmaps; decide⟩
  exact ⟨s, hrun, (pmmInit_exact sampleMap 0 blankMem sampleMap_ok).2.1 s hrun⟩

end KbmOs
