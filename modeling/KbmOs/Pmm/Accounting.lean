import KbmOs.Lib.Runs
import KbmOs.Pmm.Ranges
import KbmOs.Pmm.Run
/-!
# Counting and undoing

Every call of `pmm_allocate_frame` and `pmm_free_frame` moves one frame
between the free ones and the outstanding ones, so the scan of
`pmm_get_free_frame_count` and the outstanding frames always make up what
`pmm_init` left. Both bits of the frame are what a call changes, and no bit
beside them; so a call is undone byte for byte by its opposite, and frees
can be made in any order.
-/

namespace KbmOs

open ByteMemory PackedBits LabelledRuns

variable {entries : List MemmapEntry} {hhdm i j n a : ℕ} {m : Mem} {s s' : Kernel}

/-! ## Undoing -/

/-- **Taking back a frame that was given out restores the state.** -/
theorem releaseFrame_claimFrame (hs : PmmInv s) (hi : i < s.frameCount)
    (hfree : frameState s i = .free) : releaseFrame (claimFrame s i) i = s := by
  have hprimary : primaryBit s i = false := frameState_eq_free.1 hfree
  have howner : ownerBit s i = false := hs.unowned i hi hprimary
  have hapart := hs.apart (i / 8) (i / 8) (hs.byte_lt hi) (hs.byte_lt hi)
  have hmem : (releaseFrame (claimFrame s i) i).mem = s.mem := by
    unfold releaseFrame claimFrame
    dsimp only
    rw [clearBit_setBit_comm hapart, clearBit_setBit howner]
    exact clearBit_setBit hprimary
  show { s with mem := (releaseFrame (claimFrame s i) i).mem } = s
  rw [hmem]

/-- **Two frames can be taken back in either order.** -/
theorem releaseFrame_comm (s : Kernel) (i j : ℕ) :
    releaseFrame (releaseFrame s i) j = releaseFrame (releaseFrame s j) i := by
  unfold releaseFrame
  dsimp only
  congr 1
  rw [clearBit_comm _ _ (bitmapAddr s.ownershipBitmapPointer) i j,
    clearBit_comm s.mem _ _ i j,
    clearBit_comm _ (bitmapAddr s.bitmapPointer) (bitmapAddr s.bitmapPointer) i j,
    clearBit_comm _ (bitmapAddr s.ownershipBitmapPointer) (bitmapAddr s.bitmapPointer) i j]

/-! ## Counting -/

/-- The frames below `n` whose primary bit is clear. -/
def freeBelow (s : Kernel) : ℕ → ℕ
  | 0 => 0
  | n + 1 => freeBelow s n + if primaryBit s n = false then 1 else 0

theorem freeBelow_le (s : Kernel) (n : ℕ) : freeBelow s n ≤ n := by
  induction n with
  | zero => exact le_rfl
  | succ n ih =>
    unfold freeBelow
    split <;> omega

/-- **The scan counts them.** -/
theorem countFree_run (hs : PmmInv s) (hn : n ≤ s.frameCount) :
    (countFree n 0).run s = .ok (freeBelow s n) s := by
  have hframes := hs.frames
  induction n with
  | zero => rfl
  | succ n ih =>
    have haddr : wrap (n * 0x1000) = n * 0x1000 := wrap_of_lt (by lia)
    have hidx : n * 0x1000 / 0x1000 = n := by omega
    have hbyte : n * 0x1000 / 0x1000 / 8 < s.bitmapByteCount := by
      rw [hidx]
      exact hs.byte_lt (by omega)
    have hle := freeBelow_le s n
    unfold countFree freeBelow
    rw [run_bind_ok (ih (by omega)), haddr, run_bind_ok (isFrameFree_run hbyte), hidx]
    by_cases hprimary : primaryBit s n = false
    · have hclear : (if bit s.mem (bitmapAddr s.bitmapPointer) n = false then 1 else 0) = 1 :=
        if_pos hprimary
      rw [if_pos hprimary, hclear, if_pos rfl, wrap_of_lt (by lia)]
      rfl
    · have hset : (if bit s.mem (bitmapAddr s.bitmapPointer) n = false then 1 else 0) = 0 :=
        if_neg hprimary
      rw [if_neg hprimary, hset, if_neg Nat.zero_ne_one]
      rfl

theorem pmmGetFreeFrameCount_run (hs : PmmInv s) :
    pmmGetFreeFrameCount.run s = .ok (freeBelow s s.frameCount) s := by
  unfold pmmGetFreeFrameCount
  rw [run_bind_ok (EStateM.run_get s)]
  exact countFree_run hs le_rfl

/-- One frame fewer, from the frame on. -/
theorem freeBelow_claimFrame (hs : PmmInv s) (hi : i < s.frameCount)
    (hfree : frameState s i = .free) (hn : n ≤ s.frameCount) :
    freeBelow (claimFrame s i) n + (if i < n then 1 else 0) = freeBelow s n := by
  have hprimary : primaryBit s i = false := frameState_eq_free.1 hfree
  induction n with
  | zero => rfl
  | succ n ih =>
    have ih := ih (by omega)
    unfold freeBelow
    rw [primaryBit_claimFrame hs hi (by omega)]
    obtain hlt | rfl | hgt := lt_trichotomy i n
    · rw [decide_eq_false (by omega), Bool.false_or, if_pos (show i < n + 1 by omega)]
      rw [if_pos hlt] at ih
      omega
    · rw [if_neg (lt_irrefl i)] at ih
      simp [hprimary]
      omega
    · rw [decide_eq_false (by omega), Bool.false_or, if_neg (show ¬i < n + 1 by omega)]
      rw [if_neg (by omega)] at ih
      omega

/-- One frame more. -/
theorem freeBelow_releaseFrame (hs : PmmInv s) (hi : i < s.frameCount)
    (howned : frameState s i = .owned) (hn : n ≤ s.frameCount) :
    freeBelow (releaseFrame s i) n = freeBelow s n + (if i < n then 1 else 0) := by
  have hprimary : ¬primaryBit s i = false := by
    intro hclear
    rw [frameState_eq_free.2 hclear] at howned
    cases howned
  induction n with
  | zero => rfl
  | succ n ih =>
    have ih := ih (by omega)
    unfold freeBelow
    rw [primaryBit_releaseFrame hs hi (by omega)]
    obtain hlt | rfl | hgt := lt_trichotomy i n
    · rw [decide_eq_false (by omega), Bool.not_false, Bool.true_and, if_pos (show i < n + 1 by omega)]
      rw [if_pos hlt] at ih
      omega
    · rw [if_neg (lt_irrefl i)] at ih
      simp [hprimary]
      omega
    · rw [decide_eq_false (by omega), Bool.not_false, Bool.true_and, if_neg (show ¬i < n + 1 by omega)]
      rw [if_neg (by omega)] at ih
      omega

/-- What is not PMM's does not change the count. -/
theorem SamePmm.freeBelow (h : SamePmm s s') (hs : PmmInv s) (hn : n ≤ s.frameCount) :
    freeBelow s' n = freeBelow s n := by
  induction n with
  | zero => rfl
  | succ n ih =>
    unfold KbmOs.freeBelow
    rw [(h.bits hs (by omega)).1, ih (by omega)]

/-! ## Runs -/

/-- What happens after `pmm_init`. -/
inductive PmmCall
  | allocated (a : ℕ)
  | freed (a : ℕ)
  /-- The rest of the kernel runs, and writes what it owns. -/
  | elsewhere

/-- A call that returns, or something that leaves PMM alone. -/
inductive PmmCalls : Kernel → PmmCall → Kernel → Prop
  | allocated {s s' : Kernel} {a : ℕ} (h : pmmAllocateFrame.run s = .ok a s') :
      PmmCalls s (.allocated a) s'
  | freed {s s' : Kernel} {a : ℕ} (h : (pmmFreeFrame a).run s = .ok () s') :
      PmmCalls s (.freed a) s'
  | elsewhere {s s' : Kernel} (h : SamePmm s s') : PmmCalls s .elsewhere s'

/-- The outstanding addresses after one more call. -/
def outstandingAfter (held : List ℕ) : PmmCall → List ℕ
  | .allocated a => a :: held
  | .freed a => held.erase a
  | .elsewhere => held

/-- **The outstanding frames**: allocated and not freed since. -/
def outstanding (calls : List PmmCall) : List ℕ := calls.foldl outstandingAfter []

theorem outstanding_concat (calls : List PmmCall) (call : PmmCall) :
    outstanding (calls ++ [call]) = outstandingAfter (outstanding calls) call := by
  unfold outstanding
  rw [List.foldl_append]
  rfl

variable {s₀ : Kernel} {calls : List PmmCall} {call : PmmCall} {held l l' : List ℕ}

/-- The outstanding frames are the owned ones, and make up the count. -/
structure Accounted (s₀ s : Kernel) (held : List ℕ) : Prop where
  inv : PmmInv s
  frameCount : s.frameCount = s₀.frameCount
  nodup : held.Nodup
  mem_iff : ∀ a, a ∈ held ↔ OwnedAddress s a
  count : freeBelow s s.frameCount + held.length = freeBelow s₀ s₀.frameCount

theorem ownedAddress_claimFrame (hs : PmmInv s) (hi : i < s.frameCount) :
    OwnedAddress (claimFrame s i) a ↔ a = i * 0x1000 ∨ OwnedAddress s a := by
  unfold OwnedAddress
  show _ ∧ a / 0x1000 < s.frameCount ∧ _ ↔ _
  constructor
  · rintro ⟨haligned, hlt, howned⟩
    rw [frameState_claimFrame hs hi hlt] at howned
    by_cases hsame : a / 0x1000 = i
    · exact Or.inl (by omega)
    · rw [if_neg hsame] at howned
      exact Or.inr ⟨haligned, hlt, howned⟩
  · rintro (rfl | ⟨haligned, hlt, howned⟩)
    · have hidx : i * 0x1000 / 0x1000 = i := by omega
      rw [hidx, frameState_claimFrame hs hi hi, if_pos rfl]
      exact ⟨by omega, hi, rfl⟩
    · rw [frameState_claimFrame hs hi hlt, howned, ite_self]
      exact ⟨haligned, hlt, rfl⟩

theorem ownedAddress_releaseFrame (hs : PmmInv s) {b : ℕ} (hb : OwnedAddress s b) :
    OwnedAddress (releaseFrame s (b / 0x1000)) a ↔ a ≠ b ∧ OwnedAddress s a := by
  obtain ⟨hbAligned, hbLt, -⟩ := hb
  unfold OwnedAddress
  show _ ∧ a / 0x1000 < s.frameCount ∧ _ ↔ _
  constructor
  · rintro ⟨haligned, hlt, howned⟩
    rw [frameState_releaseFrame hs hbLt hlt] at howned
    by_cases hsame : a / 0x1000 = b / 0x1000
    · rw [if_pos hsame] at howned
      cases howned
    · rw [if_neg hsame] at howned
      exact ⟨fun heq => hsame (by rw [heq]), haligned, hlt, howned⟩
  · rintro ⟨hne, haligned, hlt, howned⟩
    rw [frameState_releaseFrame hs hbLt hlt, if_neg (by omega)]
    exact ⟨haligned, hlt, howned⟩

/-- **Every call keeps the account.** -/
theorem Accounted.step (h : Accounted s₀ s held) (hstep : PmmCalls s call s') :
    Accounted s₀ s' (outstandingAfter held call) := by
  cases hstep with
  | allocated hrun =>
    obtain ⟨i, hi, rfl, rfl⟩ := of_pmmAllocateFrame h.inv hrun
    have hcount := freeBelow_claimFrame h.inv hi.lt hi.free (le_refl s.frameCount)
    rw [if_pos hi.lt] at hcount
    have hnew : i * 0x1000 ∉ held := by
      intro hmem
      have howned := ((h.mem_iff _).1 hmem).2.2
      rw [show i * 0x1000 / 0x1000 = i by omega, hi.free] at howned
      cases howned
    refine ⟨h.inv.claim hi.lt hi.free, h.frameCount, List.nodup_cons.2 ⟨hnew, h.nodup⟩,
      fun a => ?_, ?_⟩
    · rw [outstandingAfter, List.mem_cons, ownedAddress_claimFrame h.inv hi.lt, h.mem_iff a]
    · have hbefore := h.count
      show freeBelow (claimFrame s i) s.frameCount + (held.length + 1) = _
      omega
  | freed hrun =>
    obtain ⟨hb, rfl⟩ := of_pmmFreeFrame h.inv hrun
    rename_i b
    have hcount := freeBelow_releaseFrame h.inv hb.2.1 hb.2.2 (le_refl s.frameCount)
    rw [if_pos hb.2.1] at hcount
    have hmem : b ∈ held := (h.mem_iff b).2 hb
    refine ⟨h.inv.release hb.2.1 hb.2.2, h.frameCount, h.nodup.erase b, fun a => ?_, ?_⟩
    · rw [outstandingAfter, h.nodup.mem_erase_iff, ownedAddress_releaseFrame h.inv hb, h.mem_iff a]
    · have hbefore := h.count
      have hlength := List.length_erase_of_mem hmem
      have hpos := List.length_pos_of_mem hmem
      show freeBelow (releaseFrame s (b / 0x1000)) s.frameCount + (held.erase b).length = _
      omega
  | elsewhere hsame =>
    have hframes := hsame.frameCount_eq
    refine ⟨hsame.pmmInv h.inv, hframes.trans h.frameCount, h.nodup, fun a => ?_, ?_⟩
    · rw [outstandingAfter, h.mem_iff a]
      unfold OwnedAddress
      rw [hframes]
      refine and_congr_right fun _ => and_congr_right fun hlt => ?_
      rw [hsame.frameState h.inv hlt]
    · rw [hframes, hsame.freeBelow h.inv le_rfl]
      exact h.count

/-- **And so does every run.** -/
theorem Accounted.run (h : Accounted s₀ s₀ []) (hrun : Run PmmCalls s₀ calls s) :
    Accounted s₀ s (outstanding calls) := by
  induction hrun with
  | nil => exact h
  | snoc _ hstep ih =>
    rw [outstanding_concat]
    exact ih.step hstep

/-- Outstanding frames are all taken back, one after the other. -/
theorem Accounted.freeAll_run (h : Accounted s₀ s held) (hl : l.Nodup) (hmem : ∀ a ∈ l, a ∈ held) :
    (l.forM pmmFreeFrame).run s =
      .ok () (l.foldl (fun t a => releaseFrame t (a / 0x1000)) s) := by
  induction l generalizing s held with
  | nil => rfl
  | cons b l ih =>
    obtain ⟨hb, hl⟩ := List.nodup_cons.1 hl
    have howned : OwnedAddress s b := (h.mem_iff b).1 (hmem b List.mem_cons_self)
    have hfree := pmmFreeFrame_owned h.inv howned
    show (pmmFreeFrame b >>= fun _ => l.forM pmmFreeFrame).run s = _
    rw [run_bind_ok hfree]
    refine ih (h.step (.freed hfree)) hl fun a ha => ?_
    refine h.nodup.mem_erase_iff.2 ⟨fun hab => hb (hab ▸ ha), hmem a (List.mem_cons_of_mem b ha)⟩

/-! ## From `pmm_init` on -/

/-- At the start nothing is outstanding. -/
theorem Initialised.accounted (h : MapSane entries) (hs : Initialised entries hhdm m s) :
    Accounted s s [] where
  inv := hs.pmmInv h
  frameCount := rfl
  nodup := List.nodup_nil
  mem_iff _ := ⟨fun ha => (by cases ha), fun how => absurd how (hs.not_owned h)⟩
  count := rfl

/-- The range the scan keeps starts where a usable entry does. -/
theorem scan_base_lt (htop : ∀ e ∈ entries, e.Usable → e.base + e.length + 0x1FFF < 2 ^ 64)
    {scan : RangeScan} (hscan : scan.largestUsableBase + 0x1000 < 2 ^ 64) :
    (entries.foldl RangeScan.step scan).largestUsableBase + 0x1000 < 2 ^ 64 := by
  induction entries generalizing scan with
  | nil => exact hscan
  | cons e entries ih =>
    refine ih (fun e' he' => htop e' (List.mem_cons_of_mem _ he')) ?_
    have hno : NoWrap (e :: entries) := fun e' he' hu' => by
      have := htop e' he' hu'
      omega
    by_cases hu : e.Usable
    · have hlast := htop e List.mem_cons_self hu
      obtain ⟨-, ⟨-, hbase, -⟩ | ⟨-, hbase, -⟩⟩ := hno.step_usable List.mem_cons_self hu scan
      · rw [hbase]
        exact hscan
      · rw [hbase]
        unfold MemmapEntry.firstFrame
        omega
    · rw [RangeScan.step_unusable hu]
      exact hscan

/-- **A map that `pmm_init` returns on is sane**: an upside-down range has no
first frame. -/
theorem MapSane.of_returns (htop : ∀ e ∈ entries, e.Usable → e.base + e.length + 0x1FFF < 2 ^ 64)
    (hinit : (pmmInit entries hhdm).run { mem := m } = .ok () s) : MapSane entries := by
  have hno : NoWrap entries := fun e he hu => by
    have := htop e he hu
    omega
  refine ⟨?_, hno⟩
  by_contra hshown
  obtain ⟨-, hdown⟩ := hno.upsideDown hshown
  have hbase := scan_base_lt htop (show ({} : RangeScan).largestUsableBase + 0x1000 < 2 ^ 64 by decide)
  have hempty : (entries.foldl RangeScan.step {}).largestUsableEnd <
      wrap ((entries.foldl RangeScan.step {}).largestUsableBase + 0x1000) := by
    rw [wrap_of_lt hbase]
    omega
  unfold pmmInit at hinit
  dsimp only at hinit
  rw [run_bind_ok (EStateM.run_modify _ _)] at hinit
  split at hinit
  · cases hinit
  · unfold takeBitmapFrames at hinit
    rw [run_bind_error ((run_bind_ok (EStateM.run_modify _ _)).trans
      (run_bind_error (pmmAllocateFrame_bump_none rfl hempty)))] at hinit
    cases hinit

/-- **Every frame is accounted for, and every call can be undone.** In each
state after a `pmm_init` that returns: the free frames and the outstanding
ones make up the free frames of the start; a frame that is allocated and
freed leaves the state as it was, so that it is the next to be allocated;
and outstanding frames freed in two orders leave one state. -/
theorem pmm_accounting (entries : List MemmapEntry) (hhdm : ℕ) (m : Mem) (s₀ s : Kernel)
    (calls : List PmmCall)
    (htop : ∀ e ∈ entries, e.Usable → e.base + e.length + 0x1FFF < 2 ^ 64)
    (hinit : (pmmInit entries hhdm).run { mem := m } = .ok () s₀)
    (hrun : Run PmmCalls s₀ calls s) :
    (∃ count₀ count, pmmGetFreeFrameCount.run s₀ = .ok count₀ s₀ ∧
      pmmGetFreeFrameCount.run s = .ok count s ∧ count = count₀ - (outstanding calls).length ∧
      (outstanding calls).length ≤ count₀) ∧
    (∀ a s', pmmAllocateFrame.run s = .ok a s' →
      ∃ s'', (pmmFreeFrame a).run s' = .ok () s'' ∧ s'' = s ∧
        pmmAllocateFrame.run s'' = .ok a s') ∧
    ∀ l l' : List ℕ, l.Nodup → (∀ a ∈ l, a ∈ outstanding calls) → l.Perm l' →
      ∃ t, (l.forM pmmFreeFrame).run s = .ok () t ∧ (l'.forM pmmFreeFrame).run s = .ok () t := by
  have hsane := MapSane.of_returns htop hinit
  have hs₀ := of_pmmInit hsane hinit
  have hall := (hs₀.accounted hsane).run hrun
  refine ⟨⟨_, _, pmmGetFreeFrameCount_run (hs₀.pmmInv hsane),
      pmmGetFreeFrameCount_run hall.inv, ?_, ?_⟩,
    fun a s' halloc => ?_, fun l l' hl hmem hperm => ?_⟩
  · have hcount := hall.count
    omega
  · have hcount := hall.count
    omega
  · obtain ⟨i, hi, rfl, rfl⟩ := of_pmmAllocateFrame hall.inv halloc
    have hidx : i * 0x1000 / 0x1000 = i := by omega
    have howned : OwnedAddress (claimFrame s i) (i * 0x1000) :=
      (ownedAddress_claimFrame hall.inv hi.lt).2 (Or.inl rfl)
    have hfree := pmmFreeFrame_owned (hall.inv.claim hi.lt hi.free) howned
    rw [hidx, releaseFrame_claimFrame hall.inv hi.lt hi.free] at hfree
    exact ⟨s, hfree, rfl, halloc⟩
  · refine ⟨_, hall.freeAll_run hl hmem, ?_⟩
    rw [hall.freeAll_run (hperm.nodup hl) fun a ha => hmem a (hperm.mem_iff.2 ha)]
    rw [hperm.foldl_eq' fun a _ b _ t => releaseFrame_comm t (a / 0x1000) (b / 0x1000)]

/-- On the sample map the first frame can be given out, which leaves one fewer
in the count, and taken back. -/
theorem pmm_accounting_sampleMap :
    ∃ s₀ s a count, (pmmInit sampleMap 0).run { mem := blankMem } = .ok () s₀ ∧
      pmmAllocateFrame.run s₀ = .ok a s ∧ (pmmFreeFrame a).run s = .ok () s₀ ∧
      pmmGetFreeFrameCount.run s₀ = .ok (count + 1) s₀ ∧
      pmmGetFreeFrameCount.run s = .ok count s := by
  obtain ⟨s₀, hrun, hinit⟩ := pmmInit_run 0 blankMem sampleMap_ok.sane
    (sampleMap_ok.hasFrames_iff.2 ⟨_, List.mem_cons_self, rfl⟩) (by unfold RoomForBitmaps; decide)
  have htop : ∀ e ∈ sampleMap, e.Usable → e.base + e.length + 0x1FFF < 2 ^ 64 := by decide
  obtain ⟨hlt, hfree⟩ := hinit.sample_free (i := 2) (by decide)
  obtain ⟨i, hi⟩ | hnone := lowestFree_or_none s₀
  swap
  · exact absurd hfree (hnone 2 hlt)
  have halloc := pmmAllocateFrame_found (hinit.pmmInv sampleMap_ok.sane) hi
  obtain ⟨-, hundo, -⟩ := pmm_accounting sampleMap 0 blankMem s₀ s₀ [] htop hrun .nil
  obtain ⟨⟨count₀, count, hcount₀, hcount, hless, hle⟩, -⟩ := pmm_accounting sampleMap 0 blankMem s₀ _
    [.allocated (i * 0x1000)] htop hrun (.snoc .nil (.allocated halloc))
  obtain ⟨_, hback, rfl, -⟩ := hundo _ _ halloc
  have hone : (outstanding [.allocated (i * 0x1000)]).length = 1 := rfl
  obtain rfl : count₀ = count + 1 := by omega
  exact ⟨_, _, _, count, hrun, halloc, hback, hcount₀, hcount⟩

end KbmOs
