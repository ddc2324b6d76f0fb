import KbmOs.Pmm.Init
/-!
# Usable entries that hold no whole frame

The scan of `pmm_init` subtracts an entry's rounded start from its rounded
end without comparing them. An entry strictly inside a frame is measured at
`2 ^ 64 - 4096` bytes: it is chosen before every other entry but one that
really is so long, and the first frame of the range cannot be taken from it.
An entry across the edge of two frames is measured at nothing, but its end
counts as the highest usable address, and the bitmaps grow with it. Without
such entries the scan is right.
-/

namespace KbmOs

open ByteMemory

variable {e e' : MemmapEntry} {entries : List MemmapEntry} {scan : RangeScan}

/-- A usable entry without a whole frame. -/
def MemmapEntry.Small (e : MemmapEntry) : Prop := e.Usable ∧ e.endFrame ≤ e.firstFrame

instance (e : MemmapEntry) : Decidable e.Small := inferInstanceAs (Decidable (_ ∧ _))

/-- The map without them. -/
def withoutSmall (entries : List MemmapEntry) : List MemmapEntry :=
  entries.filter fun e => ¬e.Small

theorem mem_withoutSmall : e ∈ withoutSmall entries ↔ e ∈ entries ∧ ¬e.Small := by
  unfold withoutSmall
  rw [List.mem_filter, decide_eq_true_eq]

/-! ## A sliver in sight -/

/-- The scan holds a range that ends below its start. -/
def RangeScan.UpsideDown (scan : RangeScan) : Prop :=
  scan.largestUsableLength = sliverLength ∧ scan.largestUsableEnd < scan.largestUsableBase

/-- No entry is measured longer than a sliver. -/
theorem NoWrap.usableLength_le (h : NoWrap entries) (he : e ∈ entries) (hu : e.Usable) :
    wrapSub e.usableEnd e.usableBase ≤ sliverLength := by
  by_cases hsliver : e.Sliver
  · exact le_of_eq (h.usableLength_sliver he hsliver).2.1
  · rw [h.usableLength_eq he hu hsliver]
    exact h.wholeLength_le he hu

/-- So an upside-down range is kept to the end of the map. -/
theorem NoWrap.upsideDown_keeps (h : NoWrap entries) (hscan : scan.UpsideDown) :
    (entries.foldl RangeScan.step scan).UpsideDown := by
  induction entries generalizing scan with
  | nil => exact hscan
  | cons e entries ih =>
    refine ih h.tail ?_
    by_cases hu : e.Usable
    · have hle := h.usableLength_le List.mem_cons_self hu
      obtain ⟨-, ⟨-, hbase, hend, hlength⟩ | ⟨hlt, -⟩⟩ := h.step_usable List.mem_cons_self hu scan
      · unfold RangeScan.UpsideDown
        rw [hbase, hend, hlength]
        exact hscan
      · rw [hscan.1] at hlt
        exact absurd hlt (not_lt.2 hle)
    · rw [RangeScan.step_unusable hu]
      exact hscan

/-- Before an entry of full length the range is shorter, or upside-down
already. -/
theorem NoWrap.short_or_upsideDown (h : NoWrap entries)
    (hnone : ∀ e ∈ entries, e.Usable → e.wholeLength ≠ sliverLength)
    (hscan : scan.largestUsableLength < sliverLength ∨ scan.UpsideDown) :
    (entries.foldl RangeScan.step scan).largestUsableLength < sliverLength ∨
      (entries.foldl RangeScan.step scan).UpsideDown := by
  induction entries generalizing scan with
  | nil => exact hscan
  | cons e entries ih =>
    refine ih h.tail (fun e' he' => hnone e' (List.mem_cons_of_mem _ he')) ?_
    by_cases hu : e.Usable
    swap
    · rw [RangeScan.step_unusable hu]
      exact hscan
    have hne := hnone e List.mem_cons_self hu
    have hle := h.wholeLength_le List.mem_cons_self hu
    obtain ⟨-, ⟨-, hbase, hend, hlength⟩ | ⟨-, hbase, hend, hlength⟩⟩ :=
      h.step_usable List.mem_cons_self hu scan
    · unfold RangeScan.UpsideDown
      rw [hbase, hend, hlength]
      exact hscan
    · by_cases hsliver : e.Sliver
      · obtain ⟨hnext, hsize, -⟩ := h.usableLength_sliver List.mem_cons_self hsliver
        exact Or.inr ⟨hlength.trans hsize, by omega⟩
      · rw [h.usableLength_eq List.mem_cons_self hu hsliver] at hlength
        exact Or.inl (by omega)

/-- **A sliver that nothing hides is chosen**, or another before it. -/
theorem NoWrap.upsideDown (h : NoWrap entries) (hshown : ¬SliversHidden entries) :
    (entries.foldl RangeScan.step {}).UpsideDown := by
  unfold SliversHidden at hshown
  push Not at hshown
  obtain ⟨l₁, e, l₂, rfl, hsliver, hnone⟩ := hshown
  have hbefore : NoWrap l₁ := fun e' he' => h e' (List.mem_append_left _ he')
  have hmem : e ∈ l₁ ++ e :: l₂ := by simp
  have hafter : NoWrap l₂ := fun e' he' => h e' (by simp [he'])
  obtain ⟨hnext, hsize, -⟩ := h.usableLength_sliver hmem hsliver
  rw [List.foldl_append, List.foldl_cons]
  refine hafter.upsideDown_keeps ?_
  obtain ⟨-, ⟨hle, hbase, hend, hlength⟩ | ⟨-, hbase, hend, hlength⟩⟩ :=
    h.step_usable hmem hsliver.1 (l₁.foldl RangeScan.step {})
  · -- the range before is as long, so it is upside-down itself
    obtain hshort | hdown := hbefore.short_or_upsideDown hnone
      (Or.inl (show ({} : RangeScan).largestUsableLength < sliverLength by decide))
    · omega
    · unfold RangeScan.UpsideDown
      rw [hbase, hend, hlength]
      exact hdown
  · exact ⟨hlength.trans hsize, by omega⟩

/-! ## No sliver in sight -/

theorem FirstLongest.unique (h : FirstLongest entries e) (h' : FirstLongest entries e') : e = e' := by
  obtain ⟨l₁, l₂, rfl, hu, hlength, hfirst⟩ := h
  obtain ⟨k₁, k₂, hsplit, hu', hlength', hfirst'⟩ := h'
  obtain ⟨as, rfl, hrest⟩ | ⟨bs, rfl, hrest⟩ := List.append_eq_append_iff.1 hsplit
  · cases as with
    | nil => exact (List.cons.inj hrest).1
    | cons x as =>
      obtain ⟨rfl, -⟩ := List.cons.inj hrest
      have hlt := hfirst' e (by simp) hu
      omega
  · cases bs with
    | nil => exact (List.cons.inj hrest).1.symm
    | cons x bs =>
      obtain ⟨rfl, -⟩ := List.cons.inj hrest
      have hlt := hfirst e' (by simp) hu'
      omega

theorem MemmapEntry.Small.wholeLength_eq (h : e.Small) : e.wholeLength = 0 := by
  have hle := h.2
  unfold MemmapEntry.wholeLength
  omega

theorem longestRange_withoutSmall : ∀ entries : List MemmapEntry,
    longestRange (withoutSmall entries) = longestRange entries
  | [] => rfl
  | e :: entries => by
    have ih := longestRange_withoutSmall entries
    unfold withoutSmall at ih ⊢
    by_cases hsmall : e.Small
    · have hzero := hsmall.wholeLength_eq
      rw [List.filter_cons_of_neg (by simpa using hsmall), ih]
      conv_rhs => unfold longestRange
      rw [if_pos hsmall.1, hzero, Nat.zero_max]
    · rw [List.filter_cons_of_pos (by simpa using hsmall)]
      unfold longestRange
      rw [ih]

/-- The first longest entry stays the first longest one. -/
theorem FirstLongest.withoutSmall (h : FirstLongest entries e) (hpos : 0 < longestRange entries) :
    FirstLongest (withoutSmall entries) e := by
  have hlong := longestRange_withoutSmall entries
  obtain ⟨l₁, l₂, hsplit, hu, hlength, hfirst⟩ := h
  have hwhole : ¬e.Small := by
    intro hsmall
    have hzero := hsmall.wholeLength_eq
    omega
  refine ⟨KbmOs.withoutSmall l₁, KbmOs.withoutSmall l₂, ?_, hu, by rw [hlong, hlength], ?_⟩
  · rw [hsplit]
    unfold KbmOs.withoutSmall
    rw [List.filter_append, List.filter_cons_of_pos (by simpa using hwhole)]
  · intro e' he' hu'
    exact hfirst e' (mem_withoutSmall.1 he').1 hu'

theorem hasFrames_withoutSmall : HasFrames (withoutSmall entries) ↔ HasFrames entries := by
  constructor
  · rintro ⟨e, he, hu, hlt⟩
    exact ⟨e, (mem_withoutSmall.1 he).1, hu, hlt⟩
  · rintro ⟨e, he, hu, hlt⟩
    exact ⟨e, mem_withoutSmall.2 ⟨he, fun hsmall => absurd hlt (not_lt.2 hsmall.2)⟩, hu, hlt⟩

theorem NoWrap.withoutSmall (h : NoWrap entries) : MapSane (withoutSmall entries) :=
  .of_upright (fun e he => h e (mem_withoutSmall.1 he).1) fun _ he hsliver =>
    (mem_withoutSmall.1 he).2 ⟨hsliver.1, le_of_lt hsliver.2⟩

/-- What the scan chooses from a sane map. -/
theorem MapSane.chosen (h : MapSane entries) (hframes : HasFrames entries) :
    ∃ e, FirstLongest entries e ∧ 0 < longestRange entries ∧
      (entries.foldl RangeScan.step {}).largestUsableBase = e.firstFrame * 0x1000 ∧
      (entries.foldl RangeScan.step {}).largestUsableEnd = e.endFrame * 0x1000 := by
  obtain ⟨hzero, -⟩ | ⟨e, hfirst, hpos, hbase, hend, -⟩ := h.scan_longest
  · exact absurd hzero (longestRange_pos hframes).ne'
  · exact ⟨e, hfirst, hpos, hbase, hend⟩

/-! ## The selection -/

/-- The range is the interior of a usable entry, none holds more frames, and
the map's small entries neither have a say in it nor stop the call. -/
structure SelectsRange (entries : List MemmapEntry) (hhdm : ℕ) (m : Mem) : Prop where
  interior : ∃ e ∈ entries, e.Usable ∧
    (entries.foldl RangeScan.step {}).largestUsableBase = e.firstFrame * 0x1000 ∧
    (entries.foldl RangeScan.step {}).largestUsableEnd = e.endFrame * 0x1000 ∧
    ∀ e' ∈ entries, e'.Usable → e'.endFrame - e'.firstFrame ≤ e.endFrame - e.firstFrame
  uninfluenced :
    (entries.foldl RangeScan.step {}).largestUsableBase =
      ((withoutSmall entries).foldl RangeScan.step {}).largestUsableBase ∧
    (entries.foldl RangeScan.step {}).largestUsableEnd =
      ((withoutSmall entries).foldl RangeScan.step {}).largestUsableEnd
  unharmed : (∃ s, (pmmInit (withoutSmall entries) hhdm).run { mem := m } = .ok () s) →
    ∃ s, (pmmInit entries hhdm).run { mem := m } = .ok () s

/-- **The scan tolerates the small entries exactly while** no sliver comes
before an entry as long as it seems, and the bitmaps still fit with the small
entries' ends counted. -/
theorem range_selection_iff (entries : List MemmapEntry) (hhdm : ℕ) (m : Mem) (h : NoWrap entries)
    (hframe : ∃ e ∈ entries, e.Usable ∧ ∃ i, e.HasFrame i) :
    SelectsRange entries hhdm m ↔
      SliversHidden entries ∧ (RoomForBitmaps (withoutSmall entries) → RoomForBitmaps entries) := by
  have hframes : HasFrames entries := by
    obtain ⟨e, he, hu, i, hi⟩ := hframe
    rw [MemmapEntry.hasFrame_iff] at hi
    exact ⟨e, he, hu, by omega⟩
  constructor
  · intro hselects
    have hhidden : SliversHidden entries := by
      by_contra hshown
      obtain ⟨-, hdown⟩ := h.upsideDown hshown
      obtain ⟨e, -, -, hbase, hend, hmost⟩ := hselects.interior
      obtain ⟨e', he', hu', hlt⟩ := hframes
      have hle := hmost e' he' hu'
      omega
    refine ⟨hhidden, fun hroom => ?_⟩
    have hreturns := (pmmInit_returns_iff hhdm m h.withoutSmall).2
      ⟨hasFrames_withoutSmall.2 hframes, hroom⟩
    exact ((pmmInit_returns_iff hhdm m ⟨hhidden, h⟩).1 (hselects.unharmed hreturns)).2
  · rintro ⟨hhidden, hroom⟩
    have hsane : MapSane entries := ⟨hhidden, h⟩
    obtain ⟨e, hfirst, hpos, hbase, hend⟩ := hsane.chosen hframes
    obtain ⟨e', hfirst', -, hbase', hend'⟩ :=
      h.withoutSmall.chosen (hasFrames_withoutSmall.2 hframes)
    obtain rfl : e = e' := (hfirst.withoutSmall hpos).unique hfirst'
    refine ⟨⟨e, hfirst.mem.1, hfirst.mem.2, hbase, hend, fun e' he' hu' => ?_⟩,
      ⟨hbase.trans hbase'.symm, hend.trans hend'.symm⟩, fun hreturns => ?_⟩
    · have hlength := hfirst.wholeLength_eq
      have hle := wholeLength_le_longestRange he' hu'
      unfold MemmapEntry.wholeLength at hlength hle
      omega
    · obtain ⟨-, hfits⟩ := (pmmInit_returns_iff hhdm m h.withoutSmall).1 hreturns
      exact (pmmInit_returns_iff hhdm m hsane).2 ⟨hframes, hroom hfits⟩

/-- The sample map with an entry across the edge of two frames. -/
theorem range_selection_iff_sampleMap :
    SelectsRange (⟨0x5F00, 0x200, 0⟩ :: sampleMap) 0 blankMem := by
  have hupright : ∀ e ∈ (⟨0x5F00, 0x200, 0⟩ :: sampleMap : List MemmapEntry), ¬e.Sliver := by decide
  have hno : NoWrap (⟨0x5F00, 0x200, 0⟩ :: sampleMap) := by
    intro e he hu
    obtain rfl | he := List.mem_cons.1 he
    · decide
    · exact sampleMap_ok.noWrap e he hu
  refine (range_selection_iff _ 0 blankMem hno ⟨⟨0x1800, 0x4000, 0⟩, by decide, rfl, 2, ?_⟩).2
    ⟨(MapSane.of_upright hno hupright).hidden, fun _ => ?_⟩
  · exact MemmapEntry.hasFrame_iff.2 (by decide)
  · unfold RoomForBitmaps
    decide

/-- And with one inside a frame. -/
def sliverMap : List MemmapEntry := ⟨0x1100, 0x100, 0⟩ :: sampleMap

/-- **A usable entry of 256 bytes stops the boot**: the scan takes it for the
longest, and its first frame lies past its end. -/
theorem sliver_stops_init :
    (sliverMap.foldl RangeScan.step {}).largestUsableBase = 0x2000 ∧
      (sliverMap.foldl RangeScan.step {}).largestUsableEnd = 0x1000 ∧
      (∃ s, (pmmInit sliverMap 0).run { mem := blankMem } =
        .error (.panic "KBM_OUT_OF_MEMORY") s) ∧
      ¬SelectsRange sliverMap 0 blankMem := by
  refine ⟨by decide, by decide, ?_, fun hselects => ?_⟩
  · have hlarge : ¬(sliverMap.foldl RangeScan.step {}).largestUsableLength <
        wrap (wrap (wrap (wrap (wrap ((sliverMap.foldl RangeScan.step {}).highestUsableEnd + 0xFFF) /
          0x1000 + 7) / 8 + 0xFFF) / 0x1000 * 0x1000) * 2) := by decide
    have hempty : (sliverMap.foldl RangeScan.step {}).largestUsableEnd <
        wrap ((sliverMap.foldl RangeScan.step {}).largestUsableBase + 0x1000) := by decide
    unfold pmmInit
    dsimp only
    rw [run_bind_ok (EStateM.run_modify _ _), if_neg hlarge]
    unfold takeBitmapFrames
    exact ⟨_, run_bind_error ((run_bind_ok (EStateM.run_modify _ _)).trans
      (run_bind_error (pmmAllocateFrame_bump_none rfl hempty)))⟩
  have hbase : (sliverMap.foldl RangeScan.step {}).largestUsableBase ≠
      ((withoutSmall sliverMap).foldl RangeScan.step {}).largestUsableBase := by decide
  exact hbase hselects.uninfluenced.1

end KbmOs
