import KbmOs.Pmm.Model
/-!
# The memory map in frames

Which frames lie wholly inside a usable entry, how many there are below
the highest usable address, and how long the longest usable range is: what
the first loop of `pmm_init` computes, with its roundings and its running
maxima, on any map whose usable entries hold a whole frame.
-/

namespace KbmOs

open ByteMemory

/-! ## The map in frames -/

namespace MemmapEntry

/-- Limine calls the entry usable RAM. -/
def Usable (e : MemmapEntry) : Prop := e.type = limineMemmapUsable

instance (e : MemmapEntry) : Decidable e.Usable := inferInstanceAs (Decidable (_ = _))

/-- Frame `i` lies wholly inside the entry. -/
def HasFrame (e : MemmapEntry) (i : ℕ) : Prop :=
  e.base ≤ i * 0x1000 ∧ (i + 1) * 0x1000 ≤ e.base + e.length

/-- The first frame that starts inside the entry. -/
def firstFrame (e : MemmapEntry) : ℕ := (e.base + 0xFFF) / 0x1000

/-- One past the last frame that ends inside the entry. -/
def endFrame (e : MemmapEntry) : ℕ := (e.base + e.length) / 0x1000

/-- The bytes of the entry's whole frames. -/
def wholeLength (e : MemmapEntry) : ℕ := (e.endFrame - e.firstFrame) * 0x1000

end MemmapEntry

/-- The usable entries end, rounded up, below `2 ^ 64`. -/
def NoWrap (entries : List MemmapEntry) : Prop :=
  ∀ e ∈ entries, e.Usable → e.base + e.length + 0xFFF < 2 ^ 64

/-- The entry lies strictly inside a frame: its start rounds up past where
its end rounds down to. -/
def MemmapEntry.Sliver (e : MemmapEntry) : Prop := e.Usable ∧ e.endFrame < e.firstFrame

instance (e : MemmapEntry) : Decidable e.Sliver := inferInstanceAs (Decidable (_ ∧ _))

/-- The length the scan computes for a sliver, and the largest there is. -/
abbrev sliverLength : ℕ := 2 ^ 64 - 0x1000

/-- A sliver comes after an entry that is as long as the scan takes it for. -/
def SliversHidden (entries : List MemmapEntry) : Prop :=
  ∀ l₁ e l₂, entries = l₁ ++ e :: l₂ → e.Sliver →
    ∃ e' ∈ l₁, e'.Usable ∧ e'.wholeLength = sliverLength

/-- **The maps whose usable entries are measured right.** -/
structure MapSane (entries : List MemmapEntry) : Prop where
  hidden : SliversHidden entries
  noWrap : NoWrap entries

/-- The usable entries each hold a whole frame and end, rounded up, below
`2 ^ 64`. -/
structure MapOk (entries : List MemmapEntry) : Prop where
  frame : ∀ e ∈ entries, e.Usable → ∃ i, e.HasFrame i
  noWrap : ∀ e ∈ entries, e.Usable → e.base + e.length + 0xFFF < 2 ^ 64

/-- The frames below the highest usable address. -/
def mapFrames : List MemmapEntry → ℕ
  | [] => 0
  | e :: entries => if e.Usable then max e.endFrame (mapFrames entries) else mapFrames entries

/-- The bytes of a bitmap with a bit for each of them. -/
def mapBytes (entries : List MemmapEntry) : ℕ := (mapFrames entries + 7) / 8

/-- The frames such a bitmap takes. -/
def mapPages (entries : List MemmapEntry) : ℕ := (mapBytes entries + 0xFFF) / 0x1000

/-- The length of the longest whole-frame usable range. -/
def longestRange : List MemmapEntry → ℕ
  | [] => 0
  | e :: entries =>
    if e.Usable then max e.wholeLength (longestRange entries) else longestRange entries

/-- `e` is the first of the entries with the longest range. -/
def FirstLongest (entries : List MemmapEntry) (e : MemmapEntry) : Prop :=
  ∃ l₁ l₂, entries = l₁ ++ e :: l₂ ∧ e.Usable ∧ e.wholeLength = longestRange entries ∧
    ∀ e' ∈ l₁, e'.Usable → e'.wholeLength < e.wholeLength

/-- Some entry is usable. -/
def HasUsable (entries : List MemmapEntry) : Prop := ∃ e ∈ entries, e.Usable

/-- Some usable entry holds a whole frame. -/
def HasFrames (entries : List MemmapEntry) : Prop :=
  ∃ e ∈ entries, e.Usable ∧ e.firstFrame < e.endFrame

/-- The longest range has room for both bitmaps. -/
def RoomForBitmaps (entries : List MemmapEntry) : Prop :=
  2 * mapPages entries * 0x1000 ≤ longestRange entries

variable {e : MemmapEntry} {entries : List MemmapEntry} {i n hhdm : ℕ}

theorem MemmapEntry.hasFrame_iff : e.HasFrame i ↔ e.firstFrame ≤ i ∧ i < e.endFrame := by
  unfold MemmapEntry.HasFrame MemmapEntry.firstFrame MemmapEntry.endFrame
  omega

theorem MapOk.firstFrame_lt (h : MapOk entries) (he : e ∈ entries) (hu : e.Usable) :
    e.firstFrame < e.endFrame := by
  obtain ⟨i, hi⟩ := h.frame e he hu
  rw [MemmapEntry.hasFrame_iff] at hi
  omega

/-- A map without slivers is one. -/
theorem MapSane.of_upright (h : NoWrap entries) (hupright : ∀ e ∈ entries, ¬e.Sliver) :
    MapSane entries where
  hidden l₁ e l₂ hsplit hsliver := absurd hsliver (hupright e (by simp [hsplit]))
  noWrap := h

theorem MapOk.sane (h : MapOk entries) : MapSane entries :=
  .of_upright h.noWrap fun _ he hsliver =>
    Nat.lt_asymm (h.firstFrame_lt he hsliver.1) hsliver.2

/-- On such a map every usable entry has frames. -/
theorem MapOk.hasFrames_iff (h : MapOk entries) : HasFrames entries ↔ HasUsable entries := by
  constructor
  · rintro ⟨e, he, hu, -⟩
    exact ⟨e, he, hu⟩
  · rintro ⟨e, he, hu⟩
    exact ⟨e, he, hu, h.firstFrame_lt he hu⟩

theorem NoWrap.tail (h : NoWrap (e :: entries)) : NoWrap entries :=
  fun e' he' => h e' (List.mem_cons_of_mem _ he')

theorem maskPage_eq {a : ℕ} (ha : a < 2 ^ 64) : maskPage a = a / 0x1000 * 0x1000 :=
  and_highMask (by omega) ha

theorem NoWrap.usableBase_eq (h : NoWrap entries) (he : e ∈ entries) (hu : e.Usable) :
    e.usableBase = e.firstFrame * 0x1000 := by
  have hno := h e he hu
  unfold MemmapEntry.usableBase
  rw [wrap_of_lt (by omega), maskPage_eq (by omega)]
  rfl

theorem NoWrap.usableEnd_eq (h : NoWrap entries) (he : e ∈ entries) (hu : e.Usable) :
    e.usableEnd = e.endFrame * 0x1000 := by
  have hno := h e he hu
  unfold MemmapEntry.usableEnd
  rw [wrap_of_lt (by omega), maskPage_eq (by omega)]
  rfl

theorem NoWrap.endFrame_lt (h : NoWrap entries) (he : e ∈ entries) (hu : e.Usable) :
    e.endFrame * 0x1000 + 0xFFF < 2 ^ 64 := by
  have hno := h e he hu
  unfold MemmapEntry.endFrame
  omega

/-- The scan measures an entry right, unless it is a sliver. -/
theorem NoWrap.usableLength_eq (h : NoWrap entries) (he : e ∈ entries) (hu : e.Usable)
    (hupright : ¬e.Sliver) : wrapSub e.usableEnd e.usableBase = e.wholeLength := by
  have hle : e.firstFrame ≤ e.endFrame := not_lt.1 fun hlt => hupright ⟨hu, hlt⟩
  have hend := h.endFrame_lt he hu
  rw [h.usableBase_eq he hu, h.usableEnd_eq he hu, wrapSub_of_le (by lia) (by lia)]
  unfold MemmapEntry.wholeLength
  omega

/-- A sliver's end is a frame below its start, and the difference wraps. -/
theorem NoWrap.usableLength_sliver (h : NoWrap entries) (he : e ∈ entries) (hsliver : e.Sliver) :
    e.firstFrame = e.endFrame + 1 ∧ wrapSub e.usableEnd e.usableBase = sliverLength ∧
      e.wholeLength = 0 := by
  obtain ⟨hu, hlt⟩ := hsliver
  have hend := h.endFrame_lt he hu
  have hnext : e.firstFrame = e.endFrame + 1 := by
    unfold MemmapEntry.firstFrame MemmapEntry.endFrame at hlt ⊢
    omega
  refine ⟨hnext, ?_, ?_⟩
  · rw [h.usableBase_eq he hu, h.usableEnd_eq he hu, hnext]
    unfold wrapSub sliverLength
    omega
  · unfold MemmapEntry.wholeLength
    omega

theorem NoWrap.wholeLength_le (h : NoWrap entries) (he : e ∈ entries) (hu : e.Usable) :
    e.wholeLength ≤ sliverLength := by
  have hend := h.endFrame_lt he hu
  unfold MemmapEntry.wholeLength sliverLength
  omega

/-- Every usable frame is counted. -/
theorem endFrame_le_mapFrames : ∀ {entries : List MemmapEntry}, e ∈ entries → e.Usable →
    e.endFrame ≤ mapFrames entries
  | e' :: entries, he, hu => by
    unfold mapFrames
    rcases List.mem_cons.1 he with rfl | he
    · rw [if_pos hu]
      exact le_max_left _ _
    · have ih := endFrame_le_mapFrames he hu
      split
      · exact le_trans ih (le_max_right _ _)
      · exact ih

theorem NoWrap.mapFrames_lt : ∀ {entries : List MemmapEntry}, NoWrap entries →
    mapFrames entries * 0x1000 + 0xFFF < 2 ^ 64
  | [], _ => by
    unfold mapFrames
    lia
  | e :: entries, h => by
    have ih := h.tail.mapFrames_lt
    unfold mapFrames
    split
    · rename_i hu
      have hend := h.endFrame_lt List.mem_cons_self hu
      rcases le_total e.endFrame (mapFrames entries) with hle | hle
      · rw [max_eq_right hle]
        exact ih
      · rw [max_eq_left hle]
        exact hend
    · exact ih

theorem wholeLength_le_longestRange : ∀ {entries : List MemmapEntry}, e ∈ entries → e.Usable →
    e.wholeLength ≤ longestRange entries
  | e' :: entries, he, hu => by
    unfold longestRange
    rcases List.mem_cons.1 he with rfl | he
    · rw [if_pos hu]
      exact le_max_left _ _
    · have ih := wholeLength_le_longestRange he hu
      split
      · exact le_trans ih (le_max_right _ _)
      · exact ih

/-- Without whole frames the longest range is empty. -/
theorem longestRange_eq_zero : ∀ {entries : List MemmapEntry}, ¬ HasFrames entries →
    longestRange entries = 0
  | [], _ => rfl
  | e :: entries, hno => by
    have ih := @longestRange_eq_zero entries fun ⟨e', he', hu'⟩ =>
      hno ⟨e', List.mem_cons_of_mem _ he', hu'⟩
    unfold longestRange
    split
    · rename_i hu
      have hsmall : ¬ e.firstFrame < e.endFrame := fun hlt => hno ⟨e, List.mem_cons_self, hu, hlt⟩
      unfold MemmapEntry.wholeLength
      omega
    · exact ih

theorem mapFrames_pos (hframes : HasFrames entries) : 0 < mapFrames entries := by
  obtain ⟨e, he, hu, hlt⟩ := hframes
  have hle := endFrame_le_mapFrames he hu
  omega

theorem longestRange_pos (hframes : HasFrames entries) : 0 < longestRange entries := by
  obtain ⟨e, he, hu, hlt⟩ := hframes
  have hle := wholeLength_le_longestRange he hu
  unfold MemmapEntry.wholeLength at hle
  omega

/-! ## The scan -/

/-- One turn of the scan at an unusable entry. -/
theorem RangeScan.step_unusable {scan : RangeScan} (hu : ¬ e.Usable) : scan.step e = scan :=
  if_neg hu

/-- One turn of the scan at a usable entry. -/
theorem NoWrap.step_usable (h : NoWrap entries) (he : e ∈ entries) (hu : e.Usable)
    (scan : RangeScan) :
    (scan.step e).highestUsableEnd = max scan.highestUsableEnd (e.endFrame * 0x1000) ∧
    ((wrapSub e.usableEnd e.usableBase ≤ scan.largestUsableLength ∧
        (scan.step e).largestUsableBase = scan.largestUsableBase ∧
        (scan.step e).largestUsableEnd = scan.largestUsableEnd ∧
        (scan.step e).largestUsableLength = scan.largestUsableLength) ∨
      (scan.largestUsableLength < wrapSub e.usableEnd e.usableBase ∧
        (scan.step e).largestUsableBase = e.firstFrame * 0x1000 ∧
        (scan.step e).largestUsableEnd = e.endFrame * 0x1000 ∧
        (scan.step e).largestUsableLength = wrapSub e.usableEnd e.usableBase)) := by
  unfold RangeScan.step
  rw [if_pos (show e.type = limineMemmapUsable from hu), h.usableEnd_eq he hu,
    h.usableBase_eq he hu]
  dsimp only
  by_cases hend : e.endFrame * 0x1000 > scan.highestUsableEnd <;>
    by_cases hlt : wrapSub (e.endFrame * 0x1000) (e.firstFrame * 0x1000) >
      scan.largestUsableLength
  · simp only [if_pos hend, if_pos hlt]
    exact ⟨(max_eq_right (le_of_lt hend)).symm, Or.inr ⟨hlt, trivial, trivial, trivial⟩⟩
  · simp only [if_pos hend, if_neg hlt]
    exact ⟨(max_eq_right (le_of_lt hend)).symm, Or.inl ⟨not_lt.1 hlt, trivial, trivial, trivial⟩⟩
  · simp only [if_neg hend, if_pos hlt]
    exact ⟨(max_eq_left (not_lt.1 hend)).symm, Or.inr ⟨hlt, trivial, trivial, trivial⟩⟩
  · simp only [if_neg hend, if_neg hlt]
    exact ⟨(max_eq_left (not_lt.1 hend)).symm, Or.inl ⟨not_lt.1 hlt, trivial, trivial, trivial⟩⟩

/-- **Where a sliver is hidden** the turn compares the entry's own length. -/
theorem NoWrap.step_longest (h : NoWrap entries) (he : e ∈ entries) (hu : e.Usable)
    (scan : RangeScan) (hhidden : e.Sliver → sliverLength ≤ scan.largestUsableLength) :
    (e.wholeLength ≤ scan.largestUsableLength ∧
      (scan.step e).largestUsableBase = scan.largestUsableBase ∧
      (scan.step e).largestUsableEnd = scan.largestUsableEnd ∧
      (scan.step e).largestUsableLength = scan.largestUsableLength) ∨
    (scan.largestUsableLength < e.wholeLength ∧
      (scan.step e).largestUsableBase = e.firstFrame * 0x1000 ∧
      (scan.step e).largestUsableEnd = e.endFrame * 0x1000 ∧
      (scan.step e).largestUsableLength = e.wholeLength) := by
  have hstep := (h.step_usable he hu scan).2
  by_cases hsliver : e.Sliver
  · obtain ⟨-, hlength, hzero⟩ := h.usableLength_sliver he hsliver
    obtain ⟨-, hkept⟩ | ⟨hlt, -⟩ := hstep
    · exact Or.inl ⟨by omega, hkept⟩
    · have hhidden := hhidden hsliver
      omega
  · rwa [h.usableLength_eq he hu hsliver] at hstep

/-- **The scan's highest end is the map's.** -/
theorem NoWrap.scan_highest : ∀ {entries : List MemmapEntry} (_ : NoWrap entries) (scan : RangeScan),
    (entries.foldl RangeScan.step scan).highestUsableEnd =
      max scan.highestUsableEnd (mapFrames entries * 0x1000)
  | [], _, scan => by simp [mapFrames]
  | e :: entries, h, scan => by
    rw [List.foldl_cons, h.tail.scan_highest]
    by_cases hu : e.Usable
    · have hframes : mapFrames (e :: entries) = max e.endFrame (mapFrames entries) := if_pos hu
      rw [(h.step_usable List.mem_cons_self hu scan).1, hframes]
      omega
    · have hframes : mapFrames (e :: entries) = mapFrames entries := if_neg hu
      rw [RangeScan.step_unusable hu, hframes]

/-- **The scan keeps the first longest range**: the one it started with,
or that of the first entry none is longer than. -/
theorem NoWrap.scan_longest : ∀ {entries : List MemmapEntry} (_ : NoWrap entries)
    (scan : RangeScan) (_ : ∀ l₁ e l₂, entries = l₁ ++ e :: l₂ → e.Sliver →
      sliverLength ≤ scan.largestUsableLength ∨
        ∃ e' ∈ l₁, e'.Usable ∧ e'.wholeLength = sliverLength),
    (longestRange entries ≤ scan.largestUsableLength ∧
      (entries.foldl RangeScan.step scan).largestUsableBase = scan.largestUsableBase ∧
      (entries.foldl RangeScan.step scan).largestUsableEnd = scan.largestUsableEnd ∧
      (entries.foldl RangeScan.step scan).largestUsableLength = scan.largestUsableLength) ∨
    (scan.largestUsableLength < longestRange entries ∧ ∃ e, FirstLongest entries e ∧
      (entries.foldl RangeScan.step scan).largestUsableBase = e.firstFrame * 0x1000 ∧
      (entries.foldl RangeScan.step scan).largestUsableEnd = e.endFrame * 0x1000 ∧
      (entries.foldl RangeScan.step scan).largestUsableLength = e.wholeLength)
  | [], _, scan, _ => by simp [longestRange]
  | e :: entries, h, scan, hhidden => by
    rw [List.foldl_cons]
    by_cases hu : e.Usable
    · have hlong : longestRange (e :: entries) = max e.wholeLength (longestRange entries) :=
        if_pos hu
      have hstep := h.step_longest List.mem_cons_self hu scan fun hsliver =>
        (hhidden [] e entries rfl hsliver).resolve_right fun ⟨_, hmem, _⟩ => (by cases hmem)
      -- what hides a sliver of the tail is the head, or hides it there
      have htail : ∀ l₁ e' l₂, entries = l₁ ++ e' :: l₂ → e'.Sliver →
          sliverLength ≤ (scan.step e).largestUsableLength ∨
            ∃ e'' ∈ l₁, e''.Usable ∧ e''.wholeLength = sliverLength := by
        intro l₁ e' l₂ hsplit hsliver
        obtain hlarge | ⟨e'', hmem, hu'', hlength⟩ :=
          hhidden (e :: l₁) e' l₂ (by rw [hsplit]; rfl) hsliver
        · exact Or.inl (by omega)
        · obtain rfl | hmem := List.mem_cons.1 hmem
          · exact Or.inl (by omega)
          · exact Or.inr ⟨e'', hmem, hu'', hlength⟩
      rw [hlong]
      rcases hstep with ⟨hle, hb, he, hl⟩ | ⟨hlt, hb, he, hl⟩ <;>
        rcases h.tail.scan_longest (scan.step e) htail with
          ⟨hle', hb', he', hl'⟩ | ⟨hlt', e', ⟨l₁, l₂, heq, hu', hlen', hfirst⟩, hb', he', hl'⟩
      · exact Or.inl ⟨by omega, hb'.trans hb, he'.trans he, hl'.trans hl⟩
      · refine Or.inr ⟨by omega, e', ⟨e :: l₁, l₂, by rw [heq]; rfl, hu', by omega, ?_⟩,
          hb', he', hl'⟩
        intro e'' he'' hu''
        rcases List.mem_cons.1 he'' with rfl | he''
        · omega
        · exact hfirst e'' he'' hu''
      · refine Or.inr ⟨by omega, e, ⟨[], entries, rfl, hu, by omega, by simp⟩, hb'.trans hb,
          he'.trans he, hl'.trans hl⟩
      · refine Or.inr ⟨by omega, e', ⟨e :: l₁, l₂, by rw [heq]; rfl, hu', by omega, ?_⟩,
          hb', he', hl'⟩
        intro e'' he'' hu''
        rcases List.mem_cons.1 he'' with rfl | he''
        · omega
        · exact hfirst e'' he'' hu''
    · have hlong : longestRange (e :: entries) = longestRange entries := if_neg hu
      have htail : ∀ l₁ e' l₂, entries = l₁ ++ e' :: l₂ → e'.Sliver →
          sliverLength ≤ scan.largestUsableLength ∨
            ∃ e'' ∈ l₁, e''.Usable ∧ e''.wholeLength = sliverLength := by
        intro l₁ e' l₂ hsplit hsliver
        obtain hlarge | ⟨e'', hmem, hu'', hlength⟩ :=
          hhidden (e :: l₁) e' l₂ (by rw [hsplit]; rfl) hsliver
        · exact Or.inl hlarge
        · obtain rfl | hmem := List.mem_cons.1 hmem
          · exact absurd hu'' hu
          · exact Or.inr ⟨e'', hmem, hu'', hlength⟩
      rw [RangeScan.step_unusable hu, hlong]
      rcases h.tail.scan_longest scan htail with hl | ⟨hlt, e', ⟨l₁, l₂, heq, hu', hlen', hfirst⟩, hr⟩
      · exact Or.inl hl
      · refine Or.inr ⟨hlt, e', ⟨e :: l₁, l₂, by rw [heq]; rfl, hu', by omega, ?_⟩, hr⟩
        intro e'' he'' hu''
        rcases List.mem_cons.1 he'' with rfl | he''
        · exact absurd hu'' hu
        · exact hfirst e'' he'' hu''

theorem MapSane.scan_longest (h : MapSane entries) :
    (longestRange entries = 0 ∧
      (entries.foldl RangeScan.step {}).largestUsableBase = 0 ∧
      (entries.foldl RangeScan.step {}).largestUsableEnd = 0 ∧
      (entries.foldl RangeScan.step {}).largestUsableLength = 0) ∨
    ∃ e, FirstLongest entries e ∧ 0 < longestRange entries ∧
      (entries.foldl RangeScan.step {}).largestUsableBase = e.firstFrame * 0x1000 ∧
      (entries.foldl RangeScan.step {}).largestUsableEnd = e.endFrame * 0x1000 ∧
      (entries.foldl RangeScan.step {}).largestUsableLength = longestRange entries := by
  obtain ⟨hle, hkept⟩ | ⟨hlt, e, hfirst, hbase, hend, hlength⟩ :=
    h.noWrap.scan_longest {} fun l₁ e l₂ hsplit hsliver => Or.inr (h.hidden l₁ e l₂ hsplit hsliver)
  · exact Or.inl ⟨Nat.le_zero.1 hle, hkept⟩
  · obtain ⟨l₁, l₂, -, -, hlen, -⟩ := id hfirst
    exact Or.inr ⟨e, hfirst, hlt, hbase, hend, hlength.trans hlen⟩

end KbmOs
