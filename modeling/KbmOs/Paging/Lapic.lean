import KbmOs.Paging.Agreement
/-!
# Mapping the LAPIC's page

`lapic_enable_legacy_pic` hangs its two static tables below the kernel's
PDPT while the processor translates with them. The frames of the two tables
are read by no walk before the PDPT's entry leads there, and the PDPT's
entry is read by the walks of the LAPIC's slot only; so every store goes
where the translation of its address went before the call, and a walk
outside the slot reads what it read before.

The slot is the gigabyte of the last entry of the last PDPT. The walkers do
not read the bits 48 to 63 of an address, so it is given by its indices.
-/

namespace KbmOs

open TableWalk ByteMemory

/-- The addresses below the last entry of the last PDPT. -/
def InLapicSlot (v : Word) : Prop := levelIndex v 3 = 511 ∧ levelIndex v 2 = 511

instance (v : Word) : Decidable (InLapicSlot v) :=
  inferInstanceAs (Decidable (levelIndex v 3 = 511 ∧ levelIndex v 2 = 511))

/-- Of the addresses with the high bits of the kernel's half, these are the
ones from the slot's base on. -/
theorem inLapicSlot_iff {v : Word} (hhalf : 0xFFFF800000000000 ≤ v.toNat) :
    InLapicSlot v ↔ lapicVirtualBase.toNat ≤ v.toNat := by
  have hbase : lapicVirtualBase.toNat = 0xFFFFFFFFC0000000 := rfl
  have hv := v.isLt
  unfold InLapicSlot levelIndex
  rw [hbase, show leafBytes 3 = 0x8000000000 from rfl, show leafBytes 2 = 0x40000000 from rfl]
  omega

/-- The walk of an address reads this table, with `k` levels below it. -/
abbrev Reads (s : Machine) (hhdmOffset v : Word) (k table : ℕ) : Prop :=
  Visits (pageTables s.memory hhdmOffset) (levelIndex v) 4 (entryAddress s.cr3) k table

/-- **What the linker and the boot loader promise.** The static tables are
page-aligned and stand in the last PDPT's gigabytes other than the slot;
where they are translated, it is to two frames that are no tables; and the
last PDPT is no other table. -/
structure LapicReady (tables : LapicTables) (hhdmOffset : Word) (s : Machine) : Prop where
  cr3 : s.cr3.toNat < 2 ^ 52
  directoryAligned : tables.lapicPageDirectory.toNat % 0x1000 = 0
  tableAligned : tables.lapicPageTable.toNat % 0x1000 = 0
  directorySlot : levelIndex tables.lapicPageDirectory 3 = 511 ∧
    levelIndex tables.lapicPageDirectory 2 ≠ 511
  tableSlot : levelIndex tables.lapicPageTable 3 = 511 ∧ levelIndex tables.lapicPageTable 2 ≠ 511
  frames : ∀ directoryFrame tableFrame,
    pageWalk s.memory s.cr3 hhdmOffset tables.lapicPageDirectory = some (0, directoryFrame) →
    pageWalk s.memory s.cr3 hhdmOffset tables.lapicPageTable = some (0, tableFrame) →
    directoryFrame ≠ tableFrame ∧
    ∀ v k table, Reads s hhdmOffset v k table → table ≠ directoryFrame ∧ table ≠ tableFrame
  pdpt : ∀ pdpt, pageTables s.memory hhdmOffset 3 (entryAddress s.cr3) 511 = .table pdpt →
    ∀ v k, Reads s hhdmOffset v k pdpt → k = 2 ∧ levelIndex v 3 = 511

variable {tables : LapicTables} {hhdmOffset v value : Word} {s : Machine} {memory : PageMemory}
variable {frame i : ℕ}

/-! ## Entries -/

theorem getPml4_eq (h : s.cr3.toNat < 2 ^ 52) :
    getPml4 s hhdmOffset = hhdmOffset + (s.cr3 &&& addressMask) := by
  have hmask : (~~~(0xFFF : Word)).toNat = 2 ^ 64 - 2 ^ 12 := rfl
  unfold getPml4
  congr 1
  refine BitVec.eq_of_toNat_eq ?_
  rw [and_addressMask, BitVec.toNat_and, hmask, and_highMask (by omega) (by omega)]
  unfold entryAddress
  omega

/-- An element of an aligned table stands in the table's page. -/
theorem elementAt_page (haligned : v.toNat % 0x1000 = 0) (hi : i < 512) :
    (elementAt v (BitVec.ofNat 64 i)).toNat = v.toNat + 8 * i := by
  have hv := v.isLt
  unfold elementAt
  rw [BitVec.toNat_add, BitVec.toNat_mul, BitVec.toNat_ofNat, Nat.mod_eq_of_lt (by omega : i < _)]
  show (v.toNat + 8 * i % 2 ^ 64) % 2 ^ 64 = _
  omega

theorem decodeEntry_absent_iff {level : ℕ} {entry : Word} :
    decodeEntry level entry = .absent ↔ entry &&& pagePresent = 0 := by
  rw [and_pagePresent_eq_zero]
  unfold decodeEntry
  constructor
  · intro habsent
    split at habsent
    · assumption
    · split at habsent <;> cases habsent
  · intro hbit
    rw [if_pos hbit]

/-- The entry that links a table at a frame. -/
abbrev tableLink (frame : ℕ) : Word := BitVec.ofNat 64 frame ||| pagePresent ||| pageWritable

/-- The entry of the LAPIC's registers. -/
abbrev lapicLeaf : Word :=
  lapicPhysicalBase ||| pagePresent ||| pageWritable ||| pageWriteThrough ||| pageCacheDisable

/-- **An entry that links a table** leads there, from every level above. -/
theorem decodeEntry_link {level : ℕ} (hframe : frame % 0x1000 = 0) (hsize : frame < 2 ^ 52)
    (hlevel : 0 < level) : decodeEntry level (tableLink frame) = .table frame := by
  have hword : (tableLink frame).toNat = frame + 3 := by
    have hsum := Nat.two_pow_add_eq_or_of_lt (show 3 < 2 ^ 12 by omega) (frame / 0x1000)
    have hmul : 2 ^ 12 * (frame / 0x1000) = frame := by omega
    rw [BitVec.toNat_or, BitVec.toNat_or, BitVec.toNat_ofNat, Nat.mod_eq_of_lt (by omega),
      Nat.or_assoc]
    rw [hmul] at hsum
    exact hsum.symm
  have hbit (i : ℕ) : (tableLink frame).getLsbD i = decide ((frame + 3) / 2 ^ i % 2 = 1) := by
    rw [← BitVec.testBit_toNat, hword, Nat.testBit_eq_decide_div_mod_eq]
  have haddress : entryAddress (tableLink frame) = frame := by
    unfold entryAddress
    omega
  unfold decodeEntry
  rw [hbit, hbit, haddress, if_neg (by simp; omega), if_neg (by simp; omega)]

theorem decodeEntry_lapic : decodeEntry 0 lapicLeaf = .leaf 0xFEE00000 := rfl

@[simp]
theorem decodeEntry_zero (level : ℕ) : decodeEntry level 0 = .absent := rfl

/-! ## Stores -/

/-- **A store to an element of an aligned page** goes to the same entry of
its frame. -/
theorem store_element (s : Machine) (value : Word) (haligned : v.toNat % 0x1000 = 0) (hi : i < 512)
    (hwalk : pageWalk s.memory s.cr3 hhdmOffset v = some (0, frame)) :
    s.store hhdmOffset (elementAt v (BitVec.ofNat 64 i)) value =
      some { s with memory := Function.update s.memory (entryPointer hhdmOffset frame i) value } := by
  have hpage := elementAt_page haligned hi
  have hsame : pageWalk s.memory s.cr3 hhdmOffset (elementAt v (BitVec.ofNat 64 i)) =
      some (0, frame) := by
    rw [pageWalk_congr (w := v) (by omega), hwalk]
  obtain ⟨hframe, -⟩ := pageWalk_frame hwalk
  have hphysical : physicalAddress s.memory s.cr3 hhdmOffset (elementAt v (BitVec.ofNat 64 i)) =
      some (frame + 8 * i) := by
    unfold physicalAddress
    rw [hsame, Option.map_some]
    congr 1
    show frame / leafBytes 0 * leafBytes 0 + _ % leafBytes 0 = _
    rw [hpage, show leafBytes 0 = 0x1000 from rfl]
    omega
  unfold Machine.store
  rw [hphysical]
  rfl

/-- The entries are as they were, but for two tables and the last entry of
the last PDPT. -/
def SameOutside (hhdmOffset : Word) (directoryFrame tableFrame pdpt : ℕ)
    (memory memory' : PageMemory) : Prop :=
  ∀ u i, u % 0x1000 = 0 ∧ u < 2 ^ 52 → i < 512 → u ≠ directoryFrame → u ≠ tableFrame →
    ¬(u = pdpt ∧ i = 511) →
    memory' (entryPointer hhdmOffset u i) = memory (entryPointer hhdmOffset u i)

variable {memory' : PageMemory} {directoryFrame tableFrame pdpt : ℕ}

theorem SameOutside.update
    (h : SameOutside hhdmOffset directoryFrame tableFrame pdpt memory memory') (value : Word)
    (hentry : frame = directoryFrame ∨ frame = tableFrame ∨ frame = pdpt ∧ i = 511)
    (haligned : frame % 0x1000 = 0 ∧ frame < 2 ^ 52) (hi : i < 512) :
    SameOutside hhdmOffset directoryFrame tableFrame pdpt memory
      (Function.update memory' (entryPointer hhdmOffset frame i) value) := by
  intro u j hu hj hdirectory htable hlast
  rw [Function.update_of_ne, h u j hu hj hdirectory htable hlast]
  intro hsame
  obtain ⟨rfl, rfl⟩ := entryPointer_inj hu haligned hj hi hsame
  obtain rfl | rfl | hpdpt := hentry
  · exact hdirectory rfl
  · exact htable rfl
  · exact hlast hpdpt

/-- The call's reads of the last entries. -/
theorem LapicReady.last_entries (hready : LapicReady tables hhdmOffset s)
    (hpdpt : pageTables s.memory hhdmOffset 3 (entryAddress s.cr3) 511 = .table pdpt) :
    s.memory (elementAt (getPml4 s hhdmOffset) 511) &&& pagePresent ≠ 0 ∧
      elementAt ((s.memory (elementAt (getPml4 s hhdmOffset) 511) &&& addressMask) + hhdmOffset)
        511 = entryPointer hhdmOffset pdpt 511 := by
  have hroot : elementAt (getPml4 s hhdmOffset) 511 =
      entryPointer hhdmOffset (entryAddress s.cr3) 511 := by
    rw [getPml4_eq hready.cr3]
    exact elementAt_eq (and_addressMask s.cr3) rfl
  rw [hroot]
  constructor
  · intro habsent
    cases hpdpt.symm.trans (decodeEntry_absent_iff.2 habsent)
  · rw [BitVec.add_comm]
    refine elementAt_eq ?_ rfl
    rw [and_addressMask]
    exact (of_decodeEntry_table hpdpt).symm

section Ready

variable (hready : LapicReady tables hhdmOffset s)
variable (hdirectory : pageWalk s.memory s.cr3 hhdmOffset tables.lapicPageDirectory =
  some (0, directoryFrame))
variable (htable : pageWalk s.memory s.cr3 hhdmOffset tables.lapicPageTable = some (0, tableFrame))
variable (hpdpt : pageTables s.memory hhdmOffset 3 (entryAddress s.cr3) 511 = .table pdpt)

include hready hdirectory htable hpdpt

/-- **A walk outside the slot** reads neither table and not the last PDPT's
last entry. -/
theorem LapicReady.walk_same
    (h : SameOutside hhdmOffset directoryFrame tableFrame pdpt s.memory memory)
    (hv : ¬InLapicSlot v) :
    pageWalk memory s.cr3 hhdmOffset v = pageWalk s.memory s.cr3 hhdmOffset v := by
  refine walk_congr fun k u hu => congrArg (decodeEntry k) ?_
  obtain ⟨hnotDirectory, hnotTable⟩ :=
    (hready.frames directoryFrame tableFrame hdirectory htable).2 v k u hu
  refine h u _ (visits_aligned hu) (levelIndex_lt v k) hnotDirectory hnotTable ?_
  rintro ⟨rfl, hlast⟩
  obtain ⟨rfl, hroot⟩ := hready.pdpt u hpdpt v k hu
  exact hv ⟨hroot, hlast⟩

/-- A store to the page directory goes to its frame. -/
theorem LapicReady.store_directory
    (h : SameOutside hhdmOffset directoryFrame tableFrame pdpt s.memory memory) (value : Word)
    (hi : i < 512) :
    ({ s with memory := memory } : Machine).store hhdmOffset
        (elementAt tables.lapicPageDirectory (BitVec.ofNat 64 i)) value =
      some { s with
        memory := Function.update memory (entryPointer hhdmOffset directoryFrame i) value } :=
  store_element { s with memory := memory } value hready.directoryAligned hi
    ((hready.walk_same hdirectory htable hpdpt h fun hslot => hready.directorySlot.2 hslot.2).trans
      hdirectory)

/-- And one to the page table to its own. -/
theorem LapicReady.store_table
    (h : SameOutside hhdmOffset directoryFrame tableFrame pdpt s.memory memory) (value : Word)
    (hi : i < 512) :
    ({ s with memory := memory } : Machine).store hhdmOffset
        (elementAt tables.lapicPageTable (BitVec.ofNat 64 i)) value =
      some { s with
        memory := Function.update memory (entryPointer hhdmOffset tableFrame i) value } :=
  store_element { s with memory := memory } value hready.tableAligned hi
    ((hready.walk_same hdirectory htable hpdpt h fun hslot => hready.tableSlot.2 hslot.2).trans
      htable)

/-- **The loop clears the frames of the two tables**, and no other entry. -/
theorem LapicReady.clear_run {n : ℕ} (hn : n ≤ 512) :
    ∃ memory, clearLapicTables tables hhdmOffset s n = some { s with memory := memory } ∧
      SameOutside hhdmOffset directoryFrame tableFrame pdpt s.memory memory ∧
      ∀ i < n, memory (entryPointer hhdmOffset directoryFrame i) = 0 ∧
        memory (entryPointer hhdmOffset tableFrame i) = 0 := by
  induction n with
  | zero => exact ⟨s.memory, rfl, fun _ _ _ _ _ _ _ => rfl, fun _ hi => absurd hi (by omega)⟩
  | succ n ih =>
    obtain ⟨memory, hrun, hsame, hcleared⟩ := ih (by omega)
    have hsame₁ : SameOutside hhdmOffset directoryFrame tableFrame pdpt s.memory
        (Function.update memory (entryPointer hhdmOffset directoryFrame n) 0) :=
      hsame.update 0 (Or.inl rfl) (pageWalk_frame hdirectory) (by omega)
    have hsame₂ : SameOutside hhdmOffset directoryFrame tableFrame pdpt s.memory
        (Function.update (Function.update memory (entryPointer hhdmOffset directoryFrame n) 0)
          (entryPointer hhdmOffset tableFrame n) 0) :=
      hsame₁.update 0 (Or.inr (Or.inl rfl)) (pageWalk_frame htable) (by omega)
    have hstore₁ := hready.store_directory hdirectory htable hpdpt hsame 0 (show n < 512 by omega)
    have hstore₂ := hready.store_table hdirectory htable hpdpt hsame₁ 0 (show n < 512 by omega)
    refine ⟨_, ?_, hsame₂, fun i hi => ?_⟩
    · simp only [clearLapicTables, hrun, Option.bind_eq_bind, Option.bind_some, hstore₁, hstore₂]
    · -- the entries of this turn are zero, and those before stay so
      simp only [Function.update_apply]
      by_cases hlast : i = n
      · subst hlast
        simp
      · obtain ⟨hzero, hzero'⟩ := hcleared i (by omega)
        simp [hzero, hzero']

/-- **The entries after the mapping**: the last PDPT's last entry leads to
the directory, its first entry to the table, the first entry there to the
registers of the LAPIC, and every other entry of the two is absent. -/
structure LapicMapped (hhdmOffset : Word) (directoryFrame tableFrame pdpt : ℕ)
    (memory memory' : PageMemory) : Prop where
  link : memory' (entryPointer hhdmOffset pdpt 511) = tableLink directoryFrame
  directory : ∀ i < 512, memory' (entryPointer hhdmOffset directoryFrame i) =
    if i = 0 then tableLink tableFrame else 0
  table : ∀ i < 512, memory' (entryPointer hhdmOffset tableFrame i) =
    if i = 0 then lapicLeaf else 0
  same : SameOutside hhdmOffset directoryFrame tableFrame pdpt memory memory'

/-- **A walk in the slot** passes the two tables: only the first page leads
anywhere, to the registers. -/
theorem LapicMapped.walk_slot
    (h : LapicMapped hhdmOffset directoryFrame tableFrame pdpt s.memory memory)
    (hv : InLapicSlot v) :
    pageWalk memory s.cr3 hhdmOffset v =
      if levelIndex v 1 = 0 ∧ levelIndex v 0 = 0 then some (0, 0xFEE00000) else none := by
  obtain ⟨hroot, hlast⟩ := hv
  have hreads : Reads s hhdmOffset v 3 (entryAddress s.cr3) := .here 3 _
  obtain ⟨hnotDirectory, hnotTable⟩ :=
    (hready.frames directoryFrame tableFrame hdirectory htable).2 v 3 _ hreads
  -- the root is no PDPT, so its entry is the one of before
  have hentry : pageTables memory hhdmOffset 3 (entryAddress s.cr3) (levelIndex v 3) =
      .table pdpt := by
    rw [hroot, ← hpdpt]
    refine congrArg (decodeEntry 3) (h.same _ 511 (visits_aligned hreads) (by omega)
      hnotDirectory hnotTable ?_)
    rintro ⟨hsame, -⟩
    rw [hsame] at hreads
    exact absurd (hready.pdpt pdpt hpdpt v 3 hreads).1 (by omega)
  have hlink : pageTables memory hhdmOffset 2 pdpt (levelIndex v 2) = .table directoryFrame := by
    obtain ⟨haligned, hsize⟩ := pageWalk_frame hdirectory
    unfold pageTables
    rw [hlast, h.link]
    exact decodeEntry_link haligned hsize (by omega)
  unfold pageWalk
  rw [walk_table hentry, walk_table hlink]
  by_cases hfirst : levelIndex v 1 = 0
  · have hdown : pageTables memory hhdmOffset 1 directoryFrame (levelIndex v 1) =
        .table tableFrame := by
      obtain ⟨haligned, hsize⟩ := pageWalk_frame htable
      unfold pageTables
      rw [h.directory _ (levelIndex_lt v 1), if_pos hfirst]
      exact decodeEntry_link haligned hsize (by omega)
    rw [walk_table hdown]
    by_cases hpage : levelIndex v 0 = 0
    · rw [if_pos ⟨hfirst, hpage⟩]
      refine walk_leaf ?_
      unfold pageTables
      rw [h.table _ (levelIndex_lt v 0), if_pos hpage, decodeEntry_lapic]
    · rw [if_neg fun hboth => hpage hboth.2]
      refine walk_absent ?_
      unfold pageTables
      rw [h.table _ (levelIndex_lt v 0), if_neg hpage, decodeEntry_zero]
  · rw [if_neg fun hboth => hfirst hboth.1]
    refine walk_absent ?_
    unfold pageTables
    rw [h.directory _ (levelIndex_lt v 1), if_neg hfirst, decodeEntry_zero]

/-- The last PDPT is a third table, as the walk of the directory reads it. -/
theorem LapicReady.pdpt_apart :
    (pdpt % 0x1000 = 0 ∧ pdpt < 2 ^ 52) ∧ pdpt ≠ directoryFrame ∧ pdpt ≠ tableFrame := by
  have hreads : Reads s hhdmOffset tables.lapicPageDirectory 2 pdpt := by
    refine .down ?_ (.here 2 pdpt)
    rw [hready.directorySlot.1]
    exact hpdpt
  exact ⟨visits_aligned hreads,
    (hready.frames directoryFrame tableFrame hdirectory htable).2 _ 2 pdpt hreads⟩

/-- **The three stores after the loop** make the mapping. -/
theorem LapicReady.mapped
    (hsame : SameOutside hhdmOffset directoryFrame tableFrame pdpt s.memory memory)
    (hcleared : ∀ i < 512, memory (entryPointer hhdmOffset directoryFrame i) = 0 ∧
      memory (entryPointer hhdmOffset tableFrame i) = 0) :
    LapicMapped hhdmOffset directoryFrame tableFrame pdpt s.memory
      (Function.update (Function.update (Function.update memory (entryPointer hhdmOffset pdpt 511)
        (tableLink directoryFrame)) (entryPointer hhdmOffset directoryFrame 0)
        (tableLink tableFrame)) (entryPointer hhdmOffset tableFrame 0) lapicLeaf) := by
  have hframes := (hready.frames directoryFrame tableFrame hdirectory htable).1
  have hdirectoryFrame := pageWalk_frame hdirectory
  have htableFrame := pageWalk_frame htable
  obtain ⟨hpdptFrame, hpdptDirectory, hpdptTable⟩ := hready.pdpt_apart hdirectory htable hpdpt
  have hother {t u i j : ℕ} (ht : t % 0x1000 = 0 ∧ t < 2 ^ 52) (hu : u % 0x1000 = 0 ∧ u < 2 ^ 52)
      (hi : i < 512) (hj : j < 512) (hne : t ≠ u) :
      entryPointer hhdmOffset t i ≠ entryPointer hhdmOffset u j :=
    fun h => hne (entryPointer_inj ht hu hi hj h).1
  constructor
  · rw [Function.update_of_ne (hother hpdptFrame htableFrame (by omega) (by omega) hpdptTable),
      Function.update_of_ne (hother hpdptFrame hdirectoryFrame (by omega) (by omega)
        hpdptDirectory), Function.update_self]
  · intro i hi
    rw [Function.update_of_ne (hother hdirectoryFrame htableFrame hi (by omega) hframes)]
    by_cases hfirst : i = 0
    · rw [if_pos hfirst, hfirst, Function.update_self]
    · rw [if_neg hfirst, Function.update_of_ne fun h =>
          hfirst (entryPointer_inj hdirectoryFrame hdirectoryFrame hi (by omega) h).2,
        Function.update_of_ne (hother hdirectoryFrame hpdptFrame hi (by omega)
          hpdptDirectory.symm), (hcleared i hi).1]
  · intro i hi
    by_cases hfirst : i = 0
    · rw [if_pos hfirst, hfirst, Function.update_self]
    · rw [if_neg hfirst, Function.update_of_ne fun h =>
          hfirst (entryPointer_inj htableFrame htableFrame hi (by omega) h).2,
        Function.update_of_ne (hother htableFrame hdirectoryFrame hi (by omega) hframes.symm),
        Function.update_of_ne (hother htableFrame hpdptFrame hi (by omega) hpdptTable.symm),
        (hcleared i hi).2]
  · exact ((hsame.update _ (Or.inr (Or.inr ⟨rfl, rfl⟩)) hpdptFrame (by omega)).update _ (Or.inl rfl)
      hdirectoryFrame (by omega)).update _ (Or.inr (Or.inl rfl)) htableFrame (by omega)

/-- **The register is reached** through the new mapping. -/
theorem LapicMapped.configure_run
    (h : LapicMapped hhdmOffset directoryFrame tableFrame pdpt s.memory memory) :
    ∃ s', lapicConfigureLint0 hhdmOffset { s with memory := memory } = some s' ∧
      s'.memory = memory ∧ s'.cr3 = s.cr3 := by
  have hslot : InLapicSlot (lapicVirtualBase + 0x350) := by decide
  have hregister : physicalAddress memory s.cr3 hhdmOffset (lapicVirtualBase + 0x350) =
      some (lapicPhysicalBase + 0x350).toNat := by
    unfold physicalAddress
    rw [h.walk_slot hready hdirectory htable hpdpt hslot, if_pos (by decide)]
    rfl
  unfold lapicConfigureLint0
  rw [if_pos hregister]
  exact ⟨_, rfl, rfl, rfl⟩

/-- **The call maps the page** where the PDPT's last entry is absent. -/
theorem LapicReady.enable_run
    (habsent : pageTables s.memory hhdmOffset 2 pdpt 511 = .absent) :
    ∃ s', lapicEnableLegacyPic tables hhdmOffset s = some (true, s') ∧ s'.cr3 = s.cr3 ∧
      LapicMapped hhdmOffset directoryFrame tableFrame pdpt s.memory s'.memory := by
  have hframes := (hready.frames directoryFrame tableFrame hdirectory htable).1
  have hdirectoryFrame := pageWalk_frame hdirectory
  have htableFrame := pageWalk_frame htable
  obtain ⟨hpdptFrame, hpdptDirectory, hpdptTable⟩ :=
    hready.pdpt_apart hdirectory htable hpdpt
  obtain ⟨hpresent, hlast⟩ := hready.last_entries hpdpt
  have hclear : s.memory (entryPointer hhdmOffset pdpt 511) &&& pagePresent = 0 :=
    decodeEntry_absent_iff.1 habsent
  obtain ⟨memory, hrun, hsame, hcleared⟩ :=
    hready.clear_run hdirectory htable hpdpt (show 512 ≤ 512 by omega)
  -- the three stores after the loop
  have hsame₁ := hsame.update (tableLink directoryFrame) (Or.inr (Or.inr ⟨rfl, rfl⟩)) hpdptFrame
    (show 511 < 512 by omega)
  have hsame₂ := hsame₁.update (tableLink tableFrame) (Or.inl rfl) hdirectoryFrame
    (show 0 < 512 by omega)
  have hsame₃ := hsame₂.update lapicLeaf (Or.inr (Or.inl rfl)) htableFrame (show 0 < 512 by omega)
  have hstore₁ := hready.store_directory hdirectory htable hpdpt hsame₁ (tableLink tableFrame)
    (show 0 < 512 by omega)
  have hstore₂ := hready.store_table hdirectory htable hpdpt hsame₂ lapicLeaf
    (show 0 < 512 by omega)
  have hmapped := hready.mapped hdirectory htable hpdpt hsame hcleared
  obtain ⟨s', hconfigure, hmemory, hcr3⟩ := hmapped.configure_run hready hdirectory htable hpdpt
  have htranslate₁ : pagingTranslate4k s.memory s.cr3 hhdmOffset tables.lapicPageDirectory
      (some 0) = (true, some (BitVec.ofNat 64 directoryFrame)) := by
    rw [pagingTranslate4k_eq, hdirectory, hready.directoryAligned]
    rfl
  have htranslate₂ : pagingTranslate4k s.memory s.cr3 hhdmOffset tables.lapicPageTable
      (some 0) = (true, some (BitVec.ofNat 64 tableFrame)) := by
    rw [pagingTranslate4k_eq, htable, hready.tableAligned]
    rfl
  unfold lapicEnableLegacyPic
  simp only [htranslate₁, htranslate₂, if_neg hpresent, hlast, hclear, ne_eq, not_true_eq_false,
    if_false, hrun, Machine.storeHhdm, Option.bind_eq_bind, Option.bind_some]
  rw [show (0 : Word) = BitVec.ofNat 64 0 from rfl, hstore₁, Option.bind_some, hstore₂,
    Option.bind_some, hconfigure]
  refine ⟨s', rfl, hcr3, ?_⟩
  rw [hmemory]
  exact hmapped

end Ready

theorem LapicReady.root_table (hready : LapicReady tables hhdmOffset s)
    (hdirectory : pageWalk s.memory s.cr3 hhdmOffset tables.lapicPageDirectory =
      some (0, directoryFrame)) :
    ∃ pdpt, pageTables s.memory hhdmOffset 3 (entryAddress s.cr3) 511 = .table pdpt := by
  have hslot := hready.directorySlot.1
  unfold pageWalk at hdirectory
  match hroot : pageTables s.memory hhdmOffset 3 (entryAddress s.cr3) 511 with
  | .table pdpt => exact ⟨pdpt, rfl⟩
  | .absent =>
    rw [walk_absent (by rw [hslot, hroot])] at hdirectory
    cases hdirectory
  | .leaf frame =>
    rw [walk_leaf (a := frame) (by rw [hslot, hroot])] at hdirectory
    cases hdirectory

/-- **Why the call may refuse**: a static table without a frame of its own,
or a slot that is taken. -/
def LapicRefused (tables : LapicTables) (hhdmOffset : Word) (s : Machine) : Prop :=
  (∀ frame, pageWalk s.memory s.cr3 hhdmOffset tables.lapicPageDirectory ≠ some (0, frame)) ∨
  (∀ frame, pageWalk s.memory s.cr3 hhdmOffset tables.lapicPageTable ≠ some (0, frame)) ∨
  ∃ pdpt, pageTables s.memory hhdmOffset 3 (entryAddress s.cr3) 511 = .table pdpt ∧
    pageTables s.memory hhdmOffset 2 pdpt 511 ≠ .absent

/-- **It refuses before it has written anything.** -/
theorem LapicReady.refused_run (hready : LapicReady tables hhdmOffset s)
    (h : LapicRefused tables hhdmOffset s) :
    lapicEnableLegacyPic tables hhdmOffset s = some (false, s) := by
  unfold lapicEnableLegacyPic
  obtain ⟨directoryFrame, hdirectory, htranslate₁⟩ | ⟨-, hfailed⟩ :=
    translate_or_not s.memory s.cr3 hhdmOffset tables.lapicPageDirectory 0
  swap
  · rw [hfailed]
  obtain ⟨tableFrame, htable, htranslate₂⟩ | ⟨-, hfailed⟩ :=
    translate_or_not s.memory s.cr3 hhdmOffset tables.lapicPageTable 0
  swap
  · simp only [htranslate₁, hfailed]
  obtain hnone | hnone | ⟨pdpt, hpdpt, htaken⟩ := h
  · exact absurd hdirectory (hnone directoryFrame)
  · exact absurd htable (hnone tableFrame)
  · obtain ⟨hpresent, hlast⟩ := hready.last_entries hpdpt
    have hentry : s.memory (entryPointer hhdmOffset pdpt 511) &&& pagePresent ≠ 0 :=
      fun hclear => htaken (decodeEntry_absent_iff.2 hclear)
    simp only [htranslate₁, htranslate₂, if_neg hpresent, hlast, if_pos hentry]

/-- **The call returns**, and refuses for these reasons only. -/
theorem LapicReady.cases (hready : LapicReady tables hhdmOffset s) :
    LapicRefused tables hhdmOffset s ∨
    ∃ directoryFrame tableFrame pdpt,
      pageWalk s.memory s.cr3 hhdmOffset tables.lapicPageDirectory = some (0, directoryFrame) ∧
      pageWalk s.memory s.cr3 hhdmOffset tables.lapicPageTable = some (0, tableFrame) ∧
      pageTables s.memory hhdmOffset 3 (entryAddress s.cr3) 511 = .table pdpt ∧
      pageTables s.memory hhdmOffset 2 pdpt 511 = .absent := by
  by_cases hdirectory : ∃ frame,
    pageWalk s.memory s.cr3 hhdmOffset tables.lapicPageDirectory = some (0, frame)
  swap
  · exact Or.inl (Or.inl (not_exists.1 hdirectory))
  by_cases htable : ∃ frame,
    pageWalk s.memory s.cr3 hhdmOffset tables.lapicPageTable = some (0, frame)
  swap
  · exact Or.inl (Or.inr (Or.inl (not_exists.1 htable)))
  obtain ⟨directoryFrame, hdirectory⟩ := hdirectory
  obtain ⟨tableFrame, htable⟩ := htable
  obtain ⟨pdpt, hpdpt⟩ := hready.root_table hdirectory
  by_cases habsent : pageTables s.memory hhdmOffset 2 pdpt 511 = .absent
  · exact Or.inr ⟨directoryFrame, tableFrame, pdpt, hdirectory, htable, hpdpt, habsent⟩
  · exact Or.inl (Or.inr (Or.inr ⟨pdpt, hpdpt, habsent⟩))

/-- The addresses of the LAPIC's page. -/
def InLapicPage (v : Word) : Prop := InLapicSlot v ∧ levelIndex v 1 = 0 ∧ levelIndex v 0 = 0

theorem inLapicPage_base {o : ℕ} (ho : o < 0x1000) :
    InLapicPage (lapicVirtualBase + BitVec.ofNat 64 o) ∧
      (lapicVirtualBase + BitVec.ofNat 64 o).toNat % 0x1000 = o := by
  have hbase : (lapicVirtualBase + BitVec.ofNat 64 o).toNat = 0xFFFFFFFFC0000000 + o := by
    rw [BitVec.toNat_add, BitVec.toNat_ofNat, show lapicVirtualBase.toNat = 0xFFFFFFFFC0000000 from
      rfl]
    omega
  unfold InLapicPage InLapicSlot levelIndex
  rw [hbase, show leafBytes 3 = 0x8000000000 from rfl, show leafBytes 2 = 0x40000000 from rfl,
    show leafBytes 1 = 0x200000 from rfl, show leafBytes 0 = 0x1000 from rfl]
  omega

/-- **Mapping the LAPIC's page changes one translation and nothing else.**
The call returns. It refuses exactly where a static table has no 4 KiB
translation or the slot is taken, and then no entry has changed. Otherwise
the page at the slot's base is translated to the LAPIC's registers, every
other address of the slot is unmapped, and every address outside the slot
has the answers it had. -/
theorem lapic_mapping_exact (tables : LapicTables) (hhdmOffset : Word) (s : Machine)
    (hready : LapicReady tables hhdmOffset s) :
    ∃ mapped s', lapicEnableLegacyPic tables hhdmOffset s = some (mapped, s') ∧ s'.cr3 = s.cr3 ∧
      (mapped = false ↔ LapicRefused tables hhdmOffset s) ∧
      (mapped = false → s'.memory = s.memory) ∧
      (mapped = true →
        (∀ o < 0x1000, ∀ old,
          pagingTranslate4k s'.memory s'.cr3 hhdmOffset (lapicVirtualBase + BitVec.ofNat 64 o)
            (some old) = (true, some (lapicPhysicalBase + BitVec.ofNat 64 o))) ∧
        (∀ v, InLapicSlot v → ¬InLapicPage v → ∀ old,
          pagingTranslate4k s'.memory s'.cr3 hhdmOffset v (some old) = (false, some old) ∧
          pagingIsMapped s'.memory s'.cr3 hhdmOffset v = false) ∧
        ∀ v, ¬InLapicSlot v → ∀ old,
          pagingTranslate4k s'.memory s'.cr3 hhdmOffset v (some old) =
            pagingTranslate4k s.memory s.cr3 hhdmOffset v (some old) ∧
          pagingIsMapped s'.memory s'.cr3 hhdmOffset v =
            pagingIsMapped s.memory s.cr3 hhdmOffset v) := by
  obtain hrefused | ⟨directoryFrame, tableFrame, pdpt, hdirectory, htable, hpdpt, habsent⟩ :=
    hready.cases
  · exact ⟨false, s, hready.refused_run hrefused, rfl, by simp [hrefused], fun _ => rfl,
      fun h => by cases h⟩
  obtain ⟨s', hrun, hcr3, hmapped⟩ := hready.enable_run hdirectory htable hpdpt habsent
  have hslot {v : Word} (hv : InLapicSlot v) :=
    hmapped.walk_slot hready hdirectory htable hpdpt hv
  have hother {v : Word} (hv : ¬InLapicSlot v) :=
    hready.walk_same hdirectory htable hpdpt hmapped.same hv
  refine ⟨true, s', hrun, hcr3, ?_, fun h => (by cases h), fun _ => ⟨fun o ho old => ?_,
    fun v hv hpage old => ?_, fun v hv old => ?_⟩⟩
  · -- what is mapped was not refused
    simp only [Bool.true_eq_false, false_iff]
    intro hrefused
    cases (hready.refused_run hrefused).symm.trans hrun
  · obtain ⟨⟨hv, hfirst⟩, hoffset⟩ := inLapicPage_base ho
    rw [pagingTranslate4k_eq, hcr3, hslot hv, if_pos hfirst, hoffset]
    have hsum : BitVec.ofNat 64 (0xFEE00000 + o) = lapicPhysicalBase + BitVec.ofNat 64 o :=
      BitVec.ofNat_add 0xFEE00000 o
    simp only [hsum]
  · have hnone := (hslot hv).trans (if_neg fun hfirst => hpage ⟨hv, hfirst⟩)
    rw [pagingTranslate4k_eq, pagingIsMapped_eq, hcr3, hnone]
    exact ⟨rfl, rfl⟩
  · rw [pagingTranslate4k_eq, pagingTranslate4k_eq, pagingIsMapped_eq, pagingIsMapped_eq, hcr3,
      hother hv]
    exact ⟨rfl, rfl⟩

/-- Four tables that map two pages in the next-to-last gigabyte. -/
def samplePages : PageMemory := fun pointer =>
  if pointer.toNat = 0x1FF8 then 0x2003
  else if pointer.toNat = 0x2FF0 then 0x3003
  else if pointer.toNat = 0x3000 then 0x4003
  else if pointer.toNat = 0x4000 then 0x5003
  else if pointer.toNat = 0x4008 then 0x6003
  else 0

def sampleMachine : Machine := ⟨samplePages, 0x1000, 0x10000⟩

def sampleTables : LapicTables := ⟨0xFFFFFFFF80000000, 0xFFFFFFFF80001000⟩

/-- Each of the first three tables has one entry. -/
theorem sample_entry {level u i t : ℕ} (hu : u % 0x1000 = 0 ∧ u < 2 ^ 52) (hi : i < 512)
    (h : pageTables samplePages 0 level u i = .table t) :
    u = 0x1000 ∧ i = 511 ∧ t = 0x2000 ∨ u = 0x2000 ∧ t = 0x3000 ∨ u = 0x3000 ∧ t = 0x4000 ∨
      u = 0x4000 := by
  have hpointer : (entryPointer 0 u i).toNat = u + 8 * i := by
    have hzero : entryPointer 0 u i = BitVec.ofNat 64 (u + 8 * i) := BitVec.zero_add _
    rw [hzero, BitVec.toNat_ofNat]
    exact Nat.mod_eq_of_lt (by omega)
  unfold pageTables samplePages at h
  rw [hpointer] at h
  split at h
  · exact Or.inl ⟨by omega, by omega, of_decodeEntry_table h⟩
  split at h
  · exact Or.inr (Or.inl ⟨by omega, of_decodeEntry_table h⟩)
  split at h
  · exact Or.inr (Or.inr (Or.inl ⟨by omega, of_decodeEntry_table h⟩))
  split at h
  · exact Or.inr (Or.inr (Or.inr (by omega)))
  split at h
  · exact Or.inr (Or.inr (Or.inr (by omega)))
  · rw [decodeEntry_zero] at h
    cases h

/-- Their walks read them one below the other. -/
theorem sample_reads {k u : ℕ} (h : Reads sampleMachine 0 v k u) :
    k = 3 ∧ u = 0x1000 ∨ (k = 2 ∧ levelIndex v 3 = 511) ∧ u = 0x2000 ∨ k = 1 ∧ u = 0x3000 ∨
      k = 0 ∧ u = 0x4000 := by
  refine h.invariant (P := fun k u => k = 3 ∧ u = 0x1000 ∨ (k = 2 ∧ levelIndex v 3 = 511) ∧
    u = 0x2000 ∨ k = 1 ∧ u = 0x3000 ∨ k = 0 ∧ u = 0x4000) (Or.inl ⟨rfl, rfl⟩)
    fun k u t hu hentry => ?_
  have hnext := sample_entry (by omega) (levelIndex_lt v (k + 1)) hentry
  obtain ⟨hk, rfl⟩ | ⟨⟨hk, -⟩, rfl⟩ | ⟨hk, rfl⟩ | ⟨hk, rfl⟩ := hu
  · obtain rfl : k = 2 := by omega
    rw [show 2 + 1 = 3 from rfl] at hnext
    omega
  · omega
  · omega
  · omega

/-- The two pages stand in the next-to-last gigabyte, on frames of their own. -/
theorem sample_ready : LapicReady sampleTables 0 sampleMachine := by
  have hdirectory : pageWalk samplePages 0x1000 0 sampleTables.lapicPageDirectory =
      some (0, 0x5000) := by decide
  have htable : pageWalk samplePages 0x1000 0 sampleTables.lapicPageTable = some (0, 0x6000) := by
    decide
  refine ⟨by decide, by decide, by decide, by decide, by decide, ?_, ?_⟩
  · intro directoryFrame tableFrame hdirectory' htable'
    cases hdirectory.symm.trans hdirectory'
    cases htable.symm.trans htable'
    refine ⟨by omega, fun v k u hu => ?_⟩
    have hcases := sample_reads hu
    omega
  · intro pdpt hpdpt v k hu
    have hcases := sample_reads hu
    have hentry := sample_entry (by decide) (by omega) hpdpt
    rw [show entryAddress sampleMachine.cr3 = 0x1000 from rfl] at hentry
    omega

/-- **The page of the sample tables is mapped**, and the code's own pages
keep their frames. -/
theorem lapic_mapping_exact_sample :
    ∃ s', lapicEnableLegacyPic sampleTables 0 sampleMachine = some (true, s') ∧
      pagingTranslate4k s'.memory s'.cr3 0 0xFFFFFFFFC0000350 (some 0) =
        (true, some 0xFEE00350) ∧
      pagingIsMapped s'.memory s'.cr3 0 0xFFFFFFFFC0001000 = false ∧
      pagingTranslate4k s'.memory s'.cr3 0 0xFFFFFFFF80001008 (some 0) = (true, some 0x6008) := by
  obtain ⟨mapped, s', hrun, -, hrefused, -, hmapped⟩ :=
    lapic_mapping_exact sampleTables 0 sampleMachine sample_ready
  have htrue : mapped = true := by
    refine Bool.eq_true_of_not_eq_false fun hfalse => ?_
    obtain hnone | hnone | ⟨pdpt, hpdpt, htaken⟩ := hrefused.1 hfalse
    · exact hnone 0x5000 (by decide)
    · exact hnone 0x6000 (by decide)
    · cases (show pageTables samplePages 0 3 0x1000 511 = .table 0x2000 from rfl).symm.trans hpdpt
      exact htaken rfl
  subst htrue
  obtain ⟨hpage, hrest, hother⟩ := hmapped rfl
  exact ⟨s', hrun, hpage 0x350 (by omega) 0,
    (hrest 0xFFFFFFFFC0001000 (by decide) (fun h => absurd h.2 (by decide)) 0).2,
    (hother 0xFFFFFFFF80001008 (by decide) 0).1⟩

end KbmOs
