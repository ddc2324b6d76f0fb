import KbmOs.Paging.Lapic
/-!
# The entries logged at boot

`kmain` logs four entries of the page tables, one a level, which
`lapic_debug_pml4_511` and its companions of `lapic.c` read. They are the
entries on the way of the first page of the kernel's image, so whoever
reads the log can tell whether it is mapped, and where.
-/

namespace KbmOs

open TableWalk

/-! ## `lapic.c` -/

def lapicDebugPml4At511 (s : Machine) (hhdmOffset : Word) : Word :=
  s.memory (elementAt (getPml4 s hhdmOffset) 511)

/-- An entry of the table another entry leads to. -/
def entryBehind (s : Machine) (hhdmOffset entry index : Word) : Word :=
  let physical := entry &&& 0x000FFFFFFFFFF000
  s.memory (elementAt (physical + hhdmOffset) index)

def lapicDebugPdptAt510 (s : Machine) (hhdmOffset : Word) : Word :=
  entryBehind s hhdmOffset (lapicDebugPml4At511 s hhdmOffset) 510

def lapicDebugPdAt0 (s : Machine) (hhdmOffset : Word) : Word :=
  entryBehind s hhdmOffset (lapicDebugPdptAt510 s hhdmOffset) 0

def lapicDebugPtAt0 (s : Machine) (hhdmOffset : Word) : Word :=
  entryBehind s hhdmOffset (lapicDebugPdAt0 s hhdmOffset) 0

/-! ## What they tell -/

/-- Where the kernel's image begins (`x86_64.lds`). -/
def imageStart : Word := 0xFFFFFFFF80000000

/-- **What four entries, one a level, say** of the address they are for. -/
def entriesSay (pml4Entry pdptEntry pdEntry ptEntry : Word) : Option (ℕ × ℕ) :=
  if pml4Entry &&& pagePresent = 0 then none
  else if pdptEntry &&& pagePresent = 0 then none
  else if pdptEntry &&& pageHuge = 0 then
    if pdEntry &&& pagePresent = 0 then none
    else if pdEntry &&& pageHuge = 0 then
      if ptEntry &&& pagePresent = 0 then none else some (0, entryAddress ptEntry)
    else some (1, entryAddress pdEntry)
  else some (2, entryAddress pdptEntry)

variable {s : Machine} {hhdmOffset entry v : Word} {level : ℕ}

theorem entryBehind_eq {index : Word} (hindex : index.toNat = levelIndex imageStart level) :
    entryBehind s hhdmOffset entry index =
      entryOn s.memory hhdmOffset imageStart level (entryAddress entry) := by
  unfold entryBehind entryOn
  dsimp only
  rw [BitVec.add_comm]
  exact congrArg s.memory (elementAt_eq (and_addressMask entry) hindex)

theorem lapicDebugPml4At511_eq (hcr3 : s.cr3.toNat < 2 ^ 52) :
    lapicDebugPml4At511 s hhdmOffset = pml4EntryOn s.memory s.cr3 hhdmOffset imageStart := by
  unfold lapicDebugPml4At511 pml4EntryOn entryOn
  rw [getPml4_eq hcr3]
  exact congrArg s.memory (elementAt_eq (and_addressMask s.cr3) (by decide))

theorem lapicDebugPdptAt510_eq (hcr3 : s.cr3.toNat < 2 ^ 52) :
    lapicDebugPdptAt510 s hhdmOffset = pdptEntryOn s.memory s.cr3 hhdmOffset imageStart := by
  unfold lapicDebugPdptAt510
  rw [lapicDebugPml4At511_eq hcr3]
  exact entryBehind_eq (by decide)

theorem lapicDebugPdAt0_eq (hcr3 : s.cr3.toNat < 2 ^ 52) :
    lapicDebugPdAt0 s hhdmOffset = pdEntryOn s.memory s.cr3 hhdmOffset imageStart := by
  unfold lapicDebugPdAt0
  rw [lapicDebugPdptAt510_eq hcr3]
  exact entryBehind_eq (by decide)

theorem lapicDebugPtAt0_eq (hcr3 : s.cr3.toNat < 2 ^ 52) :
    lapicDebugPtAt0 s hhdmOffset = ptEntryOn s.memory s.cr3 hhdmOffset imageStart := by
  unfold lapicDebugPtAt0
  rw [lapicDebugPdAt0_eq hcr3]
  exact entryBehind_eq (by decide)

/-- **The four entries tell where the kernel's first page is.** For every
memory, HHDM offset and CR3, and every address in that page: the
processor's walk ends where the four entries say, and
`paging_translate_4k` accepts the address exactly where they say 4 KiB,
with the frame in the last of them. -/
theorem lapic_debug_tells (hcr3 : s.cr3.toNat < 2 ^ 52) (hhdmOffset old : Word)
    (hpage : v.toNat / 0x1000 = imageStart.toNat / 0x1000) :
    let said := entriesSay (lapicDebugPml4At511 s hhdmOffset) (lapicDebugPdptAt510 s hhdmOffset)
      (lapicDebugPdAt0 s hhdmOffset) (lapicDebugPtAt0 s hhdmOffset)
    pageWalk s.memory s.cr3 hhdmOffset v = said ∧
    pagingTranslate4k s.memory s.cr3 hhdmOffset v (some old) =
      match said with
      | some (0, frame) => (true, some (BitVec.ofNat 64 (frame + v.toNat % 0x1000)))
      | _ => (false, some old) := by
  intro said
  have hwalk : pageWalk s.memory s.cr3 hhdmOffset v = said := by
    rw [pageWalk_congr hpage, pageWalk_eq]
    change _ = entriesSay _ _ _ _
    rw [lapicDebugPml4At511_eq hcr3, lapicDebugPdptAt510_eq hcr3, lapicDebugPdAt0_eq hcr3,
      lapicDebugPtAt0_eq hcr3]
    rfl
  have htranslated := pagingTranslate4k_eq s.memory s.cr3 hhdmOffset v old
  rw [hwalk] at htranslated
  exact ⟨hwalk, htranslated⟩

theorem lapic_debug_tells_sample :
    pageWalk sampleMachine.memory sampleMachine.cr3 0 0xFFFFFFFF80000008 =
      entriesSay (lapicDebugPml4At511 sampleMachine 0) (lapicDebugPdptAt510 sampleMachine 0)
        (lapicDebugPdAt0 sampleMachine 0) (lapicDebugPtAt0 sampleMachine 0) ∧
    lapicDebugPtAt0 sampleMachine 0 = 0x5003 :=
  ⟨(lapic_debug_tells (by decide) 0 0 (by decide)).1, by decide⟩

end KbmOs
