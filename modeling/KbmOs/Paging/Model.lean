import KbmOs.Paging.Walk
import Mathlib.Logic.Function.Basic
/-!
# The page-table walkers and the LAPIC's page

`arch/x86_64/paging.c`, and from `arch/x86_64/lapic.c` what maps the
LAPIC's page. The walkers read the tables through the HHDM. The mapping is
written through two kinds of pointers: one into the HHDM, and the kernel's
own addresses of the two static tables, which the processor translates
with the tables as they stand.
-/

namespace KbmOs

def pagePresent : Word := 1 <<< 0
def pageWritable : Word := 1 <<< 1
def pageWriteThrough : Word := 1 <<< 3
def pageCacheDisable : Word := 1 <<< 4
def pageHuge : Word := 1 <<< 7
def addressMask : Word := 0x000FFFFFFFFFF000
def pageOffsetMask : Word := 0xFFF

/-- `&pointer[index]`, of words. -/
def elementAt (pointer index : Word) : Word := pointer + 8 * index

/-! ## `paging.c` -/

/-- The output parameter is nothing where the pointer is null, and what
stands behind it otherwise; it is returned as the call leaves it. -/
def pagingTranslate4k (memory : PageMemory) (cr3 hhdmOffset virtualAddress : Word)
    (physicalAddress : Option Word) : Bool × Option Word :=
  if physicalAddress = none then (false, physicalAddress)
  else
    let pml4Index := virtualAddress >>> 39 &&& 0x1FF
    let pdptIndex := virtualAddress >>> 30 &&& 0x1FF
    let pdIndex := virtualAddress >>> 21 &&& 0x1FF
    let ptIndex := virtualAddress >>> 12 &&& 0x1FF
    let pml4 := hhdmOffset + (cr3 &&& addressMask)
    let pml4Entry := memory (elementAt pml4 pml4Index)
    if pml4Entry &&& pagePresent = 0 then (false, physicalAddress)
    else
      let pdpt := hhdmOffset + (pml4Entry &&& addressMask)
      let pdptEntry := memory (elementAt pdpt pdptIndex)
      if pdptEntry &&& pagePresent = 0 ∨ pdptEntry &&& pageHuge ≠ 0 then (false, physicalAddress)
      else
        let pd := hhdmOffset + (pdptEntry &&& addressMask)
        let pdEntry := memory (elementAt pd pdIndex)
        if pdEntry &&& pagePresent = 0 ∨ pdEntry &&& pageHuge ≠ 0 then (false, physicalAddress)
        else
          let pt := hhdmOffset + (pdEntry &&& addressMask)
          let ptEntry := memory (elementAt pt ptIndex)
          if ptEntry &&& pagePresent = 0 then (false, physicalAddress)
          else (true, some (ptEntry &&& addressMask ||| virtualAddress &&& pageOffsetMask))

def pagingIsMapped (memory : PageMemory) (cr3 hhdmOffset virtualAddress : Word) : Bool :=
  let pml4Index := virtualAddress >>> 39 &&& 0x1FF
  let pdptIndex := virtualAddress >>> 30 &&& 0x1FF
  let pdIndex := virtualAddress >>> 21 &&& 0x1FF
  let ptIndex := virtualAddress >>> 12 &&& 0x1FF
  let pml4 := hhdmOffset + (cr3 &&& addressMask)
  let pml4Entry := memory (elementAt pml4 pml4Index)
  if pml4Entry &&& pagePresent = 0 then false
  else
    let pdpt := hhdmOffset + (pml4Entry &&& addressMask)
    let pdptEntry := memory (elementAt pdpt pdptIndex)
    if pdptEntry &&& pagePresent = 0 then false
    else if pdptEntry &&& pageHuge ≠ 0 then true
    else
      let pd := hhdmOffset + (pdptEntry &&& addressMask)
      let pdEntry := memory (elementAt pd pdIndex)
      if pdEntry &&& pagePresent = 0 then false
      else if pdEntry &&& pageHuge ≠ 0 then true
      else
        let pt := hhdmOffset + (pdEntry &&& addressMask)
        memory (elementAt pt ptIndex) &&& pagePresent ≠ 0

/-! ## `lapic.c` -/

def lapicPhysicalBase : Word := 0xFEE00000
def lapicVirtualBase : Word := 0xFFFFFFFFC0000000

/-- The page tables' memory, CR3, and the LAPIC's register at `0x350`. -/
structure Machine where
  memory : PageMemory
  cr3 : Word
  lint0 : BitVec 32

/-- Where the linker has put the two static tables. -/
structure LapicTables where
  lapicPageDirectory : Word
  lapicPageTable : Word

/-- A store of the kernel: the processor translates the address, and one it
cannot translate is a fault. -/
def Machine.store (s : Machine) (hhdmOffset pointer value : Word) : Option Machine :=
  (physicalAddress s.memory s.cr3 hhdmOffset pointer).map fun physical =>
    { s with
      memory := Function.update s.memory (hhdmOffset + BitVec.ofNat 64 physical) value }

/-- A store through the HHDM. -/
def Machine.storeHhdm (s : Machine) (pointer value : Word) : Machine :=
  { s with memory := Function.update s.memory pointer value }

def getPml4 (s : Machine) (hhdmOffset : Word) : Word := hhdmOffset + (s.cr3 &&& ~~~(0xFFF : Word))

/-- The loop that clears both tables, `n` turns of it. -/
def clearLapicTables (tables : LapicTables) (hhdmOffset : Word) (s : Machine) : ℕ → Option Machine
  | 0 => some s
  | i + 1 => do
    let s ← clearLapicTables tables hhdmOffset s i
    let s ← s.store hhdmOffset (elementAt tables.lapicPageDirectory (BitVec.ofNat 64 i)) 0
    s.store hhdmOffset (elementAt tables.lapicPageTable (BitVec.ofNat 64 i)) 0

/-- LINT0 takes ExtINT interrupts, unmasked. The register is reached through
the new mapping; an address that leads elsewhere has no register. -/
def lapicConfigureLint0 (hhdmOffset : Word) (s : Machine) : Option Machine :=
  if physicalAddress s.memory s.cr3 hhdmOffset (lapicVirtualBase + 0x350) =
      some (lapicPhysicalBase + 0x350).toNat then
    let lint0 := s.lint0 &&& ~~~(0x7 <<< 8 : BitVec 32)
    let lint0 := lint0 ||| 0x7 <<< 8
    some { s with lint0 := lint0 &&& ~~~(1 <<< 16 : BitVec 32) }
  else none

/-- The tables are translated first, and nothing is written before the last
check is passed. -/
def lapicEnableLegacyPic (tables : LapicTables) (hhdmOffset : Word) (s : Machine) :
    Option (Bool × Machine) :=
  match pagingTranslate4k s.memory s.cr3 hhdmOffset tables.lapicPageDirectory (some 0) with
  | (true, some pageDirectoryPhysical) =>
    match pagingTranslate4k s.memory s.cr3 hhdmOffset tables.lapicPageTable (some 0) with
    | (true, some pageTablePhysical) =>
      let pml4 := getPml4 s hhdmOffset
      let pml4Entry := s.memory (elementAt pml4 511)
      if pml4Entry &&& pagePresent = 0 then some (false, s)
      else
        let pdptVirtual := (pml4Entry &&& addressMask) + hhdmOffset
        if s.memory (elementAt pdptVirtual 511) &&& pagePresent ≠ 0 then some (false, s)
        else do
          let s ← clearLapicTables tables hhdmOffset s 512
          let s := s.storeHhdm (elementAt pdptVirtual 511)
            (pageDirectoryPhysical ||| pagePresent ||| pageWritable)
          let s ← s.store hhdmOffset (elementAt tables.lapicPageDirectory 0)
            (pageTablePhysical ||| pagePresent ||| pageWritable)
          let s ← s.store hhdmOffset (elementAt tables.lapicPageTable 0)
            (lapicPhysicalBase ||| pagePresent ||| pageWritable ||| pageWriteThrough |||
              pageCacheDisable)
          let s ← lapicConfigureLint0 hhdmOffset s
          some (true, s)
    | _ => some (false, s)
  | _ => some (false, s)

end KbmOs
