import KbmOs.Lib.TableWalk
import Mathlib.Algebra.Group.Nat.Defs
/-!
# The processor's page walk

Four levels of tables of 512 entries each, from the PML4 at level 3 down to
the page tables at level 0. An entry is a word: bit 0 says that it is
present, bits 12 to 51 are an address, and bit 7 makes an entry of a PDPT
or a page directory the leaf of a large page. The tables lie in physical
memory, which the kernel reaches through the HHDM, so memory is given by
pointer here too.
-/

namespace KbmOs

open TableWalk

/-- A `uint64_t`, as its bits. -/
abbrev Word := BitVec 64

/-- The words behind the pointers of the HHDM. -/
abbrev PageMemory := Word → Word

/-- The address in an entry: its flags, the reserved high bits and NX are
not part of it. -/
def entryAddress (entry : Word) : ℕ := entry.toNat / 0x1000 % 2 ^ 40 * 0x1000

/-- The bytes a leaf at a level maps: 4 KiB, 2 MiB or 1 GiB. -/
def leafBytes (level : ℕ) : ℕ := 0x1000 * 512 ^ level

/-- The index an address has into the tables of a level. -/
def levelIndex (virtualAddress : Word) (level : ℕ) : ℕ :=
  virtualAddress.toNat / leafBytes level % 512

/-- **What an entry says** at a level. -/
def decodeEntry (level : ℕ) (entry : Word) : Entry ℕ ℕ :=
  if entry.getLsbD 0 = false then .absent
  else if level = 0 ∨ level < 3 ∧ entry.getLsbD 7 = true then .leaf (entryAddress entry)
  else .table (entryAddress entry)

/-- The pointer to an entry of the table at a physical address. -/
def entryPointer (hhdmOffset : Word) (table index : ℕ) : Word :=
  hhdmOffset + BitVec.ofNat 64 (table + 8 * index)

/-- The tables in memory. -/
def pageTables (memory : PageMemory) (hhdmOffset : Word) : Tables ℕ ℕ ℕ := fun level table index =>
  decodeEntry level (memory (entryPointer hhdmOffset table index))

/-- **The walk** of an address: the level of the leaf it ends in, and the
address in it. -/
def pageWalk (memory : PageMemory) (cr3 hhdmOffset virtualAddress : Word) : Option (ℕ × ℕ) :=
  walk (pageTables memory hhdmOffset) (levelIndex virtualAddress) 4 (entryAddress cr3)

/-- Where an access to an address goes: a leaf maps as many bytes as its
level says, from a multiple of their number on. -/
def physicalAddress (memory : PageMemory) (cr3 hhdmOffset virtualAddress : Word) : Option ℕ :=
  (pageWalk memory cr3 hhdmOffset virtualAddress).map fun leaf =>
    leaf.2 / leafBytes leaf.1 * leafBytes leaf.1 + virtualAddress.toNat % leafBytes leaf.1

variable {memory memory' : PageMemory} {cr3 hhdmOffset entry v w : Word} {level table index : ℕ}

theorem entryAddress_lt (entry : Word) : entryAddress entry < 2 ^ 52 := by
  unfold entryAddress
  omega

theorem entryAddress_mod (entry : Word) : entryAddress entry % 0x1000 = 0 := Nat.mul_mod_left _ _

theorem levelIndex_lt (v : Word) (level : ℕ) : levelIndex v level < 512 :=
  Nat.mod_lt _ (by decide)

/-- An entry that leads to a table leads to its address. -/
theorem of_decodeEntry_table (h : decodeEntry level entry = .table table) :
    table = entryAddress entry := by
  unfold decodeEntry at h
  split at h
  · cases h
  split at h
  · cases h
  · exact (Entry.table.inj h).symm

/-- And a leaf is its address. -/
theorem of_decodeEntry_leaf {frame : ℕ} (h : decodeEntry level entry = .leaf frame) :
    frame = entryAddress entry := by
  unfold decodeEntry at h
  split at h
  · cases h
  split at h
  · exact (Entry.leaf.inj h).symm
  · cases h

/-- A walk ends in a frame. -/
theorem pageWalk_frame {frame : ℕ} (h : pageWalk memory cr3 hhdmOffset v = some (level, frame)) :
    frame % 0x1000 = 0 ∧ frame < 2 ^ 52 := by
  obtain ⟨u, -, hleaf⟩ := exists_leaf h
  rw [of_decodeEntry_leaf hleaf]
  exact ⟨entryAddress_mod _, entryAddress_lt _⟩

/-- **Every table starts at a multiple of 4096 below 2 ^ 52.** -/
theorem visits_aligned {k u : ℕ}
    (hu : Visits (pageTables memory hhdmOffset) (levelIndex v) 4 (entryAddress cr3) k u) :
    u % 0x1000 = 0 ∧ u < 2 ^ 52 := by
  refine hu.invariant (P := fun _ t => t % 0x1000 = 0 ∧ t < 2 ^ 52)
    ⟨entryAddress_mod cr3, entryAddress_lt cr3⟩ fun k u t' _ hentry => ?_
  rw [of_decodeEntry_table hentry]
  exact ⟨entryAddress_mod _, entryAddress_lt _⟩

/-- **Different entries have different pointers.** -/
theorem entryPointer_inj {t u i j : ℕ} (ht : t % 0x1000 = 0 ∧ t < 2 ^ 52)
    (hu : u % 0x1000 = 0 ∧ u < 2 ^ 52) (hi : i < 512) (hj : j < 512)
    (h : entryPointer hhdmOffset t i = entryPointer hhdmOffset u j) : t = u ∧ i = j := by
  have hsum := congrArg BitVec.toNat ((BitVec.add_right_inj _).1 h)
  rw [BitVec.toNat_ofNat, BitVec.toNat_ofNat, Nat.mod_eq_of_lt (by omega),
    Nat.mod_eq_of_lt (by omega)] at hsum
  omega

/-- Addresses of one page have the same indices. -/
theorem levelIndex_congr (h : v.toNat / 0x1000 = w.toNat / 0x1000) (level : ℕ) :
    levelIndex v level = levelIndex w level := by
  unfold levelIndex leafBytes
  rw [← Nat.div_div_eq_div_mul, ← Nat.div_div_eq_div_mul, h]

/-- The walk of an address depends on its page only. -/
theorem pageWalk_congr (h : v.toNat / 0x1000 = w.toNat / 0x1000) :
    pageWalk memory cr3 hhdmOffset v = pageWalk memory cr3 hhdmOffset w := by
  have hindex : levelIndex v = levelIndex w := funext (levelIndex_congr h)
  unfold pageWalk
  rw [hindex]

end KbmOs
