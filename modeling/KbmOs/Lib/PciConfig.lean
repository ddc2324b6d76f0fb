import Mathlib.Data.List.Basic
import Mathlib.Tactic.IntervalCases
/-!
# PCI configuration space

A bus has 32 devices of up to 8 functions, each with 64 registers of 32
bits. They are reached through two ports: an address is written to the one,
and the register it names is read from the other. A base address register
says where a region of its function is and of which kind it is; a region
with a 64-bit address takes the register after it as well.
-/

namespace PciConfig

variable {α β : Type}

/-- Where a function is. -/
structure Place where
  bus : BitVec 8
  device : BitVec 5
  function : BitVec 3
deriving DecidableEq

/-- The registers of every function. -/
abbrev Space := Place → BitVec 6 → BitVec 32

/-- The two ports. -/
structure Mechanism where
  address : BitVec 32
  space : Space

/-- The address of a register, as the address port takes it. -/
def Place.address (place : Place) (register : BitVec 6) : BitVec 32 :=
  1#1 ++ 0#7 ++ place.bus ++ place.device ++ place.function ++ register ++ 0#2

/-- The order in which a bus is gone through. -/
def Place.number (place : Place) : ℕ := 8 * place.device.toNat + place.function.toNat

/-- The places of a bus. -/
def places (bus : BitVec 8) : List Place := (List.range 32).flatMap fun device =>
  (List.range 8).map fun function => ⟨bus, BitVec.ofNat 5 device, BitVec.ofNat 3 function⟩

namespace Mechanism

def writeAddress (value : BitVec 32) (m : Mechanism) : Mechanism := { m with address := value }

/-- The register that is addressed, or nothing but ones. -/
def readData (m : Mechanism) : BitVec 32 :=
  if m.address.getLsbD 31 then
    m.space ⟨m.address.extractLsb' 16 8, m.address.extractLsb' 11 5, m.address.extractLsb' 8 3⟩
      (m.address.extractLsb' 2 6)
  else BitVec.allOnes 32

end Mechanism

section Fields

variable (place : Place) (register : BitVec 6)

theorem enabled_address : (place.address register).getLsbD 31 = true := by
  unfold Place.address
  simp only [BitVec.getLsbD_append]
  rfl

theorem bus_address : (place.address register).extractLsb' 16 8 = place.bus := by
  unfold Place.address
  ext i hi
  simp only [BitVec.getElem_extractLsb', BitVec.getLsbD_append]
  interval_cases i <;> simp

theorem device_address : (place.address register).extractLsb' 11 5 = place.device := by
  unfold Place.address
  ext i hi
  simp only [BitVec.getElem_extractLsb', BitVec.getLsbD_append]
  interval_cases i <;> simp

theorem function_address : (place.address register).extractLsb' 8 3 = place.function := by
  unfold Place.address
  ext i hi
  simp only [BitVec.getElem_extractLsb', BitVec.getLsbD_append]
  interval_cases i <;> simp

theorem register_address : (place.address register).extractLsb' 2 6 = register := by
  unfold Place.address
  ext i hi
  simp only [BitVec.getElem_extractLsb', BitVec.getLsbD_append]
  interval_cases i <;> simp

/-- **The register whose address is written is read.** -/
theorem readData_address (m : Mechanism) :
    (m.writeAddress (place.address register)).readData = m.space place register := by
  unfold Mechanism.readData Mechanism.writeAddress
  dsimp only
  rw [enabled_address, bus_address, device_address, function_address, register_address, if_pos rfl]

end Fields

/-! ## Going through a bus -/

variable {bus : BitVec 8} {place : Place}

/-- **Every place of the bus is gone to.** -/
theorem mem_places : place ∈ places bus ↔ place.bus = bus := by
  unfold places
  simp only [List.mem_flatMap, List.mem_map, List.mem_range]
  constructor
  · rintro ⟨device, -, function, -, rfl⟩
    rfl
  · rintro rfl
    exact ⟨place.device.toNat, place.device.isLt, place.function.toNat, place.function.isLt, by
      rw [BitVec.ofNat_toNat, BitVec.ofNat_toNat, BitVec.setWidth_eq, BitVec.setWidth_eq]⟩

/-- Counting in two digits. -/
theorem range_flatMap (n k : ℕ) :
    ((List.range n).flatMap fun d => (List.range k).map fun e => k * d + e) = List.range (k * n) := by
  induction n with
  | zero => rfl
  | succ n ih =>
    rw [List.range_succ, List.flatMap_append, ih, List.flatMap_singleton, Nat.mul_succ, List.range_add]

/-- **And each once**, in order. -/
theorem pairwise_places (bus : BitVec 8) :
    (places bus).Pairwise fun p q => p.number < q.number := by
  have hnumbers : (places bus).map Place.number = List.range 256 := by
    unfold places
    rw [List.map_flatMap, ← range_flatMap 32 8]
    refine List.flatMap_congr fun device hdevice => ?_
    rw [List.map_map]
    refine List.map_congr_left fun function hfunction => ?_
    have hlt := List.mem_range.1 hdevice
    have hlt' := List.mem_range.1 hfunction
    unfold Place.number Function.comp
    dsimp only
    rw [BitVec.toNat_ofNat, BitVec.toNat_ofNat, Nat.mod_eq_of_lt (by omega),
      Nat.mod_eq_of_lt (by omega)]
  have hsorted : ((places bus).map Place.number).Pairwise (· < ·) := by
    rw [hnumbers]
    exact List.pairwise_lt_range
  exact List.pairwise_map.1 hsorted

/-! ## Programs that only look -/

/-- The program finds this in the registers, and changes none. -/
def Observes (p : StateM Mechanism α) (space : Space) (a : α) : Prop :=
  ∀ address, ∃ address', p ⟨address, space⟩ = (a, ⟨address', space⟩)

variable {p : StateM Mechanism α} {q : α → StateM Mechanism β} {space : Space} {a : α} {b : β}

theorem Observes.pure (a : α) (space : Space) : Observes (pure a) space a := fun address =>
  ⟨address, rfl⟩

theorem Observes.bind (h : Observes p space a) (h' : Observes (q a) space b) :
    Observes (p >>= q) space b := fun address => by
  obtain ⟨middle, hp⟩ := h address
  obtain ⟨last, hq⟩ := h' middle
  refine ⟨last, ?_⟩
  have hbind : (p >>= q) ⟨address, space⟩ = q (p ⟨address, space⟩).1 (p ⟨address, space⟩).2 := rfl
  rw [hbind, hp]
  exact hq

/-- **One after the other.** -/
theorem Observes.mapM {γ : Type} {f : γ → StateM Mechanism β} {g : γ → β} {items : List γ}
    (h : ∀ c ∈ items, Observes (f c) space (g c)) : Observes (items.mapM f) space (items.map g) := by
  induction items with
  | nil => exact Observes.pure [] space
  | cons c items ih =>
    rw [List.mapM_cons, List.map_cons]
    exact (h c List.mem_cons_self).bind
      ((ih fun d hd => h d (List.mem_cons_of_mem c hd)).bind (Observes.pure _ space))

/-- **Row after row**, what is found put together. -/
theorem Observes.grid {γ δ : Type} {f : γ → δ → StateM Mechanism (List β)} {g : γ → δ → List β}
    {rows : List γ} {columns : List δ}
    (h : ∀ c ∈ rows, ∀ d ∈ columns, Observes (f c d) space (g c d)) :
    Observes (do
        let found ← rows.mapM fun c => do
          let row ← columns.mapM (f c)
          Pure.pure row.flatten
        Pure.pure found.flatten) space (rows.flatMap fun c => columns.flatMap (g c)) := by
  have hrow : ∀ c ∈ rows, Observes (do
      let row ← columns.mapM (f c)
      Pure.pure row.flatten) space (columns.flatMap (g c)) := fun c hc => by
    rw [List.flatMap_def]
    exact (Observes.mapM (h c hc)).bind (Observes.pure _ space)
  rw [List.flatMap_def]
  exact (Observes.mapM hrow).bind (Observes.pure _ space)

/-! ## Regions -/

/-- A region of a function: ports, or memory at a 32-bit or at a 64-bit
address. The lowest bits of its address are zero and not kept. -/
inductive Region
  | ports (port : BitVec 30)
  | memory32 (base : BitVec 28) (prefetchable : Bool)
  | memory64 (base : BitVec 60) (prefetchable : Bool)

namespace Region

/-- Where the region is. -/
def base : Region → BitVec 64
  | .ports port => 0#32 ++ port ++ 0#2
  | .memory32 base _ => 0#32 ++ base ++ 0#4
  | .memory64 base _ => base ++ 0#4

/-- What its register holds. -/
def register : Region → BitVec 32
  | .ports port => port ++ 1#2
  | .memory32 base prefetchable => base ++ BitVec.ofBool prefetchable ++ 0#3
  | .memory64 base prefetchable => base.extractLsb' 0 28 ++ BitVec.ofBool prefetchable ++ 4#3

/-- The registers hold the region. -/
def HeldBy : Region → BitVec 32 → BitVec 32 → Prop
  | .memory64 base prefetchable, low, high =>
    low = (memory64 base prefetchable).register ∧ high = base.extractLsb' 28 32
  | region, low, _ => low = region.register

variable {low high : BitVec 32}

/-- Ports have bit 0 set … -/
theorem ports_register (port : BitVec 30) : (ports port).register &&& 1 ≠ 0 ∧
    ((ports port).register &&& 0xFFFFFFFC).setWidth 64 = (ports port).base := by
  constructor
  · have hset : ((ports port).register &&& 1).getLsbD 0 = true := by
      unfold register
      simp only [BitVec.getLsbD_and, BitVec.getLsbD_append]
      rfl
    intro heq
    rw [heq] at hset
    cases hset
  · unfold register base
    apply BitVec.eq_of_getLsbD_eq
    intro i hi
    simp only [BitVec.getLsbD_append, BitVec.getLsbD_and, BitVec.getLsbD_setWidth]
    interval_cases i <;> simp

/-- … and memory has it clear; the two bits above say how wide its address
is. -/
theorem memory32_register (base : BitVec 28) (prefetchable : Bool) :
    (memory32 base prefetchable).register &&& 1 = 0 ∧
    ((memory32 base prefetchable).register >>> 1) &&& 0x3 = 0 ∧
    ((memory32 base prefetchable).register &&& 0xFFFFFFF0).setWidth 64 =
      (memory32 base prefetchable).base := by
  unfold register Region.base
  refine ⟨?_, ?_, ?_⟩
  all_goals
    apply BitVec.eq_of_getLsbD_eq
    intro i hi
    simp only [BitVec.getLsbD_append, BitVec.getLsbD_and, BitVec.getLsbD_setWidth,
      BitVec.getLsbD_ushiftRight]
    interval_cases i <;> simp

theorem memory64_register (base : BitVec 60) (prefetchable : Bool) :
    (memory64 base prefetchable).register &&& 1 = 0 ∧
    ((memory64 base prefetchable).register >>> 1) &&& 0x3 = 2 ∧
    ((memory64 base prefetchable).register &&& 0xFFFFFFF0).setWidth 64 |||
      (base.extractLsb' 28 32).setWidth 64 <<< 32 = (memory64 base prefetchable).base := by
  unfold register Region.base
  refine ⟨?_, ?_, ?_⟩
  all_goals
    apply BitVec.eq_of_getLsbD_eq
    intro i hi
    simp only [BitVec.getLsbD_append, BitVec.getLsbD_and, BitVec.getLsbD_or, BitVec.getLsbD_setWidth,
      BitVec.getLsbD_ushiftRight, BitVec.getLsbD_shiftLeft, BitVec.getLsbD_extractLsb']
    interval_cases i <;> simp

end Region

end PciConfig
