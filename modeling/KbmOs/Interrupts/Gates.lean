import KbmOs.Lib.Descriptors
import KbmOs.Interrupts.Model
/-!
# The processor's tables

`arch/x86_64/gdt.c` and `arch/x86_64/idt.c` fill two static tables byte by
byte and hand them to the processor. What the processor reads there is the
library's; here it is what the kernel has put there: two segments, seven
gates, and nothing behind any other vector.
-/

namespace KbmOs

open ByteMemory Descriptors

/-- The entry points of `interrupts.S`. -/
inductive Isr
  | isrDivideError
  | isrInvalidOpcode
  | isrGeneralProtectionFault
  | isrPageFault
  | isrTimer
  | isrKeyboard
  | isrMouse
deriving DecidableEq

/-- The fields of `struct idt_entry`, in the order they are written. -/
def idtEntry (handlerAddress : ℕ) : List PackedField := [
  ⟨0, 2, handlerAddress &&& 0xFFFF⟩,
  ⟨6, 2, (handlerAddress >>> 16) &&& 0xFFFF⟩,
  ⟨8, 4, handlerAddress >>> 32⟩,
  -- the code selector from the GDT
  ⟨2, 2, 0x08⟩,
  ⟨4, 1, 0⟩,
  -- present, ring 0, 64-bit interrupt gate
  ⟨5, 1, 0x8E⟩,
  ⟨12, 4, 0⟩]

/-- `idt_set_gate`. -/
def idtSetGate (idt vector handlerAddress : ℕ) (m : Mem) : Mem :=
  storeFields m (idt + 16 * vector) (idtEntry handlerAddress)

/-- `idt_init` up to where `lidt` reads the descriptor. -/
def idtInit (address : Isr → ℕ) (idt idtPointer : ℕ) (m : Mem) : Mem :=
  let m := storeFields m idtPointer [⟨2, 8, idt⟩, ⟨0, 2, 16 * 256 - 1⟩]
  let m := idtSetGate idt 0 (address .isrDivideError) m
  let m := idtSetGate idt 6 (address .isrInvalidOpcode) m
  let m := idtSetGate idt 13 (address .isrGeneralProtectionFault) m
  let m := idtSetGate idt 14 (address .isrPageFault) m
  let m := idtSetGate idt 32 (address .isrTimer) m
  let m := idtSetGate idt 33 (address .isrKeyboard) m
  idtSetGate idt 44 (address .isrMouse) m

/-- `gdt_init` up to where `lgdt` reads the descriptor. -/
def gdtInit (gdt gdtPointer : ℕ) (m : Mem) : Mem :=
  -- the code segment of ring 0
  let m := storeFields m (gdt + 8 * 1)
    [⟨0, 2, 0⟩, ⟨2, 2, 0⟩, ⟨4, 1, 0⟩, ⟨5, 1, 0x9A⟩, ⟨6, 1, 0x20⟩, ⟨7, 1, 0⟩]
  -- the data and stack segment of ring 0
  let m := storeFields m (gdt + 8 * 2)
    [⟨0, 2, 0⟩, ⟨2, 2, 0⟩, ⟨4, 1, 0⟩, ⟨5, 1, 0x92⟩, ⟨6, 1, 0x00⟩, ⟨7, 1, 0⟩]
  storeFields m gdtPointer [⟨2, 8, gdt⟩, ⟨0, 2, 8 * 3 - 1⟩]

/-! ## Gates -/

/-- The vector of an entry point. -/
def Isr.vector : Isr → ℕ
  | .isrDivideError => 0
  | .isrInvalidOpcode => 6
  | .isrGeneralProtectionFault => 13
  | .isrPageFault => 14
  | .isrTimer => 32
  | .isrKeyboard => 33
  | .isrMouse => 44

/-- The entry points, in the order their gates are set. -/
def Isr.all : List Isr := [.isrDivideError, .isrInvalidOpcode, .isrGeneralProtectionFault,
  .isrPageFault, .isrTimer, .isrKeyboard, .isrMouse]

/-- The entry point behind a vector. -/
def isrAt (vector : ℕ) : Option Isr := Isr.all.find? fun isr => isr.vector = vector

/-- The gate that leads to an address. -/
def kernelGate (address : ℕ) : Gate := {
  target := address
  selector := 0x08
  ist := 0
  privilege := 0
  masks := true }

variable {address : Isr → ℕ} {gdt gdtPointer idt idtPointer vector handlerAddress x : ℕ} {m : Mem}

theorem idtInit_eq (address : Isr → ℕ) (idt idtPointer : ℕ) (m : Mem) :
    idtInit address idt idtPointer m =
      Isr.all.foldl (fun m isr => idtSetGate idt isr.vector (address isr) m)
        (storeFields m idtPointer [⟨2, 8, idt⟩, ⟨0, 2, 4095⟩]) := rfl

/-- **A gate that is set is the gate that is found.** -/
theorem gateAt_idtSetGate (hvector : vector < 256) (haddress : handlerAddress < 2 ^ 64) :
    gateAt (idtSetGate idt vector handlerAddress m) ⟨4095, idt⟩ vector =
      some (kernelGate handlerAddress) := by
  have hapart : (idtEntry handlerAddress).Pairwise PackedField.Apart := by
    simp [idtEntry, PackedField.Apart]
  have hread : ∀ f ∈ idtEntry handlerAddress,
      loadBytes (idtSetGate idt vector handlerAddress m) (idt + 16 * vector + f.offset) f.width =
        f.value % 2 ^ (8 * f.width) := fun f hf => loadBytes_storeFields hapart hf
  have hlow : handlerAddress &&& 0xFFFF = handlerAddress % 2 ^ 16 :=
    Nat.and_two_pow_sub_one_eq_mod handlerAddress 16
  have hmiddle : (handlerAddress >>> 16) &&& 0xFFFF = handlerAddress / 2 ^ 16 % 2 ^ 16 := by
    rw [Nat.shiftRight_eq_div_pow]
    exact Nat.and_two_pow_sub_one_eq_mod _ 16
  refine gateAt_eq (by dsimp only; omega) haddress ?_
    (hread ⟨2, 2, 0x08⟩ (by simp [idtEntry])) (hread ⟨4, 1, 0⟩ (by simp [idtEntry]))
    (hread ⟨5, 1, 0x8E⟩ (by simp [idtEntry])) ?_ ?_
  · rw [← Nat.mod_mod_of_dvd handlerAddress (dvd_refl (2 ^ 16)), ← hlow]
    exact hread ⟨0, 2, _⟩ (by simp [idtEntry])
  · rw [← Nat.mod_mod_of_dvd (handlerAddress / 2 ^ 16) (dvd_refl (2 ^ 16)), ← hmiddle]
    exact hread ⟨6, 2, _⟩ (by simp [idtEntry])
  · rw [← Nat.shiftRight_eq_div_pow]
    exact hread ⟨8, 4, _⟩ (by simp [idtEntry])

/-- Setting a gate writes its sixteen bytes. -/
theorem idtSetGate_of_apart (h : x < idt + 16 * vector ∨ idt + 16 * vector + 16 ≤ x) :
    idtSetGate idt vector handlerAddress m x = m x := by
  refine storeFields_of_apart fun f hf => ?_
  have hwithin : f.offset + f.width ≤ 16 := by
    simp only [idtEntry, List.mem_cons, List.not_mem_nil, or_false] at hf
    rcases hf with rfl | rfl | rfl | rfl | rfl | rfl | rfl <;> simp
  omega

/-- **Gates that are set one after the other** are all found, and behind any
other vector is what was there. -/
theorem gateAt_foldl (isrs : List Isr) (haddress : ∀ isr, address isr < 2 ^ 64)
    (hdistinct : isrs.Pairwise fun a b => a.vector ≠ b.vector) (hsmall : ∀ isr ∈ isrs, isr.vector < 256) :
    gateAt (isrs.foldl (fun m isr => idtSetGate idt isr.vector (address isr) m) m) ⟨4095, idt⟩ vector =
      ((isrs.find? fun isr => isr.vector = vector).map fun isr => kernelGate (address isr)).or
        (gateAt m ⟨4095, idt⟩ vector) := by
  induction isrs generalizing m with
  | nil => rfl
  | cons isr isrs ih =>
    obtain ⟨hother, hrest⟩ := List.pairwise_cons.1 hdistinct
    rw [List.foldl_cons, ih hrest fun isr hisr => hsmall isr (List.mem_cons_of_mem _ hisr)]
    by_cases hvector : isr.vector = vector
    · -- none of the later gates is at this vector
      have hnone : isrs.find? (fun isr => isr.vector = vector) = none := by
        refine List.find?_eq_none.2 fun later hlater => ?_
        rw [decide_eq_true_eq, ← hvector]
        exact (hother later hlater).symm
      rw [List.find?_cons_of_pos (by rw [hvector, decide_eq_true_eq]), hnone, ← hvector,
        gateAt_idtSetGate (hsmall isr List.mem_cons_self) (haddress isr)]
      rfl
    · have hkept : gateAt (idtSetGate idt isr.vector (address isr) m) ⟨4095, idt⟩ vector =
          gateAt m ⟨4095, idt⟩ vector :=
        gateAt_congr fun x h1 h2 => idtSetGate_of_apart (by
          dsimp only at h1 h2
          omega)
      rw [List.find?_cons_of_neg (by rw [decide_eq_true_eq]; exact hvector), hkept]

theorem foldl_idtSetGate_of_apart (isrs : List Isr) (hsmall : ∀ isr ∈ isrs, isr.vector < 256)
    (h : x < idt ∨ idt + 4096 ≤ x) :
    isrs.foldl (fun m isr => idtSetGate idt isr.vector (address isr) m) m x = m x := by
  induction isrs generalizing m with
  | nil => rfl
  | cons isr isrs ih =>
    have hvector := hsmall isr List.mem_cons_self
    refine (ih fun isr hisr => hsmall isr (List.mem_cons_of_mem _ hisr)).trans ?_
    exact idtSetGate_of_apart (by omega)

/-! ## Segments -/

/-- A descriptor with no base and no limit. -/
def gdtEntry (access flagsLimit : ℕ) : List PackedField :=
  [⟨0, 2, 0⟩, ⟨2, 2, 0⟩, ⟨4, 1, 0⟩, ⟨5, 1, access⟩, ⟨6, 1, flagsLimit⟩, ⟨7, 1, 0⟩]

theorem gdtInit_eq (gdt gdtPointer : ℕ) (m : Mem) : gdtInit gdt gdtPointer m =
    storeFields (storeFields (storeFields m (gdt + 8) (gdtEntry 0x9A 0x20)) (gdt + 16)
      (gdtEntry 0x92 0x00)) gdtPointer [⟨2, 8, gdt⟩, ⟨0, 2, 23⟩] := rfl

variable {access flagsLimit a limit base : ℕ}

/-- An entry's access byte and flags are read back. -/
theorem loadBytes_gdtEntry (m : Mem) (a access flagsLimit : ℕ) :
    loadBytes (storeFields m a (gdtEntry access flagsLimit)) (a + 5) 1 = access % 2 ^ 8 ∧
    loadBytes (storeFields m a (gdtEntry access flagsLimit)) (a + 6) 1 = flagsLimit % 2 ^ 8 := by
  have hapart : (gdtEntry access flagsLimit).Pairwise PackedField.Apart := by
    simp [gdtEntry, PackedField.Apart]
  have hread : ∀ f ∈ gdtEntry access flagsLimit,
      loadBytes (storeFields m a (gdtEntry access flagsLimit)) (a + f.offset) f.width =
        f.value % 2 ^ (8 * f.width) := fun f hf => loadBytes_storeFields hapart hf
  exact ⟨hread ⟨5, 1, access⟩ (by simp [gdtEntry]), hread ⟨6, 1, flagsLimit⟩ (by simp [gdtEntry])⟩

theorem gdtEntry_of_apart (h : x < a ∨ a + 8 ≤ x) :
    storeFields m a (gdtEntry access flagsLimit) x = m x := by
  refine storeFields_of_apart fun f hf => ?_
  have hwithin : f.offset + f.width ≤ 8 := by
    simp only [gdtEntry, List.mem_cons, List.not_mem_nil, or_false] at hf
    rcases hf with rfl | rfl | rfl | rfl | rfl | rfl <;> simp
  omega

/-! ## The operands of `lgdt` and `lidt` -/

theorem pointer_of_apart (h : x < a ∨ a + 10 ≤ x) :
    storeFields m a [⟨2, 8, base⟩, ⟨0, 2, limit⟩] x = m x := by
  refine storeFields_of_apart fun f hf => ?_
  have hwithin : f.offset + f.width ≤ 10 := by
    simp only [List.mem_cons, List.not_mem_nil, or_false] at hf
    rcases hf with rfl | rfl <;> simp
  omega

/-- What is stored is what is loaded. -/
theorem tableRegister_pointer (hlimit : limit < 2 ^ 16) (hbase : base < 2 ^ 64) :
    tableRegister (storeFields m a [⟨2, 8, base⟩, ⟨0, 2, limit⟩]) a = ⟨limit, base⟩ := by
  have hapart : [PackedField.mk 2 8 base, ⟨0, 2, limit⟩].Pairwise PackedField.Apart := by
    simp [PackedField.Apart]
  have hlow := loadBytes_storeFields (m := m) (a := a) hapart
    (List.mem_cons_of_mem _ List.mem_cons_self)
  have hhigh := loadBytes_storeFields (m := m) (a := a) hapart List.mem_cons_self
  unfold tableRegister
  exact congrArg₂ TableRegister.mk (hlow.trans (Nat.mod_eq_of_lt hlimit))
    (hhigh.trans (Nat.mod_eq_of_lt hbase))

theorem tableRegister_congr {m' : Mem} (h : ∀ x, a ≤ x → x < a + 10 → m' x = m x) :
    tableRegister m' a = tableRegister m a := by
  unfold tableRegister
  rw [loadBytes_congr 2 a fun y h1 h2 => h y h1 (by omega),
    loadBytes_congr 8 (a + 2) fun y h1 h2 => h y (by omega) (by omega)]

/-! ## Both tables -/

/-- The static tables and descriptors: apart from each other, the tables
zero before the kernel runs. -/
structure TablesPlaced (gdt gdtPointer idt idtPointer : ℕ) (m : Mem) : Prop where
  gdt_gdtPointer : gdt + 24 ≤ gdtPointer ∨ gdtPointer + 10 ≤ gdt
  gdt_idt : gdt + 24 ≤ idt ∨ idt + 4096 ≤ gdt
  gdt_idtPointer : gdt + 24 ≤ idtPointer ∨ idtPointer + 10 ≤ gdt
  gdtPointer_idt : gdtPointer + 10 ≤ idt ∨ idt + 4096 ≤ gdtPointer
  idt_idtPointer : idt + 4096 ≤ idtPointer ∨ idtPointer + 10 ≤ idt
  zero : ∀ x, idt ≤ x ∧ x < idt + 4096 → m x = 0
  gdt_lt : gdt < 2 ^ 64
  idt_lt : idt < 2 ^ 64

theorem gdtInit_of_apart (hgdt : x < gdt + 8 ∨ gdt + 24 ≤ x)
    (hpointer : x < gdtPointer ∨ gdtPointer + 10 ≤ x) : gdtInit gdt gdtPointer m x = m x := by
  rw [gdtInit_eq, pointer_of_apart hpointer, gdtEntry_of_apart (by omega),
    gdtEntry_of_apart (by omega)]

theorem vector_lt : ∀ isr ∈ Isr.all, isr.vector < 256 := by decide

theorem idtInit_of_apart (hidt : x < idt ∨ idt + 4096 ≤ x)
    (hpointer : x < idtPointer ∨ idtPointer + 10 ≤ x) : idtInit address idt idtPointer m x = m x := by
  rw [idtInit_eq, foldl_idtSetGate_of_apart Isr.all vector_lt hidt, pointer_of_apart hpointer]

/-- The code and the data segment. -/
def kernelSegment : ℕ → Option Segment
  | 1 => some { code := true, accessible := true, long := true, privilege := 0 }
  | 2 => some { code := false, accessible := true, long := false, privilege := 0 }
  | _ => none

/-- **The segments `gdt_init` leaves.** -/
theorem segmentAt_gdtInit (hgdt : gdt + 24 ≤ gdtPointer ∨ gdtPointer + 10 ≤ gdt) (selector : ℕ) :
    segmentAt (gdtInit gdt gdtPointer m) ⟨23, gdt⟩ selector = kernelSegment (selector / 8) := by
  rw [gdtInit_eq]
  rcases hindex : selector / 8 with _ | _ | _ | n
  · -- the first entry stands for no segment
    unfold segmentAt
    dsimp only
    rw [hindex]
    exact if_neg fun hand => hand.1 rfl
  · rw [segmentAt_congr (m := storeFields m (gdt + 8) (gdtEntry 0x9A 0x20)) fun x h1 h2 => by
      dsimp only at h1 h2
      rw [pointer_of_apart (by omega), gdtEntry_of_apart (by omega)]]
    obtain ⟨haccess, hflags⟩ := loadBytes_gdtEntry m (gdt + 8) 0x9A 0x20
    unfold segmentAt
    dsimp only
    rw [hindex, haccess, hflags]
    rfl
  · rw [segmentAt_congr (m := storeFields (storeFields m (gdt + 8) (gdtEntry 0x9A 0x20)) (gdt + 16)
      (gdtEntry 0x92 0x00)) fun x h1 h2 => by
        dsimp only at h1 h2
        exact pointer_of_apart (by omega)]
    obtain ⟨haccess, hflags⟩ := loadBytes_gdtEntry
      (storeFields m (gdt + 8) (gdtEntry 0x9A 0x20)) (gdt + 16) 0x92 0x00
    unfold segmentAt
    dsimp only
    rw [hindex, haccess, hflags]
    rfl
  · unfold segmentAt
    dsimp only
    rw [hindex, if_neg fun hand => absurd hand.2.1 (by omega)]
    rfl

/-- **Seven vectors have a gate, and each leads to its stub.** After
`gdt_init` and `idt_init` the processor has the two tables; behind each of
the seven vectors it finds the whole address of the entry point, in the
64-bit code segment of ring 0, and behind every other vector and selector
no gate of either kind and no segment. No byte but those of the tables and
their descriptors has changed. -/
theorem tables_exact (address : Isr → ℕ) (gdt gdtPointer idt idtPointer : ℕ) (m : Mem)
    (haddress : ∀ isr, address isr < 2 ^ 64) (h : TablesPlaced gdt gdtPointer idt idtPointer m) :
    let loaded := gdtInit gdt gdtPointer m
    let tables := idtInit address idt idtPointer loaded
    let gdtr := tableRegister loaded gdtPointer
    let idtr := tableRegister tables idtPointer
    (∀ vector, gateAt tables idtr vector = (isrAt vector).map fun isr => kernelGate (address isr)) ∧
    (∀ selector, segmentAt tables gdtr selector = kernelSegment (selector / 8)) ∧
    ∀ x, (x < gdt ∨ gdt + 24 ≤ x) → (x < gdtPointer ∨ gdtPointer + 10 ≤ x) →
      (x < idt ∨ idt + 4096 ≤ x) → (x < idtPointer ∨ idtPointer + 10 ≤ x) → tables x = m x := by
  obtain ⟨h1, h2, h3, h4, h5, hzero, hgdt, hidt⟩ := h
  have hgdtr : tableRegister (gdtInit gdt gdtPointer m) gdtPointer = ⟨23, gdt⟩ := by
    rw [gdtInit_eq]
    exact tableRegister_pointer (by decide) hgdt
  have hidtr : tableRegister (idtInit address idt idtPointer (gdtInit gdt gdtPointer m)) idtPointer =
      ⟨4095, idt⟩ := by
    rw [idtInit_eq, tableRegister_congr fun x hx hx' =>
      foldl_idtSetGate_of_apart Isr.all vector_lt (by omega)]
    exact tableRegister_pointer (by decide) hidt
  dsimp only
  rw [hgdtr, hidtr]
  refine ⟨fun vector => ?_, fun selector => ?_, fun x hx1 hx2 hx3 hx4 => ?_⟩
  · have hbefore : gateAt (storeFields (gdtInit gdt gdtPointer m) idtPointer
        [⟨2, 8, idt⟩, ⟨0, 2, 4095⟩]) ⟨4095, idt⟩ vector = none := by
      by_cases hvector : vector < 256
      · refine gateAt_of_zero ?_
        dsimp only
        rw [pointer_of_apart (by omega), gdtInit_of_apart (by omega) (by omega)]
        exact hzero _ ⟨by omega, by omega⟩
      · unfold gateAt
        dsimp only
        exact if_neg fun hand => by omega
    rw [idtInit_eq, gateAt_foldl Isr.all haddress (by decide) vector_lt, hbefore, Option.or_none]
    rfl
  · rw [← segmentAt_gdtInit (m := m) h1 selector]
    by_cases hselector : selector / 8 < 3
    · refine segmentAt_congr fun x hx hx' => ?_
      dsimp only at hx hx'
      exact idtInit_of_apart (by omega) (by omega)
    · unfold segmentAt
      dsimp only
      rw [if_neg fun hand => absurd hand.2.1 (by omega), if_neg fun hand => absurd hand.2.1 (by omega)]
  · rw [idtInit_of_apart hx3 hx4, gdtInit_of_apart (by omega) hx2]

/-- The tables of a kernel linked at the top of the address space. -/
theorem tables_exact_linked :
    gateAt (idtInit (fun isr => 0xffffffff80001000 + 64 * isr.vector) 0xffffffff80010000
        0xffffffff80011000 (gdtInit 0xffffffff80012000 0xffffffff80012018 fun _ => 0))
      (tableRegister (idtInit (fun isr => 0xffffffff80001000 + 64 * isr.vector) 0xffffffff80010000
        0xffffffff80011000 (gdtInit 0xffffffff80012000 0xffffffff80012018 fun _ => 0))
        0xffffffff80011000) 33 = some (kernelGate 0xffffffff80001840) :=
  (tables_exact (fun isr => 0xffffffff80001000 + 64 * isr.vector) 0xffffffff80012000
    0xffffffff80012018 0xffffffff80010000 0xffffffff80011000 (fun _ => 0)
    (fun isr => by cases isr <;> decide)
    ⟨by decide, by decide, by decide, by decide, by decide, fun _ _ => rfl, by decide, by decide⟩).1 33

end KbmOs
