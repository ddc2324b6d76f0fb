import KbmOs.Lib.Pic8259
import KbmOs.Kernel
/-!
# The interrupt controllers

`arch/x86_64/pic.c`: the two 8259s are moved away from the exceptions'
vectors, opened line by line, and told when a handler is done. The
functions write bytes at the chips' ports; what the bytes mean is the
library's.
-/

namespace KbmOs

open Pic8259

/-! ## `pic.c` -/

/-- A function that reaches the chips. -/
abbrev PicM := StateM Pair

/-- `outb(port, value)`. -/
def picOutb (port : ℕ) (value : BitVec 8) : PicM Unit := modify fun p =>
  if port = 0x20 then { p with master := p.master.command value }
  else if port = 0x21 then { p with master := p.master.data value }
  else if port = 0xA0 then { p with slave := p.slave.command value }
  else if port = 0xA1 then { p with slave := p.slave.data value }
  else p

/-- `inb(port)` at the data ports. -/
def picInb (port : ℕ) : PicM (BitVec 8) := do
  let p ← get
  pure (if port = 0x21 then p.master.mask else p.slave.mask)

/-- The legacy I/O delay: a port with no chip behind it. -/
def ioWait : PicM Unit := picOutb 0x80 0

def picRemap : PicM Unit := do
  -- ICW1: initialize both legacy 8259 PICs and request ICW4
  picOutb 0x20 0x11
  ioWait
  picOutb 0xA0 0x11
  ioWait
  -- ICW2: master IRQs use vectors 32-39; slave IRQs use vectors 40-47
  picOutb 0x21 0x20
  ioWait
  picOutb 0xA1 0x28
  ioWait
  -- ICW3: IRQ2 connects the slave PIC to the master's cascade input
  picOutb 0x21 0x04
  ioWait
  picOutb 0xA1 0x02
  ioWait
  -- ICW4: use 8086/88-compatible mode
  picOutb 0x21 0x01
  ioWait
  picOutb 0xA1 0x01
  ioWait
  -- every hardware IRQ is masked
  picOutb 0x21 0xFF
  ioWait
  picOutb 0xA1 0xFF
  ioWait

def picSendEoi (irq : ℕ) : PicM Unit := do
  if irq ≥ 8 then picOutb 0xA0 0x20
  picOutb 0x20 0x20

def picEnableIrq (irq : ℕ) : PicM Unit := do
  if irq < 8 then
    let currentMask ← picInb 0x21
    let irqBit : BitVec 8 := 1 <<< irq
    picOutb 0x21 (currentMask &&& ~~~irqBit)
  else if irq ≥ 8 ∧ irq < 16 then
    let currentMask ← picInb 0xA1
    let irqBit : BitVec 8 := 1 <<< (irq - 8)
    picOutb 0xA1 (currentMask &&& ~~~irqBit)
    -- the slave reaches the CPU through the master's IRQ2 cascade line
    let currentMask ← picInb 0x21
    picOutb 0x21 (currentMask &&& ~~~((1 : BitVec 8) <<< 2))

/-! ## What they do to the chips -/

/-- A chip that has just been initialised. -/
def initialisedChip (vectorBase cascade : BitVec 8) : Chip where
  phase := .ready
  needsIcw4 := true
  single := false
  vectorBase := vectorBase
  cascade := cascade
  mode8086 := true
  autoEoi := false
  mask := 0xFF
  requests := fun _ => false
  inService := fun _ => false

/-- **`pic_remap` leaves one state**, whatever the chips were in. -/
theorem picRemap_run (p : Pair) :
    (picRemap.run p).2 = ⟨initialisedChip 0x20 0x04, initialisedChip 0x28 0x02⟩ := rfl

/-- **An end of interrupt goes to the chips of the line.** -/
theorem picSendEoi_run (line : Line) (p : Pair) :
    ((picSendEoi line.val).run p).2 = p.endOfInterrupt line := by
  unfold picSendEoi Pair.endOfInterrupt
  by_cases h : line.val < 8
  · rw [if_neg (by omega), if_pos h]
    rfl
  · rw [if_pos (by omega), if_neg h]
    rfl

/-! ## Which lines are open -/

/-- The line's own mask bit is clear. -/
def unmasked (p : Pair) (line : Line) : Bool :=
  if line.val < 8 then !p.master.mask.getLsbD (Pair.onChip line)
  else !p.slave.mask.getLsbD (Pair.onChip line)

theorem enabled_eq (p : Pair) (line : Line) :
    p.enabled line = (unmasked p line && (decide (line.val < 8) || unmasked p 2)) := by
  unfold Pair.enabled unmasked
  by_cases h : line.val < 8
  · rw [if_pos h, if_pos h, decide_eq_true h, Bool.true_or, Bool.and_true]
  · rw [if_neg h, if_neg h, decide_eq_false h, Bool.false_or]
    rfl

/-- Clearing a mask bit opens its line alone. -/
theorem getLsbD_clear (mask : BitVec 8) (k : ℕ) (l : Fin 8) :
    (!(mask &&& ~~~((1 : BitVec 8) <<< k)).getLsbD l) = (!mask.getLsbD l || decide (l.val = k)) := by
  have hl := l.isLt
  by_cases h : l.val = k
  · simp [h]
  · simp [h]
    omega

/-- The chips are initialised and only their masks change. -/
structure OnlyMasks (p q : Pair) : Prop where
  ready : p.master.phase = .ready ∧ p.slave.phase = .ready
  master : q.master = { p.master with mask := q.master.mask }
  slave : q.slave = { p.slave with mask := q.slave.mask }

theorem OnlyMasks.trans {p q r : Pair} (h : OnlyMasks p q) (h' : OnlyMasks q r) : OnlyMasks p r where
  ready := h.ready
  master := by
    rw [h'.master, h.master]
  slave := by
    rw [h'.slave, h.slave]

/-- The chips stay idle, and what is requested stays requested. -/
theorem OnlyMasks.idle {p q : Pair} (h : OnlyMasks p q) (hidle : p.Idle) : q.Idle := by
  obtain ⟨hm, hs, hcascade, hmq, hsq, hfree⟩ := hidle
  obtain ⟨-, hmaster, hslave⟩ := h
  rw [show q = ⟨q.master, q.slave⟩ from rfl, hmaster, hslave]
  exact ⟨⟨hm.phase, hm.autoEoi⟩, ⟨hs.phase, hs.autoEoi⟩, hcascade, hmq, hsq, hfree⟩

theorem OnlyMasks.requested {p q : Pair} (h : OnlyMasks p q) (line : Line) :
    q.requested line = p.requested line := by
  unfold Pair.requested
  rw [h.master, h.slave]

theorem OnlyMasks.vector {p q : Pair} (h : OnlyMasks p q) (line : Line) :
    q.vector line = p.vector line := by
  unfold Pair.vector
  rw [h.master, h.slave]

theorem data_of_ready {c : Chip} (h : c.phase = .ready) (value : BitVec 8) :
    c.data value = { c with mask := value } := by
  unfold Chip.data
  rw [h]

variable {p : Pair} {irq : ℕ} {irqs : List ℕ}

theorem picEnableIrq_master (hirq : irq < 8) (hmaster : p.master.phase = .ready) :
    ((picEnableIrq irq).run p).2 =
      { p with master := { p.master with mask := p.master.mask &&& ~~~((1 : BitVec 8) <<< irq) } } := by
  rw [← data_of_ready hmaster]
  unfold picEnableIrq
  rw [if_pos hirq]
  rfl

theorem picEnableIrq_slave (hirq : 8 ≤ irq ∧ irq < 16) (hmaster : p.master.phase = .ready)
    (hslave : p.slave.phase = .ready) : ((picEnableIrq irq).run p).2 =
      ⟨{ p.master with mask := p.master.mask &&& ~~~((1 : BitVec 8) <<< 2) },
        { p.slave with mask := p.slave.mask &&& ~~~((1 : BitVec 8) <<< (irq - 8)) }⟩ := by
  rw [← data_of_ready hmaster, ← data_of_ready hslave]
  unfold picEnableIrq
  rw [if_neg (by omega), if_pos hirq]
  rfl

theorem picEnableIrq_beyond (hirq : 16 ≤ irq) : ((picEnableIrq irq).run p).2 = p := by
  unfold picEnableIrq
  rw [if_neg (by omega), if_neg (by omega)]
  rfl

theorem unmasked_ofMaster (l : Fin 8) : unmasked p (Pair.ofMaster l) = !p.master.mask.getLsbD l := by
  unfold unmasked
  rw [if_pos (Pair.ofMaster_lt l), Pair.onChip_ofMaster]

theorem unmasked_ofSlave (l : Fin 8) : unmasked p (Pair.ofSlave l) = !p.slave.mask.getLsbD l := by
  unfold unmasked
  rw [if_neg (Pair.not_ofSlave_lt l), Pair.onChip_ofSlave]

/-- **`pic_enable_irq` opens the line**, and the cascade for a slave's. -/
theorem unmasked_picEnableIrq (hmaster : p.master.phase = .ready) (hslave : p.slave.phase = .ready)
    (line : Line) : unmasked ((picEnableIrq irq).run p).2 line =
      (unmasked p line || decide (line.val = irq) || decide (line = 2 ∧ 8 ≤ irq ∧ irq < 16)) := by
  have hcascade : ∀ l : Fin 8, Pair.ofMaster l = 2 ↔ l.val = 2 := fun l => Fin.ext_iff
  have hslaveLine : ∀ l : Fin 8, Pair.ofSlave l ≠ 2 := fun l heq =>
    Pair.not_ofSlave_lt l (by rw [heq]; decide)
  rcases Nat.lt_or_ge irq 8 with hlow | hhigh
  · rw [picEnableIrq_master hlow hmaster]
    have hno : ¬ (8 ≤ irq ∧ irq < 16) := by omega
    rcases Pair.line_cases line with ⟨l, rfl⟩ | ⟨l, rfl⟩
    · rw [unmasked_ofMaster, unmasked_ofMaster, getLsbD_clear]
      simp only [hno, and_false, decide_false, Bool.or_false]
      rfl
    · have hne : (Pair.ofSlave l).val ≠ irq := fun heq => Pair.not_ofSlave_lt l (by omega)
      rw [unmasked_ofSlave, unmasked_ofSlave]
      simp [hno, hne]
  · rcases Nat.lt_or_ge irq 16 with hslaveIrq | hbeyond
    · rw [picEnableIrq_slave ⟨hhigh, hslaveIrq⟩ hmaster hslave]
      rcases Pair.line_cases line with ⟨l, rfl⟩ | ⟨l, rfl⟩
      · have hne : (Pair.ofMaster l).val ≠ irq := fun heq => by
          have := Pair.ofMaster_lt l
          omega
        rw [unmasked_ofMaster, unmasked_ofMaster, getLsbD_clear]
        simp [hne, hhigh, hslaveIrq, hcascade]
      · have hval : (Pair.ofSlave l).val = irq ↔ l.val = irq - 8 := by
          unfold Pair.ofSlave
          dsimp only
          omega
        rw [unmasked_ofSlave, unmasked_ofSlave, getLsbD_clear]
        simp [hslaveLine, hval]
    · have hne : line.val ≠ irq := by
        have := line.isLt
        omega
      rw [picEnableIrq_beyond hbeyond]
      simp [hne, Nat.not_lt.2 hbeyond]

/-- And changes nothing but masks. -/
theorem onlyMasks_picEnableIrq (hmaster : p.master.phase = .ready)
    (hslave : p.slave.phase = .ready) : OnlyMasks p ((picEnableIrq irq).run p).2 := by
  rcases Nat.lt_or_ge irq 8 with hlow | hhigh
  · rw [picEnableIrq_master hlow hmaster]
    exact ⟨⟨hmaster, hslave⟩, rfl, rfl⟩
  · rcases Nat.lt_or_ge irq 16 with hslaveIrq | hbeyond
    · rw [picEnableIrq_slave ⟨hhigh, hslaveIrq⟩ hmaster hslave]
      exact ⟨⟨hmaster, hslave⟩, rfl, rfl⟩
    · rw [picEnableIrq_beyond hbeyond]
      exact ⟨⟨hmaster, hslave⟩, rfl, rfl⟩

/-- `pic_enable_irq` for one line after the other. -/
def enableIrqs : List ℕ → PicM Unit
  | [] => pure ()
  | irq :: irqs => do
    picEnableIrq irq
    enableIrqs irqs

/-- **A line of a device is open once it has been enabled.** -/
theorem enableIrqs_run (irqs : List ℕ) {p : Pair} (hmaster : p.master.phase = .ready)
    (hslave : p.slave.phase = .ready) : OnlyMasks p ((enableIrqs irqs).run p).2 ∧
      ∀ line, unmasked ((enableIrqs irqs).run p).2 line =
        (unmasked p line || decide (line.val ∈ irqs) ||
          decide (line = 2 ∧ ∃ irq ∈ irqs, 8 ≤ irq ∧ irq < 16)) := by
  induction irqs generalizing p with
  | nil =>
    refine ⟨⟨⟨hmaster, hslave⟩, rfl, rfl⟩, fun line => ?_⟩
    change unmasked p line = _
    simp
  | cons irq irqs ih =>
    have honly := @onlyMasks_picEnableIrq p irq hmaster hslave
    have hphase : ((picEnableIrq irq).run p).2.master.phase = .ready ∧
        ((picEnableIrq irq).run p).2.slave.phase = .ready := by
      rw [honly.master, honly.slave]
      exact ⟨hmaster, hslave⟩
    obtain ⟨hrest, hopen⟩ := ih hphase.1 hphase.2
    refine ⟨honly.trans hrest, fun line => (hopen line).trans ?_⟩
    rw [unmasked_picEnableIrq hmaster hslave, Bool.eq_iff_iff]
    simp only [Bool.or_eq_true, decide_eq_true_eq, List.mem_cons, exists_eq_or_imp, and_or_left]
    tauto

/-- `pic_remap`, then `pic_enable_irq` for each of the lines. -/
def openIrqs (irqs : List ℕ) : PicM Unit := do
  picRemap
  enableIrqs irqs

theorem openIrqs_run (irqs : List ℕ) (p : Pair) : (openIrqs irqs).run p =
    (enableIrqs irqs).run ⟨initialisedChip 0x20 0x04, initialisedChip 0x28 0x02⟩ := rfl

theorem unmasked_initialised (line : Line) :
    unmasked ⟨initialisedChip 0x20 0x04, initialisedChip 0x28 0x02⟩ line = false := by
  revert line
  decide

/-- **What `openIrqs` leaves**, from any state of the chips. -/
theorem openIrqs_onlyMasks (irqs : List ℕ) (p : Pair) :
    OnlyMasks ⟨initialisedChip 0x20 0x04, initialisedChip 0x28 0x02⟩ ((openIrqs irqs).run p).2 := by
  rw [openIrqs_run]
  exact (enableIrqs_run irqs rfl rfl).1

theorem openIrqs_unmasked (irqs : List ℕ) (p : Pair) (line : Line) :
    unmasked ((openIrqs irqs).run p).2 line = true ↔
      line.val ∈ irqs ∨ line = 2 ∧ ∃ irq ∈ irqs, 8 ≤ irq ∧ irq < 16 := by
  rw [openIrqs_run, (enableIrqs_run irqs rfl rfl).2, unmasked_initialised, Bool.false_or,
    Bool.or_eq_true, decide_eq_true_eq, decide_eq_true_eq]

theorem openIrqs_idle (irqs : List ℕ) (p : Pair) : ((openIrqs irqs).run p).2.Idle :=
  (openIrqs_onlyMasks irqs p).idle ⟨⟨rfl, rfl⟩, ⟨rfl, rfl⟩, rfl, fun _ => rfl, fun _ => rfl, rfl⟩

theorem openIrqs_requested (irqs : List ℕ) (p : Pair) (line : Line) :
    ((openIrqs irqs).run p).2.requested line = false := by
  rw [(openIrqs_onlyMasks irqs p).requested]
  exact ite_self _

theorem openIrqs_vector (irqs : List ℕ) (p : Pair) (line : Line) :
    ((openIrqs irqs).run p).2.vector line = 32 + line.val := by
  rw [(openIrqs_onlyMasks irqs p).vector]
  change (if line.val < 8 then 32 + line.val else 40 + (line.val - 8)) = _
  split <;> omega

/-- The chips are set up, with the lines open and no others. -/
structure OpenFor (irqs : List ℕ) (pics : Pair) : Prop where
  idle : pics.Idle
  vector : ∀ line, pics.vector line = 32 + line.val
  opened : ∀ line, unmasked pics line = true ↔
    line.val ∈ irqs ∨ line = 2 ∧ ∃ irq ∈ irqs, 8 ≤ irq ∧ irq < 16

theorem openFor_openIrqs (irqs : List ℕ) (p : Pair) : OpenFor irqs ((openIrqs irqs).run p).2 :=
  ⟨openIrqs_idle irqs p, openIrqs_vector irqs p, openIrqs_unmasked irqs p⟩

namespace OpenFor

variable {irqs : List ℕ} {pics pics' : Pair} {line : Line}

theorem of_setup (h : OpenFor irqs pics) (hidle : pics'.Idle) (hsetup : Pair.SameSetup pics pics') :
    OpenFor irqs pics' where
  idle := hidle
  vector line := (hsetup.vector line).trans (h.vector line)
  opened line := by
    rw [← h.opened line]
    unfold unmasked
    rw [hsetup.masterMask, hsetup.slaveMask]

theorem raise (h : OpenFor irqs pics) (line : Line) : OpenFor irqs (pics.raise line) :=
  h.of_setup (h.idle.raise line) (Pair.sameSetup_raise pics line)

theorem withdraw (h : OpenFor irqs pics) (line : Line) : OpenFor irqs (pics.withdraw line) :=
  h.of_setup (h.idle.withdraw line) (Pair.sameSetup_withdraw pics line)

/-- **One more line is open.** -/
theorem enable (h : OpenFor irqs pics) (irq : ℕ) :
    OpenFor (irqs ++ [irq]) ((picEnableIrq irq).run pics).2 := by
  have honly := @onlyMasks_picEnableIrq pics irq h.idle.master.phase h.idle.slave.phase
  refine ⟨honly.idle h.idle, fun line => (honly.vector line).trans (h.vector line), fun line => ?_⟩
  rw [unmasked_picEnableIrq h.idle.master.phase h.idle.slave.phase, Bool.or_eq_true,
    Bool.or_eq_true, decide_eq_true_eq, decide_eq_true_eq, h.opened]
  simp only [List.mem_append, List.mem_singleton, or_and_right, exists_or, exists_eq_left, and_or_left]
  simp only [or_assoc, or_left_comm, or_comm]

theorem enabled (h : OpenFor irqs pics) (hline : line ≠ 2) :
    pics.enabled line = true ↔ line.val ∈ irqs := by
  rw [enabled_eq, Bool.and_eq_true, Bool.or_eq_true, decide_eq_true_eq, h.opened, h.opened]
  constructor
  · rintro ⟨hin | ⟨htwo, -⟩, -⟩
    · exact hin
    · exact absurd htwo hline
  · refine fun hin => ⟨Or.inl hin, ?_⟩
    by_cases hlow : line.val < 8
    · exact Or.inl hlow
    · exact Or.inr (Or.inr ⟨rfl, line.val, hin, by omega, line.isLt⟩)

end OpenFor

theorem openIrqs_enabled (irqs : List ℕ) (p : Pair) (line : Line) (hline : line ≠ 2) :
    ((openIrqs irqs).run p).2.enabled line = true ↔ line.val ∈ irqs :=
  (openFor_openIrqs irqs p).enabled hline

/-- **The lines that were enabled are open, and no others.** From any state
of the chips, `pic_remap` and `pic_enable_irq` for any lines in any order
leave the chips idle, with a device's line open exactly if it was enabled,
every line at the vector 32 behind its number, clear of the exceptions'. -/
theorem pic_opens (irqs : List ℕ) (p : Pair) :
    ((openIrqs irqs).run p).2.Idle ∧
      (∀ line, ((openIrqs irqs).run p).2.requested line = false) ∧
      ∀ line : Line, ((openIrqs irqs).run p).2.vector line = 32 + line.val ∧
        (line ≠ 2 → (((openIrqs irqs).run p).2.enabled line = true ↔ line.val ∈ irqs)) :=
  ⟨openIrqs_idle irqs p, openIrqs_requested irqs p, fun line =>
    ⟨openIrqs_vector irqs p line, openIrqs_enabled irqs p line⟩⟩

end KbmOs
