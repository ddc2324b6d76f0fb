import Mathlib.Data.Fin.Basic
import Mathlib.Data.List.FinRange
import Mathlib.Logic.Function.Basic
/-!
# A pair of 8259 interrupt controllers

Two chips of eight request lines each; the second, the slave, requests
through line 2 of the first. A chip is set up by a sequence of
initialisation words and is then told at one port which lines are masked
and at the other when an interrupt has been handled. It remembers requests
until they are acknowledged, and while a line is in service it presents no
line of the same or of lower priority; a lower number is a higher priority.
Modelled is the fully nested mode with edge-triggered lines, without the
rotations of priorities.
-/

namespace Pic8259

/-! ## Priorities -/

/-- The lowest index the predicate holds at. -/
def lowest {n : ℕ} (p : Fin n → Bool) : Option (Fin n) := (List.finRange n).find? p

variable {n : ℕ} {p : Fin n → Bool} {i : Fin n}

theorem lowest_eq_some : lowest p = some i ↔ p i = true ∧ ∀ j < i, p j = false := by
  unfold lowest
  rw [List.find?_eq_some_iff_getElem]
  constructor
  · rintro ⟨hi, k, hk, heq, hbefore⟩
    rw [List.getElem_finRange] at heq
    refine ⟨hi, fun j hj => ?_⟩
    have hjk : j.val < k := by
      have hval := congrArg Fin.val heq
      dsimp at hval
      omega
    have hfalse := hbefore j.val hjk
    rw [List.getElem_finRange] at hfalse
    simpa using hfalse
  · rintro ⟨hi, hbefore⟩
    refine ⟨hi, i.val, by simp, by simp, fun j hj => ?_⟩
    rw [List.getElem_finRange]
    simpa using hbefore ⟨j, by omega⟩ hj

theorem lowest_eq_none : lowest p = none ↔ ∀ i, p i = false := by
  unfold lowest
  simp

/-! ## One chip -/

/-- What the next byte at the data port means. -/
inductive Phase
  | icw2
  | icw3
  | icw4
  /-- Initialised: the interrupt mask. -/
  | ready
deriving DecidableEq, Repr

structure Chip where
  phase : Phase
  /-- The first word announced a fourth. -/
  needsIcw4 : Bool
  /-- The first word said there is no other chip. -/
  single : Bool
  vectorBase : BitVec 8
  /-- The master's lines with a slave on them, or the slave's own number. -/
  cascade : BitVec 8
  mode8086 : Bool
  autoEoi : Bool
  mask : BitVec 8
  requests : Fin 8 → Bool
  inService : Fin 8 → Bool

namespace Chip

/-- The phase after the third word, or where it would be. -/
def afterIcw3 (c : Chip) : Phase := if c.needsIcw4 then .icw4 else .ready

/-- A byte at the command port: the first initialisation word resets the
chip; the end of an interrupt takes the line of highest priority out of
service, or the one it names. -/
def command (c : Chip) (value : BitVec 8) : Chip :=
  if value.getLsbD 4 then
    { c with
      phase := .icw2
      needsIcw4 := value.getLsbD 0
      single := value.getLsbD 1
      mode8086 := false
      autoEoi := false
      mask := 0
      requests := fun _ => false
      inService := fun _ => false }
  else if value.getLsbD 3 then c
  else if value.extractLsb' 5 3 = 1 then
    match lowest c.inService with
    | some line => { c with inService := Function.update c.inService line false }
    | none => c
  else if value.extractLsb' 5 3 = 3 then
    { c with inService := Function.update c.inService (value.extractLsb' 0 3).toFin false }
  else c

/-- A byte at the data port. -/
def data (c : Chip) (value : BitVec 8) : Chip :=
  match c.phase with
  | .icw2 => { c with
      vectorBase := value &&& 0xF8
      phase := if c.single then c.afterIcw3 else .icw3 }
  | .icw3 => { c with cascade := value, phase := c.afterIcw3 }
  | .icw4 => { c with
      mode8086 := value.getLsbD 0
      autoEoi := value.getLsbD 1
      phase := .ready }
  | .ready => { c with mask := value }

/-- The line is requested and not masked. -/
def wants (c : Chip) (line : Fin 8) : Bool := c.requests line && !c.mask.getLsbD line

/-- The line the chip presents. -/
def output (c : Chip) : Option (Fin 8) :=
  if c.phase = .ready then
    (lowest fun line => c.wants line || c.inService line).filter fun line => !c.inService line
  else none

/-- The line is taken into service. -/
def acknowledge (c : Chip) (line : Fin 8) : Chip :=
  { c with
    requests := Function.update c.requests line false
    inService := Function.update c.inService line !c.autoEoi }

/-- A device requests the line. -/
def raise (c : Chip) (line : Fin 8) : Chip :=
  { c with requests := Function.update c.requests line true }

/-- The request is gone. -/
def withdraw (c : Chip) (line : Fin 8) : Chip :=
  { c with requests := Function.update c.requests line false }

/-- The chip is initialised, and expects to be told when an interrupt ends. -/
structure Ready (c : Chip) : Prop where
  phase : c.phase = .ready
  autoEoi : c.autoEoi = false

/-- No line is in service. -/
def Quiet (c : Chip) : Prop := ∀ line, c.inService line = false

variable {c : Chip} {line : Fin 8}

/-- **A quiet chip presents the first line it wants.** -/
theorem output_eq_some (hready : c.Ready) (hquiet : c.Quiet) :
    c.output = some line ↔ c.wants line = true ∧ ∀ l < line, c.wants l = false := by
  unfold output
  rw [if_pos hready.phase, Option.filter_eq_some_iff, lowest_eq_some]
  simp only [hquiet _, Bool.or_false, Bool.not_false, and_true]

theorem output_eq_none (hready : c.Ready) (hquiet : c.Quiet) :
    c.output = none ↔ ∀ l, c.wants l = false := by
  have hkeep : ∀ o : Option (Fin 8), o.filter (fun _ => true) = o := fun o => by cases o <;> rfl
  unfold output
  rw [if_pos hready.phase]
  simp only [hquiet _, Bool.or_false, Bool.not_false]
  rw [hkeep, lowest_eq_none]

/-- The one line in service is what the end of an interrupt ends. -/
theorem lowest_update (hquiet : ∀ l, p l = false) : lowest (Function.update p i true) = some i := by
  rw [lowest_eq_some]
  refine ⟨Function.update_self .., fun j hj => ?_⟩
  rw [Function.update_of_ne hj.ne]
  exact hquiet j

/-- **Acknowledged and ended, a request is withdrawn** and nothing else. -/
theorem command_acknowledge (hready : c.Ready) (hquiet : c.Quiet) (line : Fin 8) :
    (c.acknowledge line).command 0x20 = c.withdraw line := by
  have hservice : lowest (c.acknowledge line).inService = some line := by
    unfold acknowledge
    rw [hready.autoEoi]
    exact lowest_update hquiet
  unfold command
  rw [if_neg (by decide), if_neg (by decide), if_pos (by decide), hservice]
  unfold acknowledge withdraw
  dsimp only
  congr 1
  funext l
  by_cases hl : l = line
  · rw [hl, Function.update_self, hquiet]
  · rw [Function.update_of_ne hl, Function.update_of_ne hl]

/-- The line of highest priority has left service. -/
def ended (c : Chip) : Fin 8 → Bool :=
  match lowest c.inService with
  | some line => Function.update c.inService line false
  | none => c.inService

theorem command_eoi (c : Chip) : c.command 0x20 = { c with inService := c.ended } := by
  unfold command ended
  rw [if_neg (by decide), if_neg (by decide), if_pos (by decide)]
  rcases lowest c.inService with _ | line <;> rfl

end Chip

/-! ## Two chips -/

/-- The master's line with the slave's output on it. -/
abbrev cascadeLine : Fin 8 := 2

/-- The chips; of the master's request at the cascade line only the slave's
output counts. -/
structure Pair where
  master : Chip
  slave : Chip

/-- A line of the pair: the master's eight, then the slave's. -/
abbrev Line := Fin 16

scoped instance neZeroLines : @NeZero ℕ Zero.ofOfNat0 16 :=
  @NeZero.mk ℕ Zero.ofOfNat0 16 (Nat.succ_ne_zero 15)

namespace Pair

/-- The line of its chip. -/
def onChip (line : Line) : Fin 8 := ⟨line.val % 8, Nat.mod_lt _ (by decide)⟩

/-- A device requests the line; there is none at the cascade. -/
def raise (p : Pair) (line : Line) : Pair :=
  if line = 2 then p
  else if line.val < 8 then { p with master := p.master.raise (onChip line) }
  else { p with slave := p.slave.raise (onChip line) }

def withdraw (p : Pair) (line : Line) : Pair :=
  if line.val < 8 then { p with master := p.master.withdraw (onChip line) }
  else { p with slave := p.slave.withdraw (onChip line) }

/-- A device has requested the line, and is waiting. -/
def requested (p : Pair) (line : Line) : Bool :=
  if line.val < 8 then p.master.requests (onChip line) else p.slave.requests (onChip line)

/-- The line is not masked; a slave's needs the cascade too. -/
def enabled (p : Pair) (line : Line) : Bool :=
  if line.val < 8 then !p.master.mask.getLsbD (onChip line)
  else !p.slave.mask.getLsbD (onChip line) && !p.master.mask.getLsbD cascadeLine

/-- The vector of the line. -/
def vector (p : Pair) (line : Line) : ℕ :=
  if line.val < 8 then p.master.vectorBase.toNat + line.val
  else p.slave.vectorBase.toNat + (line.val - 8)

/-- The master with the slave's output at its cascade line. -/
def top (p : Pair) : Chip :=
  { p.master with
    requests := Function.update p.master.requests cascadeLine p.slave.output.isSome }

/-- **The processor's acknowledge cycle**: the vector it reads, and the
chips after it. A slave that the master asks with nothing to present
answers with its last line. -/
def interrupt (p : Pair) : Option (ℕ × Pair) :=
  match p.top.output with
  | none => none
  | some line =>
    if p.master.cascade.getLsbD line then
      match p.slave.output with
      | some slaveLine => some (p.slave.vectorBase.toNat + slaveLine.val,
          ⟨p.master.acknowledge line, p.slave.acknowledge slaveLine⟩)
      | none => some (p.slave.vectorBase.toNat + 7, ⟨p.master.acknowledge line, p.slave⟩)
    else some (p.master.vectorBase.toNat + line.val, ⟨p.master.acknowledge line, p.slave⟩)

/-- The end of an interrupt is sent to the slave, where it was one of its
lines, and to the master. -/
def endOfInterrupt (p : Pair) (line : Line) : Pair :=
  if line.val < 8 then ⟨p.master.command 0x20, p.slave⟩
  else ⟨p.master.command 0x20, p.slave.command 0x20⟩

/-- The chips are initialised as wired, and nothing is in service. -/
structure Idle (p : Pair) : Prop where
  master : p.master.Ready
  slave : p.slave.Ready
  cascade : p.master.cascade = 0x04
  masterQuiet : p.master.Quiet
  slaveQuiet : p.slave.Quiet
  cascadeFree : p.master.requests cascadeLine = false

/-- The line is requested and may interrupt. -/
def Deliverable (p : Pair) (line : Line) : Prop :=
  line ≠ 2 ∧ p.requested line = true ∧ p.enabled line = true

variable {p q : Pair} {line : Line} {v : ℕ} {l : Fin 8}

theorem top_wants : p.top.wants l =
    if l = cascadeLine then p.slave.output.isSome && !p.master.mask.getLsbD cascadeLine
    else p.master.wants l := by
  unfold top Chip.wants
  dsimp only
  by_cases hl : l = cascadeLine
  · rw [if_pos hl, hl, Function.update_self]
  · rw [if_neg hl, Function.update_of_ne hl]

/-- A line of the master. -/
def ofMaster (l : Fin 8) : Line := ⟨l.val, by omega⟩

/-- A line of the slave. -/
def ofSlave (l : Fin 8) : Line := ⟨8 + l.val, by omega⟩

theorem line_cases (line : Line) : (∃ l, line = ofMaster l) ∨ ∃ l, line = ofSlave l := by
  by_cases h : line.val < 8
  · exact Or.inl ⟨⟨line.val, h⟩, rfl⟩
  · refine Or.inr ⟨⟨line.val - 8, by omega⟩, Fin.ext ?_⟩
    unfold ofSlave
    dsimp only
    omega

@[simp] theorem onChip_ofMaster (l : Fin 8) : onChip (ofMaster l) = l := by
  refine Fin.ext ?_
  unfold onChip ofMaster
  dsimp only
  omega

@[simp] theorem onChip_ofSlave (l : Fin 8) : onChip (ofSlave l) = l := by
  refine Fin.ext ?_
  unfold onChip ofSlave
  dsimp only
  omega

theorem ofMaster_lt (l : Fin 8) : (ofMaster l).val < 8 := l.isLt

theorem not_ofSlave_lt (l : Fin 8) : ¬ (ofSlave l).val < 8 := by
  unfold ofSlave
  dsimp only
  omega

/-- The slave's lines come in the place of the cascade; lower is first. -/
def priority (line : Line) : ℕ := if line.val < 8 then 8 * line.val else 8 + line.val

theorem priority_ofMaster (l : Fin 8) : priority (ofMaster l) = 8 * l.val :=
  if_pos (ofMaster_lt l)

theorem priority_ofSlave (l : Fin 8) : priority (ofSlave l) = 16 + l.val := by
  unfold priority
  rw [if_neg (not_ofSlave_lt l)]
  unfold ofSlave
  dsimp only
  omega

theorem deliverable_ofMaster :
    p.Deliverable (ofMaster l) ↔ l ≠ cascadeLine ∧ p.master.wants l = true := by
  have hne : ofMaster l ≠ 2 ↔ l ≠ cascadeLine := by
    refine not_congr ⟨fun heq => Fin.ext ?_, fun heq => ?_⟩
    · have hval := congrArg Fin.val heq
      exact hval
    · rw [heq]
      rfl
  unfold Deliverable requested enabled Chip.wants
  rw [if_pos (ofMaster_lt l), if_pos (ofMaster_lt l), onChip_ofMaster, Bool.and_eq_true, hne]

theorem deliverable_ofSlave : p.Deliverable (ofSlave l) ↔
    p.slave.wants l = true ∧ p.master.mask.getLsbD cascadeLine = false := by
  have hne : ofSlave l ≠ 2 := fun heq => not_ofSlave_lt l (by rw [heq]; decide)
  unfold Deliverable requested enabled Chip.wants
  rw [if_neg (not_ofSlave_lt l), if_neg (not_ofSlave_lt l), onChip_ofSlave]
  simp [hne, and_assoc]

namespace Idle

variable (h : p.Idle)
include h

theorem top_ready : p.top.Ready := ⟨h.master.phase, h.master.autoEoi⟩

theorem top_quiet : p.top.Quiet := h.masterQuiet

theorem withdraw_cascade : p.master.withdraw cascadeLine = p.master := by
  have hsame : Function.update p.master.requests cascadeLine false = p.master.requests := by
    rw [← h.cascadeFree]
    exact Function.update_eq_self _ _
  unfold Chip.withdraw
  rw [hsame]

/-- The slave presents a line where it wants one. -/
theorem slave_output_isSome : p.slave.output.isSome = true ↔ ∃ l, p.slave.wants l = true := by
  rw [Option.isSome_iff_ne_none, ne_eq, Chip.output_eq_none h.slave h.slaveQuiet, not_forall]
  simp only [Bool.not_eq_false]

/-- **The master presents a line where one is deliverable.** -/
theorem top_wants_iff : (∃ l, p.top.wants l = true) ↔ ∃ line, p.Deliverable line := by
  constructor
  · rintro ⟨l, hl⟩
    rw [top_wants] at hl
    by_cases hcascade : l = cascadeLine
    · rw [if_pos hcascade, Bool.and_eq_true, Bool.not_eq_true', h.slave_output_isSome] at hl
      obtain ⟨⟨k, hk⟩, hmask⟩ := hl
      exact ⟨ofSlave k, deliverable_ofSlave.2 ⟨hk, hmask⟩⟩
    · rw [if_neg hcascade] at hl
      exact ⟨ofMaster l, deliverable_ofMaster.2 ⟨hcascade, hl⟩⟩
  · rintro ⟨line, hline⟩
    rcases line_cases line with ⟨l, rfl⟩ | ⟨l, rfl⟩
    · obtain ⟨hcascade, hl⟩ := deliverable_ofMaster.1 hline
      exact ⟨l, by rw [top_wants, if_neg hcascade, hl]⟩
    · obtain ⟨hl, hmask⟩ := deliverable_ofSlave.1 hline
      refine ⟨cascadeLine, ?_⟩
      rw [top_wants, if_pos rfl, h.slave_output_isSome.2 ⟨l, hl⟩, hmask]
      rfl

/-- **Every interrupt is a line's**: the first deliverable one is taken, its
vector is read, and once its end is sent the request is withdrawn and
nothing else has changed. -/
theorem of_interrupt (hint : p.interrupt = some (v, q)) : ∃ line : Line,
    p.Deliverable line ∧ v = p.vector line ∧ q.endOfInterrupt line = p.withdraw line ∧
      ∀ other, p.Deliverable other → priority line ≤ priority other := by
  unfold interrupt at hint
  rcases htop : p.top.output with _ | m
  · rw [htop] at hint
    cases hint
  obtain ⟨hwants, hfirst⟩ := (Chip.output_eq_some h.top_ready h.top_quiet).1 htop
  rw [htop] at hint
  dsimp only at hint
  rw [top_wants] at hwants
  rw [h.cascade] at hint
  by_cases hm : m = cascadeLine
  · -- the slave has a line, and it is the slave's first
    rw [if_pos hm, Bool.and_eq_true, Bool.not_eq_true'] at hwants
    obtain ⟨k, hk⟩ := Option.isSome_iff_exists.1 hwants.1
    obtain ⟨hwantsk, hfirstk⟩ := (Chip.output_eq_some h.slave h.slaveQuiet).1 hk
    rw [hm, if_pos (by decide), hk] at hint
    obtain ⟨rfl, rfl⟩ := Prod.mk.inj (Option.some.inj hint)
    refine ⟨ofSlave k, deliverable_ofSlave.2 ⟨hwantsk, hwants.2⟩, ?_, ?_, fun other hother => ?_⟩
    · unfold vector
      rw [if_neg (not_ofSlave_lt k)]
      unfold ofSlave
      dsimp only
      omega
    · unfold endOfInterrupt withdraw
      rw [if_neg (not_ofSlave_lt k), if_neg (not_ofSlave_lt k), onChip_ofSlave,
        Chip.command_acknowledge h.master h.masterQuiet,
        Chip.command_acknowledge h.slave h.slaveQuiet, h.withdraw_cascade]
    · rcases line_cases other with ⟨l, rfl⟩ | ⟨l, rfl⟩
      · -- a line of the master that is wanted comes behind the cascade
        obtain ⟨hcascade, hl⟩ := deliverable_ofMaster.1 hother
        have hbehind : ¬ l < cascadeLine := fun hlt => by
          have hnot := hfirst l (hm ▸ hlt)
          rw [top_wants, if_neg hcascade, hl] at hnot
          cases hnot
        have hval : l.val ≠ 2 := fun heq => hcascade (Fin.ext heq)
        have htwo : ¬ l.val < 2 := hbehind
        rw [priority_ofSlave, priority_ofMaster]
        omega
      · have hnot : ¬ l < k := fun hlt => by
          have hl := (deliverable_ofSlave.1 hother).1
          rw [hfirstk l hlt] at hl
          cases hl
        rw [priority_ofSlave, priority_ofSlave]
        omega
  · rw [if_neg hm] at hwants
    have hplain : ∀ l : Fin 8, l ≠ cascadeLine → (0x04 : BitVec 8).getLsbD l = false := by decide
    rw [hplain m hm] at hint
    obtain ⟨rfl, rfl⟩ := Prod.mk.inj (Option.some.inj hint)
    refine ⟨ofMaster m, deliverable_ofMaster.2 ⟨hm, hwants⟩, ?_, ?_, fun other hother => ?_⟩
    · unfold vector
      rw [if_pos (ofMaster_lt m)]
      rfl
    · unfold endOfInterrupt withdraw
      rw [if_pos (ofMaster_lt m), if_pos (ofMaster_lt m), onChip_ofMaster,
        Chip.command_acknowledge h.master h.masterQuiet]
    · have hbefore : ∀ l, p.top.wants l = true → m ≤ l := fun l hl => by
        by_contra hlt
        rw [hfirst l (not_le.1 hlt)] at hl
        cases hl
      rcases line_cases other with ⟨l, rfl⟩ | ⟨l, rfl⟩
      · obtain ⟨hcascade, hl⟩ := deliverable_ofMaster.1 hother
        have hle : m ≤ l := hbefore l (by rw [top_wants, if_neg hcascade, hl])
        rw [priority_ofMaster, priority_ofMaster]
        omega
      · obtain ⟨hl, hmask⟩ := deliverable_ofSlave.1 hother
        have hle : m ≤ cascadeLine := hbefore cascadeLine (by
          rw [top_wants, if_pos rfl, h.slave_output_isSome.2 ⟨l, hl⟩, hmask]
          rfl)
        have htwo : m.val ≤ 2 := hle
        rw [priority_ofMaster, priority_ofSlave]
        omega

/-- **And where a line is deliverable there is one.** -/
theorem interrupt_eq_none : p.interrupt = none ↔ ∀ line, ¬ p.Deliverable line := by
  have hnone : p.interrupt = none ↔ p.top.output = none := by
    unfold interrupt
    rcases p.top.output with _ | m
    · simp
    · dsimp only
      split
      · split <;> simp
      · simp
  rw [hnone, Chip.output_eq_none h.top_ready h.top_quiet, ← not_exists, ← h.top_wants_iff, not_exists]
  simp only [Bool.not_eq_true]

end Idle

/-! ## Requests come and go -/

theorem ofMaster_ne_ofSlave (l k : Fin 8) : ofMaster l ≠ ofSlave k := fun heq =>
  not_ofSlave_lt k (heq ▸ ofMaster_lt l)

theorem ofMaster_inj {l k : Fin 8} : ofMaster l = ofMaster k ↔ l = k :=
  ⟨fun heq => by rw [← onChip_ofMaster l, heq, onChip_ofMaster], fun heq => by rw [heq]⟩

theorem ofSlave_inj {l k : Fin 8} : ofSlave l = ofSlave k ↔ l = k :=
  ⟨fun heq => by rw [← onChip_ofSlave l, heq, onChip_ofSlave], fun heq => by rw [heq]⟩

theorem requested_ofMaster : p.requested (ofMaster l) = p.master.requests l := by
  unfold requested
  rw [if_pos (ofMaster_lt l), onChip_ofMaster]

theorem requested_ofSlave : p.requested (ofSlave l) = p.slave.requests l := by
  unfold requested
  rw [if_neg (not_ofSlave_lt l), onChip_ofSlave]

theorem withdraw_ofMaster : p.withdraw (ofMaster l) = { p with master := p.master.withdraw l } := by
  unfold withdraw
  rw [if_pos (ofMaster_lt l), onChip_ofMaster]

theorem withdraw_ofSlave : p.withdraw (ofSlave l) = { p with slave := p.slave.withdraw l } := by
  unfold withdraw
  rw [if_neg (not_ofSlave_lt l), onChip_ofSlave]

variable {other : Line}

/-- **A request is withdrawn alone.** -/
theorem requested_withdraw : (p.withdraw line).requested other =
    if other = line then false else p.requested other := by
  rcases line_cases line with ⟨l, rfl⟩ | ⟨l, rfl⟩ <;> rcases line_cases other with ⟨k, rfl⟩ | ⟨k, rfl⟩
  · rw [withdraw_ofMaster, requested_ofMaster, requested_ofMaster]
    simp only [Chip.withdraw, Function.update_apply, ofMaster_inj]
  · rw [withdraw_ofMaster, requested_ofSlave, requested_ofSlave,
      if_neg (ofMaster_ne_ofSlave l k).symm]
  · rw [withdraw_ofSlave, requested_ofMaster, requested_ofMaster, if_neg (ofMaster_ne_ofSlave k l)]
  · rw [withdraw_ofSlave, requested_ofSlave, requested_ofSlave]
    simp only [Chip.withdraw, Function.update_apply, ofSlave_inj]

/-- And raised alone. -/
theorem requested_raise (hline : line ≠ 2) : (p.raise line).requested other =
    if other = line then true else p.requested other := by
  unfold raise
  rw [if_neg hline]
  rcases line_cases line with ⟨l, rfl⟩ | ⟨l, rfl⟩ <;> rcases line_cases other with ⟨k, rfl⟩ | ⟨k, rfl⟩
  · rw [if_pos (ofMaster_lt l), requested_ofMaster, requested_ofMaster, onChip_ofMaster]
    simp only [Chip.raise, Function.update_apply, ofMaster_inj]
  · rw [if_pos (ofMaster_lt l), requested_ofSlave, requested_ofSlave,
      if_neg (ofMaster_ne_ofSlave l k).symm]
  · rw [if_neg (not_ofSlave_lt l), requested_ofMaster, requested_ofMaster,
      if_neg (ofMaster_ne_ofSlave k l)]
  · rw [if_neg (not_ofSlave_lt l), requested_ofSlave, requested_ofSlave, onChip_ofSlave]
    simp only [Chip.raise, Function.update_apply, ofSlave_inj]

theorem Idle.withdraw (h : p.Idle) (line : Line) : (p.withdraw line).Idle := by
  obtain ⟨hm, hs, hcascade, hmq, hsq, hfree⟩ := h
  rcases line_cases line with ⟨l, rfl⟩ | ⟨l, rfl⟩
  · rw [withdraw_ofMaster]
    refine ⟨⟨hm.phase, hm.autoEoi⟩, hs, hcascade, hmq, hsq, ?_⟩
    simp only [Chip.withdraw, Function.update_apply, hfree, ite_self]
  · rw [withdraw_ofSlave]
    exact ⟨hm, ⟨hs.phase, hs.autoEoi⟩, hcascade, hmq, hsq, hfree⟩

theorem Idle.raise (h : p.Idle) (line : Line) : (p.raise line).Idle := by
  obtain ⟨hm, hs, hcascade, hmq, hsq, hfree⟩ := h
  unfold Pair.raise
  by_cases htwo : line = 2
  · rw [if_pos htwo]
    exact ⟨hm, hs, hcascade, hmq, hsq, hfree⟩
  rw [if_neg htwo]
  rcases line_cases line with ⟨l, rfl⟩ | ⟨l, rfl⟩
  · have hne : cascadeLine ≠ l := by
      rintro rfl
      exact htwo rfl
    rw [if_pos (ofMaster_lt l), onChip_ofMaster]
    refine ⟨⟨hm.phase, hm.autoEoi⟩, hs, hcascade, hmq, hsq, ?_⟩
    simp only [Chip.raise, Function.update_apply, if_neg hne, hfree]
  · rw [if_neg (not_ofSlave_lt l)]
    exact ⟨hm, ⟨hs.phase, hs.autoEoi⟩, hcascade, hmq, hsq, hfree⟩

/-- What is set up stays: the masks and the vectors. -/
structure SameSetup (p q : Pair) : Prop where
  masterMask : q.master.mask = p.master.mask
  slaveMask : q.slave.mask = p.slave.mask
  masterBase : q.master.vectorBase = p.master.vectorBase
  slaveBase : q.slave.vectorBase = p.slave.vectorBase

theorem SameSetup.enabled (h : SameSetup p q) (line : Line) : q.enabled line = p.enabled line := by
  unfold Pair.enabled
  rw [h.masterMask, h.slaveMask]

theorem SameSetup.vector (h : SameSetup p q) (line : Line) : q.vector line = p.vector line := by
  unfold Pair.vector
  rw [h.masterBase, h.slaveBase]

theorem sameSetup_raise (p : Pair) (line : Line) : SameSetup p (p.raise line) := by
  unfold raise
  split
  · exact ⟨rfl, rfl, rfl, rfl⟩
  · split <;> exact ⟨rfl, rfl, rfl, rfl⟩

/-- **A request that comes while another is handled is kept.** -/
theorem endOfInterrupt_raise (p : Pair) (line other : Line) :
    (p.raise other).endOfInterrupt line = (p.endOfInterrupt line).raise other := by
  unfold endOfInterrupt raise
  simp only [Chip.command_eoi]
  by_cases htwo : other = 2
  · rw [if_pos htwo, if_pos htwo]
  rw [if_neg htwo, if_neg htwo]
  by_cases hchip : other.val < 8
  · rw [if_pos hchip, if_pos hchip]
    split <;> rfl
  · rw [if_neg hchip, if_neg hchip]
    split <;> rfl

theorem sameSetup_withdraw (p : Pair) (line : Line) : SameSetup p (p.withdraw line) := by
  unfold withdraw
  split <;> exact ⟨rfl, rfl, rfl, rfl⟩

end Pair

end Pic8259
