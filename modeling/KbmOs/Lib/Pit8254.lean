import Mathlib.Data.Nat.Basic
/-!
# A channel of the timer

Channel 0 of an 8254. A control word stops it and says how its count is
written; once the count is there it counts the pulses of its clock. In the
two periodic modes its output rises once in every count of pulses, for as
long as it is left alone (`pulses_eq`).
-/

namespace Pit8254

/-- The bytes of a count that are written. -/
inductive Access
  | low
  | high
  | both
deriving DecidableEq

structure Channel where
  access : Access
  mode : BitVec 3
  /-- Counts are in decimal. -/
  bcd : Bool
  /-- The low byte, while the high one is awaited. -/
  held : Option (BitVec 8)
  count : BitVec 16
  /-- A count was written since the control word. -/
  running : Bool
  /-- The pulses since the output rose. -/
  elapsed : ℕ

namespace Channel

/-- A decimal count has four digits of four bits. -/
def decimal (count : BitVec 16) : ℕ :=
  1000 * (count.extractLsb' 12 4).toNat + 100 * (count.extractLsb' 8 4).toNat +
    10 * (count.extractLsb' 4 4).toNat + (count.extractLsb' 0 4).toNat

/-- The pulses of a period; zero stands for the largest count. -/
def period (c : Channel) : ℕ :=
  if c.count = 0 then if c.bcd then 10000 else 0x10000
  else if c.bcd then decimal c.count else c.count.toNat

/-- Modes 2 and 3, however their third bit is set. -/
def periodic (c : Channel) : Bool := c.mode.getLsbD 1

/-- A control word: the channel, the access, the mode, the base. With access
0 it only latches the count for reading. -/
def control (c : Channel) (value : BitVec 8) : Channel :=
  if value.extractLsb' 6 2 ≠ 0 then c
  else
    let setUp := fun access => { c with
      access
      mode := value.extractLsb' 1 3
      bcd := value.getLsbD 0
      held := none
      running := false }
    if value.extractLsb' 4 2 = 0 then c
    else if value.extractLsb' 4 2 = 1 then setUp .low
    else if value.extractLsb' 4 2 = 2 then setUp .high
    else setUp .both

/-- The count is there, and counting begins. -/
def load (c : Channel) (high low : BitVec 8) : Channel := { c with
  held := none
  count := high ++ low
  running := true
  elapsed := 0 }

/-- A byte of the count. -/
def data (c : Channel) (value : BitVec 8) : Channel :=
  match c.access, c.held with
  | .low, _ => c.load 0 value
  | .high, _ => c.load value 0
  | .both, none => { c with held := some value }
  | .both, some low => c.load value low

/-- A pulse of the clock, and whether the output rises. Only the periodic
modes are modelled: in the others the output is left as it is. -/
def pulse (c : Channel) : Bool × Channel :=
  if c.running ∧ c.periodic then
    if c.elapsed + 1 = c.period then (true, { c with elapsed := 0 })
    else (false, { c with elapsed := c.elapsed + 1 })
  else (false, c)

/-- How often the output rises, pulse after pulse. -/
def pulses (c : Channel) : ℕ → ℕ × Channel
  | 0 => (0, c)
  | n + 1 =>
    let (rises, c) := c.pulses n
    let (rose, c) := c.pulse
    (rises + rose.toNat, c)

variable {c : Channel} {e p : ℕ}

/-- One more pulse, counted in periods. -/
theorem succ_div_mod (hp : 0 < p) (e : ℕ) :
    (e % p + 1 = p ∧ (e + 1) / p = e / p + 1 ∧ (e + 1) % p = 0) ∨
    (e % p + 1 ≠ p ∧ (e + 1) / p = e / p ∧ (e + 1) % p = e % p + 1) := by
  have hsplit := Nat.div_add_mod e p
  have hlt := Nat.mod_lt e hp
  by_cases hlast : e % p + 1 = p
  · have hnext : e + 1 = p * (e / p + 1) := by
      rw [Nat.mul_add, Nat.mul_one]
      omega
    refine Or.inl ⟨hlast, ?_, ?_⟩
    · rw [hnext, Nat.mul_div_cancel_left _ hp]
    · rw [hnext, Nat.mul_mod_right]
  · have hnext : e + 1 = p * (e / p) + (e % p + 1) := by omega
    have hrest : e % p + 1 < p := by omega
    refine Or.inr ⟨hlast, ?_, ?_⟩
    · rw [hnext, Nat.mul_add_div hp, Nat.div_eq_of_lt hrest, Nat.add_zero]
    · rw [hnext, Nat.mul_add_mod, Nat.mod_eq_of_lt hrest]

theorem pulse_eq (hrunning : c.running = true) (hperiodic : c.periodic = true) (e : ℕ) :
    pulse { c with elapsed := e } = if e + 1 = c.period then (true, { c with elapsed := 0 })
      else (false, { c with elapsed := e + 1 }) :=
  if_pos ⟨hrunning, hperiodic⟩

/-- **The output rises once a period.** -/
theorem pulses_eq (hrunning : c.running = true) (hperiodic : c.periodic = true)
    (helapsed : c.elapsed < c.period) (n : ℕ) : c.pulses n =
      ((c.elapsed + n) / c.period, { c with elapsed := (c.elapsed + n) % c.period }) := by
  have hp : 0 < c.period := by omega
  induction n with
  | zero =>
    rw [Nat.add_zero, Nat.div_eq_of_lt helapsed, Nat.mod_eq_of_lt helapsed]
    rfl
  | succ n ih =>
    unfold pulses
    rw [ih]
    dsimp only
    rw [pulse_eq hrunning hperiodic, ← Nat.add_assoc]
    rcases succ_div_mod hp (c.elapsed + n) with ⟨hlast, hdiv, hmod⟩ | ⟨hlast, hdiv, hmod⟩
    · rw [if_pos hlast, hdiv, hmod]
      rfl
    · rw [if_neg hlast, hdiv, hmod]
      rfl

end Channel

end Pit8254
