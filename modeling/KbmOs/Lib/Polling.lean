import Mathlib.Data.Nat.Init
/-!
# Programs that wait for a device

A device works at its own pace while a program looks at its ports. Before
each access the device does one of its steps, or none: which one is the
schedule's business, and of the schedule it is only known that no step is
put off forever (`Fair`). A program that polls looks until a bit changes;
`fuel` bounds how often it looks, and a program `Returns` where some bound
is enough. An access the device does not allow fails, so a program that
returns has made none.
-/

namespace Polling

variable {σ α β γ : Type}

/-- What the device does before each access. -/
structure Pace (σ α : Type) where
  act : α → σ → σ
  schedule : ℕ → Option α

namespace Pace

variable (pace : Pace σ α)

/-- The device when it is accessed. -/
def ready (s : σ) (now : ℕ) : σ :=
  match pace.schedule now with
  | some a => pace.act a s
  | none => s

/-- No step is put off forever. -/
def Fair : Prop := ∀ a now, ∃ later ≥ now, pace.schedule later = some a

end Pace

/-- A program is given the bound; its state is the device and the number of
accesses so far. -/
abbrev Polled (σ : Type) := ReaderT ℕ (StateT (σ × ℕ) Option)

/-- An access. -/
def access (pace : Pace σ α) (f : σ → Option (β × σ)) : Polled σ β := fun _ w =>
  (f (pace.ready w.1 w.2)).map fun r => (r.1, (r.2, w.2 + 1))

/-- Looking `n` times at most, until the device is not busy. -/
def look (pace : Pace σ α) (busy : σ → Bool) : ℕ → σ × ℕ → Option (Unit × (σ × ℕ))
  | 0, _ => none
  | n + 1, w =>
    let s := pace.ready w.1 w.2
    if busy s then look pace busy n (s, w.2 + 1) else some ((), (s, w.2 + 1))

/-- Looking until the device is not busy. -/
def waitWhile (pace : Pace σ α) (busy : σ → Bool) : Polled σ Unit := look pace busy

/-- With a large enough bound the program gives this. -/
def Returns (p : Polled σ β) (w : σ × ℕ) (b : β) (w' : σ × ℕ) : Prop :=
  ∃ n, ∀ fuel, n ≤ fuel → p fuel w = some (b, w')

variable {pace : Pace σ α} {p : Polled σ β} {q : β → Polled σ γ} {w w' w'' : σ × ℕ} {b : β} {c : γ}
variable {s s' : σ} {a : α} {now : ℕ} {busy : σ → Bool} {f : σ → Option (β × σ)}

theorem Returns.pure (b : β) (w : σ × ℕ) : Returns (pure b) w b w := ⟨0, fun _ _ => rfl⟩

/-- **A program returns in parts.** -/
theorem Returns.bind (h : Returns p w b w') (h' : Returns (q b) w' c w'') :
    Returns (p >>= q) w c w'' := by
  obtain ⟨n, hn⟩ := h
  obtain ⟨m, hm⟩ := h'
  refine ⟨max n m, fun fuel hfuel => ?_⟩
  have hfirst := hn fuel (Nat.le_trans (Nat.le_max_left n m) hfuel)
  have hbind : (p >>= q) fuel w = (p fuel w).bind fun r => q r.1 fuel r.2 := rfl
  rw [hbind, hfirst]
  exact hm fuel (Nat.le_trans (Nat.le_max_right n m) hfuel)

/-- The device does nothing by itself that matters. -/
def Still (pace : Pace σ α) (s : σ) : Prop := ∀ a, pace.act a s = s

theorem Still.ready (h : Still pace s) (now : ℕ) : pace.ready s now = s := by
  unfold Pace.ready
  rcases pace.schedule now with _ | a
  · rfl
  · exact h a

/-- An access finds the device as it is then. -/
theorem Returns.accessed {found : σ} (hready : pace.ready s now = found)
    (hf : f found = some (b, s')) : Returns (access pace f) (s, now) b (s', now + 1) := by
  refine ⟨0, fun fuel _ => ?_⟩
  unfold Polling.access
  rw [hready, hf]
  rfl

/-- **An access to a device that keeps still.** -/
theorem Returns.access (h : Still pace s) (hf : f s = some (b, s')) :
    Returns (access pace f) (s, now) b (s', now + 1) :=
  Returns.accessed (h.ready now) hf

theorem look_succ (n : ℕ) (s : σ) (now : ℕ) : look pace busy (n + 1) (s, now) =
    if busy (pace.ready s now) then look pace busy n (pace.ready s now, now + 1)
    else some ((), (pace.ready s now, now + 1)) := rfl

/-- **Looking at a device that is not busy.** -/
theorem Returns.waited (h : Still pace s) (hbusy : busy s = false) :
    Returns (waitWhile pace busy) (s, now) () (s, now + 1) := by
  refine ⟨1, fun fuel hfuel => ?_⟩
  obtain ⟨n, rfl⟩ : ∃ n, fuel = n + 1 := ⟨fuel - 1, by omega⟩
  unfold waitWhile
  rw [look_succ, h.ready, hbusy]
  rfl

/-- The device does one thing by itself. -/
structure Turns (pace : Pace σ α) (a : α) (s s' : σ) : Prop where
  does : pace.act a s = s'
  only : ∀ b, pace.act b s = s ∨ pace.act b s = s'

/-- An access finds the device before or after. -/
theorem Turns.ready (h : Turns pace a s s') (hstill : Still pace s') {found : σ}
    (hfound : found = s ∨ found = s') (now : ℕ) :
    pace.ready found now = s ∨ pace.ready found now = s' := by
  rcases hfound with rfl | rfl
  · unfold Pace.ready
    rcases pace.schedule now with _ | b
    · exact Or.inl rfl
    · exact h.only b
  · exact Or.inr (hstill.ready now)

/-- Until the device does it the program looks in vain, and then once at
what it has done. -/
theorem look_turns (h : Turns pace a s s') (hbusy : busy s = true) (hfair : pace.Fair) (now : ℕ) :
    ∃ n then_, ∀ fuel, look pace busy (n + fuel + 1) (s, now) =
      if busy s' then look pace busy fuel (s', then_) else some ((), (s', then_)) := by
  obtain ⟨later, hlater, hdoes⟩ := hfair a now
  obtain ⟨d, rfl⟩ := Nat.exists_eq_add_of_le hlater
  induction d generalizing now with
  | zero =>
    refine ⟨0, now + 1, fun fuel => ?_⟩
    have hready : pace.ready s now = s' := by
      unfold Pace.ready
      rw [Nat.add_zero] at hdoes
      rw [hdoes]
      exact h.does
    rw [Nat.zero_add, look_succ, hready]
  | succ d ih =>
    have hready : pace.ready s now = s ∨ pace.ready s now = s' := by
      unfold Pace.ready
      rcases pace.schedule now with _ | b
      · exact Or.inl rfl
      · exact h.only b
    rcases hready with hready | hready
    · obtain ⟨n, then_, hn⟩ := ih (now + 1) (by omega) (by rwa [Nat.add_right_comm, Nat.add_assoc])
      refine ⟨n + 1, then_, fun fuel => ?_⟩
      rw [← hn fuel, show n + 1 + fuel + 1 = n + fuel + 1 + 1 by omega, look_succ, hready, hbusy]
      rfl
    · refine ⟨0, now + 1, fun fuel => ?_⟩
      rw [Nat.zero_add, look_succ, hready]

/-- **Waiting for the device to do it.** -/
theorem Returns.turned (h : Turns pace a s s') (hbusy : busy s = true) (hdone : busy s' = false)
    (hfair : pace.Fair) (now : ℕ) : ∃ then_, Returns (waitWhile pace busy) (s, now) () (s', then_) := by
  obtain ⟨n, then_, hn⟩ := look_turns h hbusy hfair now
  refine ⟨then_, n + 1, fun fuel hfuel => ?_⟩
  obtain ⟨m, rfl⟩ := Nat.exists_eq_add_of_le hfuel
  unfold waitWhile
  rw [show n + 1 + m = n + m + 1 by omega, hn m, hdone]
  rfl

/-- **Waiting where the device may have done it already.** -/
theorem Returns.settled (h : Turns pace a s s') (hstill : Still pace s') (hbusy : busy s = true)
    (hdone : busy s' = false) (hfair : pace.Fair) {found : σ} (hfound : found = s ∨ found = s')
    (now : ℕ) : ∃ then_, Returns (waitWhile pace busy) (found, now) () (s', then_) := by
  rcases hfound with rfl | rfl
  · exact Returns.turned h hbusy hdone hfair now
  · exact ⟨now + 1, Returns.waited hstill hdone⟩

/-- **Waiting through a step after which the device is still busy.** -/
theorem Returns.through (h : Turns pace a s s') (hbusy : busy s = true) (hbusy' : busy s' = true)
    (hfair : pace.Fair) {s'' : σ}
    (hrest : ∀ now, ∃ then_, Returns (waitWhile pace busy) (s', now) () (s'', then_)) (now : ℕ) :
    ∃ then_, Returns (waitWhile pace busy) (s, now) () (s'', then_) := by
  obtain ⟨n, middle, hn⟩ := look_turns h hbusy hfair now
  obtain ⟨then_, k, hk⟩ := hrest middle
  refine ⟨then_, n + k + 1, fun fuel hfuel => ?_⟩
  obtain ⟨m, rfl⟩ := Nat.exists_eq_add_of_le hfuel
  unfold waitWhile at hk ⊢
  rw [show n + k + 1 + m = n + (k + m) + 1 by omega, hn (k + m), hbusy', if_pos rfl]
  exact hk (k + m) (Nat.le_add_right k m)

/-- **Waiting for a bit that a step of the device clears**, whatever the
device does before it. -/
theorem Returns.cleared (hfair : pace.Fair) (a : α) (P : σ → Prop)
    (hkeep : ∀ s b, P s → P (pace.act b s)) (hclears : ∀ s, P s → busy (pace.act a s) = false)
    (h : P s) (now : ℕ) :
    ∃ s' then_, Returns (waitWhile pace busy) (s, now) () (s', then_) ∧ busy s' = false := by
  obtain ⟨later, hlater, hdoes⟩ := hfair a now
  obtain ⟨d, rfl⟩ := Nat.exists_eq_add_of_le hlater
  induction d generalizing s now with
  | zero =>
    have hready : pace.ready s now = pace.act a s := by
      unfold Pace.ready
      rw [Nat.add_zero] at hdoes
      rw [hdoes]
    refine ⟨pace.act a s, now + 1, ⟨1, fun fuel hfuel => ?_⟩, hclears s h⟩
    obtain ⟨n, rfl⟩ : ∃ n, fuel = n + 1 := ⟨fuel - 1, by omega⟩
    unfold waitWhile
    rw [look_succ, hready, hclears s h]
    rfl
  | succ d ih =>
    have hkept : P (pace.ready s now) := by
      unfold Pace.ready
      rcases pace.schedule now with _ | b
      · exact h
      · exact hkeep s b h
    rcases hbusy : busy (pace.ready s now) with _ | _
    · refine ⟨pace.ready s now, now + 1, ⟨1, fun fuel hfuel => ?_⟩, hbusy⟩
      obtain ⟨n, rfl⟩ : ∃ n, fuel = n + 1 := ⟨fuel - 1, by omega⟩
      unfold waitWhile
      rw [look_succ, hbusy]
      rfl
    · obtain ⟨s', then_, ⟨n, hn⟩, hdone⟩ :=
        ih hkept (now + 1) (by omega) (by rwa [Nat.add_right_comm, Nat.add_assoc])
      refine ⟨s', then_, ⟨n + 1, fun fuel hfuel => ?_⟩, hdone⟩
      obtain ⟨m, rfl⟩ : ∃ m, fuel = m + 1 := ⟨fuel - 1, by omega⟩
      unfold waitWhile at hn ⊢
      rw [look_succ, hbusy, if_pos rfl]
      exact hn m (by omega)

end Polling
