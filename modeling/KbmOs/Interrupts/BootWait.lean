import KbmOs.Interrupts.Served
/-!
# The wait at boot

Before it turns to memory `kmain` switches interrupts on for the timer
alone and sleeps until a hundred ticks have been counted. Any line may be
requested meanwhile, and the timer's may come between any two steps of the
loop, between the test and `hlt` too. The wait is left after a bounded
number of turns, with the chips as they were set up, so that the lines
enabled later open as if there had been no wait.
-/

namespace KbmOs

open Pic8259 I8042 LabelledRuns

/-- Where the wait is. -/
inductive WaitPoint
  /-- Before the ticks are read. -/
  | test
  /-- Before `hlt`. -/
  | hlt
  /-- Halted. -/
  | asleep
  /-- Before `cli`. -/
  | cli
  /-- Interrupts are off again. -/
  | over
deriving DecidableEq

/-- An interrupt ends a `hlt`. -/
def WaitPoint.woken : WaitPoint → WaitPoint
  | .asleep => .test
  | point => point

variable {point : WaitPoint}

theorem WaitPoint.of_woken_over (h : point.woken = .over) : point = .over := by
  cases point <;> first | rfl | cases h

/-- Past its last test the loop does not go back. -/
theorem WaitPoint.of_woken (h : point.woken = .cli ∨ point.woken = .over) :
    point = .cli ∨ point = .over := by
  rcases h with h | h
  · left
    cases point <;> first | rfl | cases h
  · exact Or.inr (of_woken_over h)

/-- The kernel from the first `sti` on, and the chips. -/
structure Waiting where
  pics : Pair
  /-- The static of `timer.c`. -/
  ticks : ℕ
  point : WaitPoint
  /-- The line whose handler has not sent its end of interrupt. -/
  serving : Option Line

/-- What happens next. -/
inductive WaitEvent
  /-- A device requests its line. -/
  | requested (line : Line)
  /-- The processor takes an interrupt. -/
  | interrupted (vector : ℕ)
  /-- The handler sends its end of interrupt and returns. -/
  | returned
  /-- The loop goes on. -/
  | looped

/-- What a step leads to. -/
inductive WaitNext
  | waits (waiting : Waiting)
  /-- The vector is not the timer's. -/
  | strays (vector : ℕ)

/-- An interrupt that is taken. -/
def WaitEvent.ticks : WaitEvent → Bool
  | .interrupted _ => true
  | _ => false

/-- A step of the loop. -/
def WaitEvent.loops : WaitEvent → Bool
  | .looped => true
  | _ => false

namespace Waiting

/-- The handler behind an entry point, up to its end of interrupt. -/
def handle (waiting : Waiting) (vector : ℕ) : Option Isr → WaitNext
  | some .isrTimer => .waits { waiting with
      ticks := wrap (waiting.ticks + 1)
      serving := some 0 }
  | _ => .strays vector

/-- The loop's next step, or none while it is halted or over. -/
def loop (waiting : Waiting) : Option Waiting :=
  match waiting.point with
  | .test => some { waiting with point := if waiting.ticks < 100 then .hlt else .cli }
  | .hlt => some { waiting with point := .asleep }
  | .asleep => none
  | .cli => some { waiting with point := .over }
  | .over => none

/-- One step, where the event can happen. -/
def step (waiting : Waiting) : WaitEvent → Option WaitNext
  | .requested line => some (.waits { waiting with pics := waiting.pics.raise line })
  | .interrupted vector =>
    if waiting.point = .over then none
    else match waiting.serving, waiting.pics.interrupt with
      | none, some (v, pics) =>
        if v = vector then
          some (handle { waiting with pics, point := waiting.point.woken } vector (isrAt vector))
        else none
      | _, _ => none
  | .returned =>
    waiting.serving.map fun line => .waits { waiting with
      pics := ((picSendEoi line.val).run waiting.pics).2
      serving := none }
  | .looped => if waiting.serving = none then waiting.loop.map .waits else none

/-- A step after which `kmain` is still where it was, or further on. -/
def Steps (waiting : Waiting) (event : WaitEvent) (waiting' : Waiting) : Prop :=
  waiting.step event = some (.waits waiting')

/-- The kernel at the first `sti`, with the timer's line open. -/
def atSti (p : Pair) : Waiting where
  pics := ((openIrqs [0]).run p).2
  ticks := 0
  point := .test
  serving := none

/-- The chips as they are once the running handler has returned. -/
def rested (waiting : Waiting) : Pair :=
  match waiting.serving with
  | none => waiting.pics
  | some line => waiting.pics.endOfInterrupt line

end Waiting

/-! ## The chips -/

namespace OpenFor

variable {pics pics' : Pair} {vector : ℕ}

/-- **With the timer's line alone every interrupt is the timer's.** -/
theorem of_interrupt (h : OpenFor [0] pics) (hint : pics.interrupt = some (vector, pics')) :
    vector = 32 ∧ pics'.endOfInterrupt 0 = pics.withdraw 0 := by
  obtain ⟨line, ⟨hline, -, henabled⟩, rfl, hend, -⟩ := h.idle.of_interrupt hint
  obtain rfl : line = 0 := Fin.ext (List.mem_singleton.1 ((h.enabled hline).1 henabled))
  exact ⟨h.vector 0, hend⟩

/-- And there is one once the timer has requested its line. -/
theorem interrupt_raise (h : OpenFor [0] pics) :
    ∃ pics', (pics.raise 0).interrupt = some (32, pics') := by
  have hraised := h.raise 0
  have hzero : (0 : Line) ≠ 2 := by decide
  rcases hint : (pics.raise 0).interrupt with _ | ⟨vector, pics'⟩
  · have hrequested : (pics.raise 0).requested 0 = true := by
      rw [Pair.requested_raise hzero, if_pos rfl]
    exact absurd ⟨hzero, hrequested, (hraised.enabled hzero).2 List.mem_cons_self⟩
      (hraised.idle.interrupt_eq_none.1 hint 0)
  · obtain ⟨rfl, -⟩ := hraised.of_interrupt hint
    exact ⟨pics', rfl⟩

end OpenFor

namespace Waiting

variable {waiting waiting' : Waiting} {event : WaitEvent} {events : List WaitEvent} {vector : ℕ}

/-- The chips are set up for the timer alone. -/
def Sound (waiting : Waiting) : Prop := OpenFor [0] waiting.rested

theorem rested_of_resting (hserving : waiting.serving = none) : waiting.rested = waiting.pics := by
  unfold rested
  rw [hserving]

theorem rested_raise (waiting : Waiting) (line : Line) :
    ({ waiting with pics := waiting.pics.raise line } : Waiting).rested = waiting.rested.raise line := by
  unfold rested
  dsimp only
  rcases waiting.serving with _ | served
  · rfl
  · exact Pair.endOfInterrupt_raise waiting.pics served line

/-- **An interrupt finds the timer's handler.** -/
theorem Sound.interrupted {next : WaitNext} (h : waiting.Sound)
    (hstep : waiting.step (.interrupted vector) = some next) :
    waiting.point ≠ .over ∧ waiting.serving = none ∧ vector = 32 ∧ ∃ pics,
      pics.endOfInterrupt 0 = waiting.rested.withdraw 0 ∧ next = .waits {
        pics
        ticks := wrap (waiting.ticks + 1)
        point := waiting.point.woken
        serving := some 0 } := by
  unfold step at hstep
  dsimp only at hstep
  split at hstep
  · cases hstep
  · next hover =>
    rcases hserving : waiting.serving with _ | line
    · rcases hint : waiting.pics.interrupt with _ | ⟨v, pics⟩
      · rw [hserving, hint] at hstep
        cases hstep
      · have hrested : waiting.rested = waiting.pics := by
          unfold rested
          rw [hserving]
        unfold Sound at h
        rw [hrested] at h
        obtain ⟨rfl, hend⟩ := h.of_interrupt hint
        rw [hserving, hint] at hstep
        dsimp only at hstep
        split at hstep
        · next hvector =>
          obtain rfl := hvector
          exact ⟨hover, rfl, rfl, pics, hrested ▸ hend, (Option.some.inj hstep).symm⟩
        · cases hstep
    · rw [hserving] at hstep
      cases hstep

/-- **No other handler runs.** -/
theorem Sound.not_strays (h : waiting.Sound) (event : WaitEvent) (vector : ℕ) :
    waiting.step event ≠ some (.strays vector) := by
  intro hstep
  cases event with
  | requested line => cases hstep
  | interrupted v =>
    obtain ⟨-, -, -, pics, -, hnext⟩ := h.interrupted hstep
    cases hnext
  | returned =>
    obtain ⟨line, -, heq⟩ := Option.map_eq_some_iff.1 hstep
    cases heq
  | looped =>
    unfold step at hstep
    dsimp only at hstep
    split at hstep
    · obtain ⟨after, -, heq⟩ := Option.map_eq_some_iff.1 hstep
      cases heq
    · cases hstep

theorem of_returned (hstep : waiting.Steps .returned waiting') : waiting'.rested = waiting.rested ∧
    waiting' = { waiting with
      pics := waiting'.pics
      serving := none } := by
  obtain ⟨line, hserving, heq⟩ := Option.map_eq_some_iff.1 hstep
  cases heq
  refine ⟨?_, rfl⟩
  unfold rested
  rw [hserving]
  exact picSendEoi_run line waiting.pics

theorem of_looped (hstep : waiting.Steps .looped waiting') :
    waiting.serving = none ∧ waiting.loop = some waiting' := by
  unfold Steps Waiting.step at hstep
  dsimp only at hstep
  split at hstep
  · next hserving =>
    obtain ⟨after, hafter, heq⟩ := Option.map_eq_some_iff.1 hstep
    cases heq
    exact ⟨hserving, hafter⟩
  · cases hstep

/-- The loop only moves on. -/
theorem loop_eq_some (h : waiting.loop = some waiting') :
    waiting' = { waiting with point := waiting'.point } ∧
    ((waiting.point = .test ∧ waiting.ticks < 100 ∧ waiting'.point = .hlt) ∨
      (waiting.point = .test ∧ 100 ≤ waiting.ticks ∧ waiting'.point = .cli) ∨
      (waiting.point = .hlt ∧ waiting'.point = .asleep) ∨
      (waiting.point = .cli ∧ waiting'.point = .over)) := by
  unfold loop at h
  rcases hpoint : waiting.point with _ | _ | _ | _ | _ <;> rw [hpoint] at h <;> cases h
  · refine ⟨rfl, ?_⟩
    by_cases hticks : waiting.ticks < 100
    · exact Or.inl ⟨rfl, hticks, if_pos hticks⟩
    · exact Or.inr (Or.inl ⟨rfl, Nat.not_lt.1 hticks, if_neg hticks⟩)
  · exact ⟨rfl, Or.inr (Or.inr (Or.inl ⟨rfl, rfl⟩))⟩
  · exact ⟨rfl, Or.inr (Or.inr (Or.inr ⟨rfl, rfl⟩))⟩

/-- **The chips stay set up.** -/
theorem Sound.step (h : waiting.Sound) (hstep : waiting.Steps event waiting') : waiting'.Sound := by
  cases event with
  | requested line =>
    cases hstep
    unfold Sound
    rw [rested_raise]
    exact h.raise line
  | interrupted vector =>
    obtain ⟨-, -, -, pics, hend, hnext⟩ := h.interrupted hstep
    cases hnext
    unfold Sound
    rw [show rested _ = pics.endOfInterrupt 0 from rfl, hend]
    exact h.withdraw 0
  | returned =>
    unfold Sound
    rw [(of_returned hstep).1]
    exact h
  | looped =>
    obtain ⟨hserving, hloop⟩ := of_looped hstep
    have hrested : waiting'.rested = waiting.rested := by
      rw [(loop_eq_some hloop).1]
      rfl
    unfold Sound
    rw [hrested]
    exact h

/-! ## How long it takes -/

end Waiting

/-- The most steps the loop has taken when it is at the point: a turn that
goes to sleep needs a tick the turn before had not seen. -/
def WaitPoint.loopsBy (ticks : ℕ) : WaitPoint → ℕ
  | .test => 2 * min ticks 100
  | .hlt => 2 * min ticks 99 + 1
  | .asleep => 2 * min ticks 99 + 2
  | .cli => 201
  | .over => 202

theorem WaitPoint.loopsBy_le (ticks : ℕ) (point : WaitPoint) : point.loopsBy ticks ≤ 202 := by
  cases point <;> simp only [loopsBy] <;> omega

/-- A tick allows for more. -/
theorem WaitPoint.loopsBy_woken (ticks : ℕ) (point : WaitPoint) :
    point.loopsBy ticks ≤ point.woken.loopsBy (ticks + 1) := by
  cases point <;> simp only [woken, loopsBy] <;> omega

namespace Waiting

variable {waiting waiting' : Waiting} {event : WaitEvent} {events : List WaitEvent} {p : Pair}

/-- What a run has come to. -/
structure Counts (events : List WaitEvent) (waiting : Waiting) : Prop where
  sound : waiting.Sound
  ticks : waiting.ticks = events.countP WaitEvent.ticks
  loops : events.countP WaitEvent.loops ≤ waiting.point.loopsBy waiting.ticks
  counted : waiting.point = .cli ∨ waiting.point = .over → 100 ≤ waiting.ticks
  resting : waiting.point = .over → waiting.serving = none

/-- An interrupt counts a tick. -/
theorem Counts.interrupted {vector : ℕ} (h : Counts events waiting)
    (hticks : (events ++ [WaitEvent.interrupted vector]).countP WaitEvent.ticks < 2 ^ 64)
    (hstep : waiting.Steps (.interrupted vector) waiting') :
    Counts (events ++ [.interrupted vector]) waiting' := by
  have hsound := h.sound.step hstep
  obtain ⟨hover, -, -, pics, -, hnext⟩ := h.sound.interrupted hstep
  cases hnext
  have hlt : waiting.ticks + 1 < 2 ^ 64 := by
    rw [List.countP_append] at hticks
    rw [h.ticks]
    exact hticks
  refine ⟨hsound, ?_, ?_, ?_, ?_⟩
  · rw [List.countP_append]
    exact (wrap_of_lt hlt).trans (congrArg (· + 1) h.ticks)
  · rw [List.countP_append]
    change _ ≤ waiting.point.woken.loopsBy (wrap (waiting.ticks + 1))
    rw [wrap_of_lt hlt]
    exact h.loops.trans (WaitPoint.loopsBy_woken _ _)
  · intro hpoint
    change 100 ≤ wrap (waiting.ticks + 1)
    rw [wrap_of_lt hlt]
    have hcounted := h.counted (WaitPoint.of_woken hpoint)
    omega
  · exact fun hpoint => absurd (WaitPoint.of_woken_over hpoint) hover

/-- **The loop leaves only behind a hundred ticks.** -/
theorem Counts.looped (h : Counts events waiting) (hstep : waiting.Steps .looped waiting') :
    Counts (events ++ [.looped]) waiting' := by
  have hsound := h.sound.step hstep
  obtain ⟨hserving, hloop⟩ := of_looped hstep
  obtain ⟨heq, hcases⟩ := loop_eq_some hloop
  have hsame : waiting'.ticks = waiting.ticks := by rw [heq]
  have hloops := h.loops
  refine ⟨hsound, ?_, ?_, ?_, ?_⟩
  · rw [List.countP_append, hsame]
    exact h.ticks
  · rw [List.countP_append, hsame]
    change _ + 1 ≤ _
    rcases hcases with ⟨hat, hlt, hat'⟩ | ⟨hat, hge, hat'⟩ | ⟨hat, hat'⟩ | ⟨hat, hat'⟩ <;>
      rw [hat] at hloops <;> rw [hat'] <;> simp only [WaitPoint.loopsBy] at hloops ⊢ <;> omega
  · rw [hsame]
    rcases hcases with ⟨-, -, hat'⟩ | ⟨-, hge, -⟩ | ⟨-, hat'⟩ | ⟨hat, -⟩
    · rw [hat']
      exact nofun
    · exact fun _ => hge
    · rw [hat']
      exact nofun
    · exact fun _ => h.counted (Or.inl hat)
  · rw [heq]
    exact fun _ => hserving

/-- **A step counts on**, until the ticks wrap. -/
theorem Counts.step (h : Counts events waiting)
    (hticks : (events ++ [event]).countP WaitEvent.ticks < 2 ^ 64)
    (hstep : waiting.Steps event waiting') : Counts (events ++ [event]) waiting' := by
  have hsound := h.sound.step hstep
  cases event with
  | requested line =>
    cases hstep
    refine ⟨hsound, ?_, ?_, h.counted, h.resting⟩ <;> rw [List.countP_append]
    · exact h.ticks
    · exact h.loops
  | interrupted vector => exact h.interrupted hticks hstep
  | returned =>
    rw [(of_returned hstep).2] at hsound ⊢
    refine ⟨hsound, ?_, ?_, h.counted, fun _ => rfl⟩ <;> rw [List.countP_append]
    · exact h.ticks
    · exact h.loops
  | looped => exact h.looped hstep

theorem sound_atSti (p : Pair) : (atSti p).Sound := openFor_openIrqs [0] p

theorem counts_run (hrun : Run Steps (atSti p) events waiting)
    (hticks : events.countP WaitEvent.ticks < 2 ^ 64) : Counts events waiting := by
  induction hrun with
  | nil => exact ⟨sound_atSti p, rfl, Nat.zero_le _, nofun, nofun⟩
  | snoc _ hstep ih =>
    have hbefore := hticks
    rw [List.countP_append] at hbefore
    exact (ih (by omega)).step hticks hstep

/-- The wait can go on: by a step of the handler or of the loop, or, where
the loop is halted, once the timer fires. -/
def GoesOn (waiting : Waiting) : Prop :=
  (∃ waiting', waiting.Steps .returned waiting') ∨ (∃ waiting', waiting.Steps .looped waiting') ∨
    ∃ waiting', Run Steps waiting [.requested 0, .interrupted 32] waiting' ∧ waiting'.point = .test

/-- A halted loop is woken by the timer. -/
theorem Sound.wakes (h : waiting.Sound) (hpoint : waiting.point = .asleep)
    (hserving : waiting.serving = none) : ∃ pics,
      Run Steps waiting [.requested 0, .interrupted 32] {
        pics
        ticks := wrap (waiting.ticks + 1)
        point := .test
        serving := some 0 } := by
  unfold Sound at h
  rw [rested_of_resting hserving] at h
  obtain ⟨pics, hint⟩ := h.interrupt_raise
  refine ⟨pics, run_cons.2 ⟨_, rfl, run_cons.2 ⟨_, ?_, .nil⟩⟩⟩
  unfold Steps Waiting.step
  dsimp only
  rw [if_neg (by rw [hpoint]; decide), hserving, hint]
  dsimp only
  rw [if_pos rfl, hpoint]
  rfl

/-- **The wait is not stuck.** -/
theorem Sound.goesOn (h : waiting.Sound) (hover : waiting.point ≠ .over) : waiting.GoesOn := by
  rcases hserving : waiting.serving with _ | line
  · by_cases hpoint : waiting.point = .asleep
    · obtain ⟨pics, hrun⟩ := h.wakes hpoint hserving
      exact Or.inr (Or.inr ⟨_, hrun, rfl⟩)
    · have hloop : ∃ waiting', waiting.loop = some waiting' := by
        unfold loop
        rcases hat : waiting.point with _ | _ | _ | _ | _
        · exact ⟨_, rfl⟩
        · exact ⟨_, rfl⟩
        · exact absurd hat hpoint
        · exact ⟨_, rfl⟩
        · exact absurd hat hover
      obtain ⟨waiting', hloop⟩ := hloop
      refine Or.inr (Or.inl ⟨waiting', ?_⟩)
      unfold Steps Waiting.step
      dsimp only
      rw [if_pos hserving, hloop]
      rfl
  · exact Or.inl ⟨_, congrArg (Option.map _) hserving⟩

/-- **What is behind the wait**: with the keyboard's and the mouse's lines
enabled the chips are set up for all handlers, and what was requested
during the wait still is, so that they are attached where it matches the
keyboard controller. -/
theorem Sound.handsOver (h : waiting.Sound) (hserving : waiting.serving = none)
    {controller : Controller} {byte : BitVec 8}
    (hcommand : controller.commandByte = (byte ||| 0x03) &&& ~~~0x30) :
    Wired ((enableIrqs [1, 12]).run waiting.pics).2 controller ∧
      (Attached ((enableIrqs [1, 12]).run waiting.pics).2 controller ↔ ∀ device,
        waiting.pics.requested (deviceLine device) = true ↔ controller.full = some device) := by
  unfold Sound at h
  rw [rested_of_resting hserving] at h
  have honly := (enableIrqs_run [1, 12] h.idle.master.phase h.idle.slave.phase).1
  have hopen : OpenFor servedLines ((enableIrqs [1, 12]).run waiting.pics).2 :=
    (h.enable 1).enable 12
  have hwired := hopen.wired hcommand
  refine ⟨hwired, fun hattached device => ?_, fun hmatches => ⟨hwired, fun device => ?_⟩⟩
  · rw [← honly.requested]
    exact hattached.waiting device
  · rw [honly.requested]
    exact hmatches device

/-- **The wait for a hundred ticks.** Whatever lines are requested and
whenever the timer's interrupt is taken, from any state the chips were in
before `pic_remap`: no handler but the timer's runs, every interrupt is
counted, the loop takes at most 202 steps and is never stuck, and once it
is over a hundred ticks have been counted and the chips are as set up, so
that the keyboard's and the mouse's lines open as if there had been no
wait, attached where what was requested matches the keyboard controller. -/
theorem boot_waits (p : Pair) {events : List WaitEvent} {waiting : Waiting}
    (hrun : Run Steps (atSti p) events waiting)
    (hticks : events.countP WaitEvent.ticks < 2 ^ 64) :
    (∀ event vector, waiting.step event ≠ some (.strays vector)) ∧
    waiting.ticks = events.countP WaitEvent.ticks ∧
    events.countP WaitEvent.loops ≤ 202 ∧ (waiting.point ≠ .over → waiting.GoesOn) ∧
    (waiting.point = .over → 100 ≤ waiting.ticks ∧
      ∀ (controller : Controller) (byte : BitVec 8),
        controller.commandByte = (byte ||| 0x03) &&& ~~~0x30 →
          Wired ((enableIrqs [1, 12]).run waiting.pics).2 controller ∧
          (Attached ((enableIrqs [1, 12]).run waiting.pics).2 controller ↔ ∀ device,
            waiting.pics.requested (deviceLine device) = true ↔ controller.full = some device)) := by
  have hcounts := counts_run hrun hticks
  refine ⟨hcounts.sound.not_strays, hcounts.ticks, hcounts.loops.trans (WaitPoint.loopsBy_le _ _),
    hcounts.sound.goesOn, fun hover => ⟨hcounts.counted (Or.inr hover), fun controller byte hcommand => ?_⟩⟩
  exact hcounts.sound.handsOver (hcounts.resting hover) hcommand

/-- A turn of the loop that sleeps until the timer fires. -/
def turn : List WaitEvent := [.looped, .looped, .requested 0, .interrupted 32, .returned]

theorem Sound.turns (h : waiting.Sound) (hpoint : waiting.point = .test)
    (hserving : waiting.serving = none) (hlt : waiting.ticks < 100) : ∃ waiting',
      Run Steps waiting turn waiting' ∧ waiting'.Sound ∧ waiting'.point = .test ∧
      waiting'.serving = none ∧ waiting'.ticks = waiting.ticks + 1 := by
  obtain ⟨pics, ticks, point, serving⟩ := waiting
  dsimp only at hpoint hserving hlt
  subst hpoint hserving
  have htested : Steps ⟨pics, ticks, .test, none⟩ .looped ⟨pics, ticks, .hlt, none⟩ := by
    unfold Steps Waiting.step loop
    dsimp only
    rw [if_pos rfl, if_pos hlt]
    rfl
  have hslept : Steps ⟨pics, ticks, .hlt, none⟩ .looped ⟨pics, ticks, .asleep, none⟩ := rfl
  obtain ⟨pics', hwoken⟩ := ((h.step htested).step hslept).wakes rfl rfl
  have hturn : Run Steps ⟨pics, ticks, .test, none⟩ turn
      ⟨((picSendEoi 0).run pics').2, wrap (ticks + 1), .test, none⟩ :=
    run_cons.2 ⟨_, htested, run_cons.2 ⟨_, hslept, hwoken.snoc rfl⟩⟩
  have hsound := Run.invariant h (fun _ _ _ h hstep => h.step hstep) hturn
  exact ⟨_, hturn, hsound, rfl, rfl, wrap_of_lt (by omega)⟩

/-- Turn after turn. -/
theorem turns_run (p : Pair) {n : ℕ} (hn : n ≤ 100) : ∃ waiting,
    Run Steps (atSti p) (List.replicate n turn).flatten waiting ∧ waiting.Sound ∧
      waiting.point = .test ∧ waiting.serving = none ∧ waiting.ticks = n := by
  induction n with
  | zero => exact ⟨atSti p, .nil, sound_atSti p, rfl, rfl, rfl⟩
  | succ n ih =>
    obtain ⟨waiting, hrun, hsound, hpoint, hserving, hticks⟩ := ih (by omega)
    obtain ⟨waiting', hturn, hsound', hpoint', hserving', hticks'⟩ :=
      hsound.turns hpoint hserving (by omega)
    refine ⟨waiting', ?_, hsound', hpoint', hserving', by rw [hticks', hticks]⟩
    rw [List.replicate_succ', List.flatten_append, List.flatten_singleton]
    exact run_append.2 ⟨waiting, hrun, hturn⟩

/-- A hundred turns and the way out. -/
def hundredTurns : List WaitEvent := (List.replicate 100 turn).flatten ++ [.looped, .looped]

/-- **The wait ends** where the timer fires a hundred times. -/
theorem hundredTurns_run (p : Pair) : ∃ waiting, Run Steps (atSti p) hundredTurns waiting ∧
    waiting.point = .over ∧ waiting.ticks = 100 := by
  obtain ⟨⟨pics, ticks, point, serving⟩, hrun, -, hpoint, hserving, hticks⟩ := turns_run p le_rfl
  dsimp only at hpoint hserving hticks
  subst hpoint hserving hticks
  exact ⟨_, run_append.2 ⟨_, hrun, run_cons.2 ⟨_, rfl, run_cons.2 ⟨_, rfl, .nil⟩⟩⟩, rfl, rfl⟩

theorem hundredTurns_ticks : hundredTurns.countP WaitEvent.ticks < 2 ^ 64 := by
  have hlength : hundredTurns.length = 502 := by
    unfold hundredTurns
    rw [List.length_append, List.length_flatten, List.map_replicate, List.sum_replicate_nat]
    rfl
  have hle := List.countP_le_length (p := WaitEvent.ticks) (l := hundredTurns)
  omega

theorem boot_waits_hundredTurns : ∃ waiting,
    Run Steps (atSti ⟨initialisedChip 0 0, initialisedChip 0 0⟩) hundredTurns waiting ∧
    100 ≤ waiting.ticks ∧ Wired ((enableIrqs [1, 12]).run waiting.pics).2 Running.silentController := by
  obtain ⟨waiting, hrun, hover, -⟩ := hundredTurns_run ⟨initialisedChip 0 0, initialisedChip 0 0⟩
  obtain ⟨-, -, -, -, hbehind⟩ := boot_waits _ hrun hundredTurns_ticks
  obtain ⟨hcounted, hwired⟩ := hbehind hover
  have hcommand : Running.silentController.commandByte = (0x47 ||| 0x03) &&& ~~~0x30 := by decide
  exact ⟨waiting, hrun, hcounted, (hwired Running.silentController 0x47 hcommand).1⟩

end Waiting

end KbmOs
