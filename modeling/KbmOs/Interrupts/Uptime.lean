import KbmOs.Interrupts.Served
import KbmOs.Lib.Pit8254
/-!
# The clock in the header

`pit_init` sets the timer to a count that is not quite a hundredth of its
clock, and the ticks it makes are what the header counts. A tick whose
request still stands when the timer fires again is lost, so the uptime
displayed may fall behind; it is never ahead by more than what the rounded
count gains.
-/

namespace KbmOs

open Pic8259 I8042 Pit8254 LabelledRuns

/-! ## The timer -/

/-- `outb` to the ports of channel 0; the others are not its. -/
def pitOutb (port : ℕ) (value : BitVec 8) : StateM Channel Unit := modify fun c =>
  match port with
  | 0x40 => c.data value
  | 0x43 => c.control value
  | _ => c

def ioWaitPit : StateM Channel Unit := pitOutb 0x80 0

def pitClockSpeed : ℕ := 1193182

def pitFrequency : ℕ := 100

def pitInit : StateM Channel Unit := do
  let divisor : BitVec 16 := BitVec.ofNat 16 (pitClockSpeed / pitFrequency)
  pitOutb 0x43 0x36
  ioWaitPit
  pitOutb 0x40 ((divisor &&& 0xFF).setWidth 8)
  ioWaitPit
  pitOutb 0x40 ((divisor >>> 8 &&& 0xFF).setWidth 8)
  ioWaitPit

/-- **`pit_init` leaves one state**: mode 3, and a count of 11931. -/
theorem pitInit_run (c : Channel) : (pitInit.run c).2 = {
    access := .both
    mode := 3
    bcd := false
    held := none
    count := 11931
    running := true
    elapsed := 0 } := rfl

/-- The rises of the output since `pit_init`, after so many pulses. -/
def fired (c : Channel) (pulses : ℕ) : ℕ := ((pitInit.run c).2.pulses pulses).1

theorem fired_eq (c : Channel) (pulses : ℕ) : fired c pulses = pulses / 11931 := by
  unfold fired
  rw [pitInit_run, Channel.pulses_eq rfl rfl (by decide)]
  dsimp only
  rw [Nat.zero_add]
  rfl

/-- **A hundred rises take a little less than a second**: a second is gained
in 14550. -/
theorem fired_rate (c : Channel) (pulses : ℕ) :
    pulses / pitClockSpeed ≤ fired c pulses / pitFrequency ∧
    fired c pulses / pitFrequency ≤ pulses / pitClockSpeed + pulses / pitClockSpeed / 14550 + 1 := by
  rw [fired_eq]
  unfold pitClockSpeed pitFrequency
  omega

/-! ## The ticks -/

/-- The timer's output rises. -/
def KernelEvent.fires : KernelEvent → Bool
  | .timerFired => true
  | _ => false

/-- An interrupt does not make the uptime change. -/
theorem LoopPoint.of_woken_changed {point : LoopPoint} {uptimeSeconds : ℕ}
    (h : point.woken = .changed uptimeSeconds) : point = .changed uptimeSeconds := by
  cases point with
  | changed other => exact h
  | test => cases h
  | hlt => cases h
  | asleep => cases h

namespace Running

/-- The ticks counted, and the one that is requested. -/
def due (kernel : Running) : ℕ := kernel.ticks + (kernel.rested.requested 0).toNat

variable {kernel kernel' : Running} {event : KernelEvent} {events : List KernelEvent} {bound : ℕ}

/-- A tick is counted in place of its request. -/
theorem SetUp.due_interrupted {vector : ℕ} {readings : Readings} (h : kernel.SetUp)
    (hstep : kernel.Steps (.interrupted vector readings) kernel') : kernel'.due ≤ kernel.due := by
  obtain ⟨-, hcases⟩ := h.interrupted hstep
  rcases hcases with ⟨pics, -, hrequested, hend, hnext⟩ | ⟨device, pics, -, -, hend, hnext⟩
  · cases hnext
    have hdue : due { kernel with
        pics
        point := kernel.point.woken
        ticks := wrap (kernel.ticks + 1)
        serving := some 0 } = wrap (kernel.ticks + 1) + ((pics.endOfInterrupt 0).requested 0).toNat := rfl
    have hwrap : wrap (kernel.ticks + 1) ≤ kernel.ticks + 1 := Nat.mod_le _ _
    rw [hdue, hend, Pair.requested_withdraw, if_pos rfl]
    unfold due
    rw [hrequested]
    exact hwrap
  · rcases hdesktop : kernel.desktop.step (deviceEvent readings kernel.controller.data device) with
      _ | desktop <;> rw [hdesktop] at hnext <;> cases hnext
    have hdue : due { kernel with
        pics
        point := kernel.point.woken
        controller := kernel.controller.read.2
        desktop
        serving := some (deviceLine device) } =
          kernel.ticks + ((pics.endOfInterrupt (deviceLine device)).requested 0).toNat := rfl
    rw [hdue, hend, Pair.requested_withdraw, if_neg (deviceLine_ne_zero device).symm]
    exact le_rfl

/-- **A rise makes one tick at most.** -/
theorem SetUp.due_step (h : kernel.SetUp) (hstep : kernel.Steps event kernel') :
    kernel'.due ≤ kernel.due + event.fires.toNat := by
  cases event with
  | sent device byte =>
    cases hstep
    exact le_rfl
  | timerFired =>
    cases hstep
    unfold due
    rw [rested_raise]
    have hle := Bool.toNat_le ((kernel.rested.raise 0).requested 0)
    change kernel.ticks + _ ≤ kernel.ticks + _ + 1
    omega
  | passed device =>
    obtain ⟨controller, -, rfl⟩ := h.passed hstep
    have hrested := rested_raise { kernel with controller } (deviceLine device)
    unfold due
    rw [hrested, Pair.requested_raise (deviceLine_ne_two device),
      if_neg (deviceLine_ne_zero device).symm]
    exact le_rfl
  | interrupted vector readings => exact h.due_interrupted hstep
  | returned =>
    obtain ⟨line, -, hrested, heq⟩ := of_returned hstep
    unfold due
    rw [hrested, heq]
    exact le_rfl
  | looped =>
    rcases loop_cases (of_looped hstep).2 with ⟨point, rfl⟩ | ⟨uptimeSeconds, desktop, -, rfl⟩
    · exact le_rfl
    · exact le_rfl

/-- The uptime comes from ticks within the bound. -/
structure Paced (bound : ℕ) (kernel : Running) : Prop where
  due_le : kernel.due ≤ bound
  displayed : 100 * kernel.displayedUptimeSeconds ≤ bound
  changed : ∀ uptimeSeconds, kernel.point = .changed uptimeSeconds → 100 * uptimeSeconds ≤ bound

/-- **A step keeps the pace.** -/
theorem Paced.step (h : kernel.Paced bound) (hsetup : kernel.SetUp)
    (hstep : kernel.Steps event kernel') : kernel'.Paced (bound + event.fires.toNat) := by
  have hdue := hsetup.due_step hstep
  have hbound := h.due_le
  by_cases hloops : event = .looped
  · subst hloops
    obtain ⟨-, hloop⟩ := of_looped hstep
    have hticks : kernel.ticks ≤ kernel.due := Nat.le_add_right _ _
    have hdisplayed := h.displayed
    unfold loop at hloop
    rcases hpoint : kernel.point with _ | uptimeSeconds | _ | _ <;> rw [hpoint] at hloop
    · obtain rfl := Option.some.inj hloop
      refine ⟨hdue.trans (Nat.add_le_add_right hbound _), hdisplayed, fun uptimeSeconds hchanged => ?_⟩
      dsimp only at hchanged
      split at hchanged
      · cases hchanged
        change _ ≤ bound
        omega
      · cases hchanged
    · obtain ⟨desktop, -, rfl⟩ := Option.map_eq_some_iff.1 hloop
      exact ⟨hdue.trans (Nat.add_le_add_right hbound _), h.changed uptimeSeconds hpoint, nofun⟩
    · obtain rfl := Option.some.inj hloop
      exact ⟨hdue.trans (Nat.add_le_add_right hbound _), hdisplayed, nofun⟩
    · cases hloop
  · obtain ⟨hdisplayed, hpoint⟩ := hsetup.loop_kept hstep hloops
    refine ⟨hdue.trans (Nat.add_le_add_right hbound _), ?_, fun uptimeSeconds hchanged => ?_⟩
    · rw [hdisplayed]
      exact h.displayed.trans (Nat.le_add_right _ _)
    · have hbefore : kernel.point = .changed uptimeSeconds := by
        rcases hpoint with hpoint | hpoint
        · rw [← hpoint, hchanged]
        · exact LoopPoint.of_woken_changed (hpoint ▸ hchanged)
      exact (h.changed uptimeSeconds hbefore).trans (Nat.le_add_right _ _)

theorem Paced.run (h : kernel.Paced bound) (hsetup : kernel.SetUp)
    (hrun : Run Steps kernel events kernel') :
    kernel'.Paced (bound + events.countP KernelEvent.fires) := by
  induction hrun with
  | nil => exact h
  | @snoc events event _ _ hbefore hstep ih =>
    have hcount : bound + (events ++ [event]).countP KernelEvent.fires =
        bound + events.countP KernelEvent.fires + event.fires.toNat := by
      rw [List.countP_append, List.countP_singleton, Nat.add_assoc]
      cases event.fires <;> rfl
    rw [hcount]
    exact ih.step (hsetup.run hbefore) hstep

/-- **The uptime displayed is never ahead.** After `pit_init` the timer rises
once in every 11931 pulses, whatever state it was in, so a hundred rises
take a little less than a second: its seconds are never fewer than those of
its clock, and one too many in 14550. In every run from `sti` on, whatever
is requested when interrupts are switched on, if all ticks come from rises
since `pit_init`, the uptime in the header is at most a hundredth of them. -/
theorem uptime_not_ahead (c : Channel) (pulses : ℕ) (hsetup : kernel.SetUp)
    (hdisplayed : kernel.displayedUptimeSeconds = 0) (hpoint : kernel.point = .test)
    (hrun : Run Steps kernel events kernel')
    (hfired : kernel.due + events.countP KernelEvent.fires ≤ fired c pulses) :
    fired c pulses = pulses / 11931 ∧
    pulses / pitClockSpeed ≤ fired c pulses / pitFrequency ∧
    kernel'.displayedUptimeSeconds ≤ fired c pulses / pitFrequency ∧
    fired c pulses / pitFrequency ≤ pulses / pitClockSpeed + pulses / pitClockSpeed / 14550 + 1 := by
  have hstart : kernel.Paced kernel.due := by
    refine ⟨le_rfl, ?_, fun uptimeSeconds hchanged => ?_⟩
    · rw [hdisplayed]
      exact Nat.zero_le _
    · rw [hpoint] at hchanged
      cases hchanged
  have hshown := (hstart.run hsetup hrun).displayed
  obtain ⟨hslow, hfast⟩ := fired_rate c pulses
  refine ⟨fired_eq c pulses, hslow, ?_, hfast⟩
  unfold pitFrequency
  omega

/-- A channel that was never set up. -/
def blankChannel : Channel where
  access := .both
  mode := 0
  bcd := false
  held := none
  count := 0
  running := false
  elapsed := 0

/-- The timer fires, and the main loop displays the second. -/
def secondEvents : List KernelEvent :=
  [.timerFired, .interrupted 32 idleReadings, .returned, .looped, .looped]

theorem secondEvents_run : ∃ kernel', Run Steps sampleKernel secondEvents kernel' ∧
    kernel'.displayedUptimeSeconds = 1 :=
  ⟨_, run_cons.2 ⟨_, rfl, run_cons.2 ⟨_, rfl, run_cons.2 ⟨_, rfl, run_cons.2 ⟨_, rfl,
    run_cons.2 ⟨_, rfl, .nil⟩⟩⟩⟩⟩, rfl⟩

theorem uptime_not_ahead_second : ∃ kernel',
    Run Steps sampleKernel secondEvents kernel' ∧ kernel'.displayedUptimeSeconds = 1 ∧
    kernel'.displayedUptimeSeconds ≤ fired blankChannel (101 * 11931) / pitFrequency := by
  obtain ⟨kernel', hrun, hshown⟩ := secondEvents_run
  have hfired : sampleKernel.due + secondEvents.countP KernelEvent.fires ≤
      fired blankChannel (101 * 11931) := by
    rw [fired_eq]
    exact le_of_eq rfl
  obtain ⟨-, -, hbound, -⟩ :=
    uptime_not_ahead blankChannel _ sampleKernel_sound.setUp rfl rfl hrun hfired
  exact ⟨kernel', hrun, hshown, hbound⟩

end Running

end KbmOs
