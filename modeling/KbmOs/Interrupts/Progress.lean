import KbmOs.Interrupts.Apart
/-!
# What is sent is handled

Left to itself the kernel comes to rest: the steps it and its chips can
take without a device are bounded by what there is to do, in whatever order
they are taken, and they only run out when everything that was sent has
been handled and the main loop sleeps.
-/

namespace KbmOs

open Pic8259 I8042 LabelledRuns

/-- The event needs no device. -/
def KernelEvent.Own : KernelEvent → Prop
  | .sent _ _ => False
  | .timerFired => False
  | _ => True

/-- The steps to the end of the main loop's turn. -/
def LoopPoint.left : LoopPoint → ℕ
  | .test => 3
  | .changed _ => 2
  | .hlt => 1
  | .asleep => 0

/-- The bytes the devices have sent and the controller has not passed on. -/
def queued (controller : Controller) : ℕ :=
  (controller.queue .keyboard).length + (controller.queue .mouse).length

/-- What there is to do, in steps: a byte takes two until its handler runs,
and a handler wakes the main loop for a turn. -/
def workOf (controller : Controller) (rested : Pair) (serving : Option Line) (point : LoopPoint) : ℕ :=
  10 * queued controller + 8 * controller.full.isSome.toNat + 6 * (rested.requested 0).toNat +
    serving.isSome.toNat + point.left

def Running.work (kernel : Running) : ℕ :=
  workOf kernel.controller kernel.rested kernel.serving kernel.point

variable {kernel kernel' : Running} {event : KernelEvent} {events : List KernelEvent}

theorem LoopPoint.left_woken (point : LoopPoint) : point.woken.left ≤ point.left + 3 := by
  cases point
  · exact Nat.le_add_right _ _
  · exact Nat.le_add_right _ _
  · exact Nat.le_add_right _ _
  · exact le_rfl

theorem queued_passes {controller controller' : Controller} {device : Device}
    (h : controller.passes device = some controller') : queued controller' + 1 = queued controller := by
  obtain ⟨-, -, byte, rest, hqueue, rfl⟩ := Controller.passes_eq_some.1 h
  unfold queued
  dsimp only
  cases device
  · rw [Function.update_self, Function.update_of_ne (by decide), hqueue, List.length_cons]
    omega
  · rw [Function.update_self, Function.update_of_ne (by decide), hqueue, List.length_cons]
    omega

namespace Running

/-- A step of the main loop leaves less of its turn. -/
theorem loop_left (h : kernel.loop = some kernel') : kernel'.point.left < kernel.point.left ∧
    kernel'.controller = kernel.controller ∧ kernel'.rested = kernel.rested ∧
      kernel'.serving = kernel.serving := by
  unfold loop at h
  rcases hpoint : kernel.point with _ | uptimeSeconds | _ | _ <;> rw [hpoint] at h
  · obtain rfl := Option.some.inj h
    refine ⟨?_, rfl, rfl, rfl⟩
    dsimp only
    split
    · exact Nat.lt_succ_self 2
    · exact Nat.lt_of_succ_lt (Nat.lt_succ_self 2)
  · obtain ⟨desktop, -, rfl⟩ := Option.map_eq_some_iff.1 h
    exact ⟨Nat.lt_succ_self 1, rfl, rfl, rfl⟩
  · obtain rfl := Option.some.inj h
    exact ⟨Nat.lt_succ_self 0, rfl, rfl, rfl⟩
  · cases h

/-- **Every step of its own leaves less to do.** -/
theorem Sound.work_lt (h : kernel.Sound) (hown : event.Own) (hstep : kernel.Steps event kernel') :
    kernel'.work < kernel.work := by
  have hwoken := kernel.point.left_woken
  cases event with
  | sent device byte => exact absurd hown id
  | timerFired => exact absurd hown id
  | passed device =>
    obtain ⟨controller, hpass, rfl⟩ := h.setUp.passed hstep
    have hqueued := queued_passes hpass
    have hempty := (Controller.passes_eq_some.1 hpass).1
    have htimer : (kernel.rested.raise (deviceLine device)).requested 0 =
        kernel.rested.requested 0 := by
      rw [Pair.requested_raise (deviceLine_ne_two device), if_neg (deviceLine_ne_zero device).symm]
    have hfull := controller.full.isSome.toNat_le
    have hrested := rested_raise { kernel with controller } (deviceLine device)
    have hwork : work { kernel with
          controller
          pics := kernel.pics.raise (deviceLine device) } =
        workOf controller (kernel.rested.raise (deviceLine device)) kernel.serving kernel.point :=
      congrArg (workOf controller · kernel.serving kernel.point) hrested
    rw [hwork]
    unfold work workOf
    rw [htimer, hempty, Option.isSome_none, Bool.toNat_false]
    omega
  | interrupted vector readings =>
    obtain ⟨hserving, hcases⟩ := h.interrupted hstep
    rcases hcases with
      ⟨pics, rfl, hrequested, hend, hnext⟩ | ⟨device, pics, rfl, hfull, hend, hnext⟩
    · cases hnext
      have hwork : work { kernel with
            pics
            point := kernel.point.woken
            ticks := wrap (kernel.ticks + 1)
            serving := some 0 } =
          workOf kernel.controller (kernel.rested.withdraw 0) (some 0) kernel.point.woken :=
        congrArg (workOf kernel.controller · (some 0) kernel.point.woken) hend
      have htimer : (kernel.rested.withdraw 0).requested 0 = false := by
        rw [Pair.requested_withdraw, if_pos rfl]
      rw [hwork]
      unfold work workOf
      rw [htimer, hrequested, hserving]
      simp only [Option.isSome_none, Option.isSome_some, Bool.toNat_false, Bool.toNat_true]
      omega
    · rcases hdesktop : kernel.desktop.step (deviceEvent readings kernel.controller.data device) with
        _ | desktop <;> rw [hdesktop] at hnext <;> cases hnext
      have hwork : work { kernel with
            pics
            point := kernel.point.woken
            controller := kernel.controller.read.2
            desktop
            serving := some (deviceLine device) } =
          workOf kernel.controller.read.2 (kernel.rested.withdraw (deviceLine device))
            (some (deviceLine device)) kernel.point.woken :=
        congrArg (workOf kernel.controller.read.2 · (some (deviceLine device)) kernel.point.woken) hend
      have htimer : (kernel.rested.withdraw (deviceLine device)).requested 0 =
          kernel.rested.requested 0 := by
        rw [Pair.requested_withdraw, if_neg (deviceLine_ne_zero device).symm]
      have hqueued : queued kernel.controller.read.2 = queued kernel.controller := rfl
      have hempty : kernel.controller.read.2.full = none := rfl
      rw [hwork]
      unfold work workOf
      rw [htimer, hqueued, hempty, hfull, hserving]
      simp only [Option.isSome_none, Option.isSome_some, Bool.toNat_false, Bool.toNat_true]
      omega
  | returned =>
    obtain ⟨line, hserving, hrested, heq⟩ := of_returned hstep
    have hwork : kernel'.work = workOf kernel.controller kernel.rested none kernel.point := by
      unfold work
      rw [hrested, heq]
    rw [hwork]
    unfold work workOf
    rw [hserving]
    exact Nat.add_lt_add_right (Nat.lt_succ_self _) _
  | looped =>
    obtain ⟨hleft, hcontroller, hrested, hserving⟩ := loop_left (of_looped hstep).2
    unfold work workOf
    rw [hcontroller, hrested, hserving]
    omega

/-- **A request of the timer is one tick.** -/
theorem Sound.timer_step (h : kernel.Sound) (hown : event.Own)
    (hstep : kernel.Steps event kernel') :
    [event].countP KernelEvent.ticks + (kernel'.rested.requested 0).toNat =
      (kernel.rested.requested 0).toNat := by
  cases event with
  | sent device byte => exact absurd hown id
  | timerFired => exact absurd hown id
  | passed device =>
    obtain ⟨controller, -, rfl⟩ := h.setUp.passed hstep
    have hrested := rested_raise { kernel with controller } (deviceLine device)
    rw [List.countP_cons_of_neg Bool.false_ne_true, hrested,
      Pair.requested_raise (deviceLine_ne_two device), if_neg (deviceLine_ne_zero device).symm]
    exact Nat.zero_add _
  | interrupted vector readings =>
    rcases (h.interrupted hstep).2 with
      ⟨pics, rfl, hrequested, hend, hnext⟩ | ⟨device, pics, rfl, hfull, hend, hnext⟩
    · cases hnext
      have hafter : (pics.endOfInterrupt 0).requested 0 = false := by
        rw [hend, Pair.requested_withdraw, if_pos rfl]
      rw [hrequested]
      exact congrArg (fun b : Bool => 1 + b.toNat) hafter
    · rcases hdesktop : kernel.desktop.step (deviceEvent readings kernel.controller.data device) with
        _ | desktop <;> rw [hdesktop] at hnext <;> cases hnext
      have hafter : (pics.endOfInterrupt (deviceLine device)).requested 0 =
          kernel.rested.requested 0 := by
        rw [hend, Pair.requested_withdraw, if_neg (deviceLine_ne_zero device).symm]
      have hvector : 32 + (deviceLine device).val ≠ 32 := by cases device <;> decide
      rw [List.countP_cons_of_neg (by unfold KernelEvent.ticks; rwa [decide_eq_true_eq]),
        List.countP_nil, Nat.zero_add]
      exact congrArg Bool.toNat hafter
  | returned =>
    obtain ⟨line, -, hrested, -⟩ := of_returned hstep
    rw [hrested]
    exact Nat.zero_add _
  | looped =>
    obtain ⟨-, -, hrested, -⟩ := loop_left (of_looped hstep).2
    rw [hrested]
    exact Nat.zero_add _

/-- What a run of its own leaves to do. -/
theorem Sound.own_run (h : kernel.Sound) (hown : ∀ event ∈ events, event.Own)
    (hrun : Run Steps kernel events kernel') : events.length + kernel'.work ≤ kernel.work ∧
      events.countP KernelEvent.ticks + (kernel'.rested.requested 0).toNat =
        (kernel.rested.requested 0).toNat := by
  induction hrun with
  | nil => exact ⟨by rw [List.length_nil, Nat.zero_add], Nat.zero_add _⟩
  | @snoc before event middle last hbefore hstep ih =>
    obtain ⟨hlength, htimer⟩ := ih fun e he => hown e (List.mem_append_left _ he)
    have hsound := (h.run hbefore).1
    have hlast := hown event (List.mem_append_right _ List.mem_cons_self)
    have hless := hsound.work_lt hlast hstep
    have htick := hsound.timer_step hlast hstep
    rw [List.length_append, List.length_singleton, List.countP_append]
    exact ⟨by omega, by omega⟩

/-! ## Who comes first -/

/-- The line of the timer comes before all others. -/
theorem SetUp.timer_first {vector : ℕ} {readings : Readings} {next : Next} (h : kernel.SetUp)
    (hrequested : kernel.rested.requested 0 = true)
    (hstep : kernel.step (.interrupted vector readings) = some next) : vector = 32 := by
  obtain ⟨hserving, -⟩ := h.interrupted hstep
  have hrested : kernel.rested = kernel.pics := by
    unfold rested
    rw [hserving]
  unfold SetUp at h
  rw [hrested] at h hrequested
  unfold Running.step at hstep
  dsimp only at hstep
  rcases hint : kernel.pics.interrupt with _ | ⟨v, pics⟩
  · rw [hserving, hint] at hstep
    cases hstep
  · rw [hserving, hint] at hstep
    dsimp only at hstep
    split at hstep
    · next hvector =>
      obtain rfl := hvector
      obtain ⟨line, -, rfl, -, hfirst⟩ := h.idle.of_interrupt hint
      have henabled : kernel.pics.enabled 0 = true :=
        (h.enabled 0 (by decide)).2 (by decide : (0 : Line).val ∈ servedLines)
      have hle := hfirst 0 ⟨by decide, hrequested, henabled⟩
      have hline : line.val = 0 := by
        unfold Pair.priority at hle
        rw [if_pos (by decide : (0 : Line).val < 8)] at hle
        split at hle
        · have hzero : 8 * line.val ≤ 0 := hle
          omega
        · have hzero : 8 + line.val ≤ 0 := hle
          omega
      rw [h.vector, hline]
    · cases hstep

/-- **A request of the timer stands until it is served.** -/
theorem SetUp.timer_stands (h : kernel.SetUp) (hstep : kernel.Steps event kernel')
    (hrequested : kernel.rested.requested 0 = true) (hnot : event.ticks = false) :
    kernel'.rested.requested 0 = true := by
  cases event with
  | sent device byte =>
    cases hstep
    exact hrequested
  | timerFired =>
    cases hstep
    rw [rested_raise, Pair.requested_raise (by decide), if_pos rfl]
  | passed device =>
    obtain ⟨controller, -, rfl⟩ := h.passed hstep
    have hrested := rested_raise { kernel with controller } (deviceLine device)
    rw [hrested, Pair.requested_raise (deviceLine_ne_two device),
      if_neg (deviceLine_ne_zero device).symm]
    exact hrequested
  | interrupted vector readings =>
    obtain rfl := h.timer_first hrequested hstep
    cases hnot
  | returned =>
    obtain ⟨line, -, hrested, -⟩ := of_returned hstep
    rwa [hrested]
  | looped =>
    obtain ⟨-, -, hrested, -⟩ := loop_left (of_looped hstep).2
    rwa [hrested]

/-- **A byte in the output buffer stays until it is handled.** -/
theorem SetUp.full_stands {device : Device} (h : kernel.SetUp) (hstep : kernel.Steps event kernel')
    (hfull : kernel.controller.full = some device) (hnot : event.ofDevice = false) :
    kernel'.controller.full = some device ∧ ∀ other, event ≠ .passed other := by
  cases event with
  | sent other byte =>
    cases hstep
    exact ⟨hfull, fun _ => nofun⟩
  | timerFired =>
    cases hstep
    exact ⟨hfull, fun _ => nofun⟩
  | passed other =>
    obtain ⟨controller, hpass, -⟩ := h.passed hstep
    rw [(Controller.passes_eq_some.1 hpass).1] at hfull
    cases hfull
  | interrupted vector readings =>
    rcases (h.interrupted hstep).2 with
      ⟨pics, rfl, -, -, hnext⟩ | ⟨other, pics, rfl, -, -, -⟩
    · cases hnext
      exact ⟨hfull, fun _ => nofun⟩
    · cases other <;> cases hnot
  | returned =>
    obtain ⟨line, -, -, heq⟩ := of_returned hstep
    rw [heq]
    exact ⟨hfull, fun _ => nofun⟩
  | looped =>
    obtain ⟨-, hcontroller, -, -⟩ := loop_left (of_looped hstep).2
    rw [hcontroller]
    exact ⟨hfull, fun _ => nofun⟩

/-- **Nothing overtakes.** From any state on in which the chips are set up,
whatever is requested, for as long as a request of the timer has not been
served no other handler starts; and for as long as the byte in the output
buffer has not been handled the controller passes no byte on. -/
theorem nothing_overtakes (kernel kernel' : Running) (events : List KernelEvent) (h : kernel.SetUp)
    (hrun : Run Steps kernel events kernel') :
    (kernel.rested.requested 0 = true → (∀ event ∈ events, event.ticks = false) →
      ∀ vector readings, .interrupted vector readings ∉ events) ∧
    ∀ device, kernel.controller.full = some device →
      (∀ event ∈ events, event.ofDevice = false) → ∀ other, .passed other ∉ events := by
  constructor
  · intro hrequested hnot
    have hall : kernel'.rested.requested 0 = true ∧
        ∀ vector readings, .interrupted vector readings ∉ events := by
      induction hrun with
      | nil => exact ⟨hrequested, fun _ _ => List.not_mem_nil⟩
      | @snoc before event middle last hbefore hstep ih =>
        obtain ⟨hmiddle, hnone⟩ := ih fun e he => hnot e (List.mem_append_left _ he)
        have hsetup := h.run hbefore
        have hlast := hnot event (List.mem_append_right _ List.mem_cons_self)
        refine ⟨hsetup.timer_stands hstep hmiddle hlast, fun vector readings hmem => ?_⟩
        rcases List.mem_append.1 hmem with hmem | hmem
        · exact hnone vector readings hmem
        · obtain rfl := List.mem_singleton.1 hmem
          obtain rfl := hsetup.timer_first hmiddle hstep
          cases hlast
    exact hall.2
  · intro device hfull hnot
    have hall : kernel'.controller.full = some device ∧ ∀ other, .passed other ∉ events := by
      induction hrun with
      | nil => exact ⟨hfull, fun _ => List.not_mem_nil⟩
      | @snoc before event middle last hbefore hstep ih =>
        obtain ⟨hmiddle, hnone⟩ := ih fun e he => hnot e (List.mem_append_left _ he)
        obtain ⟨hlast, hpassed⟩ := (h.run hbefore).full_stands hstep hmiddle
          (hnot event (List.mem_append_right _ List.mem_cons_self))
        refine ⟨hlast, fun other hmem => ?_⟩
        rcases List.mem_append.1 hmem with hmem | hmem
        · exact hnone other hmem
        · exact hpassed other (List.mem_singleton.1 hmem).symm
    exact hall.2

/-- A kernel in which the timer has fired. -/
def firedKernel : Running := { sampleKernel with pics := sampleKernel.pics.raise 0 }

theorem nothing_overtakes_firedKernel : ∃ kernel', Run Steps firedKernel
    [.sent .keyboard 0x2a, .passed .keyboard] kernel' ∧ ∀ vector readings,
      .interrupted vector readings ∉ [KernelEvent.sent .keyboard 0x2a, .passed .keyboard] := by
  obtain ⟨kernel', hrun⟩ : ∃ kernel', Run Steps firedKernel
      [.sent .keyboard 0x2a, .passed .keyboard] kernel' :=
    ⟨_, run_cons.2 ⟨_, rfl, run_cons.2 ⟨_, rfl, .nil⟩⟩⟩
  have hfired : firedKernel.SetUp := (Attached.fires sampleKernel_sound).toWired
  refine ⟨kernel', hrun, (nothing_overtakes firedKernel kernel' _ hfired hrun).1 rfl ?_⟩
  intro event hevent
  simp only [List.mem_cons, List.not_mem_nil, or_false] at hevent
  rcases hevent with rfl | rfl <;> rfl

/-! ## Rest -/

/-- Nothing more happens without a device. -/
def Rests (kernel : Running) : Prop := ∀ event : KernelEvent, event.Own → kernel.step event = none

/-- **A kernel at rest has nothing left to do.** -/
theorem Sound.of_rests (h : kernel.Sound) (hrests : kernel.Rests) :
    kernel.point = .asleep ∧ (∀ device, kernel.controller.pending device = []) ∧
      kernel.rested.requested 0 = false := by
  have hserving : kernel.serving = none := by
    have hreturned := hrests .returned trivial
    exact Option.map_eq_none_iff.1 hreturned
  have hrested : kernel.rested = kernel.pics := by
    unfold rested
    rw [hserving]
  have hpoint : kernel.point = .asleep := by
    have hlooped := hrests .looped trivial
    unfold Running.step at hlooped
    dsimp only at hlooped
    rw [if_pos hserving, Option.map_eq_none_iff] at hlooped
    unfold loop at hlooped
    rcases hat : kernel.point with _ | uptimeSeconds | _ | _ <;> rw [hat] at hlooped
    · cases hlooped
    · cases Option.map_eq_none_iff.1 hlooped
    · cases hlooped
  -- the chips present no line, so none is requested
  have hidle : kernel.pics.Idle := hrested ▸ h.idle
  have hnone : kernel.pics.interrupt = none := by
    rcases hint : kernel.pics.interrupt with _ | ⟨vector, pics⟩
    · rfl
    · have hinterrupted := hrests (.interrupted vector idleReadings) trivial
      unfold Running.step at hinterrupted
      dsimp only at hinterrupted
      rw [hserving, hint] at hinterrupted
      dsimp only at hinterrupted
      rw [if_pos rfl] at hinterrupted
      cases hinterrupted
  have hquiet : ∀ line : Line, line ≠ 2 → line.val ∈ servedLines →
      kernel.rested.requested line = false := fun line hline hserved => by
    have hnot := hidle.interrupt_eq_none.1 hnone line
    rw [← hrested] at hnot
    by_contra hrequested
    rw [Bool.not_eq_false] at hrequested
    exact hnot ⟨hline, hrequested, (h.enabled line hline).2 hserved⟩
  have hempty : kernel.controller.full = none := by
    rcases hfull : kernel.controller.full with _ | device
    · rfl
    · have hrequested := (h.waiting device).2 hfull
      rw [hquiet (deviceLine device) (deviceLine_ne_two device) (by cases device <;> decide)]
        at hrequested
      cases hrequested
  refine ⟨hpoint, fun device => ?_, hquiet 0 (by decide) (by decide)⟩
  have hpassed := hrests (.passed device) trivial
  have hpasses : kernel.controller.passes device = none := Option.map_eq_none_iff.1 hpassed
  have hqueue : kernel.controller.queue device = [] := by
    rcases hqueue : kernel.controller.queue device with _ | ⟨byte, rest⟩
    · rfl
    · have hsome := Controller.passes_eq_some.2
        ⟨hempty, h.admits device, byte, rest, hqueue, rfl⟩
      rw [hpasses] at hsome
      cases hsome
  unfold Controller.pending
  rw [hempty, hqueue]
  rfl

/-- **Everything that was sent is handled.** From a sound state, where no
request stands without its byte, the kernel and its chips take without the
devices no more steps than there is work, in any order; and where they can
take no more, every byte that was waiting has been handled, in order, the
timer's request has become a tick, and the main loop sleeps. -/
theorem comes_to_rest (kernel kernel' : Running) (events : List KernelEvent) (h : kernel.Sound)
    (hown : ∀ event ∈ events, event.Own) (hrun : Run Steps kernel events kernel') :
    events.length ≤ kernel.work ∧ (kernel'.Rests → kernel'.point = .asleep ∧
      kernel'.ticks % 2 ^ 64 = (kernel.ticks + (kernel.rested.requested 0).toNat) % 2 ^ 64 ∧
      ∃ served, Run Desktop.Steps kernel.desktop served kernel'.desktop ∧
        ∀ device, handledBytes device served =
          (kernel.controller.pending device).map BitVec.toNat) := by
  obtain ⟨hsound, served, hdesktop, hbytes, -, hticks⟩ := h.run hrun
  obtain ⟨hlength, htimer⟩ := h.own_run hown hrun
  refine ⟨by omega, fun hrests => ?_⟩
  obtain ⟨hpoint, hpending, hrequested⟩ := hsound.of_rests hrests
  have hsent : ∀ device, sentBytes device events = [] := fun device =>
    List.filterMap_eq_nil_iff.2 fun event hevent => by
      have hevent' := hown event hevent
      cases event with
      | sent other byte => exact absurd hevent' id
      | _ => rfl
  refine ⟨hpoint, ?_, served, hdesktop, fun device => ?_⟩
  · rw [hrequested, Bool.toNat_false, Nat.add_zero] at htimer
    rw [← htimer]
    exact hticks
  · have hall := hbytes device
    dsimp only [service] at hall
    rw [hsent, hpending, List.append_nil, List.map_nil, List.append_nil] at hall
    exact hall.symm

/-- Shift is down, and its byte has been sent. -/
def pressedKernel : Running :=
  { sampleKernel with controller := silentController.sends .keyboard 0x2a }

theorem pressedKernel_sound : pressedKernel.Sound := sampleKernel_sound.sends 0x2a

theorem comes_to_rest_pressedKernel : ∃ kernel' served, Run Steps pressedKernel
    [.passed .keyboard, .interrupted 33 idleReadings, .returned, .looped, .looped, .looped] kernel' ∧
      kernel'.point = .asleep ∧ Run Desktop.Steps pressedKernel.desktop served kernel'.desktop ∧
      handledBytes .keyboard served = [0x2a] := by
  obtain ⟨kernel', hrun, hrests⟩ : ∃ kernel', Run Steps pressedKernel
      [.passed .keyboard, .interrupted 33 idleReadings, .returned, .looped, .looped, .looped] kernel' ∧
        kernel'.Rests := by
    refine ⟨_, run_cons.2 ⟨_, rfl, run_cons.2 ⟨_, rfl, run_cons.2 ⟨_, rfl, run_cons.2 ⟨_, rfl,
      run_cons.2 ⟨_, rfl, run_cons.2 ⟨_, rfl, .nil⟩⟩⟩⟩⟩⟩, fun event hown => ?_⟩
    cases event with
    | sent device byte => exact absurd hown id
    | timerFired => exact absurd hown id
    | passed device => cases device <;> rfl
    | _ => rfl
  obtain ⟨-, hrest⟩ := comes_to_rest pressedKernel kernel' _ pressedKernel_sound
    (fun event hevent => by
      simp only [List.mem_cons, List.not_mem_nil, or_false] at hevent
      rcases hevent with rfl | rfl | rfl | rfl | rfl | rfl <;> trivial) hrun
  obtain ⟨hpoint, -, served, hdesktop, hbytes⟩ := hrest hrests
  exact ⟨kernel', served, hrun, hpoint, hdesktop, hbytes .keyboard⟩

end Running

end KbmOs
