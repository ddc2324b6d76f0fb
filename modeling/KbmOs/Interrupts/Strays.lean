import KbmOs.Interrupts.Apart
/-!
# Stray requests

`mouse_init` reads the controller's answers itself, with interrupts off.
The chips may have taken the answers for requests, and they stand when
interrupts are switched on: a handler then runs with no byte waiting for
it, and reads the last answer again. Both handlers have nothing to do with
that byte. Once the strays are gone the kernel is sound.
-/

namespace KbmOs

open Pic8259 I8042 LabelledRuns

namespace Running

/-- **The kernel as `mouse_init` leaves it**: no byte waits, the last that
was read is the mouse's acknowledgement, no packet has begun. Any line may
be requested. -/
structure Begins (kernel : Running) : Prop where
  wired : Wired kernel.rested kernel.controller
  empty : kernel.controller.full = none
  stale : kernel.controller.data = 0xFA
  between : kernel.desktop.mouse.mousePacketIndex = 0

/-- The requests with no byte behind them. -/
def strays (kernel : Running) : ℕ :=
  (kernel.rested.requested (deviceLine .keyboard)).toNat +
    (kernel.rested.requested (deviceLine .mouse)).toNat

variable {kernel kernel' : Running} {event : KernelEvent} {events : List KernelEvent}
variable {desktop : Desktop}

/-- **The last answer is no key and starts no packet.** -/
theorem step_stale (h : desktop.mouse.mousePacketIndex = 0) (readings : Readings) (device : Device) :
    desktop.step (deviceEvent readings 0xFA device) = some desktop := by
  cases device
  · rfl
  · have hdrop : mouseIrq desktop.mouse ⟨0xFA⟩ desktop.console.pixels =
        (desktop.mouse, desktop.console.pixels) :=
      mouseIrq_drop h (Or.inl rfl) desktop.console.pixels
    have hsame : desktop.withMouse (fun mouse screen => mouseIrq mouse ⟨0xFA⟩ screen) = desktop := by
      unfold Desktop.withMouse
      dsimp only
      rw [hdrop]
    exact congrArg some hsame

/-- Updating the header starts no packet. -/
theorem step_header_index {desktop' : Desktop} {uptimeSeconds : ℕ}
    (h : desktop.step (.updateHeader uptimeSeconds) = some desktop') :
    desktop'.mouse.mousePacketIndex = desktop.mouse.mousePacketIndex := by
  have hmotion := motion_step h fun _ => 0
  exact congrArg (fun motion => motion.1.2) hmotion

/-- What the run of some updates of the header has made of the desktop. -/
def Headed (desktop desktop' : Desktop) : Prop :=
  ∃ updates : List ℕ, Run Desktop.Steps desktop (updates.map .updateHeader) desktop'

/-- **Without new bytes the strays only go**, and nothing is handled. -/
theorem Begins.step (h : kernel.Begins) (hquiet : ∀ device, event ≠ .passed device)
    (hstep : kernel.Steps event kernel') : kernel'.Begins ∧
      Headed kernel.desktop kernel'.desktop ∧
      (∀ device, (kernel.controller.queue device).map BitVec.toNat ++ sentBytes device [event] =
        (kernel'.controller.queue device).map BitVec.toNat) ∧
      [event].countP KernelEvent.ofDevice + kernel'.strays = kernel.strays := by
  obtain ⟨hwired, hempty, hstale, hbetween⟩ := h
  have hstays : Headed kernel.desktop kernel.desktop := ⟨[], .nil⟩
  have hkept : ∀ device, (kernel.controller.queue device).map BitVec.toNat ++ [] =
      (kernel.controller.queue device).map BitVec.toNat := fun _ => List.append_nil _
  cases event with
  | sent device byte =>
    cases hstep
    refine ⟨⟨hwired.of_setup hwired.idle ⟨rfl, rfl, rfl, rfl⟩ rfl, hempty, hstale, hbetween⟩, hstays,
      fun other => ?_, Nat.zero_add _⟩
    unfold Controller.sends
    dsimp only
    by_cases hother : device = other
    · rw [← hother, Function.update_self]
      simp [sentBytes, KernelEvent.byteOf]
    · rw [Function.update_of_ne (Ne.symm hother)]
      simp [sentBytes, KernelEvent.byteOf, hother]
  | timerFired =>
    cases hstep
    have hrested := rested_raise kernel 0
    have hsame : ∀ device, (kernel.rested.raise 0).requested (deviceLine device) =
        kernel.rested.requested (deviceLine device) := fun device => by
      rw [Pair.requested_raise (by decide), if_neg (deviceLine_ne_zero device)]
    refine ⟨⟨?_, hempty, hstale, hbetween⟩, hstays, hkept, ?_⟩
    · rw [hrested]
      exact hwired.of_setup (hwired.idle.raise 0) (Pair.sameSetup_raise _ 0) rfl
    · unfold strays
      rw [hrested, hsame, hsame]
      exact Nat.zero_add _
  | passed device => exact absurd rfl (hquiet device)
  | interrupted vector readings =>
    obtain ⟨-, ⟨pics, rfl, -, hend, hnext⟩ | ⟨device, pics, rfl, hrequested, hend, hnext⟩⟩ :=
      SetUp.interrupted hwired hstep
    · cases hnext
      have htimer : ∀ device, (pics.endOfInterrupt 0).requested (deviceLine device) =
          kernel.rested.requested (deviceLine device) := fun device => by
        rw [hend, Pair.requested_withdraw, if_neg (deviceLine_ne_zero device)]
      have hwired' : Wired (pics.endOfInterrupt 0) kernel.controller := by
        rw [hend]
        exact hwired.of_setup (hwired.idle.withdraw 0) (Pair.sameSetup_withdraw _ 0) rfl
      refine ⟨⟨hwired', hempty, hstale, hbetween⟩, hstays, hkept, ?_⟩
      change 0 + (((pics.endOfInterrupt 0).requested (deviceLine .keyboard)).toNat +
        ((pics.endOfInterrupt 0).requested (deviceLine .mouse)).toNat) = _
      rw [htimer, htimer]
      exact Nat.zero_add _
    · -- the byte that is read is the stale one
      rw [hstale, step_stale hbetween] at hnext
      cases hnext
      have hwired' : Wired (pics.endOfInterrupt (deviceLine device)) kernel.controller.read.2 := by
        rw [hend]
        exact hwired.of_setup (hwired.idle.withdraw _) (Pair.sameSetup_withdraw _ _) rfl
      have hone : [KernelEvent.interrupted (32 + (deviceLine device).val) readings].countP
          KernelEvent.ofDevice = 1 := by cases device <;> rfl
      refine ⟨⟨hwired', rfl, hstale, hbetween⟩, hstays, hkept, ?_⟩
      rw [hone]
      change 1 + (((pics.endOfInterrupt (deviceLine device)).requested (deviceLine .keyboard)).toNat +
        ((pics.endOfInterrupt (deviceLine device)).requested (deviceLine .mouse)).toNat) = _
      unfold strays
      rw [hend, Pair.requested_withdraw, Pair.requested_withdraw]
      cases device
      · rw [if_pos rfl, if_neg (by decide), hrequested, Bool.toNat_false, Nat.zero_add]
        rfl
      · rw [if_neg (by decide), if_pos rfl, hrequested]
        exact Nat.add_comm _ _
  | returned =>
    obtain ⟨line, -, hrested, heq⟩ := of_returned hstep
    have hsame : kernel'.controller = kernel.controller ∧ kernel'.desktop = kernel.desktop := by
      rw [heq]
      exact ⟨rfl, rfl⟩
    obtain ⟨hcontroller, hdesktop⟩ := hsame
    unfold strays
    rw [hrested, hcontroller, hdesktop]
    exact ⟨⟨by rwa [hrested, hcontroller], by rwa [hcontroller], by rwa [hcontroller],
      by rwa [hdesktop]⟩, hstays, hkept, Nat.zero_add _⟩
  | looped =>
    rcases loop_cases (of_looped hstep).2 with ⟨point, rfl⟩ | ⟨uptimeSeconds, desktop, hdesktop, rfl⟩
    · exact ⟨⟨hwired, hempty, hstale, hbetween⟩, hstays, hkept, Nat.zero_add _⟩
    · exact ⟨⟨hwired, hempty, hstale, (step_header_index hdesktop).trans hbetween⟩,
        ⟨[uptimeSeconds], run_cons.2 ⟨_, hdesktop, .nil⟩⟩, hkept, Nat.zero_add _⟩

/-- **With the strays gone the chips are attached.** -/
theorem Begins.sound (h : kernel.Begins) (hstrays : kernel.strays = 0) : kernel.Sound := by
  refine ⟨h.wired, fun device => ?_⟩
  have hnone : kernel.rested.requested (deviceLine device) = false := by
    unfold strays at hstrays
    rw [← Bool.toNat_eq_zero]
    cases device <;> omega
  rw [hnone, h.empty]
  exact ⟨nofun, nofun⟩

/-- **Stray requests do no harm.** Whatever is requested when interrupts are
switched on: as long as no new byte is passed on, the handlers that run for
a device are at most two, they change nothing, every byte that is sent
stays in its queue, and once no device's line is requested any more the
kernel is sound. -/
theorem strays_harmless (kernel kernel' : Running) (events : List KernelEvent) (h : kernel.Begins)
    (hquiet : ∀ event ∈ events, ∀ device, event ≠ .passed device)
    (hrun : Run Steps kernel events kernel') :
    (∃ updates : List ℕ, Run Desktop.Steps kernel.desktop (updates.map .updateHeader) kernel'.desktop) ∧
    (∀ device, (kernel.controller.queue device).map BitVec.toNat ++ sentBytes device events =
      (kernel'.controller.queue device).map BitVec.toNat) ∧
    events.countP KernelEvent.ofDevice ≤ 2 ∧ (kernel'.strays = 0 → kernel'.Sound) := by
  have hall : kernel'.Begins ∧ Headed kernel.desktop kernel'.desktop ∧
      (∀ device, (kernel.controller.queue device).map BitVec.toNat ++ sentBytes device events =
        (kernel'.controller.queue device).map BitVec.toNat) ∧
      events.countP KernelEvent.ofDevice + kernel'.strays = kernel.strays := by
    induction hrun with
    | nil => exact ⟨h, ⟨[], .nil⟩, fun _ => List.append_nil _, Nat.zero_add _⟩
    | @snoc before event middle last hbefore hstep ih =>
      obtain ⟨hbegins, ⟨updates, hupdates⟩, hqueue, hcount⟩ :=
        ih fun e he => hquiet e (List.mem_append_left _ he)
      obtain ⟨hbegins', ⟨more, hmore⟩, hqueue', hcount'⟩ :=
        hbegins.step (hquiet event (List.mem_append_right _ List.mem_cons_self)) hstep
      refine ⟨hbegins', ⟨updates ++ more, ?_⟩, fun device => ?_, ?_⟩
      · rw [List.map_append]
        exact run_append.2 ⟨_, hupdates, hmore⟩
      · rw [← hqueue', ← hqueue]
        unfold sentBytes
        rw [List.filterMap_append, List.append_assoc]
      · rw [List.countP_append]
        omega
  obtain ⟨hbegins, hheaded, hqueue, hcount⟩ := hall
  have htwo : kernel.strays ≤ 2 := by
    unfold strays
    have hkeyboard := (kernel.rested.requested (deviceLine .keyboard)).toNat_le
    have hmouse := (kernel.rested.requested (deviceLine .mouse)).toNat_le
    omega
  exact ⟨hheaded, hqueue, by omega, hbegins.sound⟩

/-- A kernel whose chips took both devices' answers for requests. -/
def strayKernel : Running :=
  { sampleKernel with pics := (sampleKernel.pics.raise 1).raise 12 }

theorem strayKernel_begins : strayKernel.Begins := by
  have h := sampleKernel_sound.toWired
  refine ⟨?_, rfl, rfl, rfl⟩
  exact (h.of_setup (h.idle.raise 1) (Pair.sameSetup_raise _ 1) rfl).of_setup
    ((h.idle.raise 1).raise 12) (Pair.sameSetup_raise _ 12) rfl

theorem strays_harmless_strayKernel : ∃ kernel', Run Steps strayKernel
    [.interrupted 33 idleReadings, .returned, .interrupted 44 idleReadings, .returned] kernel' ∧
      kernel'.Sound := by
  obtain ⟨kernel', hrun, hstrays⟩ : ∃ kernel', Run Steps strayKernel
      [.interrupted 33 idleReadings, .returned, .interrupted 44 idleReadings, .returned] kernel' ∧
        kernel'.strays = 0 :=
    ⟨_, run_cons.2 ⟨_, rfl, run_cons.2 ⟨_, rfl, run_cons.2 ⟨_, rfl, run_cons.2 ⟨_, rfl, .nil⟩⟩⟩⟩, rfl⟩
  have hquiet : ∀ event ∈ [KernelEvent.interrupted 33 idleReadings, .returned,
      .interrupted 44 idleReadings, .returned], ∀ device, event ≠ .passed device := by
    intro event hevent device
    simp only [List.mem_cons, List.not_mem_nil, or_false] at hevent
    rcases hevent with rfl | rfl | rfl | rfl <;> exact nofun
  exact ⟨kernel', hrun,
    (strays_harmless strayKernel kernel' _ strayKernel_begins hquiet hrun).2.2.2 hstrays⟩

end Running

end KbmOs
