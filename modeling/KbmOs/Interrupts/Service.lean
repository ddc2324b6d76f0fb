import KbmOs.Interrupts.Delivery
/-!
# What the running kernel serves

Seen from outside, the kernel has two queues: the bytes each device has
sent and nobody has handled. An interrupt handles the first of a queue. The
chips between a device and its handler are what this rests on: a device's
line is requested exactly while a byte of it waits in the output buffer
(`Attached`), so a handler that runs finds a byte of its own device there.
What a step keeps (`Sound.step`) a run keeps.
-/

namespace KbmOs

open Pic8259 I8042 LabelledRuns

/-- The lines that have a handler. -/
def servedLines : List ℕ := [0, 1, 12]

/-- The chips are set up for the handlers. -/
structure Wired (pics : Pair) (controller : Controller) : Prop where
  idle : pics.Idle
  vector : ∀ line, pics.vector line = 32 + line.val
  enabled : ∀ line, line ≠ 2 → (pics.enabled line = true ↔ line.val ∈ servedLines)
  interrupts : ∀ device, controller.interrupts device = true
  admits : ∀ device, controller.admits device = true

/-- **A device's request stands exactly while its byte waits.** -/
structure Attached (pics : Pair) (controller : Controller) : Prop extends
    Wired pics controller where
  waiting : ∀ device, pics.requested (deviceLine device) = true ↔ controller.full = some device

theorem deviceLine_ne_two (device : Device) : deviceLine device ≠ 2 := by
  cases device <;> decide

theorem deviceLine_ne_zero (device : Device) : deviceLine device ≠ 0 := by
  cases device <;> decide

theorem deviceLine_inj {device other : Device} (h : deviceLine device = deviceLine other) :
    device = other := by
  revert h
  cases device <;> cases other <;> decide

/-- What is set up stays. -/
theorem Wired.of_setup {pics pics' : Pair} {controller controller' : Controller}
    (h : Wired pics controller) (hidle : pics'.Idle) (hsetup : Pair.SameSetup pics pics')
    (hcommand : controller'.commandByte = controller.commandByte) : Wired pics' controller' where
  idle := hidle
  vector line := (hsetup.vector line).trans (h.vector line)
  enabled line hline := by
    rw [hsetup.enabled]
    exact h.enabled line hline
  interrupts device := by
    have hbit := h.interrupts device
    cases device <;> (unfold Controller.interrupts at hbit ⊢; rw [hcommand]; exact hbit)
  admits device := by
    have hbit := h.admits device
    cases device <;> (unfold Controller.admits at hbit ⊢; rw [hcommand]; exact hbit)

/-- **An interrupt is one of a line that has a handler.** -/
theorem Wired.of_interrupt {pics pics' : Pair} {controller : Controller}
    (h : Wired pics controller) {vector : ℕ} (hint : pics.interrupt = some (vector, pics')) :
    ∃ line, (line = 0 ∨ ∃ device, line = deviceLine device) ∧ vector = 32 + line.val ∧
      pics.requested line = true ∧ pics'.endOfInterrupt line = pics.withdraw line := by
  obtain ⟨line, ⟨hline, hrequested, henabled⟩, rfl, hend, -⟩ := h.idle.of_interrupt hint
  refine ⟨line, ?_, h.vector line, hrequested, hend⟩
  have hserved := (h.enabled line hline).1 henabled
  simp only [servedLines, List.mem_cons, List.not_mem_nil, or_false] at hserved
  rcases hserved with hval | hval | hval
  · exact Or.inl (Fin.ext hval)
  · exact Or.inr ⟨.keyboard, Fin.ext hval⟩
  · exact Or.inr ⟨.mouse, Fin.ext hval⟩

namespace Attached

variable {pics : Pair} {controller controller' : Controller} {device : Device} {line : Line}
variable (h : Attached pics controller)
include h

theorem sends (byte : BitVec 8) : Attached pics (controller.sends device byte) :=
  ⟨h.toWired.of_setup h.idle ⟨rfl, rfl, rfl, rfl⟩ rfl, h.waiting⟩

theorem fires : Attached (pics.raise 0) controller := by
  refine ⟨h.toWired.of_setup (h.idle.raise 0) (Pair.sameSetup_raise pics 0) rfl, fun device => ?_⟩
  rw [Pair.requested_raise (by decide), if_neg (deviceLine_ne_zero device)]
  exact h.waiting device

/-- The timer is handled. -/
theorem ticked : Attached (pics.withdraw 0) controller := by
  refine ⟨h.toWired.of_setup (h.idle.withdraw 0) (Pair.sameSetup_withdraw pics 0) rfl,
    fun device => ?_⟩
  rw [Pair.requested_withdraw, if_neg (deviceLine_ne_zero device)]
  exact h.waiting device

/-- **A byte that is passed on requests its device's line.** -/
theorem passes (hpass : controller.passes device = some controller') :
    Attached (pics.raise (deviceLine device)) controller' := by
  obtain ⟨hfull, -, byte, rest, -, rfl⟩ := Controller.passes_eq_some.1 hpass
  refine ⟨h.toWired.of_setup (h.idle.raise _) (Pair.sameSetup_raise pics _) rfl, fun other => ?_⟩
  rw [Pair.requested_raise (deviceLine_ne_two device)]
  by_cases hother : other = device
  · rw [hother, if_pos rfl]
    exact ⟨fun _ => rfl, fun _ => rfl⟩
  · rw [if_neg (mt deviceLine_inj hother), h.waiting, hfull]
    exact ⟨nofun, fun heq => absurd (Option.some.inj heq).symm hother⟩

/-- **A byte that is read takes the request with it.** -/
theorem reads (hfull : controller.full = some device) :
    Attached (pics.withdraw (deviceLine device)) controller.read.2 := by
  refine ⟨h.toWired.of_setup (h.idle.withdraw _) (Pair.sameSetup_withdraw pics _) rfl,
    fun other => ?_⟩
  rw [Pair.requested_withdraw]
  by_cases hother : other = device
  · rw [hother, if_pos rfl]
    exact ⟨nofun, nofun⟩
  · rw [if_neg (mt deviceLine_inj hother), h.waiting, hfull]
    exact ⟨fun heq => absurd (Option.some.inj heq).symm hother, nofun⟩

end Attached

/-! ## The queues -/

/-- What the kernel does for its devices: the bytes that wait for their
handler, and what the handlers have made of the others. -/
structure Service where
  pending : Device → List (BitVec 8)
  ticks : ℕ
  desktop : Desktop

/-- What handling a byte is to the desktop. -/
def deviceEvent (readings : Readings) (byte : BitVec 8) : Device → UiEvent
  | .keyboard => .keyboardIrq readings byte.toNat
  | .mouse => .mouseIrq ⟨byte⟩

/-- **The meaning of the events.** -/
inductive Service.Step (service : Service) : KernelEvent → Service → Prop
  | sent (device : Device) (byte : BitVec 8) : Step service (.sent device byte) { service with
      pending := Function.update service.pending device (service.pending device ++ [byte]) }
  | timerFired : Step service .timerFired service
  | passed (device : Device) : Step service (.passed device) service
  | returned : Step service .returned service
  | ticked (readings : Readings) : Step service (.interrupted 32 readings) { service with
      ticks := wrap (service.ticks + 1) }
  | handled {device : Device} {byte : BitVec 8} {rest : List (BitVec 8)} {readings : Readings}
      {desktop : Desktop} (hfirst : service.pending device = byte :: rest)
      (hstep : service.desktop.step (deviceEvent readings byte device) = some desktop) :
      Step service (.interrupted (32 + (deviceLine device).val) readings) { service with
        pending := Function.update service.pending device rest
        desktop }
  | looped : Step service .looped service
  | header {uptimeSeconds : ℕ} {desktop : Desktop}
      (hstep : service.desktop.step (.updateHeader uptimeSeconds) = some desktop) :
      Step service .looped { service with desktop }

namespace Running

/-- The chips as they are once the running handler has returned. -/
def rested (kernel : Running) : Pair :=
  match kernel.serving with
  | none => kernel.pics
  | some line => kernel.pics.endOfInterrupt line

/-- What the kernel stands for. -/
def service (kernel : Running) : Service where
  pending := kernel.controller.pending
  ticks := kernel.ticks
  desktop := kernel.desktop

/-- The chips are set up, whatever is requested. -/
def SetUp (kernel : Running) : Prop := Wired kernel.rested kernel.controller

/-- The chips are attached. -/
def Sound (kernel : Running) : Prop := Attached kernel.rested kernel.controller

variable {kernel kernel' : Running} {event : KernelEvent} {next : Next} {vector : ℕ}
variable {readings : Readings} {device : Device}

theorem Sound.setUp (h : kernel.Sound) : kernel.SetUp := h.toWired

/-- A request that comes is there when the handler has returned. -/
theorem rested_raise (kernel : Running) (line : Line) :
    ({ kernel with pics := kernel.pics.raise line } : Running).rested = kernel.rested.raise line := by
  unfold rested
  dsimp only
  rcases kernel.serving with _ | served
  · rfl
  · exact Pair.endOfInterrupt_raise kernel.pics served line

/-- **An interrupt finds a handler**, and takes the request of its line. -/
theorem SetUp.interrupted (h : kernel.SetUp)
    (hstep : kernel.step (.interrupted vector readings) = some next) : kernel.serving = none ∧
    ((∃ pics, vector = 32 ∧ kernel.rested.requested 0 = true ∧
      pics.endOfInterrupt 0 = kernel.rested.withdraw 0 ∧ next = .runs { kernel with
        pics
        point := kernel.point.woken
        ticks := wrap (kernel.ticks + 1)
        serving := some 0 }) ∨
    ∃ device pics, vector = 32 + (deviceLine device).val ∧
      kernel.rested.requested (deviceLine device) = true ∧
      pics.endOfInterrupt (deviceLine device) = kernel.rested.withdraw (deviceLine device) ∧
      next = match kernel.desktop.step (deviceEvent readings kernel.controller.data device) with
        | some desktop => .runs { kernel with
            pics
            point := kernel.point.woken
            controller := kernel.controller.read.2
            desktop
            serving := some (deviceLine device) }
        | none => .reboots) := by
  unfold step at hstep
  dsimp only at hstep
  rcases hserving : kernel.serving with _ | line
  · rcases hint : kernel.pics.interrupt with _ | ⟨v, pics⟩
    · rw [hserving, hint] at hstep
      cases hstep
    · rw [hserving, hint] at hstep
      dsimp only at hstep
      have hrested : kernel.rested = kernel.pics := by
        unfold rested
        rw [hserving]
      unfold SetUp at h
      rw [hrested] at h ⊢
      split at hstep
      · next hvector =>
        obtain rfl := hvector
        refine ⟨rfl, ?_⟩
        obtain ⟨line, rfl | ⟨device, rfl⟩, rfl, hrequested, hend⟩ := h.of_interrupt hint
        · exact Or.inl ⟨pics, rfl, hrequested, hend, (Option.some.inj hstep).symm⟩
        · refine Or.inr ⟨device, pics, rfl, hrequested, hend, ?_⟩
          rw [← Option.some.inj hstep]
          cases device <;> rfl
      · cases hstep
  · rw [hserving] at hstep
    cases hstep

/-- **And the handler finds a byte of its own device.** -/
theorem Sound.interrupted (h : kernel.Sound)
    (hstep : kernel.step (.interrupted vector readings) = some next) : kernel.serving = none ∧
    ((∃ pics, vector = 32 ∧ kernel.rested.requested 0 = true ∧
      pics.endOfInterrupt 0 = kernel.rested.withdraw 0 ∧ next = .runs { kernel with
        pics
        point := kernel.point.woken
        ticks := wrap (kernel.ticks + 1)
        serving := some 0 }) ∨
    ∃ device pics, vector = 32 + (deviceLine device).val ∧ kernel.controller.full = some device ∧
      pics.endOfInterrupt (deviceLine device) = kernel.rested.withdraw (deviceLine device) ∧
      next = match kernel.desktop.step (deviceEvent readings kernel.controller.data device) with
        | some desktop => .runs { kernel with
            pics
            point := kernel.point.woken
            controller := kernel.controller.read.2
            desktop
            serving := some (deviceLine device) }
        | none => .reboots) := by
  obtain ⟨hserving, hcases⟩ := h.setUp.interrupted hstep
  refine ⟨hserving, hcases.imp_right ?_⟩
  rintro ⟨device, pics, hvector, hrequested, hend, hnext⟩
  exact ⟨device, pics, hvector, (h.waiting device).1 hrequested, hend, hnext⟩

/-- A byte that is passed on raises its device's line. -/
theorem SetUp.passed (h : kernel.SetUp) (hstep : kernel.Steps (.passed device) kernel') :
    ∃ controller, kernel.controller.passes device = some controller ∧
      kernel' = { kernel with
        controller
        pics := kernel.pics.raise (deviceLine device) } := by
  obtain ⟨controller, hpass, heq⟩ := Option.map_eq_some_iff.1 hstep
  have hinterrupts : controller.interrupts device = true := by
    obtain ⟨-, -, -, -, -, rfl⟩ := Controller.passes_eq_some.1 hpass
    exact h.interrupts device
  rw [if_pos hinterrupts] at heq
  cases heq
  exact ⟨controller, hpass, rfl⟩

/-- A handler that returns leaves the chips at rest. -/
theorem of_returned (hstep : kernel.Steps .returned kernel') : ∃ line, kernel.serving = some line ∧
    kernel'.rested = kernel.rested ∧ kernel' = { kernel with
      pics := kernel'.pics
      serving := none } := by
  obtain ⟨line, hserving, heq⟩ := Option.map_eq_some_iff.1 hstep
  cases heq
  refine ⟨line, hserving, ?_, rfl⟩
  unfold rested
  rw [hserving]
  exact picSendEoi_run line kernel.pics

/-- The main loop goes on between handlers. -/
theorem of_looped (hstep : kernel.Steps .looped kernel') :
    kernel.serving = none ∧ kernel.loop = some kernel' := by
  unfold Steps Running.step at hstep
  dsimp only at hstep
  split at hstep
  · next hserving =>
    obtain ⟨after, hafter, heq⟩ := Option.map_eq_some_iff.1 hstep
    cases heq
    exact ⟨hserving, hafter⟩
  · cases hstep

/-- The main loop leaves the chips and the ticks alone. -/
theorem loop_cases {kernel' : Running} (h : kernel.loop = some kernel') :
    (∃ point, kernel' = { kernel with point }) ∨ ∃ uptimeSeconds desktop,
      kernel.desktop.step (.updateHeader uptimeSeconds) = some desktop ∧ kernel' = { kernel with
        desktop
        displayedUptimeSeconds := uptimeSeconds
        point := .hlt } := by
  unfold loop at h
  rcases hpoint : kernel.point with _ | uptimeSeconds | _ | _ <;> rw [hpoint] at h
  · exact Or.inl ⟨_, (Option.some.inj h).symm⟩
  · obtain ⟨desktop, hdesktop, rfl⟩ := Option.map_eq_some_iff.1 h
    exact Or.inr ⟨uptimeSeconds, desktop, hdesktop, rfl⟩
  · exact Or.inl ⟨_, (Option.some.inj h).symm⟩
  · cases h

/-- What an interrupt and a handler leave of the main loop. -/
theorem SetUp.loop_kept (h : kernel.SetUp) (hstep : kernel.Steps event kernel')
    (hloops : event ≠ .looped) : kernel'.displayedUptimeSeconds = kernel.displayedUptimeSeconds ∧
      (kernel'.point = kernel.point ∨ kernel'.point = kernel.point.woken) := by
  cases event with
  | sent device byte =>
    cases hstep
    exact ⟨rfl, Or.inl rfl⟩
  | timerFired =>
    cases hstep
    exact ⟨rfl, Or.inl rfl⟩
  | passed device =>
    obtain ⟨controller, -, rfl⟩ := h.passed hstep
    exact ⟨rfl, Or.inl rfl⟩
  | interrupted vector readings =>
    rcases (h.interrupted hstep).2 with
      ⟨pics, -, -, -, hnext⟩ | ⟨device, pics, -, -, -, hnext⟩
    · cases hnext
      exact ⟨rfl, Or.inr rfl⟩
    · rcases hdesktop : kernel.desktop.step (deviceEvent readings kernel.controller.data device) with
        _ | desktop <;> rw [hdesktop] at hnext <;> cases hnext
      exact ⟨rfl, Or.inr rfl⟩
  | returned =>
    obtain ⟨line, -, -, heq⟩ := of_returned hstep
    rw [heq]
    exact ⟨rfl, Or.inl rfl⟩
  | looped => exact absurd rfl hloops

/-- **The chips stay set up.** -/
theorem SetUp.step (h : kernel.SetUp) (hstep : kernel.Steps event kernel') : kernel'.SetUp := by
  have hraised : ∀ line, Wired (kernel.rested.raise line) kernel.controller := fun line =>
    Wired.of_setup h (h.idle.raise line) (Pair.sameSetup_raise _ line) rfl
  have hwithdrawn : ∀ line, Wired (kernel.rested.withdraw line) kernel.controller := fun line =>
    Wired.of_setup h (h.idle.withdraw line) (Pair.sameSetup_withdraw _ line) rfl
  cases event with
  | sent device byte =>
    cases hstep
    exact Wired.of_setup h h.idle ⟨rfl, rfl, rfl, rfl⟩ rfl
  | timerFired =>
    cases hstep
    unfold SetUp
    rw [rested_raise]
    exact hraised 0
  | passed device =>
    obtain ⟨controller, hpass, rfl⟩ := h.passed hstep
    have hrested := rested_raise { kernel with controller } (deviceLine device)
    unfold SetUp
    rw [hrested]
    obtain ⟨-, -, -, -, -, rfl⟩ := Controller.passes_eq_some.1 hpass
    have hline := hraised (deviceLine device)
    exact hline.of_setup hline.idle ⟨rfl, rfl, rfl, rfl⟩ rfl
  | interrupted vector readings =>
    rcases (h.interrupted hstep).2 with ⟨pics, -, -, hend, hnext⟩ | ⟨device, pics, -, -, hend, hnext⟩
    · cases hnext
      have hrested := hwithdrawn 0
      rw [← hend] at hrested
      exact hrested
    · rcases hdesktop : kernel.desktop.step (deviceEvent readings kernel.controller.data device) with
        _ | desktop <;> rw [hdesktop] at hnext <;> cases hnext
      have hrested := hwithdrawn (deviceLine device)
      rw [← hend] at hrested
      exact hrested.of_setup hrested.idle ⟨rfl, rfl, rfl, rfl⟩ rfl
  | returned =>
    obtain ⟨line, -, hrested, heq⟩ := of_returned hstep
    unfold SetUp
    rw [hrested, heq]
    exact h
  | looped =>
    rcases loop_cases (of_looped hstep).2 with ⟨point, rfl⟩ | ⟨uptimeSeconds, desktop, -, rfl⟩
    · exact h
    · exact h

theorem SetUp.run {events : List KernelEvent} (h : kernel.SetUp)
    (hrun : Run Steps kernel events kernel') : kernel'.SetUp := by
  induction hrun with
  | nil => exact h
  | snoc _ hstep ih => exact ih.step hstep

/-- **One step of the kernel is one of the service**, and the chips stay
attached. -/
theorem Sound.step (h : kernel.Sound) (hstep : kernel.Steps event kernel') :
    kernel'.Sound ∧ kernel.service.Step event kernel'.service := by
  cases event with
  | sent device byte =>
    cases hstep
    refine ⟨h.sends byte, ?_⟩
    have hpending : (kernel.controller.sends device byte).pending = Function.update
        kernel.controller.pending device (kernel.controller.pending device ++ [byte]) := by
      funext other
      rw [Controller.pending_sends]
      by_cases hother : other = device
      · rw [if_pos hother, hother, Function.update_self]
      · rw [if_neg hother, Function.update_of_ne hother, List.append_nil]
    unfold service
    dsimp only
    rw [hpending]
    exact .sent device byte
  | timerFired =>
    cases hstep
    refine ⟨?_, .timerFired⟩
    unfold Sound
    rw [rested_raise]
    exact h.fires
  | passed device =>
    obtain ⟨controller, hpass, rfl⟩ := h.setUp.passed hstep
    constructor
    · have hrested := rested_raise { kernel with controller } (deviceLine device)
      unfold Sound
      rw [hrested]
      exact h.passes hpass
    · have hpending : controller.pending = kernel.controller.pending :=
        funext fun other => Controller.pending_passes hpass other
      unfold service
      dsimp only
      rw [hpending]
      exact .passed device
  | interrupted vector readings =>
    rcases (h.interrupted hstep).2 with
      ⟨pics, rfl, -, hend, hnext⟩ | ⟨device, pics, rfl, hfull, hend, hnext⟩
    · cases hnext
      refine ⟨?_, .ticked readings⟩
      have hrested := h.ticked
      rw [← hend] at hrested
      exact hrested
    · rcases hdesktop : kernel.desktop.step (deviceEvent readings kernel.controller.data device) with
        _ | desktop
      · rw [hdesktop] at hnext
        cases hnext
      · rw [hdesktop] at hnext
        cases hnext
        constructor
        · have hrested := h.reads hfull
          rw [← hend] at hrested
          exact hrested
        · have hpending : kernel.controller.read.2.pending = Function.update
              kernel.controller.pending device (kernel.controller.read.2.pending device) := by
            funext other
            by_cases hother : other = device
            · rw [hother, Function.update_self]
            · rw [Function.update_of_ne hother, Controller.pending_read hfull, if_neg hother,
                List.nil_append]
          have hfirst : kernel.controller.pending device =
              kernel.controller.data :: kernel.controller.read.2.pending device := by
            rw [Controller.pending_read hfull, if_pos rfl]
            rfl
          unfold service
          dsimp only
          rw [hpending]
          exact .handled hfirst hdesktop
  | returned =>
    obtain ⟨line, -, hrested, heq⟩ := of_returned hstep
    unfold Sound
    rw [hrested, heq]
    exact ⟨h, .returned⟩
  | looped =>
    rcases loop_cases (of_looped hstep).2 with ⟨point, rfl⟩ | ⟨uptimeSeconds, desktop, hdesktop, rfl⟩
    · exact ⟨h, .looped⟩
    · exact ⟨h, .header hdesktop⟩

end Running

end KbmOs
