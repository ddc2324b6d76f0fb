import KbmOs.Desktop.Cursor
import KbmOs.Interrupts.Service
import KbmOs.Mouse.Packets
import KbmOs.Mouse.Dialogue
/-!
# Nothing is lost

Over whole runs: whatever the devices send and however the chips, the
handlers and the main loop interleave, every byte is handled once, by its
own device's handler, in the order it was sent, and what the desktop has
become is what the handled bytes and the header's updates make of it.
-/

namespace KbmOs

open Pic8259 I8042 LabelledRuns

/-- The byte an event of the UI handles. -/
def UiEvent.byteOf : Device → UiEvent → Option ℕ
  | .keyboard, .keyboardIrq _ scanCode => some scanCode
  | .mouse, .mouseIrq mouseByte => some mouseByte.toNat
  | _, _ => none

/-- The bytes of a device that have been handled. -/
def handledBytes (device : Device) (served : List UiEvent) : List ℕ :=
  served.filterMap (UiEvent.byteOf device)

/-- The byte a device sends. -/
def KernelEvent.byteOf (device : Device) : KernelEvent → Option ℕ
  | .sent other byte => if other = device then some byte.toNat else none
  | _ => none

def sentBytes (device : Device) (events : List KernelEvent) : List ℕ :=
  events.filterMap (KernelEvent.byteOf device)

/-- The event is an interrupt of the timer. -/
def KernelEvent.ticks : KernelEvent → Bool
  | .interrupted vector _ => vector = 32
  | _ => false

/-- Or of a device. -/
def KernelEvent.ofDevice : KernelEvent → Bool
  | .interrupted vector _ => vector ≠ 32
  | _ => false

/-- The device whose byte an event of the UI handles. -/
def UiEvent.device : UiEvent → Option Device
  | .keyboardIrq _ _ => some .keyboard
  | .mouseIrq _ => some .mouse
  | .updateHeader _ => none

/-- The device whose handler an interrupt starts. -/
def KernelEvent.device : KernelEvent → Option Device
  | .interrupted vector _ =>
    if vector = 33 then some .keyboard else if vector = 44 then some .mouse else none
  | _ => none

variable {service service' : Service} {event : KernelEvent} {events : List KernelEvent}
variable {device : Device}

theorem byteOf_deviceEvent (readings : Readings) (byte : BitVec 8) (device other : Device) :
    UiEvent.byteOf other (deviceEvent readings byte device) =
      if device = other then some byte.toNat else none := by
  cases device <;> cases other <;> rfl

/-- What a service has handled, and what it has left to do. -/
structure Service.Served (service : Service) (events : List KernelEvent) (service' : Service)
    (served : List UiEvent) : Prop where
  desktop : Run Desktop.Steps service.desktop served service'.desktop
  bytes : ∀ device, (service.pending device).map BitVec.toNat ++ sentBytes device events =
    handledBytes device served ++ (service'.pending device).map BitVec.toNat
  /-- What the interrupts' handlers handle is handled in the interrupts' order. -/
  order : served.filterMap UiEvent.device = events.filterMap KernelEvent.device
  ticks : service'.ticks % 2 ^ 64 = (service.ticks + events.countP KernelEvent.ticks) % 2 ^ 64

theorem Service.Served.nil (service : Service) : service.Served [] service [] where
  desktop := .nil
  bytes _ := List.append_nil _
  order := rfl
  ticks := rfl

/-- **What was left to do is done first.** -/
theorem Service.Served.append {middle : Service} {later : List KernelEvent}
    {served more : List UiEvent} (h : service.Served events middle served)
    (h' : middle.Served later service' more) :
    service.Served (events ++ later) service' (served ++ more) where
  desktop := run_append.2 ⟨_, h.desktop, h'.desktop⟩
  bytes device := by
    unfold sentBytes handledBytes
    rw [List.filterMap_append, List.filterMap_append, ← List.append_assoc]
    refine (congrArg (· ++ _) (h.bytes device)).trans ?_
    rw [List.append_assoc, List.append_assoc]
    exact congrArg (handledBytes device served ++ ·) (h'.bytes device)
  order := by rw [List.filterMap_append, List.filterMap_append, h.order, h'.order]
  ticks := by
    rw [h'.ticks, List.countP_append, ← Nat.add_assoc, Nat.add_mod, h.ticks, ← Nat.add_mod]

/-- A step that handles nothing. -/
theorem Service.Served.idle (service : Service)
    (hbytes : ∀ device, event.byteOf device = none) (hdevice : event.device = none)
    (hticks : event.ticks = false) : service.Served [event] service [] where
  desktop := .nil
  bytes device := by
    unfold sentBytes
    rw [List.filterMap_cons_none (hbytes device)]
    exact List.append_nil _
  order := by
    rw [List.filterMap_cons_none hdevice]
    rfl
  ticks := by
    rw [List.countP_cons_of_neg (by rw [hticks]; decide)]
    rfl

/-- An update of the header. -/
theorem Service.Served.header {uptimeSeconds : ℕ} {desktop : Desktop}
    (hstep : service.desktop.step (.updateHeader uptimeSeconds) = some desktop) :
    service.Served [.looped] { service with desktop } [.updateHeader uptimeSeconds] where
  desktop := run_cons.2 ⟨_, hstep, .nil⟩
  bytes device := by cases device <;> exact List.append_nil _
  order := rfl
  ticks := rfl

/-- **What one event handles**: the first byte of a queue where it is an
interrupt of a device, perhaps the header where it is a step of the main
loop, and nothing otherwise. -/
theorem Service.Step.serves (h : service.Step event service') : ∃ more,
    service.Served [event] service' more ∧
    (event.ofDevice = false ∧ more = [] ∨
      event = .looped ∧ (∃ uptimeSeconds, more = [.updateHeader uptimeSeconds]) ∨
      ∃ device byte rest readings, event = .interrupted (32 + (deviceLine device).val) readings ∧
        service.pending device = byte :: rest ∧ more = [deviceEvent readings byte device]) := by
  cases h with
  | sent device byte =>
    refine ⟨[], ⟨.nil, fun other => ?_, rfl, rfl⟩, Or.inl ⟨rfl, rfl⟩⟩
    dsimp only
    by_cases hother : device = other
    · rw [← hother, Function.update_self]
      simp [sentBytes, handledBytes, KernelEvent.byteOf]
    · rw [Function.update_of_ne (Ne.symm hother)]
      simp [sentBytes, handledBytes, KernelEvent.byteOf, hother]
  | timerFired => exact ⟨[], .idle service (fun _ => rfl) rfl rfl, Or.inl ⟨rfl, rfl⟩⟩
  | passed device => exact ⟨[], .idle service (fun _ => rfl) rfl rfl, Or.inl ⟨rfl, rfl⟩⟩
  | returned => exact ⟨[], .idle service (fun _ => rfl) rfl rfl, Or.inl ⟨rfl, rfl⟩⟩
  | ticked readings =>
    exact ⟨[], ⟨.nil, fun _ => List.append_nil _, rfl, Nat.mod_mod _ _⟩, Or.inl ⟨rfl, rfl⟩⟩
  | @handled device byte rest readings desktop hfirst hdesktop =>
    refine ⟨[deviceEvent readings byte device], ⟨run_cons.2 ⟨_, hdesktop, .nil⟩, fun other => ?_, ?_, ?_⟩,
      Or.inr (Or.inr ⟨device, byte, rest, readings, rfl, hfirst, rfl⟩)⟩
    · dsimp only
      by_cases hother : device = other
      · rw [← hother, hfirst, Function.update_self]
        simp [sentBytes, handledBytes, KernelEvent.byteOf, byteOf_deviceEvent]
      · rw [Function.update_of_ne (Ne.symm hother)]
        simp [sentBytes, handledBytes, KernelEvent.byteOf, byteOf_deviceEvent, hother]
    · cases device <;> rfl
    · cases device <;> rfl
  | looped => exact ⟨[], .idle service (fun _ => rfl) rfl rfl, Or.inl ⟨rfl, rfl⟩⟩
  | @header uptimeSeconds desktop hdesktop =>
    exact ⟨_, .header hdesktop, Or.inr (Or.inl ⟨rfl, uptimeSeconds, rfl⟩)⟩

theorem Service.Step.served (h : service.Step event service') :
    ∃ more, service.Served [event] service' more := h.serves.imp fun _ hserved => hserved.1

/-- **With all lines open that have a handler the chips are wired.** -/
theorem OpenFor.wired {pics : Pair} (h : OpenFor servedLines pics) {controller : Controller}
    {byte : BitVec 8} (hcommand : controller.commandByte = (byte ||| 0x03) &&& ~~~0x30) :
    Wired pics controller where
  idle := h.idle
  vector := h.vector
  enabled _ hline := h.enabled hline
  interrupts := (MouseDialogue.commandByte_sets hcommand).1
  admits := (MouseDialogue.commandByte_sets hcommand).2

namespace Running

variable {kernel kernel' : Running}

/-- **A run of the kernel is one of the service.** -/
theorem Sound.run (h : kernel.Sound) (hrun : Run Steps kernel events kernel') :
    kernel'.Sound ∧ ∃ served, kernel.service.Served events kernel'.service served := by
  induction hrun with
  | nil => exact ⟨h, [], .nil kernel.service⟩
  | snoc _ hstep ih =>
    obtain ⟨hsound, served, hserved⟩ := ih
    obtain ⟨hsound', hservice⟩ := hsound.step hstep
    obtain ⟨more, hmore⟩ := hservice.served
    exact ⟨hsound', served ++ more, hserved.append hmore⟩

/-- **What a step of the kernel handles**: of a device the byte in the output
buffer, and in the main loop the uptime it displays from then on. -/
theorem Sound.handles (h : kernel.Sound) {event : KernelEvent} (hstep : kernel.Steps event kernel') :
    ∃ more, kernel.service.Served [event] kernel'.service more ∧
      (event.ofDevice = false ∧ more = [] ∧
          kernel'.displayedUptimeSeconds = kernel.displayedUptimeSeconds ∨
        event = .looped ∧ more = [.updateHeader kernel'.displayedUptimeSeconds] ∨
        ∃ device readings, event = .interrupted (32 + (deviceLine device).val) readings ∧
          more = [deviceEvent readings kernel.controller.data device] ∧
          kernel'.displayedUptimeSeconds = kernel.displayedUptimeSeconds) := by
  by_cases hlooped : event = .looped
  · subst hlooped
    rcases loop_cases (of_looped hstep).2 with ⟨point, rfl⟩ | ⟨uptimeSeconds, desktop, hdesktop, rfl⟩
    · exact ⟨[], .idle _ (fun _ => rfl) rfl rfl, Or.inl ⟨rfl, rfl, rfl⟩⟩
    · exact ⟨_, .header hdesktop, Or.inr (Or.inl ⟨rfl, rfl⟩)⟩
  -- only the main loop sets the uptime that is displayed
  have hdisplayed := (h.setUp.loop_kept hstep hlooped).1
  obtain ⟨more, hserved, ⟨hdevice, hmore⟩ | ⟨hloop, -⟩ |
    ⟨device, byte, rest, readings, rfl, hfirst, rfl⟩⟩ := (h.step hstep).2.serves
  · exact ⟨more, hserved, Or.inl ⟨hdevice, hmore, hdisplayed⟩⟩
  · exact absurd hloop hlooped
  · have hfull : kernel.controller.full = some device := by
      rcases (h.interrupted hstep).2 with ⟨-, hvector, -⟩ | ⟨other, -, hvector, hfull, -⟩
      · have hzero := deviceLine_ne_zero device
        exact absurd (Fin.ext (by omega)) hzero
      · have hsame : device = other := deviceLine_inj (Fin.ext (by omega))
        rw [hsame]
        exact hfull
    have hbyte : kernel.controller.data = byte := by
      have hpending : kernel.service.pending device =
          (if kernel.controller.full = some device then [kernel.controller.data] else []) ++
            kernel.controller.queue device := rfl
      rw [hpending, if_pos hfull] at hfirst
      exact (List.cons.inj hfirst).1
    rw [hbyte]
    exact ⟨_, hserved, Or.inr (Or.inr ⟨device, readings, rfl, rfl, hdisplayed⟩)⟩

/-- No vector without a handler is ever read. -/
theorem Sound.not_faults (h : kernel.Sound) (event : KernelEvent) (vector : ℕ) :
    kernel.step event ≠ some (.faults vector) := by
  intro hfaults
  cases event with
  | sent device byte => cases hfaults
  | timerFired => cases hfaults
  | passed device =>
    obtain ⟨controller, -, heq⟩ := Option.map_eq_some_iff.1 hfaults
    cases heq
  | interrupted v readings =>
    rcases (h.interrupted hfaults).2 with ⟨pics, -, -, -, hnext⟩ | ⟨device, pics, -, -, -, hnext⟩
    · cases hnext
    · rcases hdesktop : kernel.desktop.step (deviceEvent readings kernel.controller.data device) with
        _ | desktop <;> rw [hdesktop] at hnext <;> cases hnext
  | returned =>
    obtain ⟨line, -, heq⟩ := Option.map_eq_some_iff.1 hfaults
    cases heq
  | looped =>
    unfold Running.step at hfaults
    dsimp only at hfaults
    split at hfaults
    · obtain ⟨after, -, heq⟩ := Option.map_eq_some_iff.1 hfaults
      cases heq
    · cases hfaults

/-- **No byte is lost, repeated, reordered or given to the wrong handler.**
In every run from a sound state, one where the chips are wired for the
handlers and each device's request stands exactly while its byte waits,
however the devices, the chips, the handlers and the main loop take their
turns: the desktop is what the handled bytes and some updates of the header
have made of it; of each device, what has been handled and what still waits
are together what it has sent, in order; the ticks count the interrupts of
the timer; and no interrupt is one without a handler. -/
theorem nothing_lost (kernel kernel' : Running) (events : List KernelEvent) (h : kernel.Sound)
    (hrun : Run Steps kernel events kernel') :
    (∃ served, Run Desktop.Steps kernel.desktop served kernel'.desktop ∧
      ∀ device, (kernel.controller.pending device).map BitVec.toNat ++ sentBytes device events =
        handledBytes device served ++ (kernel'.controller.pending device).map BitVec.toNat) ∧
    kernel'.ticks % 2 ^ 64 = (kernel.ticks + events.countP KernelEvent.ticks) % 2 ^ 64 ∧
    ∀ event vector, kernel'.step event ≠ some (.faults vector) := by
  obtain ⟨hsound, served, hdesktop, hbytes, -, hticks⟩ := h.run hrun
  exact ⟨⟨served, hdesktop, hbytes⟩, hticks, hsound.not_faults⟩

/-! ## The kernel at `sti` -/

/-- The kernel before the main loop's first step. -/
def atSti (pics : Pair) (controller : Controller) (ticks : ℕ) (desktop : Desktop) : Running where
  pics := pics
  controller := controller
  ticks := ticks
  desktop := desktop
  displayedUptimeSeconds := 0
  point := .test
  serving := none

/-- **The kernel is wired at `sti`.** -/
theorem wired_openIrqs (p : Pair) {controller : Controller} {byte : BitVec 8}
    (h : controller.commandByte = (byte ||| 0x03) &&& ~~~0x30) :
    Wired ((openIrqs servedLines).run p).2 controller :=
  (openFor_openIrqs servedLines p).wired h

theorem sound_atSti {pics : Pair} {controller : Controller} (h : Attached pics controller)
    (ticks : ℕ) (desktop : Desktop) : (atSti pics controller ticks desktop).Sound := h

/-- **And attached**, where nothing is requested and no byte waits. -/
theorem attached_openIrqs (p : Pair) {controller : Controller} {byte : BitVec 8}
    (h : controller.commandByte = (byte ||| 0x03) &&& ~~~0x30) (hfull : controller.full = none) :
    Attached ((openIrqs servedLines).run p).2 controller := by
  refine ⟨wired_openIrqs p h, fun device => ?_⟩
  rw [openIrqs_requested, hfull]
  exact ⟨nofun, nofun⟩

/-- A controller with nothing in it. -/
def silentController : Controller where
  commandByte := 0x47
  input := none
  expects := .keyboardByte
  queue := fun _ => []
  data := 0xFA
  full := none
  mouseCommands := [0xF6, 0xF4]

/-- A kernel that has just switched interrupts on. -/
def sampleKernel : Running :=
  atSti ((openIrqs servedLines).run ⟨initialisedChip 0 0, initialisedChip 0 0⟩).2 silentController 100
    (Desktop.boot Shell.atBoot sampleFramebuffer fun _ => 0)

theorem sampleKernel_sound : sampleKernel.Sound :=
  sound_atSti (attached_openIrqs _ (by decide : (0x47 : BitVec 8) = (0x47 ||| 0x03) &&& ~~~0x30) rfl) _ _

/-- Shift is pressed while the mouse sends a byte. -/
def sampleEvents : List KernelEvent := [.sent .mouse 0x08, .sent .keyboard 0x2a, .passed .keyboard,
  .interrupted 33 idleReadings, .passed .mouse, .returned]

theorem sampleEvents_run : ∃ kernel', Run Steps sampleKernel sampleEvents kernel' :=
  ⟨_, run_cons.2 ⟨_, rfl, run_cons.2 ⟨_, rfl, run_cons.2 ⟨_, rfl, run_cons.2 ⟨_, rfl,
    run_cons.2 ⟨_, rfl, run_cons.2 ⟨_, rfl, .nil⟩⟩⟩⟩⟩⟩⟩

theorem nothing_lost_sampleEvents : ∃ kernel' served, Run Steps sampleKernel sampleEvents kernel' ∧
    ∀ device, sentBytes device sampleEvents =
      handledBytes device served ++ (kernel'.controller.pending device).map BitVec.toNat := by
  obtain ⟨kernel', hrun⟩ := sampleEvents_run
  obtain ⟨⟨served, -, hbytes⟩, -, -⟩ :=
    nothing_lost sampleKernel kernel' sampleEvents sampleKernel_sound hrun
  exact ⟨kernel', served, hrun, hbytes⟩

end Running

end KbmOs
