import KbmOs.Interrupts.Apart
import KbmOs.SerialLog
/-!
# The log of the running kernel

Once interrupts are on only `keyboard_irq` and `mouse_irq` write to the
serial port: a line for each scan code that is not a shift key's, and a
line for each packet of the mouse. Whoever reads the line gets back what
the devices have sent.
-/

namespace KbmOs

open I8042 LabelledRuns Polling Reading SerialPort Uart16550

/-- What `keyboard_irq` writes to the log. -/
def keyboardIrqLog (scanCode : ℕ) : List LogItem :=
  if scanCode = 0x2a ∨ scanCode = 0x36 then []
  else if scanCode = 0xaa ∨ scanCode = 0xb6 then []
  else [.words "KBM_KEYBOARD_SCANCODE: ", .hex scanCode, .words "\n"]

theorem first_lt : 0 < 3 := by decide

theorem second_lt : 1 < 3 := by decide

theorem third_lt : 2 < 3 := by decide

/-- What `mouse_irq` writes, once it has the third byte. -/
def mouseIrqLog (mouse : Mouse) (mouseByte : UInt8) : List LogItem :=
  if mouse.mousePacketIndex = 0 ∧ mouseByte = 0xFA then []
  else if mouse.mousePacketIndex = 0 ∧ mouseByte &&& 0x08 = 0 then []
  else
    let packet := mouse.mousePacket.set mouse.mousePacketIndex mouseByte mouse.index_lt
    if mouse.mousePacketIndex + 1 < 3 then []
    else [.words "KBM_MOUSE_PACKET: ", .hex (packet.get ⟨0, first_lt⟩).toNat,
      .words " ", .hex (packet.get ⟨1, second_lt⟩).toNat,
      .words " ", .hex (packet.get ⟨2, third_lt⟩).toNat, .words "\n"]

/-- What the handlers write. -/
def Desktop.writes (desktop : Desktop) : UiEvent → List LogItem
  | .keyboardIrq _ scanCode => keyboardIrqLog scanCode
  | .mouseIrq mouseByte => mouseIrqLog desktop.mouse mouseByte
  | .updateHeader _ => []

/-- And what a step of the kernel writes. -/
def Running.writes (kernel : Running) : KernelEvent → List LogItem
  | .interrupted vector _ =>
    match isrAt vector with
    | some .isrKeyboard => keyboardIrqLog kernel.controller.read.1.toNat
    | some .isrMouse => mouseIrqLog kernel.desktop.mouse ⟨kernel.controller.read.1⟩
    | _ => []
  | _ => []

/-! ## Records -/

/-- What a line of the log reports. -/
inductive LogRecord
  | scanCode (scanCode : ℕ)
  | packet (packet : Packet)

/-- The bytes of a packet that have come. -/
inductive PacketSoFar
  | nothing
  | one (first : UInt8) (sync : first &&& 0x08 ≠ 0)
  | two (first second : UInt8) (sync : first &&& 0x08 ≠ 0)

/-- What comes is kept until there are three bytes. Between two packets a
byte counts only if it has the sync bit set and is no acknowledgement. -/
def PacketSoFar.after : PacketSoFar → UiEvent → PacketSoFar
  | .nothing, .mouseIrq byte => if h : byte ≠ 0xFA ∧ byte &&& 0x08 ≠ 0 then .one byte h.2 else .nothing
  | .one first sync, .mouseIrq byte => .two first byte sync
  | .two _ _ _, .mouseIrq _ => .nothing
  | held, _ => held

/-- Every scan code but those of the shift keys is reported, and every
packet once it is complete. -/
def PacketSoFar.reports : PacketSoFar → UiEvent → List LogRecord
  | _, .keyboardIrq _ scanCode =>
    if scanCode ∈ [0x2a, 0x36, 0xaa, 0xb6] then [] else [.scanCode scanCode]
  | .two first second sync, .mouseIrq byte => [.packet ⟨first, second, byte, sync⟩]
  | _, _ => []

/-- What is reported of the events. -/
def transcript : PacketSoFar → List UiEvent → List LogRecord
  | _, [] => []
  | held, event :: events => held.reports event ++ transcript (held.after event) events

theorem transcript_append (held : PacketSoFar) (events later : List UiEvent) :
    transcript held (events ++ later) =
      transcript held events ++ transcript (events.foldl PacketSoFar.after held) later := by
  induction events generalizing held with
  | nil => rfl
  | cons event events ih =>
    refine (congrArg (held.reports event ++ ·) (ih (held.after event))).trans ?_
    exact (List.append_assoc _ _ _).symm

/-- The line of a record. -/
def LogRecord.items : LogRecord → List LogItem
  | .scanCode code => [.words "KBM_KEYBOARD_SCANCODE: ", .hex code, .words "\n"]
  | .packet p => [.words "KBM_MOUSE_PACKET: ", .hex p.first.toNat, .words " ", .hex p.second.toNat,
      .words " ", .hex p.third.toNat, .words "\n"]

def readScanCode : Reader ℕ LogRecord := do
  readWords "KBM_KEYBOARD_SCANCODE: "
  let scanCode ← readHex
  readWords "\n"
  pure (.scanCode scanCode)

def readPacket : Reader ℕ LogRecord := do
  readWords "KBM_MOUSE_PACKET: "
  let first ← readHex
  readWords " "
  let second ← readHex
  readWords " "
  let third ← readHex
  readWords "\n"
  if sync : UInt8.ofNat first &&& 0x08 ≠ 0 then
    pure (.packet ⟨UInt8.ofNat first, UInt8.ofNat second, UInt8.ofNat third, sync⟩)
  else failure

/-- A line is read. -/
def readRecord : Reader ℕ LogRecord := either readScanCode readPacket

variable {record : LogRecord} {scanCode : ℕ} {p : Packet}

theorem takes_scanCode (h : scanCode < 2 ^ 64) :
    Takes readScanCode (logCharacters (LogRecord.scanCode scanCode).items) (.scanCode scanCode) := by
  unfold readScanCode LogRecord.items
  exact takes_item (takes_words _) (takes_item (takes_hex h) (takes_item (takes_words _)
    (Takes.pure _)))

theorem takes_packet (p : Packet) :
    Takes readPacket (logCharacters (LogRecord.packet p).items) (.packet p) := by
  have hbyte : ∀ b : UInt8, b.toNat < 2 ^ 64 := fun b => by
    have := b.toNat_lt
    omega
  unfold readPacket LogRecord.items
  refine takes_item (takes_words _) (takes_item (takes_hex (hbyte p.first)) (takes_item (takes_words _)
    (takes_item (takes_hex (hbyte p.second)) (takes_item (takes_words _)
      (takes_item (takes_hex (hbyte p.third)) (takes_item (takes_words _) ?_))))))
  simp only [UInt8.ofNat_toNat]
  rw [dif_pos p.sync]
  exact Takes.pure _

theorem refuses_packet (p : Packet) :
    Refuses readScanCode (logCharacters (LogRecord.packet p).items) := by
  have hwords : Refuses (readWords "KBM_KEYBOARD_SCANCODE: ")
      (LogItem.words "KBM_MOUSE_PACKET: ").characters :=
    refuses_expect 4 (by decide : _ = some 75) (by decide : _ = some 77) (by decide)
  unfold readScanCode LogRecord.items
  exact (refuses_item hwords).bind

/-- **Every line is read back.** -/
theorem takes_record (h : ∀ scanCode, record = .scanCode scanCode → scanCode < 2 ^ 64) :
    Takes readRecord (logCharacters record.items) record := by
  cases record with
  | scanCode scanCode => exact (takes_scanCode (h scanCode rfl)).left
  | packet p => exact (takes_packet p).right (refuses_packet p)

/-- The scan code of a record. -/
def LogRecord.code : LogRecord → Option ℕ
  | .scanCode code => some code
  | .packet _ => none

/-- The scan codes that are reported. -/
theorem codes_transcript (held : PacketSoFar) (events : List UiEvent) :
    (transcript held events).filterMap LogRecord.code =
      (handledBytes .keyboard events).filter fun code => code ∉ [0x2a, 0x36, 0xaa, 0xb6] := by
  induction events generalizing held with
  | nil => rfl
  | cons event events ih =>
    have hfirst : (held.reports event).filterMap LogRecord.code =
        (handledBytes .keyboard [event]).filter fun code => code ∉ [0x2a, 0x36, 0xaa, 0xb6] := by
      cases event with
      | keyboardIrq readings scanCode =>
        have hreports : held.reports (.keyboardIrq readings scanCode) =
            if scanCode ∈ [0x2a, 0x36, 0xaa, 0xb6] then [] else [.scanCode scanCode] := by
          cases held <;> rfl
        have hhandled : handledBytes .keyboard [.keyboardIrq readings scanCode] = [scanCode] := rfl
        rw [hreports, hhandled]
        by_cases hshift : scanCode ∈ [0x2a, 0x36, 0xaa, 0xb6]
        · have hdropped : ¬ decide (scanCode ∉ [0x2a, 0x36, 0xaa, 0xb6]) = true := fun hother =>
            of_decide_eq_true hother hshift
          rw [if_pos hshift, List.filter_cons, if_neg hdropped]
          rfl
        · rw [if_neg hshift, List.filter_cons_of_pos (by simpa using hshift)]
          rfl
      | mouseIrq mouseByte => cases held <;> rfl
      | updateHeader uptimeSeconds => cases held <;> rfl
    have hhandled : handledBytes .keyboard (event :: events) =
        handledBytes .keyboard [event] ++ handledBytes .keyboard events := by
      unfold handledBytes
      exact List.filterMap_append (l := [event])
    unfold transcript
    rw [List.filterMap_append, hfirst, ih, hhandled, List.filter_append]

/-- **A log is read back line by line.** -/
theorem readText_transcript {held : PacketSoFar} {events : List UiEvent}
    (h : ∀ code ∈ handledBytes .keyboard events, code < 2 ^ 64) :
    readText readRecord (logCharacters ((transcript held events).flatMap LogRecord.items)) =
      some (transcript held events) := by
  refine readText_items (fun record hrecord => takes_record fun code hcode => h code ?_)
    fun record => ?_
  · have hmem : code ∈ (transcript held events).filterMap LogRecord.code :=
      List.mem_filterMap.2 ⟨record, hrecord, by rw [hcode]; rfl⟩
    rw [codes_transcript] at hmem
    exact (List.mem_filter.1 hmem).1
  · cases record with
    | scanCode code => exact List.append_ne_nil_of_left_ne_nil (by decide) _
    | packet p => exact List.append_ne_nil_of_left_ne_nil (by decide) _

/-! ## Handlers -/

/-- The driver has these bytes of a packet. -/
def Mouse.Holds (mouse : Mouse) : PacketSoFar → Prop
  | .nothing => mouse.mousePacketIndex = 0
  | .one first _ => mouse.mousePacketIndex = 1 ∧ mouse.mousePacket.get ⟨0, first_lt⟩ = first
  | .two first second _ =>
    mouse.mousePacketIndex = 2 ∧ mouse.mousePacket.get ⟨0, first_lt⟩ = first ∧
      mouse.mousePacket.get ⟨1, second_lt⟩ = second

variable {desktop desktop' : Desktop} {held : PacketSoFar} {event : UiEvent} {mouse : Mouse}

/-- **What a byte of the mouse writes.** -/
theorem Mouse.Holds.mouseIrq (h : mouse.Holds held) (byte : UInt8) (screen : Pixels) :
    (KbmOs.mouseIrq mouse byte screen).1.Holds (held.after (.mouseIrq byte)) ∧
      mouseIrqLog mouse byte = (held.reports (.mouseIrq byte)).flatMap LogRecord.items := by
  cases held with
  | nothing =>
    have hindex : mouse.mousePacketIndex = 0 := h
    unfold PacketSoFar.after PacketSoFar.reports mouseIrqLog
    dsimp only
    by_cases hstart : byte ≠ 0xFA ∧ byte &&& 0x08 ≠ 0
    · rw [dif_pos hstart, mouseIrq_start hindex hstart.1 hstart.2, if_neg fun hack => hstart.1 hack.2,
        if_neg fun hsync => hstart.2 hsync.2, if_pos (by omega)]
      exact ⟨⟨rfl, Vector.getElem_set_self _⟩, rfl⟩
    · have hdrop : byte = 0xFA ∨ byte &&& 0x08 = 0 := by
        by_contra hnot
        rw [not_or] at hnot
        exact hstart hnot
      rw [dif_neg hstart, mouseIrq_drop hindex hdrop]
      refine ⟨h, ?_⟩
      rcases hdrop with hack | hsync
      · exact if_pos ⟨hindex, hack⟩
      · split
        · rfl
        · exact if_pos ⟨hindex, hsync⟩
  | one first sync =>
    obtain ⟨hindex, hfirst⟩ := h
    unfold mouseIrqLog
    rw [mouseIrq_second hindex, if_neg fun hack => by omega, if_neg fun hsync => by omega,
      if_pos (by omega)]
    have hkept : (mouse.mousePacket.set 1 byte (by decide))[0] = mouse.mousePacket[0] :=
      Vector.getElem_set_ne _ _ (by decide)
    exact ⟨⟨rfl, hkept.trans hfirst, Vector.getElem_set_self _⟩, rfl⟩
  | two first second sync =>
    obtain ⟨hindex, hfirst, hsecond⟩ := h
    obtain ⟨mouse', hirq, hstart, -⟩ := mouseIrq_third hindex byte screen
    rw [hirq]
    refine ⟨hstart, ?_⟩
    obtain ⟨packet, index, hlt, x, y, oldX, oldY, width, height, framebuffer, pixels, visible⟩ := mouse
    obtain rfl : index = 2 := hindex
    obtain rfl : packet[0] = first := hfirst
    obtain rfl : packet[1] = second := hsecond
    have hkept : (packet.set 2 byte (by decide)).get ⟨0, by decide⟩ = packet[0] ∧
        (packet.set 2 byte (by decide)).get ⟨1, by decide⟩ = packet[1] ∧
        (packet.set 2 byte (by decide)).get ⟨2, by decide⟩ = byte :=
      ⟨Vector.getElem_set_ne _ _ (by decide), Vector.getElem_set_ne _ _ (by decide),
        Vector.getElem_set_self _⟩
    unfold mouseIrqLog
    dsimp only
    rw [if_neg fun hack => absurd hack.1 (by decide), if_neg fun hsync => absurd hsync.1 (by decide),
      if_neg (by decide)]
    rw [hkept.1, hkept.2.1, hkept.2.2]
    rfl

theorem Mouse.Holds.of_motion {mouse' : Mouse} (h : mouse.Holds held)
    (hmotion : mouse'.motion = mouse.motion) : mouse'.Holds held := by
  unfold Mouse.motion at hmotion
  simp only [Prod.mk.injEq] at hmotion
  obtain ⟨⟨hpacket, hindex⟩, -⟩ := hmotion
  cases held with
  | nothing => exact hindex.trans h
  | one first sync =>
    obtain ⟨hheld, hfirst⟩ := h
    refine ⟨hindex.trans hheld, ?_⟩
    rw [hpacket]
    exact hfirst
  | two first second sync =>
    obtain ⟨hheld, hfirst, hsecond⟩ := h
    refine ⟨hindex.trans hheld, ?_⟩
    rw [hpacket]
    exact ⟨hfirst, hsecond⟩

/-- **Keys write, shift keys do not.** -/
theorem keyboardIrqLog_eq (scanCode : ℕ) : keyboardIrqLog scanCode =
    if scanCode ∈ [0x2a, 0x36, 0xaa, 0xb6] then [] else (LogRecord.scanCode scanCode).items := by
  unfold keyboardIrqLog
  simp only [List.mem_cons, List.not_mem_nil, or_false]
  by_cases hpress : scanCode = 0x2a ∨ scanCode = 0x36
  · rw [if_pos hpress, if_pos (by omega)]
  by_cases hrelease : scanCode = 0xaa ∨ scanCode = 0xb6
  · rw [if_neg hpress, if_pos hrelease, if_pos (by omega)]
  · rw [if_neg hpress, if_neg hrelease, if_neg (by omega)]
    rfl

/-- **What an event of the UI writes** is the lines of what is reported. -/
theorem Mouse.Holds.step (h : desktop.mouse.Holds held) (hstep : desktop.Steps event desktop') :
    desktop'.mouse.Holds (held.after event) ∧
      desktop.writes event = (held.reports event).flatMap LogRecord.items := by
  cases event with
  | keyboardIrq readings scanCode =>
    have hmouse : desktop'.mouse = desktop.mouse := Desktop.step_mouse hstep
    have hafter : held.after (.keyboardIrq readings scanCode) = held := by cases held <;> rfl
    rw [hmouse, hafter]
    refine ⟨h, ?_⟩
    have hreports : held.reports (.keyboardIrq readings scanCode) =
        if scanCode ∈ [0x2a, 0x36, 0xaa, 0xb6] then [] else [.scanCode scanCode] := by
      cases held <;> rfl
    rw [hreports]
    change keyboardIrqLog scanCode = _
    rw [keyboardIrqLog_eq]
    split <;> rfl
  | mouseIrq mouseByte =>
    cases hstep
    exact h.mouseIrq mouseByte desktop.console.pixels
  | updateHeader uptimeSeconds =>
    have hafter : held.after (.updateHeader uptimeSeconds) = held := by cases held <;> rfl
    have hreports : held.reports (.updateHeader uptimeSeconds) = [] := by cases held <;> rfl
    rw [hafter, hreports]
    cases hstep
    exact ⟨h.of_motion ((motion_show _ _).trans (motion_hide _ _)), rfl⟩

/-! ## Runs -/

variable {events : List UiEvent} {log log' : List LogItem}

/-- **What a run of the UI writes** is the lines of its transcript. -/
theorem Mouse.Holds.run (h : desktop.mouse.Holds held) {last : Desktop × List LogItem}
    (hrun : Run (Writing Desktop.Steps Desktop.writes) (desktop, []) events last) :
    last.1.mouse.Holds (events.foldl PacketSoFar.after held) ∧
      last.2 = (transcript held events).flatMap LogRecord.items := by
  induction hrun with
  | nil => exact ⟨h, rfl⟩
  | @snoc es e c c' _ hstep ih =>
    obtain ⟨hholds, hwritten⟩ := ih
    obtain ⟨hholds', hwrites⟩ := hholds.step hstep.1
    rw [List.foldl_append]
    refine ⟨hholds', ?_⟩
    rw [hstep.2, hwritten, hwrites, transcript_append, List.flatMap_append]
    unfold transcript transcript
    rw [List.append_nil]

/-- A step of the UI, whatever was written before. -/
theorem run_writing_single (hstep : desktop.Steps event desktop') (log : List LogItem) :
    Run (Writing Desktop.Steps Desktop.writes) (desktop, log) [event]
      (desktop', log ++ desktop.writes event) := run_cons.2 ⟨_, ⟨hstep, rfl⟩, .nil⟩

namespace Running

variable {kernel kernel' : Running} {event : KernelEvent} {events : List KernelEvent}

/-- **A step of the kernel writes what it handles writes.** -/
theorem Sound.writes (h : kernel.Sound) (hstep : kernel.Steps event kernel') (log : List LogItem) :
    ∃ more, kernel.service.Served [event] kernel'.service more ∧
      Run (Writing Desktop.Steps Desktop.writes) (kernel.desktop, log) more
        (kernel'.desktop, log ++ kernel.writes event) := by
  obtain ⟨more, hserved, hcases⟩ := h.handles hstep
  refine ⟨more, hserved, ?_⟩
  have hdesktop : Run Desktop.Steps kernel.desktop more kernel'.desktop := hserved.desktop
  rcases hcases with ⟨hdevice, rfl, -⟩ | ⟨rfl, rfl⟩ | ⟨device, readings, rfl, rfl, -⟩
  · have hsilent : kernel.writes event = [] := by
      cases event with
      | interrupted vector readings =>
        have hvector : vector = 32 := by simpa [KernelEvent.ofDevice] using hdevice
        rw [hvector]
        rfl
      | _ => rfl
    rw [hsilent, List.append_nil, run_nil.1 hdesktop]
    exact .nil
  · obtain ⟨desktop, hheader, hlast⟩ := run_cons.1 hdesktop
    rw [run_nil.1 hlast] at hheader
    exact run_writing_single hheader log
  · obtain ⟨desktop, hhandled, hlast⟩ := run_cons.1 hdesktop
    rw [run_nil.1 hlast] at hhandled
    have hwrites := run_writing_single hhandled log
    have hsame : kernel.desktop.writes (deviceEvent readings kernel.controller.data device) =
        kernel.writes (.interrupted (32 + (deviceLine device).val) readings) := by
      cases device <;> rfl
    rwa [hsame] at hwrites

/-- **A run of the kernel writes what its handlers write.** -/
theorem Sound.run_writes (h : kernel.Sound) {last : Running × List LogItem}
    (hrun : Run (Writing Steps Running.writes) (kernel, []) events last) : last.1.Sound ∧ ∃ served,
      kernel.service.Served events last.1.service served ∧
      Run (Writing Desktop.Steps Desktop.writes) (kernel.desktop, []) served
        (last.1.desktop, last.2) := by
  induction hrun with
  | nil => exact ⟨h, [], .nil _, .nil⟩
  | @snoc es e c c' _ hstep ih =>
    obtain ⟨hsound, served, hserved, hwritten⟩ := ih
    obtain ⟨more, hmore, hwrites⟩ := hsound.writes hstep.1 c.2
    refine ⟨(hsound.step hstep.1).1, served ++ more, hserved.append hmore, ?_⟩
    rw [hstep.2]
    exact run_append.2 ⟨_, hwritten, hwrites⟩

/-- What waits and what is sent are bytes. -/
theorem bytes_lt {device : Device} (pending : List (BitVec 8)) (events : List KernelEvent) :
    ∀ code ∈ pending.map BitVec.toNat ++ sentBytes device events, code < 256 := by
  intro code hcode
  rcases List.mem_append.1 hcode with hpending | hsent
  · obtain ⟨byte, -, rfl⟩ := List.mem_map.1 hpending
    exact byte.isLt
  · obtain ⟨event, -, hevent⟩ := List.mem_filterMap.1 hsent
    unfold KernelEvent.byteOf at hevent
    split at hevent
    · split at hevent
      · cases hevent
        exact BitVec.isLt _
      · cases hevent
    · cases hevent

/-- **The log tells what was sent.** In every run from a sound state between
two packets, with the port's latch bit clear as `serial_init` leaves it,
however the devices, the chips, the handlers and the main loop take their
turns and however slowly the port sends: reading the line gives back, in the
order of the interrupts that had them handled, every scan code the keyboard
has sent but those of the shift keys and every packet of the mouse, up to
what still waits. -/
theorem log_read_back (kernel kernel' : Running) (events : List KernelEvent) (log : List LogItem)
    (h : kernel.Sound) (hstart : kernel.desktop.mouse.mousePacketIndex = 0)
    (hrun : Run (Writing Steps Running.writes) (kernel, []) events (kernel', log))
    (schedule : ℕ → Option Unit) (hfair : (pace schedule).Fair) (u : Uart) (now : ℕ)
    (hlatch : u.latch = false) : ∃ served u' later line,
      (∀ device, (kernel.controller.pending device).map BitVec.toNat ++ sentBytes device events =
        handledBytes device served ++ (kernel'.controller.pending device).map BitVec.toNat) ∧
      served.filterMap UiEvent.device = events.filterMap KernelEvent.device ∧
      Returns (writeLog schedule log) (u, now) () (u', later) ∧ u'.sent = u.sent ++ line ∧
      readText readRecord (line.map BitVec.toNat) = some (transcript .nothing served) := by
  obtain ⟨-, served, hserved, hwrites⟩ := h.run_writes hrun
  have hholds : kernel.desktop.mouse.Holds .nothing := hstart
  obtain ⟨-, hlog⟩ := hholds.run hwrites
  dsimp only at hlog
  obtain ⟨later, hreturns⟩ := writes_writeLog hfair log u now hlatch
  refine ⟨served, _, later, onLine (logCharacters log), hserved.bytes, hserved.order, hreturns,
    sent_putAll _ _, ?_⟩
  rw [onLine_logCharacters, hlog]
  refine readText_transcript fun code hcode => ?_
  have hlt := bytes_lt (kernel.controller.pending .keyboard) events code (by
    rw [show kernel.controller.pending = kernel.service.pending from rfl, hserved.bytes .keyboard]
    exact List.mem_append_left _ hcode)
  exact lt_trans hlt (by decide)

/-- A letter is typed while the mouse sends a byte. -/
def letterEvents : List KernelEvent := [.sent .mouse 0x08, .sent .keyboard 0x1e, .passed .keyboard,
  .interrupted 33 idleReadings, .returned]

theorem letterEvents_run : ∃ kernel', Run Steps sampleKernel letterEvents kernel' :=
  ⟨_, run_cons.2 ⟨_, rfl, run_cons.2 ⟨_, rfl, run_cons.2 ⟨_, rfl, run_cons.2 ⟨_, rfl,
    run_cons.2 ⟨_, rfl, .nil⟩⟩⟩⟩⟩⟩

theorem log_read_back_letterEvents : ∃ kernel' log served, ∃ line : List (BitVec 8),
    Run (Writing Steps Running.writes) (sampleKernel, []) letterEvents (kernel', log) ∧
      readText readRecord (line.map BitVec.toNat) = some (transcript .nothing served) := by
  obtain ⟨kernel', hrun⟩ := letterEvents_run
  obtain ⟨log, hlog⟩ := hrun.writes Running.writes []
  obtain ⟨served, -, -, line, -, -, -, -, hread⟩ :=
    log_read_back sampleKernel kernel' letterEvents log sampleKernel_sound rfl hlog everyOther
      everyOther_fair { foundPort with lineControl := 0x03 } 0 (by decide)
  exact ⟨kernel', log, served, line, hlog, hread⟩

end Running

end KbmOs
