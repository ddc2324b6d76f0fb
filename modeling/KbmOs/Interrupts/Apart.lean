import KbmOs.Interrupts.Served
/-!
# The devices apart

The handlers of the keyboard and of the mouse share the screen, the
controller and the chips. What they keep for themselves they do not share:
what is typed depends on the scan codes alone, and where the mouse is on
the bytes of the mouse alone, however the two interleave with each other,
with the timer and with the main loop.
-/

namespace KbmOs

open I8042 LabelledRuns

/-! ## The keyboard -/

/-- The shell after the character, unless it reboots. -/
def ShellResult.left : ShellResult → Option Shell
  | .returns shell _ => some shell
  | .reboots _ => none

/-- After a line the shell is ready for the next, unless the line said to
reboot. -/
theorem shellHandleCharacter_enter_left (shell : Shell) (readings : Readings) :
    (shellHandleCharacter shell readings '\n'.toNat).left =
      if shellCommandIs shell "KOCAELI" = true then some (shellInit shell)
      else if shellCommandIs shell "CLEAR" = true then some (shellInit shell)
      else if shellCommandIs shell "REBOOT" = true then none
      else some (shellInit shell) := by
  unfold shellHandleCharacter
  rw [if_neg (by decide), if_pos rfl]
  dsimp only
  by_cases hkocaeli : shellCommandIs shell "KOCAELI" = true
  · rw [if_pos hkocaeli, if_pos hkocaeli]
    rfl
  by_cases hclear : shellCommandIs shell "CLEAR" = true
  · rw [if_neg hkocaeli, if_pos hclear, if_neg hkocaeli, if_pos hclear]
    rfl
  by_cases hreboot : shellCommandIs shell "REBOOT" = true
  · rw [if_neg hkocaeli, if_neg hclear, if_pos hreboot, if_neg hkocaeli, if_neg hclear,
      if_pos hreboot]
    rfl
  rw [if_neg hkocaeli, if_neg hclear, if_neg hreboot, if_neg hkocaeli, if_neg hclear,
    if_neg hreboot]
  split
  · rfl
  split
  · rfl
  split
  · rfl
  split
  · rfl
  split <;> rfl

/-- **The readings are reported, and not kept.** -/
theorem shellHandleCharacter_left (shell : Shell) (readings readings' : Readings) (character : ℕ) :
    (shellHandleCharacter shell readings character).left =
      (shellHandleCharacter shell readings' character).left := by
  by_cases hline : character = '\n'.toNat
  · rw [hline, shellHandleCharacter_enter_left, shellHandleCharacter_enter_left]
  · unfold shellHandleCharacter
    rw [if_neg hline, if_neg hline]

/-- The shift flag and the shell after a scan code. -/
def typeCode (typed : ℕ × Shell) (scanCode : ℕ) : ℕ × Shell :=
  ((keyboardIrq typed.1 typed.2 idleReadings scanCode).1,
    (keyboardIrq typed.1 typed.2 idleReadings scanCode).2.left.getD typed.2)

/-- **What a scan code leaves does not depend on the readings.** -/
theorem typeCode_eq {shift shift' scanCode : ℕ} {shell shell' : Shell} {readings : Readings}
    {calls : List ConsoleCall}
    (h : keyboardIrq shift shell readings scanCode = (shift', .returns shell' calls)) :
    typeCode (shift, shell) scanCode = (shift', shell') := by
  have hshift : (keyboardIrq shift shell idleReadings scanCode).1 =
      (keyboardIrq shift shell readings scanCode).1 := by
    unfold keyboardIrq
    dsimp only
    split_ifs <;> rfl
  have hshell : (keyboardIrq shift shell idleReadings scanCode).2.left =
      (keyboardIrq shift shell readings scanCode).2.left := by
    unfold keyboardIrq
    dsimp only
    split_ifs
    · rfl
    · rfl
    · exact shellHandleCharacter_left shell idleReadings readings _
    · rfl
  unfold typeCode
  rw [hshift, hshell, h]
  rfl

/-! ## The mouse -/

/-- What the mouse's packets are kept in: the bytes so far, the place and
the screen it is on. -/
def Mouse.motion (mouse : Mouse) : (Vector UInt8 3 × ℕ) × (ℤ × ℤ) × ℕ × ℕ :=
  ((mouse.mousePacket, mouse.mousePacketIndex), (mouse.mouseX, mouse.mouseY),
    mouse.mouseScreenWidth, mouse.mouseScreenHeight)

variable {mouse mouse' : Mouse} {screen screen' : Pixels}

theorem motion_hide (mouse : Mouse) (screen : Pixels) :
    (mouseHideCursor mouse screen).1.motion = mouse.motion := by
  unfold mouseHideCursor
  split <;> rfl

theorem motion_show (mouse : Mouse) (screen : Pixels) :
    (mouseShowCursor mouse screen).1.motion = mouse.motion := by
  unfold mouseShowCursor
  split <;> rfl

/-- The rest is what is drawn with. -/
theorem motion_eq (h : mouse.motion = mouse'.motion) : mouse = { mouse' with
    mouseOldX := mouse.mouseOldX
    mouseOldY := mouse.mouseOldY
    mouseFramebuffer := mouse.mouseFramebuffer
    pixels := mouse.pixels
    mouseCursorVisible := mouse.mouseCursorVisible } := by
  obtain ⟨packet, index, hlt, x, y, oldX, oldY, width, height, framebuffer, pixels, visible⟩ := mouse
  unfold Mouse.motion at h
  simp only [Prod.mk.injEq] at h
  obtain ⟨⟨rfl, rfl⟩, ⟨rfl, rfl⟩, rfl, rfl⟩ := h
  rfl

theorem motion_move (h : mouse.motion = mouse'.motion) (xMovement yMovement : ℤ) :
    (mouseMove mouse xMovement yMovement).motion = (mouseMove mouse' xMovement yMovement).motion := by
  rw [motion_eq h]
  rfl

/-- **What a byte does to the motion does not depend on what is drawn.** -/
theorem motion_mouseIrq (h : mouse.motion = mouse'.motion) (mouseByte : UInt8) :
    (mouseIrq mouse mouseByte screen).1.motion = (mouseIrq mouse' mouseByte screen').1.motion := by
  rw [motion_eq h]
  generalize mouse.mouseOldX = oldX, mouse.mouseOldY = oldY, mouse.mouseFramebuffer = framebuffer,
    mouse.pixels = pixels, mouse.mouseCursorVisible = visible
  unfold mouseIrq
  dsimp only
  by_cases hack : mouse'.mousePacketIndex = 0 ∧ mouseByte = 0xFA
  · rw [if_pos hack, if_pos hack]
    rfl
  rw [if_neg hack, if_neg hack]
  by_cases hstray : mouse'.mousePacketIndex = 0 ∧ mouseByte &&& 0x08 = 0
  · rw [if_pos hstray, if_pos hstray]
    rfl
  rw [if_neg hstray, if_neg hstray]
  by_cases hmore : mouse'.mousePacketIndex + 1 < 3
  · rw [dif_pos hmore, dif_pos hmore]
    rfl
  rw [dif_neg hmore, dif_neg hmore]
  split
  · -- a whole packet moves the cursor
    rw [motion_show, motion_show]
    refine motion_move ?_ _ _
    rw [motion_hide, motion_hide]
    rfl
  · rfl

/-! ## Both -/

/-- What has been typed. -/
def Desktop.typed (desktop : Desktop) : ℕ × Shell := (desktop.keyboardShiftDown, desktop.shell)

variable {desktop desktop' : Desktop} {event : UiEvent} {served : List UiEvent}

/-- **The keyboard's handler types, and nothing else does.** -/
theorem typed_step (h : desktop.Steps event desktop') :
    desktop'.typed = (handledBytes .keyboard [event]).foldl typeCode desktop.typed := by
  cases event with
  | keyboardIrq readings scanCode =>
    obtain ⟨ui, hui, rfl⟩ := Option.map_eq_some_iff.1 h
    unfold TextUi.step at hui
    dsimp only at hui
    rcases hirq : keyboardIrq desktop.keyboardShiftDown desktop.shell readings scanCode with
      ⟨shift, ⟨shell, calls⟩ | calls⟩
    · rw [hirq] at hui
      cases hui
      exact (typeCode_eq hirq).symm
    · rw [hirq] at hui
      cases hui
  | mouseIrq mouseByte =>
    cases h
    rfl
  | updateHeader uptimeSeconds =>
    cases h
    rfl

/-- **The mouse's handler moves the mouse, and nothing else does.** -/
theorem motion_step (h : desktop.Steps event desktop') (screen : Pixels) :
    desktop'.mouse.motion = (mouseIrqs desktop.mouse screen
      ((handledBytes .mouse [event]).map UInt8.ofNat)).1.motion := by
  cases event with
  | keyboardIrq readings scanCode =>
    rw [Desktop.step_mouse h]
    rfl
  | mouseIrq mouseByte =>
    cases h
    have hbyte : UInt8.ofNat mouseByte.toNat = mouseByte := UInt8.ofNat_toNat
    unfold Desktop.withMouse
    change _ = (mouseIrqs desktop.mouse screen [UInt8.ofNat mouseByte.toNat]).1.motion
    rw [hbyte]
    exact motion_mouseIrq rfl mouseByte
  | updateHeader uptimeSeconds =>
    cases h
    unfold Desktop.withMouse
    dsimp only
    rw [motion_show, motion_hide]
    rfl

theorem motion_mouseIrqs (h : mouse.motion = mouse'.motion) (bytes : List UInt8) :
    (mouseIrqs mouse screen bytes).1.motion = (mouseIrqs mouse' screen' bytes).1.motion := by
  induction bytes generalizing mouse mouse' screen screen' with
  | nil => exact h
  | cons byte bytes ih => exact ih (motion_mouseIrq h byte)

theorem handledBytes_append (device : Device) (served more : List UiEvent) :
    handledBytes device (served ++ more) = handledBytes device served ++ handledBytes device more :=
  List.filterMap_append

/-- What a run has typed, and where it has moved the mouse. -/
theorem run_apart (h : Run Desktop.Steps desktop served desktop') (screen : Pixels) :
    desktop'.typed = (handledBytes .keyboard served).foldl typeCode desktop.typed ∧
      desktop'.mouse.motion = (mouseIrqs desktop.mouse screen
        ((handledBytes .mouse served).map UInt8.ofNat)).1.motion := by
  induction h with
  | nil => exact ⟨rfl, rfl⟩
  | snoc _ hstep ih =>
    obtain ⟨htyped, hmotion⟩ := ih
    constructor
    · rw [typed_step hstep, htyped, handledBytes_append, List.foldl_append]
    · rw [motion_step hstep screen, handledBytes_append, List.map_append, mouseIrqs_append]
      exact motion_mouseIrqs hmotion _

/-- **Each device has its own way.** In every run from a sound state, where
no request stands without its byte, what has been typed is what the first
scan codes that were sent make of the shell, and the mouse is where the
first bytes it sent have moved it; the readings, the timer, the updates of
the header and the other device change neither. -/
theorem devices_apart (kernel kernel' : Running) (events : List KernelEvent) (h : kernel.Sound)
    (hrun : Run Running.Steps kernel events kernel') (screen : Pixels) : ∃ codes moves : List ℕ,
      (kernel.controller.pending .keyboard).map BitVec.toNat ++ sentBytes .keyboard events =
        codes ++ (kernel'.controller.pending .keyboard).map BitVec.toNat ∧
      (kernel.controller.pending .mouse).map BitVec.toNat ++ sentBytes .mouse events =
        moves ++ (kernel'.controller.pending .mouse).map BitVec.toNat ∧
      kernel'.desktop.typed = codes.foldl typeCode kernel.desktop.typed ∧
      kernel'.desktop.mouse.motion =
        (mouseIrqs kernel.desktop.mouse screen (moves.map UInt8.ofNat)).1.motion := by
  obtain ⟨-, served, hdesktop, hbytes, -⟩ := h.run hrun
  obtain ⟨htyped, hmotion⟩ := run_apart hdesktop screen
  exact ⟨handledBytes .keyboard served, handledBytes .mouse served, hbytes .keyboard, hbytes .mouse,
    htyped, hmotion⟩

theorem devices_apart_sampleEvents : ∃ kernel' codes, Run Running.Steps Running.sampleKernel
    Running.sampleEvents kernel' ∧ [0x2a] =
      codes ++ (kernel'.controller.pending .keyboard).map BitVec.toNat ∧
    kernel'.desktop.typed = codes.foldl typeCode Running.sampleKernel.desktop.typed := by
  obtain ⟨kernel', hrun⟩ := Running.sampleEvents_run
  obtain ⟨codes, moves, hcodes, -, htyped, -⟩ :=
    devices_apart Running.sampleKernel kernel' Running.sampleEvents Running.sampleKernel_sound hrun
      fun _ => 0
  exact ⟨kernel', codes, hrun, hcodes, htyped⟩

end KbmOs
