import KbmOs.Desktop.Cursor
import Mathlib.Data.Fintype.Basic
/-!
# The two Shift keys

`keyboard_irq` keeps one flag for two keys: either press sets it and either
release clears it. Which keys are held is told by the scan codes alone, the
last one of a key deciding. The flag agrees with the keys until one of them
is released while the other is held.
-/

namespace KbmOs

open LabelledRuns

/-! ## The keys -/

inductive ShiftKey
  | left
  | right
deriving DecidableEq

instance : Fintype ShiftKey where
  elems := {.left, .right}
  complete key := by cases key <;> decide

def ShiftKey.pressCode : ShiftKey → ℕ
  | .left => 0x2a
  | .right => 0x36

def ShiftKey.releaseCode : ShiftKey → ℕ
  | .left => 0xaa
  | .right => 0xb6

/-- A key after a scan code; the keyboard repeats the press while a key is
held. -/
def ShiftKey.next (key : ShiftKey) (down : Bool) (scanCode : ℕ) : Bool :=
  if scanCode = key.pressCode then true
  else if scanCode = key.releaseCode then false
  else down

/-- The key is held after the scan codes. -/
def ShiftKey.Held (key : ShiftKey) (scanCodes : List ℕ) : Prop :=
  scanCodes.foldl key.next false = true

instance (key : ShiftKey) (scanCodes : List ℕ) : Decidable (key.Held scanCodes) :=
  inferInstanceAs (Decidable (_ = true))

/-- What is asked of each scan code, and of those before it. -/
def AtEach (P : List ℕ → ℕ → Prop) (scanCodes : List ℕ) : Prop :=
  ∀ before scanCode after, scanCodes = before ++ scanCode :: after → P before scanCode

/-- Keys as they are: only what is held is released. -/
def Alternates (scanCodes : List ℕ) : Prop :=
  AtEach (fun before scanCode => ∀ key : ShiftKey, scanCode = key.releaseCode → key.Held before)
    scanCodes

/-- No key is released while another one is held. -/
def ReleasedApart (scanCodes : List ℕ) : Prop :=
  AtEach (fun before scanCode => ∀ key other : ShiftKey, scanCode = key.releaseCode →
    other ≠ key → ¬ other.Held before) scanCodes

def UiEvent.scanCode : UiEvent → Option ℕ
  | .keyboardIrq _ scanCode => some scanCode
  | .mouseIrq _ => none
  | .updateHeader _ => none

/-- The scan codes among the events. -/
def scanCodes (events : List UiEvent) : List ℕ := events.filterMap UiEvent.scanCode

/-- **The flag is about the keys**: it is set while one is held, and the
shifted character of a key is then the one that is typed. -/
structure ShiftTracked (desktop : Desktop) (scanCodes : List ℕ) : Prop where
  flag : desktop.keyboardShiftDown ≠ 0 ↔ ∃ key : ShiftKey, key.Held scanCodes
  picks : ∀ scanCode, keyboardScancodeToCharacter desktop.keyboardShiftDown scanCode =
    if ∃ key : ShiftKey, key.Held scanCodes then keyboardScancodeToCharacter 1 scanCode
    else keyboardScancodeToCharacter 0 scanCode

variable {desktop desktop' : Desktop} {event : UiEvent} {events : List UiEvent}
variable {key : ShiftKey} {codes : List ℕ} {code flag : ℕ} {P : List ℕ → ℕ → Prop}

theorem atEach_nil : AtEach P [] := fun before code after h => by simp at h

theorem atEach_append {codes' : List ℕ} (h : AtEach P (codes ++ codes')) : AtEach P codes := by
  intro before code after hcodes
  refine h before code (after ++ codes') ?_
  rw [hcodes, List.append_assoc, List.cons_append]

theorem atEach_concat : AtEach P (codes ++ [code]) ↔ AtEach P codes ∧ P codes code := by
  constructor
  · exact fun h => ⟨atEach_append h, h codes code [] rfl⟩
  · rintro ⟨h, hlast⟩ before code' after hcodes
    rcases List.eq_nil_or_concat after with rfl | ⟨after, last, rfl⟩
    · obtain ⟨rfl, hcode⟩ := List.append_inj' hcodes rfl
      cases hcode
      exact hlast
    · rw [List.concat_eq_append, ← List.cons_append, ← List.append_assoc] at hcodes
      exact h before code' after (List.append_inj' hcodes rfl).1

/-! ## The flag -/

/-- The flag after a scan code. -/
def shiftFlag (flag scanCode : ℕ) : ℕ :=
  if scanCode = 0x2a ∨ scanCode = 0x36 then 1
  else if scanCode = 0xaa ∨ scanCode = 0xb6 then 0
  else flag

theorem keyboardIrq_fst (flag : ℕ) (shell : Shell) (readings : Readings) (code : ℕ) :
    (keyboardIrq flag shell readings code).1 = shiftFlag flag code := by
  unfold keyboardIrq shiftFlag
  split
  · rfl
  · split
    · rfl
    · rfl

/-- A step of the desktop moves the flag by its scan code, if it has one. -/
theorem Desktop.Steps.shiftFlag (h : desktop.Steps event desktop') :
    desktop'.keyboardShiftDown =
      (scanCodes [event]).foldl KbmOs.shiftFlag desktop.keyboardShiftDown := by
  cases event with
  | keyboardIrq readings scanCode =>
    obtain ⟨ui, hui, rfl⟩ := Option.map_eq_some_iff.1 h
    have hflag := keyboardIrq_fst desktop.keyboardShiftDown desktop.shell readings scanCode
    unfold TextUi.step at hui
    dsimp only at hui
    split at hui
    · rename_i hirq
      rw [hirq] at hflag
      cases hui
      exact hflag
    · cases hui
  | mouseIrq mouseByte =>
    cases h
    rfl
  | updateHeader uptimeSeconds =>
    cases h
    rfl

theorem run_shiftFlag {shell : Shell} {framebuffer : Framebuffer} {pixels : Pixels}
    (hrun : Run Desktop.Steps (Desktop.boot shell framebuffer pixels) events desktop) :
    desktop.keyboardShiftDown = (scanCodes events).foldl shiftFlag 0 := by
  induction hrun with
  | nil => rfl
  | snoc _ hstep ih =>
    rw [hstep.shiftFlag, ih, scanCodes, scanCodes, scanCodes, List.filterMap_append,
      List.foldl_append]

/-! ## The flag and the keys -/

theorem releaseCode_ne_pressCode : ∀ key other : ShiftKey, key.releaseCode ≠ other.pressCode := by
  decide

theorem releaseCode_ne : ∀ key other : ShiftKey, other ≠ key →
    key.releaseCode ≠ other.releaseCode := by
  decide

theorem exists_pressCode : (∃ key : ShiftKey, code = key.pressCode) ↔
    code = 0x2a ∨ code = 0x36 := by
  constructor
  · rintro ⟨_ | _, rfl⟩
    · exact Or.inl rfl
    · exact Or.inr rfl
  · rintro (rfl | rfl)
    · exact ⟨.left, rfl⟩
    · exact ⟨.right, rfl⟩

theorem forall_ne_releaseCode : (∀ key : ShiftKey, code ≠ key.releaseCode) ↔
    ¬ (code = 0xaa ∨ code = 0xb6) := by
  constructor
  · rintro h (rfl | rfl)
    · exact h .left rfl
    · exact h .right rfl
  · rintro h (_ | _) rfl
    · exact h (Or.inl rfl)
    · exact h (Or.inr rfl)

/-- What sets the flag. -/
theorem shiftFlag_ne_zero : shiftFlag flag code ≠ 0 ↔
    (∃ key : ShiftKey, code = key.pressCode) ∨
      (∀ key : ShiftKey, code ≠ key.releaseCode) ∧ flag ≠ 0 := by
  rw [exists_pressCode, forall_ne_releaseCode]
  unfold shiftFlag
  by_cases hpress : code = 0x2a ∨ code = 0x36
  · rw [if_pos hpress]
    exact iff_of_true Nat.one_ne_zero (Or.inl hpress)
  by_cases hrelease : code = 0xaa ∨ code = 0xb6
  · rw [if_neg hpress, if_pos hrelease]
    exact iff_of_false (fun hne => hne rfl) (fun hor => hor.elim hpress fun hand => hand.1 hrelease)
  · rw [if_neg hpress, if_neg hrelease]
    exact ⟨fun hne => Or.inr ⟨hrelease, hne⟩, fun hor => (hor.resolve_left hpress).2⟩

/-- What holds a key. -/
theorem ShiftKey.held_concat : key.Held (codes ++ [code]) ↔
    code = key.pressCode ∨ code ≠ key.releaseCode ∧ key.Held codes := by
  unfold ShiftKey.Held
  rw [List.foldl_concat]
  by_cases hpress : code = key.pressCode
  · exact iff_of_true (if_pos hpress) (Or.inl hpress)
  by_cases hrelease : code = key.releaseCode
  · rw [ShiftKey.next, if_neg hpress, if_pos hrelease]
    exact iff_of_false Bool.false_ne_true
      (fun hor => hor.elim hpress fun hand => hand.1 hrelease)
  · rw [ShiftKey.next, if_neg hpress, if_neg hrelease]
    exact ⟨fun h => Or.inr ⟨hrelease, h⟩, fun hor => (hor.resolve_left hpress).2⟩

/-- **A scan code that releases no key while another is held** moves the
flag with the keys. -/
theorem shiftFlag_step (hflag : flag ≠ 0 ↔ ∃ key : ShiftKey, key.Held codes)
    (hapart : ∀ key other : ShiftKey, code = key.releaseCode → other ≠ key → ¬ other.Held codes) :
    shiftFlag flag code ≠ 0 ↔ ∃ key : ShiftKey, key.Held (codes ++ [code]) := by
  rw [shiftFlag_ne_zero, hflag]
  constructor
  · rintro (⟨key, hpress⟩ | ⟨hrelease, key, hheld⟩)
    · exact ⟨key, ShiftKey.held_concat.2 (Or.inl hpress)⟩
    · exact ⟨key, ShiftKey.held_concat.2 (Or.inr ⟨hrelease key, hheld⟩)⟩
  · rintro ⟨key, hkey⟩
    rcases ShiftKey.held_concat.1 hkey with hpress | ⟨hrelease, hheld⟩
    · exact Or.inl ⟨key, hpress⟩
    · refine Or.inr ⟨fun other hother => ?_, key, hheld⟩
      have hne : key ≠ other := by
        rintro rfl
        exact hrelease hother
      exact hapart other key hother hne hheld

/-- **The flag agrees with the keys as long as they are released apart.** -/
theorem shiftFlag_of_apart (hapart : ReleasedApart codes) :
    codes.foldl shiftFlag 0 ≠ 0 ↔ ∃ key : ShiftKey, key.Held codes := by
  induction codes using List.reverseRecOn with
  | nil => decide
  | append_singleton codes code ih =>
    obtain ⟨hbefore, hlast⟩ := atEach_concat.1 hapart
    rw [List.foldl_concat]
    exact shiftFlag_step (ih hbefore) hlast

/-- And no longer. -/
theorem shiftFlag_of_released {other : ShiftKey} (hne : other ≠ key) (hheld : other.Held codes) :
    (codes ++ [key.releaseCode]).foldl shiftFlag 0 = 0 ∧
      other.Held (codes ++ [key.releaseCode]) := by
  constructor
  · by_contra hset
    rw [List.foldl_concat, ← ne_eq, shiftFlag_ne_zero] at hset
    rcases hset with ⟨pressed, hpress⟩ | ⟨hrelease, -⟩
    · exact releaseCode_ne_pressCode key pressed hpress
    · exact hrelease key rfl
  · exact ShiftKey.held_concat.2 (Or.inr ⟨releaseCode_ne key other hne, hheld⟩)

/-! ## The characters -/

/-- Only whether the flag is set decides a character. -/
theorem keyboardScancodeToCharacter_flag (hset : flag ≠ 0) (scanCode : ℕ) :
    keyboardScancodeToCharacter flag scanCode = keyboardScancodeToCharacter 1 scanCode := by
  unfold keyboardScancodeToCharacter
  simp only [if_pos hset, if_pos Nat.one_ne_zero]

/-- The keys with a shifted character of their own. -/
def shiftedScanCodes : List ℕ :=
  [0x02, 0x05, 0x08, 0x0b, 0x0c, 0x0d, 0x1a, 0x1b, 0x27, 0x28, 0x2b, 0x33, 0x34, 0x35, 0x56]

/-- **Shift matters on these and on no other.** -/
theorem shifted_iff (scanCode : ℕ) :
    keyboardScancodeToCharacter 1 scanCode ≠ keyboardScancodeToCharacter 0 scanCode ↔
      scanCode ∈ shiftedScanCodes := by
  by_cases hlt : scanCode < 0x57
  · have hall : ∀ code < 0x57,
        keyboardScancodeToCharacter 1 code ≠ keyboardScancodeToCharacter 0 code ↔
          code ∈ shiftedScanCodes := by decide
    exact hall scanCode hlt
  · have hnone : ∀ flag, keyboardScancodeToCharacter flag scanCode = 0 := by
      intro flag
      unfold keyboardScancodeToCharacter
      extract_lets shift
      split <;> omega
    rw [hnone, hnone]
    refine iff_of_false (fun hne => hne rfl) fun hmem => ?_
    have hall : ∀ code ∈ shiftedScanCodes, code < 0x57 := by decide
    exact hlt (hall scanCode hmem)

/-! ## Runs of the desktop -/

theorem scanCodes_append (events events' : List UiEvent) :
    scanCodes (events ++ events') = scanCodes events ++ scanCodes events' :=
  List.filterMap_append

/-- The events up to a scan code. -/
theorem scanCodes_eq_append_cons {before after : List ℕ}
    (h : scanCodes events = before ++ code :: after) :
    ∃ events₁ events₂, events = events₁ ++ events₂ ∧ scanCodes events₁ = before ++ [code] := by
  obtain ⟨events₁, rest, rfl, hbefore, hrest⟩ := List.filterMap_eq_append_iff.1 h
  obtain ⟨skipped, event, events₂, rfl, hskipped, hevent, -⟩ :=
    List.filterMap_eq_cons_iff.1 hrest
  refine ⟨events₁ ++ skipped ++ [event], events₂, by simp, ?_⟩
  have hnone : scanCodes skipped = [] := List.filterMap_eq_nil_iff.2 hskipped
  have hone : scanCodes [event] = [code] := by
    rw [scanCodes, List.filterMap_cons_some hevent, List.filterMap_nil]
  rw [scanCodes_append, scanCodes_append, hnone, hone, List.append_nil]
  exact congrArg (· ++ [code]) hbefore

/-- **The flag is about the keys in every state of a run exactly when** no
Shift key is released in it while the other one is held. -/
theorem shift_tracked_iff (shell : Shell) (framebuffer : Framebuffer) (pixels : Pixels)
    (events : List UiEvent) (last : Desktop)
    (hrun : Run Desktop.Steps (Desktop.boot shell framebuffer pixels) events last) :
    (∀ before desktop, before <+: events →
      Run Desktop.Steps (Desktop.boot shell framebuffer pixels) before desktop →
        ShiftTracked desktop (scanCodes before)) ↔ ReleasedApart (scanCodes events) := by
  constructor
  · rintro htracked before code after hcodes key other rfl hne hheld
    obtain ⟨events₁, events₂, rfl, hcodes₁⟩ := scanCodes_eq_append_cons hcodes
    obtain ⟨desktop, hrun₁, -⟩ := run_append.1 hrun
    obtain ⟨hzero, hstill⟩ := shiftFlag_of_released hne hheld
    have hflag := (htracked events₁ desktop (List.prefix_append events₁ events₂) hrun₁).flag
    rw [run_shiftFlag hrun₁, hcodes₁] at hflag
    exact hflag.2 ⟨other, hstill⟩ hzero
  · rintro hapart before desktop ⟨after, rfl⟩ hbefore
    rw [scanCodes_append] at hapart
    have hflag := shiftFlag_of_apart (atEach_append hapart)
    rw [← run_shiftFlag hbefore] at hflag
    refine ⟨hflag, fun scanCode => ?_⟩
    split
    · rename_i hheld
      exact keyboardScancodeToCharacter_flag (hflag.2 hheld) scanCode
    · rename_i hnone
      rw [not_not.1 (mt hflag.1 hnone)]

/-- Left Shift pressed, right Shift pressed, left Shift released. -/
theorem shift_not_tracked : ∃ desktop,
    Run Desktop.Steps (Desktop.boot Shell.atBoot sampleFramebuffer fun _ => 0)
      [.keyboardIrq idleReadings 0x2a, .keyboardIrq idleReadings 0x36,
        .keyboardIrq idleReadings 0xaa] desktop ∧
      Alternates [0x2a, 0x36, 0xaa] ∧ ¬ ShiftTracked desktop [0x2a, 0x36, 0xaa] := by
  refine ⟨_, run_cons.2 ⟨_, rfl, run_cons.2 ⟨_, rfl, run_cons.2 ⟨_, rfl, .nil⟩⟩⟩, ?_, ?_⟩
  · have halternates : Alternates ((([] ++ [0x2a]) ++ [0x36]) ++ [0xaa]) :=
      atEach_concat.2 ⟨atEach_concat.2 ⟨atEach_concat.2 ⟨atEach_nil, by decide⟩, by decide⟩,
        by decide⟩
    exact halternates
  · intro htracked
    exact htracked.flag.2 ⟨.right, by decide⟩ rfl

/-- One Shift after the other, a press repeated, and the mouse between. -/
theorem shift_tracked_apart : ∃ desktop,
    Run Desktop.Steps (Desktop.boot Shell.atBoot sampleFramebuffer fun _ => 0)
      [.keyboardIrq idleReadings 0x2a, .keyboardIrq idleReadings 0x2a, .mouseIrq 8,
        .keyboardIrq idleReadings 0xaa, .keyboardIrq idleReadings 0x36] desktop ∧
      ShiftTracked desktop [0x2a, 0x2a, 0xaa, 0x36] := by
  have hrun : Run Desktop.Steps (Desktop.boot Shell.atBoot sampleFramebuffer fun _ => 0)
      [.keyboardIrq idleReadings 0x2a, .keyboardIrq idleReadings 0x2a, .mouseIrq 8,
        .keyboardIrq idleReadings 0xaa, .keyboardIrq idleReadings 0x36] _ :=
    run_cons.2 ⟨_, rfl, run_cons.2 ⟨_, rfl, run_cons.2 ⟨_, rfl, run_cons.2 ⟨_, rfl,
      run_cons.2 ⟨_, rfl, .nil⟩⟩⟩⟩⟩
  have hapart : ReleasedApart (((([] ++ [0x2a]) ++ [0x2a]) ++ [0xaa]) ++ [0x36]) :=
    atEach_concat.2 ⟨atEach_concat.2 ⟨atEach_concat.2 ⟨atEach_concat.2 ⟨atEach_nil, by decide⟩,
      by decide⟩, by decide⟩, by decide⟩
  exact ⟨_, hrun, (shift_tracked_iff Shell.atBoot sampleFramebuffer (fun _ => 0) _ _ hrun).2 hapart
    _ _ (List.prefix_refl _) hrun⟩

end KbmOs
