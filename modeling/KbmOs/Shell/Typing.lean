import KbmOs.Desktop.Picture
import KbmOs.Shell.Dispatch
/-!
# Typing

Every character the keyboard produces has keys that type it, and what a
script of lines types, key after key, comes back as the script: the shell
is given its characters, writes each line as it is typed, and answers it
with the output of the command the line asks for and the next prompt.
-/

namespace KbmOs

/-! ## Keys -/

/-- What a scan code does to the shift flag and to the characters typed. -/
def decodeKey (keyed : ℕ × List ℕ) (scanCode : ℕ) : ℕ × List ℕ :=
  if scanCode = 0x2a ∨ scanCode = 0x36 then (1, keyed.2)
  else if scanCode = 0xaa ∨ scanCode = 0xb6 then (0, keyed.2)
  else if keyboardScancodeToCharacter keyed.1 scanCode = 0 then keyed
  else (keyed.1, keyed.2 ++ [keyboardScancodeToCharacter keyed.1 scanCode])

/-- The first key that produces the character. -/
def keyFor (shift character : ℕ) : Option ℕ :=
  (List.range 0x80).find? fun scanCode => keyboardScancodeToCharacter shift scanCode = character

/-- **How a character is typed**: its key is pressed and released, with Shift
held where it has to be. -/
def keysOf (character : ℕ) : List ℕ :=
  match keyFor 0 character with
  | some scanCode => [scanCode, scanCode + 0x80]
  | none =>
    match keyFor 1 character with
    | some scanCode => [0x2a, scanCode, scanCode + 0x80, 0xaa]
    | none => []

variable {shift scanCode character : ℕ} {typed : List ℕ}

/-- A key that is released produces nothing. -/
theorem keyboardScancodeToCharacter_release (h : 0x80 ≤ scanCode) :
    keyboardScancodeToCharacter shift scanCode = 0 := by
  unfold keyboardScancodeToCharacter
  dsimp only
  split <;> omega

/-- Nor does a shift key. -/
theorem keyboardScancodeToCharacter_shiftKey (h : scanCode = 0x2a ∨ scanCode = 0x36) :
    keyboardScancodeToCharacter shift scanCode = 0 := by
  rcases h with rfl | rfl <;> rfl

theorem keyboardScancodeToCharacter_shifted (h : shift ≠ 0) :
    keyboardScancodeToCharacter shift scanCode = keyboardScancodeToCharacter 1 scanCode := by
  unfold keyboardScancodeToCharacter
  simp only [h, ne_eq, not_false_eq_true, if_true, one_ne_zero]

theorem keyFor_eq_some (h : keyFor shift character = some scanCode) :
    scanCode < 0x80 ∧ keyboardScancodeToCharacter shift scanCode = character := by
  unfold keyFor at h
  have hfound := List.find?_some h
  exact ⟨List.mem_range.1 (List.mem_of_find?_eq_some h), of_decide_eq_true hfound⟩

/-- **A key that is pressed and released types its character.** -/
theorem decodeKey_key (h : keyFor shift character = some scanCode) (hcharacter : character ≠ 0) :
    [scanCode, scanCode + 0x80].foldl decodeKey (shift, typed) = (shift, typed ++ [character]) := by
  obtain ⟨hlt, hproduces⟩ := keyFor_eq_some h
  have hshiftKey : ¬ (scanCode = 0x2a ∨ scanCode = 0x36) := fun hkey =>
    hcharacter (hproduces.symm.trans (keyboardScancodeToCharacter_shiftKey hkey))
  have hpress : decodeKey (shift, typed) scanCode = (shift, typed ++ [character]) := by
    unfold decodeKey
    rw [if_neg hshiftKey, if_neg (by omega), hproduces, if_neg hcharacter]
  have hrelease : decodeKey (shift, typed ++ [character]) (scanCode + 0x80) =
      (shift, typed ++ [character]) := by
    unfold decodeKey
    rw [if_neg (by omega), if_neg (by omega),
      if_pos (keyboardScancodeToCharacter_release (Nat.le_add_left _ _))]
  rw [List.foldl_cons, List.foldl_cons, hpress, hrelease, List.foldl_nil]

/-- **What the keyboard produces can be typed.** -/
theorem decodeKey_keysOf (h : KeyboardProduces character) :
    (keysOf character).foldl decodeKey (0, typed) = (0, typed ++ [character]) := by
  obtain ⟨hcharacter, shift, scanCode, hproduces⟩ := h
  have hlt : scanCode < 0x80 := by
    by_contra hge
    exact hcharacter (hproduces.symm.trans (keyboardScancodeToCharacter_release (by omega)))
  unfold keysOf
  rcases hplain : keyFor 0 character with _ | key
  · -- no key produces it without Shift, so this one does with it
    have hshift : shift ≠ 0 := by
      rintro rfl
      exact List.find?_eq_none.1 hplain scanCode (List.mem_range.2 hlt) (decide_eq_true hproduces)
    rw [keyboardScancodeToCharacter_shifted hshift] at hproduces
    rcases hshifted : keyFor 1 character with _ | key
    · exact absurd (decide_eq_true hproduces)
        (List.find?_eq_none.1 hshifted scanCode (List.mem_range.2 hlt))
    · dsimp only
      have hpress : decodeKey (0, typed) 0x2a = (1, typed) := rfl
      have hrelease : decodeKey (1, typed ++ [character]) 0xaa = (0, typed ++ [character]) := rfl
      have hkey := @decodeKey_key 1 key character typed hshifted hcharacter
      rw [List.foldl_cons, List.foldl_cons, List.foldl_nil] at hkey
      rw [List.foldl_cons, hpress, List.foldl_cons, List.foldl_cons, hkey, List.foldl_cons, hrelease,
        List.foldl_nil]
  · exact decodeKey_key hplain hcharacter

/-- **A text is typed character by character.** -/
theorem decodeKey_text {text : List ℕ} (h : ∀ character ∈ text, KeyboardProduces character) :
    (text.flatMap keysOf).foldl decodeKey (0, typed) = (0, typed ++ text) := by
  induction text generalizing typed with
  | nil => rw [List.append_nil]; rfl
  | cons character text ih =>
    rw [List.flatMap_cons, List.foldl_append, decodeKey_keysOf (h character List.mem_cons_self),
      ih fun c hc => h c (List.mem_cons_of_mem _ hc), List.append_assoc]
    rfl

/-! ## Lines -/

variable {session session' : Session} {readings : Readings} {line : List ℕ}
variable {inputs : List (Readings × ℕ)}

/-- **Enter answers the line.** -/
theorem shellHandleCharacter_line (shell : Shell) (readings : Readings) :
    (commandOf shell.line = .reboot ∧
      ∃ calls, shellHandleCharacter shell readings '\n'.toNat = .reboots calls) ∨
    (commandOf shell.line ≠ .reboot ∧ shellHandleCharacter shell readings '\n'.toNat =
      .returns (shellInit shell) (answer readings shell.line (commandOf shell.line))) := by
  have hline : shell.statics.line = shell.line := rfl
  have hfits := shell.statics_fits
  have hresult : (shellHandleCharacter shell readings '\n'.toNat).statics =
      answered shell.statics readings shell.line (commandOf shell.line) := by
    obtain ⟨command, hentered, hran⟩ := (dispatches_line hfits readings).ran
    rw [enteredCommand_eq hfits, Option.some_inj] at hentered
    rw [shellHandleCharacter_statics, Option.some_inj, ← hentered, hline] at hran
    exact hran
  unfold answered at hresult
  by_cases hcommand : commandOf shell.line = .reboot
  · rw [if_pos hcommand] at hresult
    refine Or.inl ⟨hcommand, ?_⟩
    rcases shellHandleCharacter_enter shell readings with hreboots | ⟨output, last, -, -, hreturns⟩
    · exact hreboots
    · rw [hreturns] at hresult
      cases hresult
  · rw [if_neg hcommand] at hresult
    refine Or.inr ⟨hcommand, ?_⟩
    rcases shellHandleCharacter_enter shell readings with ⟨calls, hreboots⟩ |
      ⟨output, last, -, -, hreturns⟩
    · rw [hreboots] at hresult
      cases hresult
    · rw [hreturns] at hresult ⊢
      rw [(Checked.ShellResult.returns.inj hresult).2]

/-- A line that can be typed: it has room in the buffer, and its characters
are neither Enter nor backspace. -/
structure Typeable (line : List ℕ) : Prop where
  length_le : line.length ≤ 63
  produced : ∀ character ∈ line, KeyboardProduces character
  printed : ∀ character ∈ line, character ≠ '\n'.toNat ∧ character ≠ backspaceCharacter

/-- **Characters that find room are written as they are typed.** -/
theorem Session.run_characters (hprinted : ∀ character ∈ inputs.map Prod.snd,
      character ≠ '\n'.toNat ∧ character ≠ backspaceCharacter)
    (hroom : session.shell.line.length + inputs.length ≤ 63) : ∃ shell,
      session.run inputs =
        some ⟨shell, session.calls ++ (inputs.map Prod.snd).map .writeCodepoint⟩ ∧
      shell.line = session.shell.line ++ inputs.map Prod.snd := by
  induction inputs generalizing session with
  | nil => exact ⟨session.shell, by simp [Session.run], by simp⟩
  | cons input inputs ih =>
    obtain ⟨readings, character⟩ := input
    obtain ⟨hline, hback⟩ := hprinted character List.mem_cons_self
    rw [List.length_cons] at hroom
    obtain ⟨shell, hstep, hshell⟩ := session.handleCharacter_edit readings hline
    have hcalls : editCalls session.shell.line character = [.writeCodepoint character] := by
      unfold editCalls
      rw [if_neg hback, if_pos (by omega)]
    have hedit : editLine session.shell.line character = session.shell.line ++ [character] := by
      unfold editLine
      rw [if_neg hback, if_pos (by omega)]
    rw [hcalls] at hstep
    rw [hedit] at hshell
    obtain ⟨shell', hrun, hshell'⟩ := @ih ⟨shell, session.calls ++ [.writeCodepoint character]⟩
      (fun c hc => hprinted c (List.mem_cons_of_mem _ hc)) (by
        dsimp only
        rw [hshell, List.length_append, List.length_singleton]
        omega)
    refine ⟨shell', ?_, ?_⟩
    · have hsplit : session.run ((readings, character) :: inputs) =
          (session.handleCharacter (readings, character)).bind fun session => session.run inputs := rfl
      rw [hsplit, hstep, Option.bind_some, hrun, List.append_assoc]
      rfl
    · rw [hshell', hshell, List.append_assoc]
      rfl

/-- **A line and Enter.** -/
theorem Session.run_line (hempty : session.shell.line = []) (hline : Typeable line)
    (hinputs : inputs.map Prod.snd = line ++ ['\n'.toNat]) (hrun : session.run inputs = some session') :
    ∃ readings, commandOf line ≠ .reboot ∧ session'.shell.line = [] ∧
      session'.calls =
        session.calls ++ (line.map .writeCodepoint ++ answer readings line (commandOf line)) := by
  obtain ⟨typed, entered, rfl, rfl, hentered⟩ := List.map_eq_append_iff.1 hinputs
  obtain ⟨⟨readings, character⟩, rfl, hcharacter⟩ := List.map_eq_singleton_iff.1 hentered
  obtain rfl : character = '\n'.toNat := hcharacter
  have hlength : session.shell.line.length + typed.length ≤ 63 := by
    have hle := hline.length_le
    rw [List.length_map] at hle
    rw [hempty, List.length_nil]
    omega
  obtain ⟨shell, htyped, hshell⟩ := Session.run_characters hline.printed hlength
  rw [hempty, List.nil_append] at hshell
  rw [Session.run_concat, htyped, Option.bind_some] at hrun
  unfold Session.handleCharacter at hrun
  dsimp only at hrun
  rcases shellHandleCharacter_line shell readings with ⟨-, calls, hreboots⟩ | ⟨hcommand, hreturns⟩
  · rw [hreboots] at hrun
    cases hrun
  · rw [hreturns] at hrun
    cases hrun
    rw [hshell] at hcommand ⊢
    refine ⟨readings, hcommand, rfl, ?_⟩
    rw [List.append_assoc]

/-- The keys of a script: each line, and Enter. -/
def scriptKeys (script : List (List ℕ)) : List ℕ :=
  (script.flatMap fun line => line ++ ['\n'.toNat]).flatMap keysOf

/-- What a script makes the console do: each line is written as it is typed,
and the command it asks for answers. -/
def scriptCalls (script : List (List ℕ)) (readings : List Readings) : List ConsoleCall :=
  (script.zip readings).flatMap fun entry =>
    entry.1.map .writeCodepoint ++ answer entry.2 entry.1 (commandOf entry.1)

/-- **A script is answered line by line.** -/
theorem Session.run_script {script : List (List ℕ)} (hempty : session.shell.line = [])
    (hscript : ∀ line ∈ script, Typeable line)
    (hinputs : inputs.map Prod.snd = script.flatMap fun line => line ++ ['\n'.toNat])
    (hrun : session.run inputs = some session') : ∃ readings : List Readings,
      readings.length = script.length ∧ (∀ line ∈ script, commandOf line ≠ .reboot) ∧
      session'.shell.line = [] ∧ session'.calls = session.calls ++ scriptCalls script readings := by
  induction script generalizing session inputs with
  | nil =>
    obtain rfl : inputs = [] := List.map_eq_nil_iff.1 hinputs
    cases hrun
    exact ⟨[], rfl, fun line hline => absurd hline List.not_mem_nil, hempty, (List.append_nil _).symm⟩
  | cons line script ih =>
    rw [List.flatMap_cons] at hinputs
    obtain ⟨first, later, rfl, hfirst, hlater⟩ := List.map_eq_append_iff.1 hinputs
    have hsplit : session.run (first ++ later) =
        (session.run first).bind fun session => session.run later := List.foldlM_append
    rw [hsplit] at hrun
    obtain ⟨middle, hmiddle, hrest⟩ := Option.bind_eq_some_iff.1 hrun
    obtain ⟨reading, hcommand, hline, hcalls⟩ :=
      Session.run_line hempty (hscript line List.mem_cons_self) hfirst hmiddle
    obtain ⟨readings, hlength, hcommands, hlast, hcalls'⟩ :=
      ih hline (fun line' hmem => hscript line' (List.mem_cons_of_mem _ hmem)) hlater hrest
    refine ⟨reading :: readings, congrArg Nat.succ hlength, fun line' hmem => ?_, hlast, ?_⟩
    · rcases List.mem_cons.1 hmem with rfl | hmem
      · exact hcommand
      · exact hcommands line' hmem
    · unfold scriptCalls
      rw [hcalls', hcalls, List.zip_cons_cons, List.flatMap_cons, List.append_assoc]
      rfl

end KbmOs
