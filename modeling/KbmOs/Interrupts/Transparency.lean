import KbmOs.Interrupts.Model
/-!
# The stubs leave no trace

A stub saves what C may overwrite, realigns the stack, calls, and puts back
what it saved from below the padding. The stack pointer it goes back to is
in `rbx`, which a callee has to keep; everything else it needs of the callee
is that the stack from the return address up to the end of the processor's
frame is left alone.
-/

namespace KbmOs

open StackMachine

/-! ## What C promises -/

/-- The registers a callee keeps. -/
def calleeSaved : List Register := [.rbx, .rbp, .r12, .r13, .r14, .r15, .rsp]

/-- The bytes of the frame the processor pushes: `rip`, `cs`, `rflags`,
`rsp` and `ss`. -/
def OnFrame (cpu : Cpu) (x : Qword) : Prop := (x - cpu.registers .rsp).toNat < 40

/-- Behind the frame. -/
def frameEnd (cpu : Cpu) : Qword := cpu.registers .rsp + 40

/-- **A call that keeps to the ABI**, from the machine with the return
address on top of its stack to the machine before the return. Of what is at
or above the return address it is only asked for the stack, up to its end;
distances are counted upwards from the return address. -/
structure KeepsAbi (stackEnd : Qword) (before after : Cpu) : Prop where
  registers : ∀ r ∈ calleeSaved, after.registers r = before.registers r
  stack : ∀ x, (x - before.registers .rsp).toNat < (stackEnd - before.registers .rsp).toNat →
    after.memory x = before.memory x

variable {code : Code IrqHandler} {callee : IrqHandler → Cpu → Cpu}
variable {handler : IrqHandler} {cpu before after : Cpu} {rip stackEnd : Qword}

/-! ## The two halves of a stub -/

/-- In the order of the pushes. -/
def savedRegisters : List Register := [.rax, .rcx, .rdx, .rsi, .rdi, .r8, .r9, .r10, .r11, .rbx]

/-- What comes before the call. -/
def prologue : List Op := savedRegisters.map .push ++ [.cld, .mov .rbx .rsp, .and .rsp (-16)]

/-- And behind it. -/
def epilogue : List Op := .mov .rsp .rbx :: savedRegisters.reverse.map .pop

theorem isr_eq (handler : IrqHandler) :
    handler.isr = prologue.map .op ++ .call handler :: (epilogue.map .op ++ [.iretq]) := by
  cases handler with
  | timerIrq => rfl
  | keyboardIrq => rfl
  | mouseIrq => rfl

/-- The stack pointer before it is realigned. -/
def savedRsp (cpu : Cpu) : Qword := cpu.registers .rsp - 80

theorem pushAll_saved_rsp (cpu : Cpu) :
    (pushAll cpu savedRegisters).registers .rsp = savedRsp cpu := pushAll_rsp

/-- The machine at the call. -/
def atCall (cpu : Cpu) : Cpu := runOps cpu prologue

theorem atCall_eq (cpu : Cpu) : atCall cpu =
    ({ pushAll cpu savedRegisters with directionFlag := false }.set .rbx
      (savedRsp cpu)).set .rsp (savedRsp cpu &&& -16) := by
  have hpushed : atCall cpu =
      runOps (pushAll cpu savedRegisters) [.cld, .mov .rbx .rsp, .and .rsp (-16)] := by
    unfold atCall prologue runOps pushAll runOps
    rw [List.foldl_append]
  have hne : Register.rsp ≠ .rbx := by decide
  rw [hpushed, ← pushAll_saved_rsp]
  unfold runOps
  rw [List.foldl_cons, List.foldl_cons, List.foldl_cons, List.foldl_nil, Op.apply, Op.apply,
    Op.apply, Cpu.set_of_ne hne]

theorem atCall_rsp (cpu : Cpu) :
    (atCall cpu).registers .rsp = savedRsp cpu &&& -16 := by
  rw [atCall_eq, Cpu.set_same]

theorem atCall_rbx (cpu : Cpu) : (atCall cpu).registers .rbx = savedRsp cpu := by
  rw [atCall_eq, Cpu.set_of_ne (by decide), Cpu.set_same]

theorem atCall_of_ne {r : Register} (hrsp : r ≠ .rsp) (hrbx : r ≠ .rbx) :
    (atCall cpu).registers r = cpu.registers r := by
  rw [atCall_eq, Cpu.set_of_ne hrsp, Cpu.set_of_ne hrbx]
  change (pushAll cpu savedRegisters).registers r = _
  exact pushAll_of_ne hrsp

/-- What the handler starts with: the return address is on the stack. -/
def called (cpu : Cpu) (next : Qword) : Cpu := (atCall cpu).push next

variable {next x : Qword}

/-- **The return address is below the padding**, so the saved registers and
the processor's frame are on the stack the callee keeps. -/
theorem distance_called (hx : (x - savedRsp cpu).toNat < 120) :
    (x - (called cpu next).registers .rsp).toNat <
        (frameEnd cpu - (called cpu next).registers .rsp).toNat ∧
      (x - (atCall cpu).registers .rsp).toNat + 8 < 2 ^ 64 := by
  have hpadding := sub_and_neg_sixteen_lt (savedRsp cpu)
  have hsum := toNat_sub_add (show (x - savedRsp cpu).toNat +
    (savedRsp cpu - (savedRsp cpu &&& -16)).toNat < 2 ^ 64 by omega)
  unfold called
  rw [Cpu.push_rsp, atCall_rsp]
  generalize hround : savedRsp cpu &&& -16 = aligned at *
  unfold savedRsp frameEnd at *
  constructor
  · bv_omega
  · bv_omega

/-- There is room on it for the return address. -/
theorem called_depth (cpu : Cpu) (next : Qword) :
    8 ≤ (frameEnd cpu - (called cpu next).registers .rsp).toNat := by
  have hpadding := sub_and_neg_sixteen_lt (savedRsp cpu)
  unfold called
  rw [Cpu.push_rsp, atCall_rsp]
  generalize hround : savedRsp cpu &&& -16 = aligned at *
  unfold savedRsp frameEnd at *
  bv_omega

/-- **The callee returns behind the call.** -/
theorem KeepsAbi.top (habi : KeepsAbi (frameEnd cpu) (called cpu next) after) :
    after.top = next := by
  have hrsp := habi.registers .rsp (by decide)
  have hload : loadWord after.memory ((called cpu next).registers .rsp) =
      loadWord (called cpu next).memory ((called cpu next).registers .rsp) :=
    loadWord_congr fun x hx => habi.stack x (lt_of_lt_of_le hx (called_depth cpu next))
  unfold Cpu.top
  rw [hrsp, hload]
  exact Cpu.push_top

/-- The stack from the saved registers on is as it was when they were
saved. -/
theorem KeepsAbi.memory (habi : KeepsAbi (frameEnd cpu) (called cpu next) after)
    (hx : (x - savedRsp cpu).toNat < 120) :
    after.memory x = (pushAll cpu savedRegisters).memory x := by
  obtain ⟨hstack, hpush⟩ := distance_called hx
  rw [habi.stack x hstack]
  unfold called
  rw [Cpu.push_memory hpush, atCall_eq]
  rfl

/-- What the rest of the stub starts with, the padding discarded. -/
theorem runOps_epilogue (cpu : Cpu) : runOps cpu epilogue =
    popAll (cpu.set .rsp (cpu.registers .rbx)) savedRegisters.reverse := by
  unfold epilogue popAll runOps
  rw [List.foldl_cons, Op.apply]

/-- The callee has kept where the saved registers are. -/
theorem KeepsAbi.rbx (habi : KeepsAbi (frameEnd cpu) (called cpu next) after) :
    after.drop.registers .rbx = savedRsp cpu := by
  rw [Cpu.drop_of_ne (by decide), habi.registers .rbx (by decide)]
  unfold called
  rw [Cpu.push_of_ne (by decide), atCall_rbx]

/-- What a stub does not save a callee keeps. -/
theorem mem_calleeSaved : ∀ r : Register, r ∉ savedRegisters → r ≠ .rsp →
    r ∈ calleeSaved ∧ r ≠ .rbx := by
  intro r
  cases r <;> decide

theorem KeepsAbi.not_saved (habi : KeepsAbi (frameEnd cpu) (called cpu next) after) {r : Register}
    (hr : r ∉ savedRegisters) (hrsp : r ≠ .rsp) : after.registers r = cpu.registers r := by
  obtain ⟨hkeeps, hrbx⟩ := mem_calleeSaved r hr hrsp
  rw [habi.registers r hkeeps]
  unfold called
  rw [Cpu.push_of_ne hrsp, atCall_of_ne hrsp hrbx]

/-- **What is put back is what was saved**, if the callee has kept to the
ABI. -/
theorem KeepsAbi.restores (habi : KeepsAbi (frameEnd cpu) (called cpu next) after) :
    (runOps after.drop epilogue).registers = cpu.registers ∧
      ∀ x, OnFrame cpu x → (runOps after.drop epilogue).memory x = cpu.memory x := by
  have hsaved := pushAll_saved_rsp cpu
  have hstack : (after.drop.set .rsp (savedRsp cpu)).registers .rsp =
      (pushAll cpu savedRegisters).registers .rsp := by
    rw [Cpu.set_same, hsaved]
  rw [runOps_epilogue, habi.rbx]
  obtain ⟨hmemory, hrsp, hpopped, hkept⟩ := popAll_pushAll (by decide) (by decide) hstack
    fun x hx => by
      rw [hsaved] at hx
      exact habi.memory (lt_of_lt_of_le hx (by decide))
  constructor
  · funext r
    by_cases hr : r = .rsp
    · rw [hr, hrsp]
    by_cases hmem : r ∈ savedRegisters
    · exact hpopped r hmem
    · rw [hkept r hmem hr, Cpu.set_of_ne hr, Cpu.drop_of_ne hr, habi.not_saved hmem hr]
  · intro x hx
    have hx' : (x - cpu.registers .rsp).toNat < 40 := hx
    have hdistance : (x - savedRsp cpu).toNat < 120 := by
      unfold savedRsp
      bv_omega
    have hpushed : (x - cpu.registers .rsp).toNat + 8 * savedRegisters.length < 2 ^ 64 := by
      have hlength : savedRegisters.length = 10 := rfl
      omega
    rw [hmemory]
    exact (habi.memory hdistance).trans (pushAll_memory hpushed)

/-- **A handler that writes at no address from its return address on** keeps
the stack, where the stack does not wrap. -/
theorem keepsAbi_of_not_above
    (hregisters : ∀ r ∈ calleeSaved, after.registers r = (called cpu next).registers r)
    (hmemory : ∀ x, (called cpu next).registers .rsp ≤ x →
      after.memory x = (called cpu next).memory x)
    (hroom : 103 ≤ (cpu.registers .rsp).toNat)
    (hend : (cpu.registers .rsp).toNat + 40 < 2 ^ 64) :
    KeepsAbi (frameEnd cpu) (called cpu next) after := by
  refine ⟨hregisters, fun x hx => hmemory x ?_⟩
  have hpadding := sub_and_neg_sixteen_lt (savedRsp cpu)
  revert hx
  unfold called
  rw [Cpu.push_rsp, atCall_rsp]
  generalize hround : savedRsp cpu &&& -16 = aligned at *
  unfold savedRsp frameEnd at *
  intro hx
  bv_omega

/-! ## A stub from end to end -/

/-- **The stubs are transparent.** Wherever a stub stands, and whatever the
registers, the flag, the memory and the stack pointer it is entered with, it
comes to its call with an aligned stack and the direction flag clear; and if
the handler it calls there keeps to the ABI it comes to its `iretq`, with
every register and the processor's frame as at entry. -/
theorem isr_transparent (handler : IrqHandler) (code : Code IrqHandler)
    (callee : IrqHandler → Cpu → Cpu) (rip : Qword) (cpu : Cpu)
    (hlaid : Laid code rip handler.isr) :
    ∃ callAddress next, Executes code callee (rip, cpu) (callAddress, atCall cpu) ∧
      code callAddress = some (.call handler, next) ∧
      16 ∣ ((atCall cpu).registers .rsp).toNat ∧
      (atCall cpu).directionFlag = false ∧
      (KeepsAbi (frameEnd cpu) (called cpu next) (callee handler (called cpu next)) →
        ∃ iretqAddress last,
          Executes code callee (callAddress, atCall cpu) (iretqAddress, last) ∧
          (∃ behind, code iretqAddress = some (.iretq, behind)) ∧
          last.registers = cpu.registers ∧
          ∀ x, OnFrame cpu x → last.memory x = cpu.memory x) := by
  rw [isr_eq] at hlaid
  obtain ⟨callAddress, hprologue, next, hcall, hbehind⟩ := executes_ops hlaid
  refine ⟨callAddress, next, hprologue, hcall, ?_, ?_, fun habi => ?_⟩
  · rw [atCall_rsp]
    exact dvd_and_neg_sixteen _
  · rw [atCall_eq]
    rfl
  · obtain ⟨iretqAddress, hepilogue, behind, hiretq, -⟩ := executes_ops hbehind
    obtain ⟨hregisters, hframe⟩ := habi.restores
    exact ⟨iretqAddress, _, (executes_call hcall habi.top).trans hepilogue, ⟨behind, hiretq⟩,
      hregisters, hframe⟩

/-- A handler that leaves nothing it may change as it was. -/
def clobber (cpu : Cpu) : Cpu where
  registers := fun r => if r ∈ calleeSaved then cpu.registers r else 0
  directionFlag := true
  memory := fun x => if x = cpu.registers .rsp - 1 then 0xFF else cpu.memory x

theorem keepsAbi_clobber (stackEnd : Qword) (before : Cpu) :
    KeepsAbi stackEnd before (clobber before) := by
  refine ⟨fun r hr => if_pos hr, fun x hx => if_neg ?_⟩
  rintro rfl
  bv_omega

/-- A machine whose stack is not aligned. -/
def unaligned : Cpu where
  registers := fun r => if r = .rsp then 0x1003 else 7
  directionFlag := true
  memory := fun _ => 0

/-- The timer's stub on it. -/
theorem isr_transparent_timer : ∃ iretqAddress last,
    Executes (codeOf isrTimer) (fun _ => clobber) (0, unaligned) (iretqAddress, last) ∧
      (∃ behind, codeOf isrTimer iretqAddress = some (.iretq, behind)) ∧
      last.registers = unaligned.registers := by
  obtain ⟨callAddress, next, hcall, -, -, -, htransparent⟩ :=
    isr_transparent .timerIrq (codeOf isrTimer) (fun _ => clobber) 0 unaligned
      (laid_codeOf isrTimer (by decide))
  obtain ⟨iretqAddress, last, hreaches, hiretq, hregisters, -⟩ :=
    htransparent (keepsAbi_clobber _ _)
  exact ⟨iretqAddress, last, hcall.trans hreaches, hiretq, hregisters⟩

end KbmOs
