import KbmOs.Lib.StackMachine
/-!
# The interrupt stubs

`arch/x86_64/interrupts.S`: the three stubs of hardware interrupts. They
are one text but for the C function they call, which is outside of them.
-/

namespace KbmOs

open StackMachine

/-- The C functions behind the stubs. -/
inductive IrqHandler
  | timerIrq
  | keyboardIrq
  | mouseIrq
deriving DecidableEq

/-- The text of the stubs. -/
def irqStub (handler : IrqHandler) : List (Instruction IrqHandler) := [
  .op (.push .rax),
  .op (.push .rcx),
  .op (.push .rdx),
  .op (.push .rsi),
  .op (.push .rdi),
  .op (.push .r8),
  .op (.push .r9),
  .op (.push .r10),
  .op (.push .r11),
  -- the original stack address is kept before it is realigned
  .op (.push .rbx),
  .op .cld,
  .op (.mov .rbx .rsp),
  .op (.and .rsp (-16)),
  .call handler,
  .op (.mov .rsp .rbx),
  .op (.pop .rbx),
  .op (.pop .r11),
  .op (.pop .r10),
  .op (.pop .r9),
  .op (.pop .r8),
  .op (.pop .rdi),
  .op (.pop .rsi),
  .op (.pop .rdx),
  .op (.pop .rcx),
  .op (.pop .rax),
  .iretq]

def isrTimer : List (Instruction IrqHandler) := irqStub .timerIrq

def isrKeyboard : List (Instruction IrqHandler) := irqStub .keyboardIrq

def isrMouse : List (Instruction IrqHandler) := irqStub .mouseIrq

/-- The stub that calls a handler. -/
def IrqHandler.isr : IrqHandler → List (Instruction IrqHandler)
  | .timerIrq => isrTimer
  | .keyboardIrq => isrKeyboard
  | .mouseIrq => isrMouse

end KbmOs
