import BbbEth.Irq.Core

/-!
# The interrupt service routine

`irq_isr` instruction by instruction.  It saves the scratch registers but r12, which it uses for
the status of the interrupted program.
-/

namespace BbbEth.Service

open Arm

/-! ## The routine -/

def socAintcRegs : Word := 0x48200000
def intcSirIrq : Word := 0x40
def intcControl : Word := 0x48

/-- The interrupt controller, with the value of its register of the active interrupt. -/
def intc (sirIrq address : Word) : Option Word :=
  if address = socAintcRegs + intcSirIrq then some sirIrq
  else if address = socAintcRegs + intcControl then some 0
  else none

/-- The registers that the routine saves. -/
def scratch : List Slot := [.reg .r0, .reg .r1, .reg .r2, .reg .r3, .lr]

/-- `irq_isr` up to the test for a spurious interrupt. -/
def prologue : List Instr :=
  [.stmfd scratch, .mrsSpsr .r12, .stmfd [.reg .r12],
    .mrsCpsr .r1, .orr .r1 .r1 0x80, .msrCpsrC .r1,
    .ldrConst .r0 socAintcRegs, .ldr .r1 .r0 intcSirIrq, .cmp .r1 0x80]

/-- The branch to `irq_isr_exit`. -/
def spurious : Instr := .bge 16

/-- The call of the handler. -/
def dispatch (irqVector : Word) : List Instr :=
  [.adr .r2 irqVector, .ldrLsl .r2 .r2 .r1 2, .blx .r2]

/-- `irq_isr_exit`. -/
def epilogue : List Instr :=
  [.ldrConst .r0 socAintcRegs, .ldrConst .r1 0x1, .str .r1 .r0 intcControl, .dsb,
    .mrsCpsr .r1, .bic .r1 .r1 0x80, .msrCpsrC .r1,
    .ldmfd [.reg .r12], .msrSpsr .r12, .ldmfd scratch, .subsPcLr 4]

/-- The core at the call of the handler. -/
def called (irqVector sirIrq : Word) (core : Core) : Core :=
  (dispatch irqVector).foldl (exec (intc sirIrq))
    (exec (intc sirIrq) (prologue.foldl (exec (intc sirIrq)) core) spurious)

/-- `irq_isr`, on a handler that behaves as a function of the core. -/
def irqIsr (irqVector sirIrq : Word) (handler : Core → Core) (core : Core) : Core :=
  let tested := prologue.foldl (exec (intc sirIrq)) core
  if tested.ge then epilogue.foldl (exec (intc sirIrq)) (exec (intc sirIrq) tested spurious)
  else epilogue.foldl (exec (intc sirIrq)) (handler (called irqVector sirIrq core))

/-! ## Handlers -/

/-- The registers that a handler preserves. -/
def preserved : Reg → Bool
  | .r0 | .r1 | .r2 | .r3 | .r12 => false
  | _ => true

/-- What the procedure call standard allows a handler: it returns, with the registers that it has
to preserve, in the same mode, and leaves what the routine has on the stack. -/
structure Conforms (before after : Core) : Prop where
  regs : ∀ reg, preserved reg = true → after.regs reg = before.regs reg
  mode : after.mode = before.mode
  irqSp : after.irqSp = before.irqSp
  sysSp : after.sysSp = before.sysSp
  sysLr : after.sysLr = before.sysLr
  spsrIrq : after.spsrIrq = before.spsrIrq
  stack : ∀ word < 6, after.memory (before.irqSp + 4 * BitVec.ofNat 32 word) =
    before.memory (before.irqSp + 4 * BitVec.ofNat 32 word)
  pc : after.pc = before.irqLr

/-- The interrupted program does not notice: every register and the status are as they were, it
goes on where it was, and the stack of the routine is as it was. -/
structure Transparent (before after : Core) : Prop where
  regs : ∀ reg, after.regs reg = before.regs reg
  sp : after.sp = before.sp
  lr : after.lr = before.lr
  cpsr : after.cpsr = before.cpsr
  pc : after.pc = before.pc
  irqSp : after.irqSp = before.irqSp

end BbbEth.Service
