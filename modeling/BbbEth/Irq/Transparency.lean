import BbbEth.Irq.Frame

/-!
# The interrupted program

What `irq_isr` puts back of the interrupted program, and what it does not.
-/

namespace BbbEth.Service

open Arm

variable {device : Word → Option Word} {before core : Core} {routine irqVector sirIrq : Word}

/-! ## The acknowledgement -/

/-- The controller is told that the interrupt is served. -/
theorem Saved.acknowledge (kept : Saved before core) :
    Saved before ([.ldrConst .r0 socAintcRegs, .ldrConst .r1 0x1, .str .r1 .r0 intcControl,
      .dsb].foldl (exec (intc sirIrq)) core) := by
  have value : Saved before ([.ldrConst .r0 socAintcRegs, .ldrConst .r1 0x1].foldl
      (exec (intc sirIrq)) core) := kept.run rfl
  simp only [List.foldl_cons, List.foldl_nil] at value ⊢
  rw [exec_str rfl]
  exact (value.scratched .advance).step rfl

/-! ## The whole routine -/

/-- Behind the handler or the branch, the routine returns with the status in r12. -/
theorem Saved.returned (kept : Saved before core) :
    Returned before (epilogue.foldl (exec (intc sirIrq)) core) := by
  have parts : epilogue =
      [.ldrConst .r0 socAintcRegs, .ldrConst .r1 0x1, .str .r1 .r0 intcControl, .dsb] ++
        [.mrsCpsr .r1, .bic .r1 .r1 0x80, .msrCpsrC .r1] ++
        [.ldmfd [.reg .r12], .msrSpsr .r12, .ldmfd scratch, .subsPcLr 4] := by
    simp only [epilogue, List.cons_append, List.nil_append]
  rw [parts, List.foldl_append, List.foldl_append]
  exact kept.acknowledge.enable.restored

theorem saved_prologue : Saved before (prologue.foldl (exec device) (enter routine before)) := by
  have parts : prologue = [.stmfd scratch, .mrsSpsr .r12, .stmfd [.reg .r12]] ++
      [.mrsCpsr .r1, .orr .r1 .r1 0x80, .msrCpsrC .r1] ++
      [.ldrConst .r0 socAintcRegs, .ldr .r1 .r0 intcSirIrq, .cmp .r1 0x80] := by
    simp only [prologue, List.cons_append, List.nil_append]
  rw [parts, List.foldl_append, List.foldl_append]
  exact saved_enter.disable.run rfl

theorem saved_called : Saved before (called irqVector sirIrq (enter routine before)) :=
  (saved_prologue.step rfl).run rfl

/-- The routine returns, with everything put back but r12. -/
theorem returned_irqIsr {handler : Core → Core}
    (conforms : Conforms (called irqVector sirIrq (enter routine before))
      (handler (called irqVector sirIrq (enter routine before)))) :
    Returned before (irqIsr irqVector sirIrq handler (enter routine before)) := by
  unfold irqIsr
  dsimp only
  split
  · exact (saved_prologue.step rfl).returned
  · exact (saved_called.handled conforms).returned

/-- A routine that returns so is transparent if r12 holds the status anyway. -/
theorem Returned.unnoticed_iff {after : Core} (returned : Returned before after)
    (sys : before.mode = modeSys) :
    Transparent before after ↔ before.regs .r12 = before.cpsr := by
  have same : after.mode = before.mode := congrArg (· &&& modeMask) returned.cpsr
  have other : ¬before.mode = modeIrq := by
    rw [sys]
    decide
  constructor
  · intro transparent
    exact (transparent.regs .r12).symm.trans returned.r12
  · intro status
    refine ⟨fun reg => ?_, ?_, ?_, returned.cpsr, returned.pc, returned.irqSp⟩
    · by_cases lost : reg = .r12
      · rw [lost, returned.r12, status]
      · exact returned.regs reg lost
    · rw [Core.sp, Core.sp, same, if_neg other, if_neg other, returned.sysSp]
    · rw [Core.lr, Core.lr, same, if_neg other, if_neg other, returned.sysLr]

/-! ## A handler and a program -/

/-- `def`, which returns at once. -/
def defHandler (core : Core) : Core := { core with pc := core.lr }

theorem conforms_defHandler (mode : core.mode = modeIrq) : Conforms core (defHandler core) :=
  ⟨fun _ _ => rfl, rfl, rfl, rfl, rfl, rfl, fun _ _ => rfl, if_pos mode⟩

/-- A program with nothing in its registers. -/
def idle : Core where
  regs _ := 0
  sysSp := 0x4030c000
  sysLr := 0
  irqSp := 0x4030cc00
  irqLr := 0
  spsrIrq := 0
  cpsr := modeSys
  pc := 0x402f0400
  memory _ := 0

/-! ## Transparency -/

/-- An interrupt is transparent exactly to a program whose r12 holds its status. -/
theorem transparent_iff {handler : Core → Core} (sys : before.mode = modeSys)
    (conforms : Conforms (called irqVector sirIrq (enter routine before))
      (handler (called irqVector sirIrq (enter routine before)))) :
    Transparent before (irqIsr irqVector sirIrq handler (enter routine before)) ↔
      before.regs .r12 = before.cpsr :=
  (returned_irqIsr conforms).unnoticed_iff sys

/-- So it is to a program that holds it there. -/
theorem transparent_iff_idle :
    ({ idle with regs := fun _ => modeSys } : Core).mode = modeSys ∧
    Transparent { idle with regs := fun _ => modeSys } (irqIsr 0x40300000 41 defHandler
      (enter 0x40301000 { idle with regs := fun _ => modeSys })) :=
  ⟨rfl, (transparent_iff rfl (conforms_defHandler saved_called.mode)).2 rfl⟩

/-- The interrupt of the receiver leaves the status of the program in its r12. -/
theorem not_transparent : idle.mode = modeSys ∧
    Conforms (called 0x40300000 41 (enter 0x40301000 idle))
      (defHandler (called 0x40300000 41 (enter 0x40301000 idle))) ∧
    ¬Transparent idle (irqIsr 0x40300000 41 defHandler (enter 0x40301000 idle)) := by
  have conforms : Conforms (called 0x40300000 41 (enter 0x40301000 idle))
      (defHandler (called 0x40300000 41 (enter 0x40301000 idle))) :=
    conforms_defHandler saved_called.mode
  refine ⟨rfl, conforms, fun transparent => ?_⟩
  have lost := (transparent.regs .r12).symm.trans (returned_irqIsr conforms).r12
  exact absurd lost (by decide)

end BbbEth.Service
