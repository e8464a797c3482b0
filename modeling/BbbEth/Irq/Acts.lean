import BbbEth.Irq.Dispatch
import BbbEth.Irq.Transparency

/-!
# What the routine does

The instructions of `irq_isr` beside the dispatch that they make: what each of them does to the
interrupt controller, the table and the I bit, and that the routine does in all what the dispatch
says.
-/

namespace BbbEth.Service

open Arm

variable {device : Word → Option Word} {before core : Core} {routine irqVector sirIrq : Word}

/-! ## Acts -/

/-- What an instruction does beside the registers, the flags and the stack. -/
def act (core : Core) : Instr → Option Irq.Act
  | .msrCpsrC rn => some (if (core.regs rn).getLsbD 7 then .disableIrq else .enableIrq)
  | .ldr _ rn offset => some (.ldr (core.regs rn + offset))
  | .ldrLsl _ rn rm shift => some (.ldr (core.regs rn + core.regs rm <<< shift))
  | .blx rm => some (.blx (core.regs rm))
  | .str rt rn offset => some (.str (core.regs rn + offset) (core.regs rt))
  | .dsb => some .dsb
  | .subsPcLr _ => some .leave
  | _ => none

/-- What instructions do, one after the other. -/
def acts (device : Word → Option Word) : Core → List Instr → List Irq.Act
  | _, [] => []
  | core, instr :: instrs =>
      (act core instr).toList ++ acts device (exec device core instr) instrs

/-- What `irq_isr` does, on a handler that behaves as a function of the core. -/
def irqIsrActs (irqVector sirIrq : Word) (handler : Core → Core) (core : Core) : List Irq.Act :=
  let tested := prologue.foldl (exec (intc sirIrq)) core
  let passed := exec (intc sirIrq) tested spurious
  acts (intc sirIrq) core prologue ++
    if tested.ge then acts (intc sirIrq) passed epilogue
    else acts (intc sirIrq) passed (dispatch irqVector) ++
      acts (intc sirIrq) (handler (called irqVector sirIrq core)) epilogue

/-! ## The comparison -/

/-- A bit of a flag. -/
theorem getLsbD_flag (holds : Prop) [Decidable holds] (mask : Word) (bit : Nat) :
    (if holds then mask else 0).getLsbD bit = (decide holds && mask.getLsbD bit) := by
  split
  · rename_i yes
    rw [decide_eq_true yes, Bool.true_and]
  · rename_i no
    rw [decide_eq_false no, Bool.false_and]
    exact BitVec.getLsbD_zero

/-- The flags behind a comparison that the signed conditions test. -/
theorem flags_compare (status first second : Word) :
    (status &&& 0x0fffffff ||| compareFlags first second).getLsbD 31 = (Irq.cmp first second).n ∧
      (status &&& 0x0fffffff ||| compareFlags first second).getLsbD 28 =
        (Irq.cmp first second).v := by
  have bits : ∀ bit ∈ [28, 31], (0x0fffffff : Word).getLsbD bit = false ∧
      (0x40000000 : Word).getLsbD bit = false ∧ (0x20000000 : Word).getLsbD bit = false ∧
      (0x80000000 : Word).getLsbD bit = decide (bit = 31) ∧
      (0x10000000 : Word).getLsbD bit = decide (bit = 28) := by decide
  obtain ⟨above, zero, carry, negative, overflow⟩ := bits 31 (by decide)
  obtain ⟨above', zero', carry', negative', overflow'⟩ := bits 28 (by decide)
  simp only [compareFlags, Irq.cmp, BitVec.getLsbD_or, BitVec.getLsbD_and, getLsbD_flag,
    Bool.decide_eq_true, above, zero, carry, negative, overflow, above', zero', carry', negative',
    overflow', Bool.and_false, Bool.false_or, Bool.or_false, Bool.and_true, decide_true,
    decide_false, Nat.reduceEqDiff, and_self]

/-- The condition `ge` behind a comparison. -/
theorem ge_exec_cmp (rn : Reg) (value : Word) :
    (exec device core (.cmp rn value)).ge = (Irq.cmp (core.regs rn) value).ge := by
  obtain ⟨n, v⟩ := flags_compare core.cpsr (core.regs rn) value
  exact congrArg₂ (· == ·) n v

/-! ## The prologue -/

/-- The routine branches where the dispatch does. -/
theorem ge_prologue :
    (prologue.foldl (exec (intc sirIrq)) core).ge = (Irq.cmp sirIrq 0x80).ge := by
  have parts : prologue = prologue.take 8 ++ [.cmp .r1 0x80] := rfl
  rw [parts, List.foldl_append]
  exact @ge_exec_cmp (intc sirIrq) ((prologue.take 8).foldl (exec (intc sirIrq)) core) .r1 0x80

/-- A word that the routine does not push over stays. -/
theorem memory_prologue {place : Word} (mode : core.mode = modeIrq)
    (apart : ∀ word < 6, place ≠ core.irqSp - 24 + 4 * BitVec.ofNat 32 word) :
    (prologue.foldl (exec device) core).memory place = core.memory place := by
  have first : (exec device core (.stmfd scratch)).memory place = core.memory place := by
    refine stmfd_away mode fun index inside same => apart (index + 1) ?_ ?_
    · change index < 5 at inside
      omega
    · rw [same]
      change core.irqSp - 4 * BitVec.ofNat 32 5 + _ = _
      bv_omega
  have pushed : exec device core (.stmfd scratch) =
      { core with
        irqSp := core.irqSp - 4 * BitVec.ofNat 32 5
        memory := storeWords core.memory (core.irqSp - 4 * BitVec.ofNat 32 5)
          (scratch.map (Slot.get core))
        pc := core.pc + 4 } := stmfd_irq device mode scratch
  let noted := exec device (exec device core (.stmfd scratch)) (.mrsSpsr .r12)
  have bottom : noted.irqSp = core.irqSp - 20 := congrArg Core.irqSp pushed
  have same : noted.mode = modeIrq := (congrArg Core.mode pushed).trans mode
  have second : (exec device noted (.stmfd [.reg .r12])).memory place = noted.memory place := by
    refine stmfd_away same fun index inside lies => apart 0 (by decide) ?_
    obtain rfl : index = 0 := Nat.lt_one_iff.1 inside
    rw [lies, bottom]
    change core.irqSp - 20 - 4 * BitVec.ofNat 32 1 + _ = _
    bv_omega
  exact second.trans first

/-! ## What the parts do -/

/-- Interrupts are disabled and the number is read. -/
theorem acts_prologue : acts (intc sirIrq) core prologue =
    [.disableIrq, .ldr (Irq.socAintcRegs + Irq.intcSirIrq)] := by
  have set (status : Word) : (status ||| irqDisable).getLsbD 7 = true := by
    rw [BitVec.getLsbD_or]
    exact Bool.or_true _
  refine congrArg (· :: _) ?_
  exact if_pos (set _)

/-- The handler of the number is called. -/
theorem acts_dispatch : acts device core (dispatch irqVector) =
    [.ldr (irqVector + core.regs .r1 <<< 2),
      .blx (core.memory (irqVector + core.regs .r1 <<< 2))] := rfl

/-- The controller is told, and the routine returns with interrupts enabled. -/
theorem acts_epilogue : acts (intc sirIrq) core epilogue =
    [.str (Irq.socAintcRegs + Irq.intcControl) 0x1, .dsb, .enableIrq, .leave] := by
  have cleared (status : Word) : (status &&& ~~~irqDisable).getLsbD 7 ≠ true := by
    rw [BitVec.getLsbD_and]
    exact ne_of_eq_of_ne (Bool.and_false _) Bool.false_ne_true
  refine congrArg (fun enable => [_, _, enable, _]) ?_
  exact if_neg (cleared _)

/-! ## The whole routine -/

/-- The branch leaves memory and the registers. -/
theorem beside_spurious : (exec device core spurious).memory = core.memory ∧
    (exec device core spurious).regs = core.regs := by
  change (if _ then _ else _ : Core).memory = _ ∧ (if _ then _ else _ : Core).regs = _
  split
  · exact ⟨rfl, rfl⟩
  · exact ⟨rfl, rfl⟩

/-- The instructions of the routine do what the dispatch says, where the table is in memory and
apart from the stack. -/
theorem acts_irqIsr {image : Irq.Image} {handler : Core → Core}
    (linked : before.memory (image.base + sirIrq <<< 2) =
      image.memory (image.base + sirIrq <<< 2))
    (apart : ∀ word < 6,
      image.base + sirIrq <<< 2 ≠ before.irqSp - 24 + 4 * BitVec.ofNat 32 word) :
    irqIsrActs image.base sirIrq handler (enter routine before) = Irq.irqIsr image sirIrq := by
  have loaded : (prologue.foldl (exec (intc sirIrq)) (enter routine before)).memory
      (image.base + sirIrq <<< 2) = image.memory (image.base + sirIrq <<< 2) :=
    (memory_prologue working_enter.mode apart).trans linked
  have number : (prologue.foldl (exec (intc sirIrq)) (enter routine before)).regs .r1 = sirIrq :=
    rfl
  unfold irqIsrActs Irq.irqIsr
  dsimp only
  rw [acts_prologue, acts_epilogue, acts_epilogue, acts_dispatch, ge_prologue]
  generalize prologue.foldl (exec (intc sirIrq)) (enter routine before) = tested at loaded number ⊢
  obtain ⟨memory, regs⟩ := @beside_spurious (intc sirIrq) tested
  rw [memory, regs, number, loaded]
  split
  · rfl
  · rfl

/-- The table of a program, and the interrupt of the receiver. -/
theorem acts_irqIsr_receiver :
    irqIsrActs Irq.flat.base 41 defHandler
      (enter 0x40301000 { idle with memory := Irq.flat.memory }) = Irq.irqIsr Irq.flat 41 :=
  acts_irqIsr rfl (by decide)

end BbbEth.Service
