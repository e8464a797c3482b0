import BbbEth.Irq.Service

/-!
# The stages of the routine

What each instruction of `irq_isr` keeps of the interrupted program, on the stack of the routine
and in the registers.
-/

namespace BbbEth.Service

open Arm

variable {device : Word → Option Word} {before core after : Core} {instr : Instr}

/-! ## Scratch work -/

/-- Only registers that a handler need not preserve change, with the flags and the place. -/
structure Scratched (core after : Core) : Prop where
  mode : after.mode = core.mode
  masked : after.masked = core.masked
  irqSp : after.irqSp = core.irqSp
  sysSp : after.sysSp = core.sysSp
  sysLr : after.sysLr = core.sysLr
  spsrIrq : after.spsrIrq = core.spsrIrq
  memory : after.memory = core.memory
  regs : ∀ reg, preserved reg = true → after.regs reg = core.regs reg

/-- The instructions that do scratch work, whatever the registers hold. -/
def scratches : Instr → Bool
  | .mrsCpsr rd | .orr rd .. | .bic rd .. | .ldrConst rd _ | .ldr rd .. | .ldrLsl rd ..
  | .adr rd _ => !preserved rd
  | .cmp .. | .bge _ | .dsb | .blx _ => true
  | _ => false

theorem Scratched.refl : Scratched core core :=
  ⟨rfl, rfl, rfl, rfl, rfl, rfl, rfl, fun _ _ => rfl⟩

theorem Scratched.trans {last : Core} (first : Scratched core after)
    (second : Scratched after last) : Scratched core last where
  mode := second.mode.trans first.mode
  masked := second.masked.trans first.masked
  irqSp := second.irqSp.trans first.irqSp
  sysSp := second.sysSp.trans first.sysSp
  sysLr := second.sysLr.trans first.sysLr
  spsrIrq := second.spsrIrq.trans first.spsrIrq
  memory := second.memory.trans first.memory
  regs reg kept := (second.regs reg kept).trans (first.regs reg kept)

theorem Scratched.advance : Scratched core core.advance :=
  ⟨rfl, rfl, rfl, rfl, rfl, rfl, rfl, fun _ _ => rfl⟩

/-- The mode is below the I bit. -/
theorem mode_congr {first second : Word}
    (low : ∀ bit < 5, second.getLsbD bit = first.getLsbD bit) :
    second &&& modeMask = first &&& modeMask := by
  apply BitVec.eq_of_getLsbD_eq
  intro bit inside
  rw [BitVec.getLsbD_and, BitVec.getLsbD_and]
  have mask : ∀ bit < 32, modeMask.getLsbD bit = decide (bit < 5) := by decide
  by_cases small : bit < 5
  · rw [low bit small]
  · rw [mask bit inside, decide_eq_false (by omega), Bool.and_false, Bool.and_false]

/-- A flag is above the control field. -/
theorem flag_low {flag : Word} {holds : Prop} [Decidable holds]
    (above : ∀ bit < 8, flag.getLsbD bit = false) :
    ∀ bit < 8, (if holds then flag else 0).getLsbD bit = false := by
  intro bit inside
  split
  · exact above bit inside
  · exact BitVec.getLsbD_zero

theorem compareFlags_low (first second : Word) :
    ∀ bit < 8, (compareFlags first second).getLsbD bit = false := by
  intro bit inside
  unfold compareFlags
  rw [BitVec.getLsbD_or, BitVec.getLsbD_or, BitVec.getLsbD_or, flag_low (by decide) bit inside,
    flag_low (by decide) bit inside, flag_low (by decide) bit inside,
    flag_low (by decide) bit inside]
  rfl

/-- A comparison leaves the control field. -/
theorem control_cmp (cpsr first second : Word) : ∀ bit < 8,
    (cpsr &&& 0x0fffffff ||| compareFlags first second).getLsbD bit = cpsr.getLsbD bit := by
  intro bit inside
  have kept : ∀ bit < 8, (0x0fffffff : Word).getLsbD bit = true := by decide
  rw [BitVec.getLsbD_or, BitVec.getLsbD_and, kept bit inside, compareFlags_low first second bit
    inside, Bool.and_true, Bool.or_false]

/-- A register that need not be preserved is set. -/
theorem Scratched.setReg {rd : Reg} {value : Word} (free : (!preserved rd) = true) :
    Scratched core (core.setReg rd value).advance where
  mode := rfl
  masked := rfl
  irqSp := rfl
  sysSp := rfl
  sysLr := rfl
  spsrIrq := rfl
  memory := rfl
  regs reg kept := by
    refine Function.update_of_ne (fun same => ?_) ..
    rw [same] at kept
    rw [kept] at free
    cases free

theorem scratched_exec (plain : scratches instr = true) (mode : core.mode = modeIrq) :
    Scratched core (exec device core instr) := by
  cases instr with
  | mrsCpsr rd => exact .setReg plain
  | orr rd rn value => exact .setReg plain
  | bic rd rn value => exact .setReg plain
  | ldrConst rd value => exact .setReg plain
  | ldr rd rn offset => exact .setReg plain
  | ldrLsl rd rn rm shift => exact .setReg plain
  | adr rd address => exact .setReg plain
  | cmp rn value =>
      have control := control_cmp core.cpsr (core.regs rn) value
      exact ⟨mode_congr fun bit inside => control bit (by omega), control 7 (by decide), rfl, rfl,
        rfl, rfl, rfl, fun _ _ => rfl⟩
  | bge skip =>
      change Scratched core (if core.ge = true then _ else _)
      split
      · exact ⟨rfl, rfl, rfl, rfl, rfl, rfl, rfl, fun _ _ => rfl⟩
      · exact ⟨rfl, rfl, rfl, rfl, rfl, rfl, rfl, fun _ _ => rfl⟩
  | dsb => exact ⟨rfl, rfl, rfl, rfl, rfl, rfl, rfl, fun _ _ => rfl⟩
  | blx rm =>
      have banked : core.setLr (core.pc + 4) = { core with irqLr := core.pc + 4 } := if_pos mode
      change Scratched core { core.setLr (core.pc + 4) with pc := core.regs rm }
      rw [banked]
      exact ⟨rfl, rfl, rfl, rfl, rfl, rfl, rfl, fun _ _ => rfl⟩
  | stmfd slots => cases plain
  | ldmfd slots => cases plain
  | mrsSpsr rd => cases plain
  | msrCpsrC rn => cases plain
  | msrSpsr rn => cases plain
  | str rt rn offset => cases plain
  | subsPcLr value => cases plain

/-! ## What the routine has on the stack -/

/-- The words that the routine has on its stack, from the status upwards. -/
def saved (before : Core) : Nat → Word
  | 0 => before.cpsr
  | 1 => before.regs .r0
  | 2 => before.regs .r1
  | 3 => before.regs .r2
  | 4 => before.regs .r3
  | _ => before.pc + 4

/-- Nothing that the routine does not save is lost. -/
structure Working (before core : Core) : Prop where
  mode : core.mode = modeIrq
  sysSp : core.sysSp = before.sysSp
  sysLr : core.sysLr = before.sysLr
  spsrIrq : core.spsrIrq = before.cpsr
  regs : ∀ reg, preserved reg = true → core.regs reg = before.regs reg

/-- The routine has saved the rest. -/
structure Saved (before core : Core) : Prop extends Working before core where
  irqSp : core.irqSp = before.irqSp - 24
  stack : ∀ word < 6, core.memory (core.irqSp + 4 * BitVec.ofNat 32 word) = saved before word

theorem Working.scratched (work : Working before core) (step : Scratched core after) :
    Working before after where
  mode := step.mode.trans work.mode
  sysSp := step.sysSp.trans work.sysSp
  sysLr := step.sysLr.trans work.sysLr
  spsrIrq := step.spsrIrq.trans work.spsrIrq
  regs reg kept := (step.regs reg kept).trans (work.regs reg kept)

theorem Saved.scratched (kept : Saved before core) (step : Scratched core after) :
    Saved before after where
  toWorking := kept.toWorking.scratched step
  irqSp := step.irqSp.trans kept.irqSp
  stack word inside := by
    rw [step.memory, step.irqSp]
    exact kept.stack word inside

/-- A handler leaves what is saved. -/
theorem Saved.handled (kept : Saved before core) (conforms : Conforms core after) :
    Saved before after where
  mode := conforms.mode.trans kept.mode
  sysSp := conforms.sysSp.trans kept.sysSp
  sysLr := conforms.sysLr.trans kept.sysLr
  spsrIrq := conforms.spsrIrq.trans kept.spsrIrq
  regs reg free := (conforms.regs reg free).trans (kept.regs reg free)
  irqSp := conforms.irqSp.trans kept.irqSp
  stack word inside := by
    rw [conforms.irqSp]
    exact (conforms.stack word inside).trans (kept.stack word inside)

/-! ## Modes -/

/-- The mode behind the entry. -/
theorem mode_entryStatus (cpsr : Word) : entryStatus cpsr &&& modeMask = modeIrq := by
  have cleared : ~~~(0x0700fe3f : Word) &&& modeMask = BitVec.ofNat 32 0 := by decide
  unfold entryStatus
  rw [BitVec.and_or_distrib_right, BitVec.and_or_distrib_right, BitVec.and_or_distrib_right,
    BitVec.and_assoc, cleared, BitVec.and_zero]
  decide

/-- The mode behind a write of the control field. -/
theorem mode_control (cpsr control : Word) :
    (cpsr &&& ~~~controlField ||| control &&& controlField) &&& modeMask =
      control &&& modeMask := by
  have cleared : ~~~controlField &&& modeMask = BitVec.ofNat 32 0 := by decide
  have inside : controlField &&& modeMask = modeMask := by decide
  rw [BitVec.and_or_distrib_right, BitVec.and_assoc, BitVec.and_assoc, cleared, inside,
    BitVec.and_zero, BitVec.zero_or]

theorem mode_orr (cpsr : Word) : (cpsr ||| irqDisable) &&& modeMask = cpsr &&& modeMask := by
  have cleared : irqDisable &&& modeMask = BitVec.ofNat 32 0 := by decide
  rw [BitVec.and_or_distrib_right, cleared, BitVec.or_zero]

theorem mode_bic (cpsr : Word) : (cpsr &&& ~~~irqDisable) &&& modeMask = cpsr &&& modeMask := by
  have inside : ~~~irqDisable &&& modeMask = modeMask := by decide
  rw [BitVec.and_assoc, inside]

/-! ## The I bit -/

/-- The control field is written in the same mode. -/
theorem Saved.control (kept : Saved before core) (mode : core.regs .r1 &&& modeMask = modeIrq) :
    Saved before (exec device core (.msrCpsrC .r1)) where
  mode := (mode_control ..).trans mode
  sysSp := kept.sysSp
  sysLr := kept.sysLr
  spsrIrq := kept.spsrIrq
  regs := kept.regs
  irqSp := kept.irqSp
  stack := kept.stack

/-- Scratch work leaves what is saved. -/
theorem Saved.step (kept : Saved before core) (plain : scratches instr = true) :
    Saved before (exec device core instr) :=
  kept.scratched (scratched_exec plain kept.mode)

theorem Saved.run {instrs : List Instr} (kept : Saved before core)
    (plain : instrs.all scratches = true) : Saved before (instrs.foldl (exec device) core) := by
  induction instrs generalizing core with
  | nil => exact kept
  | cons instr instrs ih =>
      rw [List.all_cons, Bool.and_eq_true] at plain
      exact ih (kept.step plain.1) plain.2

/-- Interrupts are disabled. -/
theorem Saved.disable (kept : Saved before core) :
    Saved before ([.mrsCpsr .r1, .orr .r1 .r1 0x80, .msrCpsrC .r1].foldl (exec device) core) := by
  have read : Saved before (exec device core (.mrsCpsr .r1)) := kept.step rfl
  have set : Saved before (exec device (exec device core (.mrsCpsr .r1)) (.orr .r1 .r1 0x80)) :=
    read.step rfl
  change Saved before (exec device _ (.msrCpsrC .r1))
  exact set.control ((mode_orr _).trans kept.mode)

/-- Interrupts are enabled. -/
theorem Saved.enable (kept : Saved before core) :
    Saved before ([.mrsCpsr .r1, .bic .r1 .r1 0x80, .msrCpsrC .r1].foldl (exec device) core) := by
  have read : Saved before (exec device core (.mrsCpsr .r1)) := kept.step rfl
  have clear : Saved before (exec device (exec device core (.mrsCpsr .r1)) (.bic .r1 .r1 0x80)) :=
    read.step rfl
  change Saved before (exec device _ (.msrCpsrC .r1))
  exact clear.control ((mode_bic _).trans kept.mode)

end BbbEth.Service
