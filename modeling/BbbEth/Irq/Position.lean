import BbbEth.Irq.Acts
import BbbEth.Irq.Nesting

/-!
# Where the routine is

Where the core is in `irq_isr`, and whether interrupts are disabled there.
-/

namespace BbbEth.Service

open Arm

variable {device : Word → Option Word} {program core after : Core} {instr : Instr}
variable {routine irqVector sirIrq : Word} {index : Nat}

/-! ## Instructions one by one -/

/-- The instructions that go on with the next one. -/
def straight : Instr → Bool
  | .bge _ | .blx _ | .subsPcLr _ => false
  | _ => true

/-- The instructions that leave the I bit. -/
def leaves : Instr → Bool
  | .msrCpsrC _ | .subsPcLr _ => false
  | _ => true

/-- A register is written beside the place and the status. -/
theorem beside_setSp (value : Word) :
    (core.setSp value).pc = core.pc ∧ (core.setSp value).cpsr = core.cpsr := by
  unfold Core.setSp
  split
  · exact ⟨rfl, rfl⟩
  · exact ⟨rfl, rfl⟩

theorem beside_slot (value : Word) (slot : Slot) :
    (slot.set value core).pc = core.pc ∧ (slot.set value core).cpsr = core.cpsr := by
  cases slot with
  | reg number => exact ⟨rfl, rfl⟩
  | lr =>
      change (core.setLr value).pc = core.pc ∧ (core.setLr value).cpsr = core.cpsr
      unfold Core.setLr
      split
      · exact ⟨rfl, rfl⟩
      · exact ⟨rfl, rfl⟩

theorem beside_loadSlots (address : Word) (slots : List Slot) :
    (loadSlots address slots core).pc = core.pc ∧
      (loadSlots address slots core).cpsr = core.cpsr := by
  induction slots generalizing address core with
  | nil => exact ⟨rfl, rfl⟩
  | cons slot slots ih =>
      obtain ⟨pc, cpsr⟩ := beside_slot (core.memory address) slot
      exact ⟨ih (address + 4) |>.1.trans pc, ih (address + 4) |>.2.trans cpsr⟩

theorem pc_exec (next : straight instr = true) : (exec device core instr).pc = core.pc + 4 := by
  cases instr with
  | stmfd slots => exact congrArg (· + 4) (beside_setSp _).1
  | ldmfd slots => exact congrArg (· + 4) ((beside_setSp _).1.trans (beside_loadSlots ..).1)
  | str rt rn offset =>
      change (if _ then _ else _ : Core).pc = _
      split <;> rfl
  | bge skip => cases next
  | blx rm => cases next
  | subsPcLr value => cases next
  | _ => rfl

theorem masked_congr (same : after.cpsr = core.cpsr) : after.masked = core.masked := by
  rw [Core.masked, Core.masked, same]

/-- The I bit stays but in the two instructions that write the status. -/
theorem masked_exec (stays : leaves instr = true) :
    (exec device core instr).masked = core.masked := by
  cases instr with
  | stmfd slots => exact masked_congr (beside_setSp _).2
  | ldmfd slots => exact masked_congr ((beside_setSp _).2.trans (beside_loadSlots ..).2)
  | str rt rn offset =>
      refine masked_congr ?_
      change (if _ then _ else _ : Core).cpsr = _
      split <;> rfl
  | bge skip =>
      refine masked_congr ?_
      change (if _ then _ else _ : Core).cpsr = _
      split <;> rfl
  | cmp rn value => exact control_cmp _ _ _ 7 (by decide)
  | blx rm =>
      refine masked_congr ?_
      change (core.setLr (core.pc + 4)).cpsr = _
      unfold Core.setLr
      split <;> rfl
  | msrCpsrC rn => cases stays
  | subsPcLr value => cases stays
  | _ => rfl

theorem masked_control (control : Word) (cpsr : Word) :
    (cpsr &&& ~~~controlField ||| control &&& controlField).getLsbD 7 = control.getLsbD 7 := by
  have inside : (~~~controlField).getLsbD 7 = false ∧ controlField.getLsbD 7 = true := by decide
  rw [BitVec.getLsbD_or, BitVec.getLsbD_and, BitVec.getLsbD_and, inside.1, inside.2,
    Bool.and_false, Bool.and_true, Bool.false_or]

/-! ## Stages -/

/-- What holds where the routine is. -/
def Stage (routine : Word) (program core : Core) : Nat → Prop
  | 0 => core = enter routine program
  | 1 => Framed program core
  | 2 => Noted program core
  | 4 => Saved program core ∧ core.regs .r1 &&& modeMask = modeIrq
  | 5 => Saved program core ∧ core.regs .r1 &&& modeMask = modeIrq ∧
      (core.regs .r1).getLsbD 7 = true
  | 14 | 15 => Saved program core ∧ core.regs .r0 = socAintcRegs
  | 18 | 19 => Saved program core ∧ core.regs .r1 &&& modeMask = modeIrq
  | 21 | 22 => Noted program core
  | 23 => Restored program core
  | _ => Saved program core

/-- Each instruction of the routine leads from one stage to the next. -/
theorem Stage.step (stage : Stage routine program core index)
    (fetch : (code irqVector)[index]? = some instr) (inside : index < 23) :
    Stage routine program (exec (intc sirIrq) core instr) (index + 1) := by
  have scratch (kept : Saved program core) (plain : scratches instr = true) :
      Saved program (exec (intc sirIrq) core instr) := kept.step plain
  match index with
  | 0 =>
      obtain rfl : Instr.stmfd Service.scratch = instr := Option.some.inj fetch
      have entered : core = enter routine program := stage
      rw [entered]
      exact framed_enter
  | 1 =>
      obtain rfl : Instr.mrsSpsr .r12 = instr := Option.some.inj fetch
      exact Framed.noted stage
  | 2 =>
      obtain rfl : Instr.stmfd [.reg .r12] = instr := Option.some.inj fetch
      exact Noted.pushed stage
  | 3 | 17 =>
      obtain rfl : Instr.mrsCpsr .r1 = instr := Option.some.inj fetch
      have saved : Saved program core := stage
      exact ⟨saved.step rfl, saved.mode⟩
  | 4 =>
      obtain rfl : Instr.orr .r1 .r1 0x80 = instr := Option.some.inj fetch
      refine ⟨stage.1.step rfl, (mode_orr _).trans stage.2, ?_⟩
      change (core.regs .r1 ||| irqDisable).getLsbD 7 = true
      rw [BitVec.getLsbD_or]
      exact Bool.or_true _
  | 5 =>
      obtain rfl : Instr.msrCpsrC .r1 = instr := Option.some.inj fetch
      exact stage.1.control stage.2.1
  | 6 | 7 | 8 | 9 | 10 | 11 | 12 =>
      obtain rfl := Option.some.inj fetch
      exact Saved.step stage rfl
  | 13 =>
      obtain rfl : Instr.ldrConst .r0 socAintcRegs = instr := Option.some.inj fetch
      exact ⟨Saved.step stage rfl, core.setReg_self .r0 socAintcRegs⟩
  | 14 =>
      obtain rfl : Instr.ldrConst .r1 0x1 = instr := Option.some.inj fetch
      exact ⟨stage.1.step rfl, stage.2⟩
  | 15 =>
      obtain rfl : Instr.str .r1 .r0 intcControl = instr := Option.some.inj fetch
      have told : exec (intc sirIrq) core (.str .r1 .r0 intcControl) = core.advance := by
        refine exec_str ?_
        rw [stage.2]
        rfl
      rw [told]
      exact stage.1.scratched .advance
  | 16 =>
      obtain rfl : Instr.dsb = instr := Option.some.inj fetch
      exact Saved.step stage rfl
  | 18 =>
      obtain rfl : Instr.bic .r1 .r1 0x80 = instr := Option.some.inj fetch
      exact ⟨stage.1.step rfl, (mode_bic _).trans stage.2⟩
  | 19 =>
      obtain rfl : Instr.msrCpsrC .r1 = instr := Option.some.inj fetch
      exact stage.1.control stage.2
  | 20 =>
      obtain rfl : Instr.ldmfd [.reg .r12] = instr := Option.some.inj fetch
      exact Saved.noted stage
  | 21 =>
      obtain rfl : Instr.msrSpsr .r12 = instr := Option.some.inj fetch
      exact Noted.msrSpsr stage
  | 22 =>
      obtain rfl : Instr.ldmfd Service.scratch = instr := Option.some.inj fetch
      exact Noted.restored stage
  | index + 23 => omega

/-! ## Where the routine is -/

/-- The branches of the routine, and where they are. -/
theorem code_cases (fetch : (code irqVector)[index]? = some instr) :
    (straight instr = true ∧ index < 23) ∨ (index = 9 ∧ instr = .bge 16) ∨
      (index = 12 ∧ instr = .blx .r2) ∨ (index = 23 ∧ instr = .subsPcLr 4) := by
  match index with
  | 0 | 1 | 2 | 3 | 4 | 5 | 6 | 7 | 8 | 10 | 11 | 13 | 14 | 15 | 16 | 17 | 18 | 19 | 20 | 21 | 22 =>
      obtain rfl := Option.some.inj fetch
      exact .inl ⟨rfl, by decide⟩
  | 9 => exact .inr (.inl ⟨rfl, (Option.some.inj fetch).symm⟩)
  | 12 => exact .inr (.inr (.inl ⟨rfl, (Option.some.inj fetch).symm⟩))
  | 23 => exact .inr (.inr (.inr ⟨rfl, (Option.some.inj fetch).symm⟩))
  | index + 24 => cases fetch

theorem index_lt (fetch : (code irqVector)[index]? = some instr) : index < 24 := by
  obtain ⟨_, inside⟩ | ⟨rfl, _⟩ | ⟨rfl, _⟩ | ⟨rfl, _⟩ := code_cases fetch
  · exact Nat.lt_succ_of_lt inside
  all_goals decide

/-- The I bit is written at two places. -/
theorem leaves_code (fetch : (code irqVector)[index]? = some instr) (disable : index ≠ 5)
    (before : index < 19) : leaves instr = true := by
  match index with
  | 0 | 1 | 2 | 3 | 4 | 6 | 7 | 8 | 9 | 10 | 11 | 12 | 13 | 14 | 15 | 16 | 17 | 18 =>
      obtain rfl := Option.some.inj fetch
      rfl
  | 5 => exact absurd rfl disable
  | index + 19 => omega

/-- The routine is at an instruction, with interrupts disabled until it enables them. -/
structure Executing (routine : Word) (program core : Core) (index : Nat) : Prop where
  inside : index < 24
  place : core.pc = routine + 4 * BitVec.ofNat 32 index
  masked : index < 20 → core.masked = true
  stage : Stage routine program core index

theorem executing_enter : Executing routine program (enter routine program) 0 where
  inside := by decide
  place := by
    change routine = _
    bv_omega
  masked _ := by
    change (entryStatus program.cpsr).getLsbD 7 = true
    unfold entryStatus
    rw [BitVec.getLsbD_or, BitVec.getLsbD_or, BitVec.getLsbD_or]
    have set : irqDisable.getLsbD 7 = true := by decide
    rw [set, Bool.or_true, Bool.true_or, Bool.true_or]
  stage := rfl

/-- The I bit behind an instruction. -/
theorem Executing.masked_exec (executing : Executing routine program core index)
    (fetch : (code irqVector)[index]? = some instr) (before : index < 19) :
    (exec device core instr).masked = true := by
  by_cases disable : index = 5
  · subst disable
    obtain rfl : Instr.msrCpsrC .r1 = instr := Option.some.inj fetch
    exact (masked_control _ _).trans executing.stage.2.2
  · exact (Service.masked_exec (leaves_code fetch disable before)).trans
      (executing.masked (by omega))

theorem Executing.next (executing : Executing routine program core index)
    (fetch : (code irqVector)[index]? = some instr) (next : straight instr = true)
    (inside : index < 23) :
    Executing routine program (exec (intc sirIrq) core instr) (index + 1) where
  inside := by omega
  place := by
    rw [pc_exec next, executing.place]
    bv_omega
  masked before := executing.masked_exec fetch (by omega)
  stage := executing.stage.step fetch inside

/-- The branch goes to the next instruction or past the call. -/
theorem Executing.branch (sirIrq : Word) (executing : Executing routine program core 9) :
    Executing routine program (exec (intc sirIrq) core (.bge 16)) (if core.ge then 13 else 10) := by
  have fetch : (code 0)[9]? = some (.bge 16) := rfl
  have saved : Saved program (exec (intc sirIrq) core (.bge 16)) :=
    executing.stage.step fetch (by decide)
  have masked : (exec (intc sirIrq) core (.bge 16)).masked = true :=
    executing.masked_exec fetch (by decide)
  have place := executing.place
  by_cases ge : core.ge = true
  · have taken : (exec (intc sirIrq) core (.bge 16)).pc = core.pc + 16 :=
      congrArg Core.pc (if_pos ge)
    rw [if_pos ge]
    refine ⟨by decide, ?_, fun _ => masked, saved⟩
    rw [taken, place]
    bv_omega
  · have passed : (exec (intc sirIrq) core (.bge 16)).pc = core.pc + 4 :=
      congrArg Core.pc (if_neg ge)
    rw [if_neg ge]
    refine ⟨by decide, ?_, fun _ => masked, saved⟩
    rw [passed, place]
    bv_omega

/-- The call of the handler leaves where to go on in the link register. -/
theorem Executing.call (sirIrq : Word) (executing : Executing routine program core 12) :
    Saved program (exec (intc sirIrq) core (.blx .r2)) ∧
      (exec (intc sirIrq) core (.blx .r2)).irqLr = routine + 4 * BitVec.ofNat 32 13 ∧
      (exec (intc sirIrq) core (.blx .r2)).masked = true := by
  have fetch : (code 0)[12]? = some (.blx .r2) := rfl
  have saved : Saved program core := executing.stage
  have banked : (exec (intc sirIrq) core (.blx .r2)).irqLr = core.pc + 4 :=
    congrArg Core.irqLr (if_pos saved.mode)
  refine ⟨saved.step rfl, ?_, executing.masked_exec fetch (by decide)⟩
  rw [banked, executing.place]
  bv_omega

/-- The handler returns behind its call. -/
theorem executing_handled {call : Core} (saved : Saved program call)
    (back : call.irqLr = routine + 4 * BitVec.ofNat 32 13) (masked : core.masked = true)
    (conforms : Conforms call core) : Executing routine program core 13 :=
  ⟨by decide, conforms.pc.trans back, fun _ => masked, saved.handled conforms⟩

/-- The core is at one instruction only. -/
theorem index_eq {first second : Nat} (left : first < 24) (right : second < 24)
    (same : routine + 4 * BitVec.ofNat 32 first = routine + 4 * BitVec.ofNat 32 second) :
    first = second := by
  bv_omega

/-! ## Critical sections -/

/-- A level that is read with interrupts disabled. -/
theorem sysArchLevel_masked (masked : core.masked = true) :
    sysArchLevel core &&& 0x80 ≠ 0 := by
  intro zero
  have bit := congrArg (BitVec.getLsbD · 7) zero
  have kept : (0xc0 : Word).getLsbD 7 = true ∧ (0xff : Word).getLsbD 7 = true ∧
      (0x80 : Word).getLsbD 7 = true ∧ (0 : Word).getLsbD 7 = false := by decide
  simp only [sysArchLevel, intMasterStatusGet, BitVec.getLsbD_and, kept.1, kept.2.1, kept.2.2.1,
    kept.2.2.2, Bool.and_true] at bit
  rw [Core.masked, bit] at masked
  cases masked

theorem sysArchUnprotect_masked {level : Word} (held : level &&& 0x80 ≠ 0) :
    sysArchUnprotect level core = core := if_neg held

theorem masked_disable : (intMasterIRQDisable core).masked = true := by
  refine (masked_control _ core.cpsr).trans ?_
  change (core.cpsr ||| irqDisable).getLsbD 7 = true
  rw [BitVec.getLsbD_or]
  exact Bool.or_true _

end BbbEth.Service
