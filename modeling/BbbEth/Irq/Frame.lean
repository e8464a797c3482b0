import BbbEth.Irq.Stages

/-!
# The frame of the routine

What `irq_isr` pushes on its stack and takes from it again, instruction by instruction.
-/

namespace BbbEth.Service

open Arm

variable {device : Word → Option Word} {before core after : Core} {routine : Word}

/-- The scratch registers are on the stack. -/
structure Framed (before core : Core) : Prop extends Working before core where
  irqSp : core.irqSp = before.irqSp - 20
  stack : ∀ index < 5, core.memory (core.irqSp + 4 * BitVec.ofNat 32 index) =
    saved before (index + 1)

/-- So they are, with the status in r12. -/
structure Noted (before core : Core) : Prop extends Framed before core where
  r12 : core.regs .r12 = before.cpsr

/-- Everything is back but r12, with the interrupted program in the link register. -/
structure Restored (before core : Core) : Prop where
  mode : core.mode = modeIrq
  regs : ∀ reg, reg ≠ .r12 → core.regs reg = before.regs reg
  r12 : core.regs .r12 = before.cpsr
  sysSp : core.sysSp = before.sysSp
  sysLr : core.sysLr = before.sysLr
  irqSp : core.irqSp = before.irqSp
  irqLr : core.irqLr = before.pc + 4
  spsrIrq : core.spsrIrq = before.cpsr

/-- The interrupted program goes on, with its status in r12. -/
structure Returned (before after : Core) : Prop where
  regs : ∀ reg, reg ≠ .r12 → after.regs reg = before.regs reg
  r12 : after.regs .r12 = before.cpsr
  sysSp : after.sysSp = before.sysSp
  sysLr : after.sysLr = before.sysLr
  cpsr : after.cpsr = before.cpsr
  pc : after.pc = before.pc
  irqSp : after.irqSp = before.irqSp

/-! ## The entry -/

theorem stmfd_irq (device : Word → Option Word) (mode : core.mode = modeIrq)
    (slots : List Slot) :
    exec device core (.stmfd slots) =
      { core with
        irqSp := core.irqSp - 4 * BitVec.ofNat 32 slots.length
        memory := storeWords core.memory (core.irqSp - 4 * BitVec.ofNat 32 slots.length)
          (slots.map (Slot.get core))
        pc := core.pc + 4 } := by
  simp only [exec, Core.sp, Core.setSp, mode, if_true, Core.advance]

/-- What is pushed is on the stack. -/
theorem stmfd_at {slots : List Slot} {index : Nat} (mode : core.mode = modeIrq)
    (inside : index < slots.length) (room : slots.length ≤ 0x40000000) :
    (exec device core (.stmfd slots)).memory
        (core.irqSp - 4 * BitVec.ofNat 32 slots.length + 4 * BitVec.ofNat 32 index) =
      slots[index].get core := by
  rw [stmfd_irq device mode]
  refine (storeWords_at (by simpa using inside) (by simpa using room)).trans ?_
  rw [List.getElem_map]

/-- What is not pushed over stays. -/
theorem stmfd_away {slots : List Slot} {place : Word} (mode : core.mode = modeIrq)
    (away : ∀ index < slots.length,
      place ≠ core.irqSp - 4 * BitVec.ofNat 32 slots.length + 4 * BitVec.ofNat 32 index) :
    (exec device core (.stmfd slots)).memory place = core.memory place := by
  rw [stmfd_irq device mode]
  refine storeWords_off fun index inside => ?_
  rw [List.length_map] at inside
  exact away index inside

/-- What was on the stack stays. -/
theorem stmfd_above {slots : List Slot} {index : Nat} (mode : core.mode = modeIrq)
    (room : index + slots.length < 0x40000000) :
    (exec device core (.stmfd slots)).memory (core.irqSp + 4 * BitVec.ofNat 32 index) =
      core.memory (core.irqSp + 4 * BitVec.ofNat 32 index) :=
  stmfd_away mode fun below inside => by bv_omega

theorem Working.stmfd {slots : List Slot} (work : Working before core) :
    Working before (exec device core (.stmfd slots)) := by
  rw [stmfd_irq device work.mode]
  exact ⟨work.mode, work.sysSp, work.sysLr, work.spsrIrq, work.regs⟩

theorem working_enter : Working before (enter routine before) :=
  ⟨mode_entryStatus before.cpsr, rfl, rfl, rfl, fun _ _ => rfl⟩

/-- The first push of the routine. -/
theorem framed_enter : Framed before (exec device (enter routine before) (.stmfd scratch)) := by
  have place : (exec device (enter routine before) (.stmfd scratch)).irqSp =
      before.irqSp - 4 * BitVec.ofNat 32 5 :=
    congrArg Core.irqSp (stmfd_irq device working_enter.mode scratch)
  refine ⟨working_enter.stmfd, place, fun index inside => ?_⟩
  rw [place]
  refine (stmfd_at working_enter.mode inside (by decide)).trans ?_
  match index, inside with
  | 0, _ | 1, _ | 2, _ | 3, _ => rfl
  | 4, _ => exact if_pos working_enter.mode

theorem Framed.noted (kept : Framed before core) :
    Noted before (exec device core (.mrsSpsr .r12)) where
  mode := kept.mode
  sysSp := kept.sysSp
  sysLr := kept.sysLr
  spsrIrq := kept.spsrIrq
  regs reg free := (Scratched.setReg rfl).regs reg free |>.trans (kept.regs reg free)
  irqSp := kept.irqSp
  stack := kept.stack
  r12 := (core.setReg_self .r12 core.spsrIrq).trans kept.spsrIrq

/-- The second push, of the status. -/
theorem Noted.pushed (kept : Noted before core) :
    Saved before (exec device core (.stmfd [.reg .r12])) := by
  have place : (exec device core (.stmfd [.reg .r12])).irqSp =
      core.irqSp - 4 * BitVec.ofNat 32 1 :=
    congrArg Core.irqSp (stmfd_irq device kept.mode [.reg .r12])
  have bottom : core.irqSp - 4 * BitVec.ofNat 32 1 = before.irqSp - 24 := by
    rw [kept.irqSp]
    bv_omega
  refine ⟨kept.toWorking.stmfd, place.trans bottom, fun word inside => ?_⟩
  rw [place]
  cases word with
  | zero => exact (stmfd_at kept.mode (by decide) (by decide)).trans kept.r12
  | succ index =>
      have up : core.irqSp - 4 * BitVec.ofNat 32 1 + 4 * BitVec.ofNat 32 (index + 1) =
          core.irqSp + 4 * BitVec.ofNat 32 index := by bv_omega
      have room : index + [Slot.reg .r12].length < 0x40000000 := by
        change index + 1 < 0x40000000
        omega
      rw [up]
      exact (stmfd_above kept.mode room).trans (kept.stack index (by omega))

/-! ## The return -/

theorem exec_str {rt rn : Reg} {offset : Word}
    (mapped : (device (core.regs rn + offset)).isSome = true) :
    exec device core (.str rt rn offset) = core.advance := by
  simp only [exec, mapped, if_true]

/-- The status is popped. -/
theorem Saved.noted (kept : Saved before core) :
    Noted before (exec device core (.ldmfd [.reg .r12])) := by
  have bottom : core.memory core.irqSp = before.cpsr := by
    have first := kept.stack 0 (by decide)
    rwa [show core.irqSp + 4 * BitVec.ofNat 32 0 = core.irqSp by bv_omega] at first
  have loaded : exec device core (.ldmfd [.reg .r12]) =
      { core.setReg .r12 before.cpsr with irqSp := core.irqSp + 4, pc := core.pc + 4 } := by
    have mode : core.cpsr &&& modeMask = modeIrq := kept.mode
    simp [exec, loadSlots, Slot.set, Core.setReg, Core.setSp, Core.sp, Core.mode, mode,
      Core.advance, bottom]
  have up : core.irqSp + 4 = before.irqSp - 20 := by
    rw [kept.irqSp]
    bv_omega
  rw [loaded]
  refine ⟨⟨⟨kept.mode, kept.sysSp, kept.sysLr, kept.spsrIrq, ?_⟩, up, ?_⟩,
    core.setReg_self .r12 before.cpsr⟩
  · intro reg free
    have distinct : reg ≠ .r12 := fun same => by
      rw [same] at free
      cases free
    exact (Core.setReg_of_ne distinct).trans (kept.regs reg free)
  · intro index inside
    have next := kept.stack (index + 1) (by omega)
    rwa [show core.irqSp + 4 * BitVec.ofNat 32 (index + 1) =
      core.irqSp + 4 + 4 * BitVec.ofNat 32 index by bv_omega] at next

/-- The saved status register is the one of the program. -/
theorem status_merge (status : Word) :
    status &&& 0x00ffff00 ||| status &&& 0xff0000ff = status := by
  rw [← BitVec.and_or_distrib_left]
  exact BitVec.and_allOnes

theorem Noted.msrSpsr (kept : Noted before core) :
    Noted before (exec device core (.msrSpsr .r12)) := by
  have status : core.spsrIrq &&& 0x00ffff00 ||| core.regs .r12 &&& 0xff0000ff = before.cpsr := by
    rw [kept.spsrIrq, kept.r12]
    exact status_merge _
  exact ⟨⟨⟨kept.mode, kept.sysSp, kept.sysLr, status, kept.regs⟩, kept.irqSp, kept.stack⟩,
    kept.r12⟩

/-- The scratch registers are popped. -/
theorem Noted.restored (kept : Noted before core) :
    Restored before (exec device core (.ldmfd scratch)) := by
  have mode : core.cpsr &&& modeMask = modeIrq := kept.mode
  have slot (index : Nat) (inside : index < 5) {address : Word}
      (place : core.irqSp + 4 * BitVec.ofNat 32 index = address) :
      core.memory address = saved before (index + 1) := place ▸ kept.stack index inside
  have r0 : core.memory core.irqSp = before.regs .r0 := slot 0 (by decide) (by bv_omega)
  have r1 : core.memory (core.irqSp + 4) = before.regs .r1 := slot 1 (by decide) rfl
  have r2 : core.memory (core.irqSp + 4 + 4) = before.regs .r2 := slot 2 (by decide) (by bv_omega)
  have r3 : core.memory (core.irqSp + 4 + 4 + 4) = before.regs .r3 :=
    slot 3 (by decide) (by bv_omega)
  have lr : core.memory (core.irqSp + 4 + 4 + 4 + 4) = before.pc + 4 :=
    slot 4 (by decide) (by bv_omega)
  have top : core.irqSp + 4 * BitVec.ofNat 32 5 = before.irqSp := by
    rw [kept.irqSp]
    bv_omega
  have loaded : exec device core (.ldmfd scratch) =
      { ((((core.setReg .r0 (before.regs .r0)).setReg .r1 (before.regs .r1)).setReg .r2
          (before.regs .r2)).setReg .r3 (before.regs .r3)) with
        irqSp := before.irqSp, irqLr := before.pc + 4, pc := core.pc + 4 } := by
    simp only [exec, loadSlots, scratch, Slot.set, Core.setReg, Core.setLr, Core.setSp, Core.sp,
      Core.mode, mode, Core.advance, r0, r1, r2, r3, lr, if_true, List.length_cons,
      List.length_nil, top]
  rw [loaded]
  refine ⟨kept.mode, ?_, kept.r12, kept.sysSp, kept.sysLr, rfl, rfl, kept.spsrIrq⟩
  intro reg distinct
  cases reg with
  | r0 | r1 | r2 | r3 => rfl
  | r12 => exact absurd rfl distinct
  | r4 | r5 | r6 | r7 | r8 | r9 | r10 | r11 => exact kept.regs _ rfl

/-- The interrupted program goes on. -/
theorem Restored.returned (kept : Restored before core) :
    Returned before (exec device core (.subsPcLr 4)) where
  regs := kept.regs
  r12 := kept.r12
  sysSp := kept.sysSp
  sysLr := kept.sysLr
  cpsr := kept.spsrIrq
  pc := by
    have lr : core.lr = before.pc + 4 := (if_pos kept.mode).trans kept.irqLr
    change core.lr - 4 = before.pc
    rw [lr, BitVec.add_sub_cancel]
  irqSp := kept.irqSp

/-- The routine saves what it has to save. -/
theorem saved_enter : Saved before
    ([.stmfd scratch, .mrsSpsr .r12, .stmfd [.reg .r12]].foldl (exec device)
      (enter routine before)) := by
  simp only [List.foldl_cons, List.foldl_nil]
  exact framed_enter.noted.pushed

/-- The routine puts it back. -/
theorem Saved.restored (kept : Saved before core) : Returned before
    ([.ldmfd [.reg .r12], .msrSpsr .r12, .ldmfd scratch, .subsPcLr 4].foldl (exec device)
      core) := by
  simp only [List.foldl_cons, List.foldl_nil]
  exact kept.noted.msrSpsr.restored.returned

end BbbEth.Service
