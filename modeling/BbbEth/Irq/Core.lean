import Mathlib.Data.BitVec
import Mathlib.Logic.Function.Basic

/-!
# An ARM core

The registers that a program in SYS mode and an interrupt routine in IRQ mode see, with the banked
ones apart, the instructions that the routine is made of, and the entry into an interrupt.
-/

namespace BbbEth.Arm

abbrev Word := BitVec 32

/-- The registers that are not banked. -/
inductive Reg where
  | r0
  | r1
  | r2
  | r3
  | r4
  | r5
  | r6
  | r7
  | r8
  | r9
  | r10
  | r11
  | r12
  deriving DecidableEq

/-- The core with its memory. -/
structure Core where
  regs : Reg → Word
  sysSp : Word
  sysLr : Word
  irqSp : Word
  irqLr : Word
  spsrIrq : Word
  cpsr : Word
  pc : Word
  memory : Word → Word

/-! ## Modes and banks -/

/-- The mode bits, the I bit, and the control field. -/
def modeMask : Word := 0x1f
def irqDisable : Word := 0x80
def controlField : Word := 0xff

def modeIrq : Word := 0x12
def modeSys : Word := 0x1f

namespace Core

variable (core : Core)

/-- The mode of the core. -/
def mode : Word := core.cpsr &&& modeMask

/-- Interrupts are disabled. -/
def masked : Bool := core.cpsr.getLsbD 7

/-- The stack pointer and the link register of the mode. -/
def sp : Word := if core.mode = modeIrq then core.irqSp else core.sysSp
def lr : Word := if core.mode = modeIrq then core.irqLr else core.sysLr

def setSp (value : Word) : Core :=
  if core.mode = modeIrq then { core with irqSp := value } else { core with sysSp := value }

def setLr (value : Word) : Core :=
  if core.mode = modeIrq then { core with irqLr := value } else { core with sysLr := value }

def setReg (reg : Reg) (value : Word) : Core :=
  { core with regs := Function.update core.regs reg value }

def advance : Core := { core with pc := core.pc + 4 }

end Core

/-! ## Instructions -/

/-- A register of a load or store of several registers. -/
inductive Slot where
  | reg (number : Reg)
  | lr
  deriving DecidableEq

/-- The instructions, as far as they are used. -/
inductive Instr where
  | stmfd (slots : List Slot)
  | ldmfd (slots : List Slot)
  | mrsCpsr (rd : Reg)
  | mrsSpsr (rd : Reg)
  | msrCpsrC (rn : Reg)
  | msrSpsr (rn : Reg)
  | orr (rd rn : Reg) (value : Word)
  | bic (rd rn : Reg) (value : Word)
  | ldrConst (rd : Reg) (value : Word)
  | ldr (rd rn : Reg) (offset : Word)
  | ldrLsl (rd rn rm : Reg) (shift : Nat)
  | str (rt rn : Reg) (offset : Word)
  | cmp (rn : Reg) (value : Word)
  | bge (skip : Word)
  | adr (rd : Reg) (address : Word)
  | blx (rm : Reg)
  | dsb
  | subsPcLr (value : Word)
  deriving DecidableEq

/-- The value of a slot. -/
def Slot.get (core : Core) : Slot → Word
  | .reg number => core.regs number
  | .lr => core.lr

def Slot.set (value : Word) (core : Core) : Slot → Core
  | .reg number => core.setReg number value
  | .lr => core.setLr value

/-- Words are stored one after the other. -/
def storeWords (memory : Word → Word) (address : Word) : List Word → Word → Word
  | [] => memory
  | value :: values => storeWords (Function.update memory address value) (address + 4) values

/-- Slots are loaded one after the other. -/
def loadSlots (address : Word) : List Slot → Core → Core
  | [], core => core
  | slot :: slots, core => loadSlots (address + 4) slots (slot.set (core.memory address) core)

/-- The flags of a comparison in a status word. -/
def compareFlags (first second : Word) : Word :=
  (if (first - second).msb then 0x80000000 else 0) |||
  (if first = second then 0x40000000 else 0) |||
  (if second ≤ first then 0x20000000 else 0) |||
  if first.msb != second.msb && (first - second).msb != first.msb then 0x10000000 else 0

/-- The condition `ge`. -/
def Core.ge (core : Core) : Bool := core.cpsr.getLsbD 31 == core.cpsr.getLsbD 28

/-- An instruction.  A load may be answered by a device; a store to a device leaves memory. -/
def exec (device : Word → Option Word) (core : Core) : Instr → Core
  | .stmfd slots =>
      let bottom := core.sp - 4 * BitVec.ofNat 32 slots.length
      { core.setSp bottom with
        memory := storeWords core.memory bottom (slots.map (Slot.get core)) }.advance
  | .ldmfd slots =>
      ((loadSlots core.sp slots core).setSp (core.sp + 4 * BitVec.ofNat 32 slots.length)).advance
  | .mrsCpsr rd => (core.setReg rd core.cpsr).advance
  | .mrsSpsr rd => (core.setReg rd core.spsrIrq).advance
  | .msrCpsrC rn => { core with
      cpsr := core.cpsr &&& ~~~controlField ||| core.regs rn &&& controlField }.advance
  | .msrSpsr rn => { core with
      spsrIrq := core.spsrIrq &&& 0x00ffff00 ||| core.regs rn &&& 0xff0000ff }.advance
  | .orr rd rn value => (core.setReg rd (core.regs rn ||| value)).advance
  | .bic rd rn value => (core.setReg rd (core.regs rn &&& ~~~value)).advance
  | .ldrConst rd value => (core.setReg rd value).advance
  | .ldr rd rn offset =>
      (core.setReg rd ((device (core.regs rn + offset)).getD
        (core.memory (core.regs rn + offset)))).advance
  | .ldrLsl rd rn rm shift =>
      (core.setReg rd (core.memory (core.regs rn + core.regs rm <<< shift))).advance
  | .str rt rn offset =>
      if (device (core.regs rn + offset)).isSome then core.advance
      else { core with
        memory := Function.update core.memory (core.regs rn + offset) (core.regs rt) }.advance
  | .cmp rn value => { core with
      cpsr := core.cpsr &&& 0x0fffffff ||| compareFlags (core.regs rn) value }.advance
  | .bge skip => if core.ge then { core with pc := core.pc + skip } else core.advance
  | .adr rd address => (core.setReg rd address).advance
  | .blx rm => { core.setLr (core.pc + 4) with pc := core.regs rm }
  | .dsb => core.advance
  | .subsPcLr value => { core with pc := core.lr - value, cpsr := core.spsrIrq }

/-- The status word behind an entry into an interrupt: IRQ mode, with interrupts and asynchronous
aborts disabled, for ARM instructions. -/
def entryStatus (cpsr : Word) : Word :=
  cpsr &&& ~~~(0x0700fe3f : Word) ||| irqDisable ||| 0x100 ||| modeIrq

/-- The entry into an interrupt, to a routine. -/
def enter (routine : Word) (core : Core) : Core :=
  { core with irqLr := core.pc + 4, spsrIrq := core.cpsr, cpsr := entryStatus core.cpsr,
              pc := routine }

/-! ## Stores -/

section Memory

variable {memory : Word → Word} {place : Word}

/-- Words that lie elsewhere stay. -/
theorem storeWords_off : ∀ {values : List Word} {address : Word},
    (∀ index < values.length, place ≠ address + 4 * BitVec.ofNat 32 index) →
      storeWords memory address values place = memory place := by
  intro values
  induction values generalizing memory with
  | nil => exact fun _ => rfl
  | cons value values ih =>
      intro address away
      rw [storeWords, ih, Function.update_of_ne]
      · have first := away 0 (by simp)
        simpa using first
      · intro index inside same
        refine away (index + 1) (by simpa using inside) (same.trans ?_)
        bv_omega

/-- The word at its index. -/
theorem storeWords_at : ∀ {values : List Word} {address : Word} {index : Nat}
    (inside : index < values.length), values.length ≤ 0x40000000 →
      storeWords memory address values (address + 4 * BitVec.ofNat 32 index) = values[index] := by
  intro values
  induction values generalizing memory with
  | nil => exact fun inside => absurd inside (by simp)
  | cons value values ih =>
      intro address index inside room
      rw [List.length_cons] at inside room
      cases index with
      | zero =>
          have bottom : address + 4 * BitVec.ofNat 32 0 = address := by bv_omega
          rw [storeWords, bottom, storeWords_off, Function.update_self]
          · rfl
          · intro index below
            bv_omega
      | succ index =>
          have up : address + 4 * BitVec.ofNat 32 (index + 1) =
              address + 4 + 4 * BitVec.ofNat 32 index := by bv_omega
          rw [storeWords, up, ih (by omega) (by omega)]
          rfl

end Memory

/-! ## Registers -/

theorem Core.setReg_self (core : Core) (reg : Reg) (value : Word) :
    (core.setReg reg value).regs reg = value := by
  simp only [Core.setReg, Function.update_self]

theorem Core.setReg_of_ne {core : Core} {reg other : Reg} {value : Word} (distinct : other ≠ reg) :
    (core.setReg reg value).regs other = core.regs other := by
  simp only [Core.setReg, Function.update_of_ne distinct]

end BbbEth.Arm
