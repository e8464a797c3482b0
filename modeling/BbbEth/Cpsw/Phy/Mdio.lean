import BbbEth.Registers.Field
import Mathlib.Tactic.IntervalCases

/-!
# The management interface

`mdio.c` reads and writes the registers of a PHY through one access register: a command is written
to it, and behind the transaction it has the acknowledge bit and the data.
-/

namespace BbbEth.Phy

/-- A register of a PHY. -/
abbrev Half := BitVec 16

/-- A 32-bit word. -/
abbrev Word := BitVec 32

/-- A command, and what the access register has when it is done. -/
structure Transaction where
  command : Word
  access : Word

/-- The interface: what the access register has behind each transaction, what a local that has not
been set holds by then, and the transactions so far. -/
structure Bus where
  answers : Nat → Word
  unset : Nat → Half
  log : List Transaction

/-! ## Commands -/

/-- `MDIO_USERACCESS0_GO`. -/
def useraccess0Go : Word := 0x80000000

/-- `MDIO_USERACCESS0_WRITE`. -/
def useraccess0Write : Word := 0x40000000

/-- `MDIO_USERACCESS0_READ`. -/
def useraccess0Read : Word := 0

/-- `MDIO_USERACCESS0_ACK`. -/
def useraccess0Ack : Word := 0x20000000

/-- `PHY_REG_MASK` and `PHY_ADDR_MASK`. -/
def phyRegMask : Word := 0x1f

/-- The command for reading a register. -/
def readCommand (phyAddr regNum : Word) : Word :=
  useraccess0Read ||| useraccess0Go ||| (regNum &&& phyRegMask) <<< 21 |||
    (phyAddr &&& phyRegMask) <<< 16

/-- The command for writing a register. -/
def writeCommand (phyAddr regNum : Word) (regVal : Half) : Word :=
  useraccess0Write ||| useraccess0Go ||| (regNum &&& phyRegMask) <<< 21 |||
    (phyAddr &&& phyRegMask) <<< 16 ||| regVal.setWidth 32

/-- The data of a transaction that has been acknowledged. -/
def acknowledged (access : Word) : Option Half :=
  if access &&& useraccess0Ack ≠ 0 then some (access.setWidth 16) else none

/-! ## Reads and writes -/

/-- The interface as it goes on, without the transactions so far. -/
def Bus.renewed (bus : Bus) : Bus where
  answers index := bus.answers (bus.log.length + index)
  unset index := bus.unset (bus.log.length + index)
  log := []

/-- What a local holds that is not set. -/
def Bus.garbage (bus : Bus) : Half := bus.unset bus.log.length

/-- What the access register will have behind the next transaction. -/
def Bus.answer (bus : Bus) : Word := bus.answers bus.log.length

/-- A transaction. -/
def Bus.transact (bus : Bus) (command : Word) : Bus :=
  { bus with log := bus.log ++ [⟨command, bus.answer⟩] }

/-- `MDIOPhyRegRead`: the status, and what the target has then. -/
def mdioPhyRegRead (phyAddr regNum : Word) (data : Half) (bus : Bus) : Bool × Half × Bus :=
  match acknowledged bus.answer with
  | some value => (true, value, bus.transact (readCommand phyAddr regNum))
  | none => (false, data, bus.transact (readCommand phyAddr regNum))

/-- `MDIOPhyRegWrite`. -/
def mdioPhyRegWrite (phyAddr regNum : Word) (regVal : Half) (bus : Bus) : Bus :=
  bus.transact (writeCommand phyAddr regNum regVal)

theorem mdioPhyRegRead_eq (phyAddr regNum : Word) (data : Half) (bus : Bus) :
    mdioPhyRegRead phyAddr regNum data bus = ((acknowledged bus.answer).isSome,
      (acknowledged bus.answer).getD data, bus.transact (readCommand phyAddr regNum)) := by
  unfold mdioPhyRegRead
  cases acknowledged bus.answer with
  | none => rfl
  | some value => rfl

/-! ## What has been read and written -/

/-- The register that a transaction is about. -/
def Transaction.register (transaction : Transaction) : BitVec 5 :=
  (Registers.Field.mk 21 5).get transaction.command

/-- Whether a transaction is a write. -/
def Transaction.writes (transaction : Transaction) : Bool := transaction.command.getLsbD 30

/-- What has been read of a register. -/
def readOf (register : BitVec 5) (transaction : Transaction) : Option Half :=
  if transaction.writes = false ∧ transaction.register = register then
    acknowledged transaction.access
  else none

/-- What has been written to a register. -/
def writtenTo (register : BitVec 5) (transaction : Transaction) : Option Half :=
  if transaction.writes = true ∧ transaction.register = register then
    some ((Registers.Field.mk 0 16).get transaction.command)
  else none

/-- The last of the values in a log. -/
def latest (value : Transaction → Option Half) (log : List Transaction) : Option Half :=
  (log.filterMap value).getLast?

/-! ## Fields of commands -/

section Commands

variable {phyAddr regNum access : Word} {regVal : Half} {register : BitVec 5}

theorem register_readCommand :
    (Transaction.mk (readCommand phyAddr regNum) access).register = regNum.setWidth 5 := by
  apply BitVec.eq_of_getLsbD_eq
  intro index inside
  unfold Transaction.register Registers.Field.get readCommand useraccess0Read useraccess0Go
    phyRegMask
  interval_cases index <;> simp

theorem register_writeCommand :
    (Transaction.mk (writeCommand phyAddr regNum regVal) access).register =
      regNum.setWidth 5 := by
  apply BitVec.eq_of_getLsbD_eq
  intro index inside
  unfold Transaction.register Registers.Field.get writeCommand useraccess0Write useraccess0Go
    phyRegMask
  interval_cases index <;> simp

theorem data_writeCommand :
    (Registers.Field.mk 0 16).get (writeCommand phyAddr regNum regVal) = regVal := by
  apply BitVec.eq_of_getLsbD_eq
  intro index inside
  change index < 16 at inside
  unfold Registers.Field.get writeCommand useraccess0Write useraccess0Go phyRegMask
  interval_cases index <;> simp

theorem writes_readCommand :
    (Transaction.mk (readCommand phyAddr regNum) access).writes = false := by
  unfold Transaction.writes readCommand useraccess0Read useraccess0Go phyRegMask
  simp

theorem writes_writeCommand :
    (Transaction.mk (writeCommand phyAddr regNum regVal) access).writes = true := by
  unfold Transaction.writes writeCommand useraccess0Write useraccess0Go phyRegMask
  simp

theorem readOf_readCommand (same : regNum.setWidth 5 = register) :
    readOf register ⟨readCommand phyAddr regNum, access⟩ = acknowledged access :=
  if_pos ⟨writes_readCommand, register_readCommand.trans same⟩

theorem readOf_other (other : regNum.setWidth 5 ≠ register) :
    readOf register ⟨readCommand phyAddr regNum, access⟩ = none :=
  if_neg fun both => other (register_readCommand.symm.trans both.2)

theorem readOf_writeCommand :
    readOf register ⟨writeCommand phyAddr regNum regVal, access⟩ = none :=
  if_neg fun both => absurd (writes_writeCommand.symm.trans both.1) (by decide)

theorem writtenTo_writeCommand (same : regNum.setWidth 5 = register) :
    writtenTo register ⟨writeCommand phyAddr regNum regVal, access⟩ = some regVal := by
  refine (if_pos ⟨writes_writeCommand, register_writeCommand.trans same⟩).trans ?_
  exact congrArg some data_writeCommand

theorem writtenTo_other (other : regNum.setWidth 5 ≠ register) :
    writtenTo register ⟨writeCommand phyAddr regNum regVal, access⟩ = none :=
  if_neg fun both => other (register_writeCommand.symm.trans both.2)

theorem writtenTo_readCommand :
    writtenTo register ⟨readCommand phyAddr regNum, access⟩ = none :=
  if_neg fun both => absurd (writes_readCommand.symm.trans both.1) (by decide)

end Commands

/-! ## The latest value -/

section Latest

variable {value : Transaction → Option Half} {log more : List Transaction}

theorem latest_append : latest value (log ++ more) = (latest value more).or (latest value log) := by
  unfold latest
  rw [List.filterMap_append, List.getLast?_append]

/-- Transactions without a value do not matter. -/
theorem latest_none (without : ∀ transaction ∈ log, value transaction = none) :
    latest value log = none := by
  unfold latest
  rw [List.filterMap_eq_nil_iff.mpr without]
  rfl

theorem latest_singleton {transaction : Transaction} :
    latest value [transaction] = value transaction := by
  unfold latest
  cases found : value transaction with
  | none => rw [List.filterMap_cons_none found]; rfl
  | some data => rw [List.filterMap_cons_some found]; rfl

end Latest

end BbbEth.Phy
