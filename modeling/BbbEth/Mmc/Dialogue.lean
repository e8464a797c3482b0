import BbbEth.Interference.Results
import BbbEth.Mmc.Command
import Mathlib.Data.List.ModifyLast

/-!
# The dialogue with the card

The routines of the driver where every answer of the hardware is possible: each command may
complete, with any response, or time out, and the flags of a transfer may have any values.  A log
keeps what was sent and what came back, in order.
-/

namespace BbbEth.Mmc

open BbbEth.Interference BbbEth.Coherence

/-- What the log keeps. -/
inductive Entry where
  /-- The registers of a command, and its response if it completes. -/
  | command (registers : CmdRegisters) (reply : Option (Fin 4 → Word))
  /-- The wait for a transfer, with whether it succeeds. -/
  | transfer (succeeds : Bool)
  /-- A channel that is started. -/
  | start (channel : Channel) (entry : PaRamEntry)
  | loaded (address : Nat) (value : Byte)
  /-- `MMCSetBusFreq`, with whether it succeeds. -/
  | clock (freq : Nat) (succeeds : Bool)

/-- Put a response to the command that was sent. -/
def Entry.answer (rsp : Fin 4 → Word) : Entry → Entry
  | .command registers _ => .command registers (some rsp)
  | other => other

/-- The state of the dialogue. -/
structure Desk where
  dmaEnable : Bool
  card : CardInfo
  registers : CmdRegisters
  opClk : Nat
  paRam : Channel → PaRamEntry
  /-- What the flags that were read say of a transfer. -/
  verdict : Bool
  log : List Entry

namespace Desk

/-- A desk that nothing was done at. -/
def clear : Desk where
  dmaEnable := false
  card := .zero
  registers := ⟨0, 0, 0⟩
  opClk := 0
  paRam _ := ⟨0, 0, 0, 0, 0, 0, 0, 0, 0, 0, 0, 0⟩
  verdict := false
  log := []

/-- A flag is read. -/
def judge (desk : Desk) (flag : Flag) (value : Bool) : Desk :=
  match flag with
  | .xferComp => { desk with verdict := value }
  | .dataTimeout => { desk with verdict := desk.verdict && !value }
  | _ => desk

/-- A poll for the callback; one that is seen when the counter has come to 0 counts against the
transfer. -/
def poll (desk : Desk) (timeOut : Word) (value : Bool) : Desk :=
  { desk with verdict := desk.verdict && !(value && timeOut = 0) }

/-- The end of a wait for a transfer. -/
def transferred (desk : Desk) (succeeds : Bool) : Desk :=
  { desk with dmaEnable := false, verdict := false, log := desk.log ++ [.transfer succeeds] }

/-- An event that the routine emits. -/
def emit (desk : Desk) : Event → Desk
  | .blkLen length => { desk with registers := desk.registers.blkLenSet (.ofNat 32 length) }
  | .opClk freq => { desk with opClk := freq }
  | _ => desk

/-- What an access can be answered, and the state behind it. -/
def answers : {reply : Type} → Access reply → Desk → reply → Desk → Prop
  | _, .awaitFlags _ _, desk, _, next => next = desk
  | _, .loadFlag flag, desk, value, next => next = desk.judge flag value
  | _, .pollCallback timeOut, desk, value, next => next = desk.poll timeOut value
  | _, .storeFlag _ _, desk, _, next => next = desk
  | _, .loadDmaEnable, desk, value, next => value = desk.dmaEnable ∧ next = desk
  | _, .storeDmaEnable true, desk, _, next => next = { desk with dmaEnable := true }
  | _, .storeDmaEnable false, desk, _, next => next = desk.transferred desk.verdict
  | _, .card update, desk, value, next =>
      value = (update desk.card).1 ∧ next = { desk with card := (update desk.card).2 }
  | _, .setPaRam channel entry, desk, _, next =>
      next = { desk with paRam := Function.update desk.paRam channel entry }
  | _, .enableTransfer channel, desk, _, next =>
      next = { desk with log := desk.log ++ [.start channel (desk.paRam channel)] }
  | _, .sendCmd word arg nblk, desk, _, next =>
      next = { desk with
        registers := desk.registers.sendCmd word arg nblk
        log := desk.log ++ [.command (desk.registers.sendCmd word arg nblk) none] }
  | _, .loadCmd, desk, value, next => value = desk.registers.cmd ∧ next = desk
  | _, .getResp, desk, rsp, next => next = { desk with log := desk.log.modifyLast (.answer rsp) }
  | _, .setBusFreq freq, desk, value, next =>
      next = { desk with log := desk.log ++ [.clock freq value] }
  | _, .maintain _ _, desk, _, next => next = desk
  | _, .loadByte address, desk, value, next =>
      next = { desk with log := desk.log ++ [.loaded address value] }
  | _, .emit event, desk, _, next => next = desk.emit event

end Desk

/-- The hardware and the card. -/
def desk : Server Access Desk := ⟨Desk.answers⟩

section Answers

variable {current after : Desk}

@[simp] theorem answers_awaitFlags {first second : Flag} {value : Unit} :
    desk.answers (.awaitFlags first second) current value after ↔ after = current := Iff.rfl

@[simp] theorem answers_loadFlag {flag : Flag} {value : Bool} :
    desk.answers (.loadFlag flag) current value after ↔ after = current.judge flag value := Iff.rfl

@[simp] theorem answers_pollCallback {timeOut : Word} {value : Bool} :
    desk.answers (.pollCallback timeOut) current value after ↔
      after = current.poll timeOut value := Iff.rfl

@[simp] theorem answers_storeFlag {flag : Flag} {stored : Bool} {value : Unit} :
    desk.answers (.storeFlag flag stored) current value after ↔ after = current := Iff.rfl

@[simp] theorem answers_loadDmaEnable {value : Bool} :
    desk.answers .loadDmaEnable current value after ↔
      value = current.dmaEnable ∧ after = current := Iff.rfl

@[simp] theorem answers_storeDmaEnable_true {value : Unit} :
    desk.answers (.storeDmaEnable true) current value after ↔
      after = { current with dmaEnable := true } := Iff.rfl

@[simp] theorem answers_storeDmaEnable_false {value : Unit} :
    desk.answers (.storeDmaEnable false) current value after ↔
      after = current.transferred current.verdict := Iff.rfl

@[simp] theorem answers_card {reply : Type} {update : CardInfo → reply × CardInfo} {value : reply} :
    desk.answers (.card update) current value after ↔
      value = (update current.card).1 ∧ after = { current with card := (update current.card).2 } :=
  Iff.rfl

@[simp] theorem answers_setPaRam {channel : Channel} {entry : PaRamEntry} {value : Unit} :
    desk.answers (.setPaRam channel entry) current value after ↔
      after = { current with paRam := Function.update current.paRam channel entry } := Iff.rfl

@[simp] theorem answers_enableTransfer {channel : Channel} {value : Unit} :
    desk.answers (.enableTransfer channel) current value after ↔
      after = { current with
        log := current.log ++ [.start channel (current.paRam channel)] } := Iff.rfl

@[simp] theorem answers_sendCmd {word arg nblk : Word} {value : Unit} :
    desk.answers (.sendCmd word arg nblk) current value after ↔
      after = { current with
        registers := current.registers.sendCmd word arg nblk
        log := current.log ++ [.command (current.registers.sendCmd word arg nblk) none] } := Iff.rfl

@[simp] theorem answers_loadCmd {value : Word} :
    desk.answers .loadCmd current value after ↔
      value = current.registers.cmd ∧ after = current := Iff.rfl

@[simp] theorem answers_getResp {rsp : Fin 4 → Word} :
    desk.answers .getResp current rsp after ↔
      after = { current with log := current.log.modifyLast (.answer rsp) } := Iff.rfl

@[simp] theorem answers_setBusFreq {freq : Nat} {value : Bool} :
    desk.answers (.setBusFreq freq) current value after ↔
      after = { current with log := current.log ++ [.clock freq value] } := Iff.rfl

@[simp] theorem answers_maintain {operation : Maintenance} {address : Nat}
    {value : Unit} :
    desk.answers (.maintain operation address) current value after ↔ after = current := Iff.rfl

@[simp] theorem answers_loadByte {address : Nat} {value : Byte} :
    desk.answers (.loadByte address) current value after ↔
      after = { current with log := current.log ++ [.loaded address value] } := Iff.rfl

@[simp] theorem answers_emit {event : Event} {value : Unit} :
    desk.answers (.emit event) current value after ↔ after = current.emit event := Iff.rfl

end Answers

end BbbEth.Mmc
