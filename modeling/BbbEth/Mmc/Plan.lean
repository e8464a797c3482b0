import BbbEth.Mmc.Conversation
import BbbEth.Strided.Frames

/-!
# The plan of a block transfer

`MMCReadCmdSend` and `MMCWriteCmdSend` describe the blocks to the card, to the controller and to the
EDMA, which serves one event for each block.
-/

namespace BbbEth.Mmc

open BbbEth.Interference Server Routine BbbEth.Coherence BbbEth.Registers BbbEth.Strided

def samField : Field := ⟨0, 1⟩
def damField : Field := ⟨1, 1⟩
def fwidField : Field := ⟨8, 3⟩

/-- The width in bytes of a side with a constant address. -/
def fifoWidth (opt : Word) (mode : Field) : Option Nat :=
  if mode.get opt = 1 then some (2 ^ (fwidField.get opt).toNat) else none

/-- An index, which has 16 bits and a sign. -/
def signedIndex (index : Nat) : Word := (BitVec.ofNat 16 index).signExtend 32

/-- The transfer that a parameter set describes. -/
def PaRamEntry.transfer (entry : PaRamEntry) : Transfer 32 where
  src :=
    { base := .ofNat 32 entry.srcAddr
      bIdx := signedIndex entry.srcBIdx
      cIdx := signedIndex entry.srcCIdx
      fifo := fifoWidth entry.opt samField }
  dest :=
    { base := .ofNat 32 entry.destAddr
      bIdx := signedIndex entry.destBIdx
      cIdx := signedIndex entry.destCIdx
      fifo := fifoWidth entry.opt damField }
  aCnt := entry.aCnt
  bCnt := entry.bCnt
  cCnt := entry.cCnt

section ParameterSets

variable {channel : Channel} {ptr nBlks : Nat}

end ParameterSets

/-! ## Dialogues -/

/-- The registers of a command. -/
def Entry.registers : Entry → Option CmdRegisters
  | .command registers _ => some registers
  | _ => none

/-- The channel that is started, with its parameter set. -/
def Entry.started : Entry → Option (Channel × PaRamEntry)
  | .start channel entry => some (channel, entry)
  | _ => none

/-- Whether a transfer succeeds. -/
def Entry.verdict : Entry → Option Bool
  | .transfer succeeds => some succeeds
  | _ => none

/-- The command for one block. -/
def Channel.single : Channel → Nat
  | .mmc0Rx => 17
  | .mmc0Tx => 24

/-- The command for several blocks. -/
def Channel.several : Channel → Nat
  | .mmc0Rx => 18
  | .mmc0Tx => 25

section Commands

variable {c : Cmd} {channel : Channel} {ptr : Nat} {block nblks : Word} {registers : CmdRegisters}

/-- The flag for the direction. -/
def Channel.direction : Channel → Word
  | .mmc0Rx => sdCmdRspRead
  | .mmc0Tx => sdCmdRspWrite

end Commands
section Runs

variable {current after : Desk} {value : Bool} {channel : Channel} {ptr : Nat}
  {block nblks : Word}

end Runs
end BbbEth.Mmc
