import BbbEth.Mmc.Driver

/-!
# The registers of a command

What `mmc0_send_cmd` and `MMCBlkLenSet` write.
-/

namespace BbbEth.Mmc

/-- The registers that `mmc0_send_cmd` writes. -/
structure CmdRegisters where
  blk : Word
  arg : Word
  cmd : Word
  deriving DecidableEq

def blkNblk : Word := 0xFFFF0000
def blkBlen : Word := 0x00000FFF

namespace CmdRegisters

variable (registers : CmdRegisters)

/-- `mmc0_send_cmd`. -/
def sendCmd (command arg nblk : Word) : CmdRegisters where
  blk := (registers.blk &&& ~~~blkNblk) ||| (nblk <<< 0x10)
  arg := arg
  cmd := command

/-- `MMCBlkLenSet`. -/
def blkLenSet (blklen : Word) : CmdRegisters :=
  { registers with blk := (registers.blk &&& ~~~blkBlen) ||| blklen }

end CmdRegisters

/-- What `MMC0CmdSend` writes. -/
def Cmd.sent (c : Cmd) (dmaEnable : Bool) (registers : CmdRegisters) : CmdRegisters :=
  registers.sendCmd (c.word ||| if dmaEnable then cmdDe else 0) c.arg
    (if c.dataPresent then c.nblks else 0)

end BbbEth.Mmc
