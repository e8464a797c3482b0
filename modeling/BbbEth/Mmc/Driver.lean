import BbbEth.Mmc.State

/-!
# The driver routines of `mmc_api.c`

The routines follow the C statement by statement.  A status of 0 or 1 is a
`Bool`.  `dataBuffer` is the address of the buffer of that name, and the buffer of
a transfer is one object in memory, so that its length does not wrap.
-/

namespace BbbEth.Mmc

open BbbEth.Interference BbbEth.Coherence

/-- Routines of the driver. -/
abbrev Routine := Program Access

namespace Routine

variable {reply : Type}

def getCard (field : CardInfo → reply) : Routine reply :=
  .lift (.card fun card => (field card, card))

def setCard (change : CardInfo → CardInfo) : Routine Unit :=
  .lift (.card fun card => ((), change card))

def emit (event : Event) : Routine Unit := .lift (.emit event)

/-- One maintenance operation on a line. -/
def issue (operation : Maintenance) (address : Nat) : Routine Unit :=
  .lift (.maintain operation address)

/-- `if (flag) flag = 0`, with whether the flag was set. -/
def takeFlag (flag : Flag) : Routine Bool := do
  let set ← .lift (.loadFlag flag)
  if set then do
    .lift (.storeFlag flag false)
    .done true
  else
    .done false

/-- `if (status == 0) return 0` after a command. -/
def orFail (code : Routine (Bool × Cmd)) (next : Cmd → Routine Bool) : Routine Bool := do
  let (status, c) ← code
  if status then next c else .done false

end Routine

open Routine

/-! ## Constants -/

def cmdDp : Word := 0x00200000
def cmdMsbs : Word := 0x00000020
def cmdBce : Word := 0x00000002
def cmdDe : Word := 0x00000001

def sdCmdRspNone : Word := 0x001
def sdCmdRspStop : Word := 0x002
def sdCmdRspFs : Word := 0x004
def sdCmdRspAbort : Word := 0x008
def sdCmdRspBusy : Word := 0x010
def sdCmdRsp136Bits : Word := 0x020
def sdCmdRspData : Word := 0x040
def sdCmdRspRead : Word := 0x080
def sdCmdRspWrite : Word := 0x100

def sdOcrHighCapacity : Word := 0x40000000
def sdOcrVddWildcard : Word := 0x1FF <<< 15
def sdCheckPattern : Word := 0xAA
def sdVolt2p7To3p6 : Word := 0x100
def sdTranSpeed50Mbps : Byte := 0x5A
def sdSwitchMode : Word := 0x80FFFFFF
def sdCmd6Grp1Sel : Word := 0xFFFFFFF0
def sdCmd6Grp1Hs : Word := 0x1
def sdBusWidth1Bit : Word := 1
def sdBusWidth4Bit : Word := 4
def mmcCardSd : Word := 0

/-- `ctrlInfo.busWidth`, which `mmc0_config` sets. -/
def ctrlBusWidth : Word := sdBusWidth1Bit ||| sdBusWidth4Bit

/-- `ctrlInfo.memBase + MMC_DATA`. -/
def mmcData : Nat := 0x48060220

/-- `DATA_RESPONSE_WIDTH`. -/
def dataResponseWidth : Nat := 128

/-- A command that is yet to be filled in. -/
def Cmd.blank : Cmd := { idx := 0, flags := 0, arg := 0, nblks := 0, rsp := fun _ => 0 }

/-! ## Status -/

/-- `mmc0_get_cmd_status`. -/
def mmc0GetCmdStatus : Routine Bool := do
  .lift (.awaitFlags .cmdComp .cmdTimeout)
  let completed ← takeFlag .cmdComp
  let timedOut ← takeFlag .cmdTimeout
  .done (completed && !timedOut)

/-- One round of the loop that polls for the callback, while
`callbackOccured == 0 && timeOut-- != 0`. -/
def pollRound (timeOut : Word) : Routine (Word ⊕ Word) := do
  let occured ← .lift (.pollCallback timeOut)
  if occured then
    .done (.inr timeOut)
  else if timeOut = 0 then
    .done (.inr (timeOut - 1))
  else
    .done (.inl (timeOut - 1))

/-- The part of `mmc0_get_xfer_status` for a command with data. -/
def awaitCallback (command : Word) (status : Bool) : Routine Bool :=
  if command &&& cmdDp ≠ 0 then do
    let timeOut ← .iterate pollRound 0xFFFF
    .lift (.storeFlag .callbackOccured false)
    .done (if timeOut = 0 then false else status)
  else
    .done status

/-- `mmc0_get_xfer_status`. -/
def mmc0GetXferStatus : Routine Bool := do
  .lift (.awaitFlags .xferComp .dataTimeout)
  let completed ← takeFlag .xferComp
  let timedOut ← takeFlag .dataTimeout
  let command ← .lift .loadCmd
  let status ← awaitCallback command (completed && !timedOut)
  .lift (.storeDmaEnable false)
  .done status

/-! ## Transfers and commands -/

/-- The fields of `opt` that both directions set. -/
def paRamOpt (channel : Channel) : Word :=
  ((channel.number <<< 0xC) &&& 0x0003F000) ||| (1 <<< 0x14)

/-- `MMCRxDMAsetup`. -/
def mmcRxDmaSetup (ptr blkSize nblks : Nat) : Routine Unit := do
  .lift (.setPaRam .mmc0Rx
    { srcAddr := mmcData
      destAddr := ptr
      srcBIdx := 0
      srcCIdx := 0
      destBIdx := 4
      destCIdx := blkSize % 2 ^ 16
      aCnt := 4
      bCnt := blkSize % 2 ^ 16 / 4
      cCnt := nblks % 2 ^ 16
      bCntReload := 0
      linkAddr := 0xffff
      opt := paRamOpt .mmc0Rx ||| (1 <<< 0) ||| (2 <<< 8) ||| (1 <<< 2) })
  .lift (.enableTransfer .mmc0Rx)

/-- `MMCTxDMAsetup`. -/
def mmcTxDmaSetup (ptr blkSize blks : Nat) : Routine Unit := do
  .lift (.setPaRam .mmc0Tx
    { srcAddr := ptr
      destAddr := mmcData
      srcBIdx := 4
      srcCIdx := blkSize % 2 ^ 16
      destBIdx := 0
      destCIdx := 0
      aCnt := 4
      bCnt := blkSize % 2 ^ 16 / 4
      cCnt := blks % 2 ^ 16
      bCntReload := 0
      linkAddr := 0xffff
      opt := paRamOpt .mmc0Tx ||| (1 <<< 1) ||| (2 <<< 8) ||| (1 <<< 2) })
  .lift (.enableTransfer .mmc0Tx)

/-- The set-up of the channel that serves a transfer. -/
def mmcDmaSetup (channel : Channel) (ptr blkSize nBlks : Nat) : Routine Unit :=
  match channel with
  | .mmc0Rx => mmcRxDmaSetup ptr blkSize nBlks
  | .mmc0Tx => mmcTxDmaSetup ptr blkSize nBlks

/-- `MMCXferSetup`; the channel stands for `rwFlag`, which is 1 for a read. -/
def mmcXferSetup (channel : Channel) (ptr blkSize nBlks : Nat) : Routine Unit := do
  .lift (.storeFlag .callbackOccured false)
  .lift (.storeFlag .xferComp false)
  mmcDmaSetup channel ptr blkSize nBlks
  .lift (.storeDmaEnable true)
  emit (.blkLen blkSize)

/-- The CMD_TYPE field; the first shift is a comparison in the source. -/
def cmdType (flags : Word) : Word :=
  if flags &&& 0x2 ≠ 0 then (if 0x1 < 0x16 then 1 else 0)
  else if flags &&& 0x4 ≠ 0 then 0x2 <<< 0x16
  else if flags &&& 0x8 ≠ 0 then 0x3 <<< 0x16
  else 0

/-- The DDIR field. -/
def cmdDir (flags : Word) : Word := if flags &&& 0x80 ≠ 0 then 0x1 <<< 0x4 else 0

/-- The RSP_TYPE field. -/
def rspType (flags : Word) : Word :=
  if flags &&& 0x1 ≠ 0 then 0
  else if flags &&& 0x20 ≠ 0 then 1 <<< 0x10
  else if flags &&& 0x10 ≠ 0 then 3 <<< 0x10
  else 2 <<< 0x10

/-- Whether data is present. -/
def Cmd.dataPresent (c : Cmd) : Bool := c.flags &&& 0x40 ≠ 0

/-- The command word, up to the DE bit. -/
def Cmd.word (c : Cmd) : Word :=
  ((c.idx <<< 0x18) ||| cmdType c.flags ||| rspType c.flags ||| cmdDir c.flags) |||
    if c.dataPresent then cmdDp ||| cmdMsbs ||| cmdBce else 0

/-- The preparation for a command with data. -/
def prepareData (c : Cmd) : Routine Unit :=
  if c.dataPresent then do
    emit (.clearStatus State.statTrnfComp)
    emit (.setDto 27)
  else
    .done ()

/-- Write the command word, with the DE bit if DMA is enabled. -/
def writeCmd (c : Cmd) : Routine Unit := do
  let dmaEnable ← .lift .loadDmaEnable
  .lift (.sendCmd (c.word ||| if dmaEnable then cmdDe else 0) c.arg
    (if c.dataPresent then c.nblks else 0))

/-- Read the response to a command that is complete. -/
def readResp (c : Cmd) (status : Bool) : Routine (Bool × Cmd) :=
  if status then do
    let rsp ← .lift .getResp
    .done (true, { c with rsp := rsp })
  else
    .done (false, c)

/-- `MMC0CmdSend`, with the command as it leaves it. -/
def mmc0CmdSend (c : Cmd) : Routine (Bool × Cmd) := do
  prepareData c
  writeCmd c
  let status ← mmc0GetCmdStatus
  readResp c status

/-- `MMCAppCmdSend`. -/
def mmcAppCmdSend (c : Cmd) : Routine (Bool × Cmd) := do
  let rca ← getCard (·.rca)
  let (status, _) ← mmc0CmdSend { Cmd.blank with idx := 55, arg := rca <<< 16 }
  if status then mmc0CmdSend c else .done (false, c)

/-- `MMCBusWidthSet`. -/
def mmcBusWidthSet : Routine Bool := do
  let busWidth ← getCard (·.busWidth)
  let width := if ctrlBusWidth &&& sdBusWidth4Bit ≠ 0 ∧
      busWidth.setWidth 32 &&& sdBusWidth4Bit ≠ 0 then sdBusWidth4Bit else sdBusWidth1Bit
  orFail (mmcAppCmdSend { Cmd.blank with idx := 6, arg := width >>> 1 }) fun c => do
    emit (.busWidth (if c.arg = 0 then 1 else 4))
    .done true

/-- A command with data and the wait for its transfer. -/
def sendData (c : Cmd) : Routine Bool := orFail (mmc0CmdSend c) fun _ => mmc0GetXferStatus

/-- The same, with what follows if it succeeds. -/
def transfer (c : Cmd) (next : Routine Bool) : Routine Bool := do
  let status ← sendData c
  if status then next else .done false

/-- The end of `MMCTranSpeedSet`: set the bus to a frequency. -/
def setOpClk (freq : Nat) : Routine Bool := do
  let set ← .lift (.setBusFreq freq)
  emit (.opClk freq)
  .done set

/-- `if ((dataBuffer[16] & 0xF) == SD_CMD6_GRP1_HS)` and its branch. -/
def noteHighSpeed (group : Byte) : Routine Unit :=
  if (group &&& 0xF).setWidth 32 = sdCmd6Grp1Hs then
    setCard fun card => { card with tranSpeed := sdTranSpeed50Mbps }
  else
    .done ()

/-- `MMCTranSpeedSet`. -/
def mmcTranSpeedSet (dataBuffer : Nat) : Routine Bool := do
  mmcXferSetup .mmc0Rx dataBuffer 64 1
  transfer
    { Cmd.blank with
      idx := 6
      arg := (sdSwitchMode &&& sdCmd6Grp1Sel) ||| sdCmd6Grp1Hs
      flags := sdCmdRspRead ||| sdCmdRspData
      nblks := 1 } do
    cp15DCacheFlushBuff issue dataBuffer dataResponseWidth
    let speed ← getCard (·.tranSpeed)
    let group ← .lift (.loadByte (dataBuffer + 16))
    noteHighSpeed group
    setOpClk (if speed = sdTranSpeed50Mbps then 50000000 else 25000000)

/-- `MMCCardReset`. -/
def mmcCardReset : Routine (Bool × Cmd) :=
  mmc0CmdSend { Cmd.blank with idx := 0, flags := sdCmdRspNone, arg := 0 }

/-- `MMCStopCmdSend`. -/
def mmcStopCmdSend : Routine Bool := do
  let _ ← mmc0CmdSend { Cmd.blank with idx := 12, flags := sdCmdRspBusy, arg := 0 }
  mmc0GetXferStatus

/-- `MMCCardTypeCheck`. -/
def mmcCardTypeCheck : Routine (Bool × Cmd) :=
  mmcAppCmdSend { Cmd.blank with idx := 55, flags := 0, arg := 0 }

/-! ## Initialisation of a card -/

/-- One round of the loop of `MMCCardInit` that sends ACMD41 until the card is powered
up, while `!(cmd.rsp[0] & BIT(31)) && retry--`. -/
def powerUpRound : Word × Cmd → Routine ((Word × Cmd) ⊕ (Word × Cmd))
  | (retry, c) => do
      let (_, c) ← mmcAppCmdSend
        { c with idx := 41, flags := 0, arg := sdOcrHighCapacity ||| sdOcrVddWildcard }
      if c.rsp 0 &&& 0x80000000 ≠ 0 then
        .done (.inr (retry, c))
      else if retry = 0 then
        .done (.inr (retry - 1, c))
      else
        .done (.inl (retry - 1, c))

/-- The part of `MMCCardInit` from the second reset up to the operating conditions. -/
def powerUp (next : Cmd → Routine Bool) : Routine Bool := do
  setCard fun card => { card with cardType := mmcCardSd }
  orFail mmcCardReset fun _ => do
    let (_, c) ← mmc0CmdSend
      { Cmd.blank with idx := 8, flags := 0, arg := sdCheckPattern ||| sdVolt2p7To3p6 }
    orFail (mmcAppCmdSend
      { c with idx := 41, flags := 0, arg := sdOcrHighCapacity ||| sdOcrVddWildcard }) fun c => do
      let (retry, c) ← .iterate powerUpRound (0xFFFF, c)
      if retry = 0 then
        .done false
      else do
        setCard fun card => { card with
          ocr := c.rsp 0
          highCap := if c.rsp 0 &&& sdOcrHighCapacity ≠ 0 then 1 else 0 }
        next c

/-- What `MMCCardInit` takes from the card specific data register. -/
def CardInfo.decodeCsd (card : CardInfo) : CardInfo :=
  let rdBlkLen := (card.rawCsd 2 &&& 0x000F0000) >>> 16
  let tranSpeed := (card.rawCsd 3 &&& 0x000000FF).setWidth 8
  let blkLen := (1 : Word) <<< rdBlkLen
  if (card.rawCsd 3 &&& 0xC0000000) >>> 30 ≠ 0 then
    let devSize := ((card.rawCsd 2 &&& 0x0000003F) <<< 16) |||
      ((card.rawCsd 1 &&& 0xFFFF0000) >>> 16)
    let size := (devSize + 1) * (512 * 1024)
    { card with tranSpeed := tranSpeed, blkLen := blkLen, size := size, nBlks := size / blkLen }
  else
    let devSize := ((card.rawCsd 2 &&& 0x000003FF) <<< 2) |||
      ((card.rawCsd 1 &&& 0xC0000000) >>> 30)
    let mult := (card.rawCsd 1 &&& 0x00038000) >>> 15
    let nBlks := (devSize + 1) * ((1 : Word) <<< (mult + 2))
    { card with tranSpeed := tranSpeed, blkLen := blkLen, nBlks := nBlks, size := nBlks * blkLen }

/-- The part of `MMCCardInit` that reads the registers of the card. -/
def readRegisters (c : Cmd) (next : Cmd → Routine Bool) : Routine Bool := do
  let (found, c) ← mmc0CmdSend { c with idx := 2, flags := sdCmdRsp136Bits, arg := 0 }
  setCard fun card => { card with rawCid := c.rsp }
  if found then do
    let (addressed, c) ← mmc0CmdSend { c with idx := 3, flags := 0, arg := 0 }
    setCard fun card => { card with rca := (c.rsp 0 &&& 0xFFFF0000) >>> 16 }
    if addressed then do
      let rca ← getCard (·.rca)
      let (described, c) ← mmc0CmdSend
        { c with idx := 9, flags := sdCmdRsp136Bits, arg := rca <<< 16 }
      setCard fun card => { card with rawCsd := c.rsp }
      if described then do
        setCard (·.decodeCsd)
        next c
      else
        .done false
    else
      .done false
  else
    .done false

/-- The part of `MMCCardInit` that sets the block length of a card that is addressed
by bytes. -/
def setBlockLen (c : Cmd) (next : Cmd → Routine Bool) : Routine Bool := do
  let highCap ← getCard (·.highCap)
  if highCap = 0 then
    orFail (mmc0CmdSend { c with idx := 16, flags := sdCmdRspNone, arg := 512 }) fun c => do
      setCard fun card => { card with blkLen := 512 }
      next c
  else
    next c

/-- The 32-bit word at an address, byte by byte. -/
def loadWord (address : Nat) : Routine Word := do
  let byte3 ← .lift (.loadByte (address + 3))
  let byte2 ← .lift (.loadByte (address + 2))
  let byte1 ← .lift (.loadByte (address + 1))
  let byte0 ← .lift (.loadByte address)
  .done (byte3 ++ byte2 ++ byte1 ++ byte0)

/-- The part of `MMCCardInit` that selects the card and reads its configuration
register. -/
def readScr (dataBuffer : Nat) (c : Cmd) : Routine Bool := do
  let rca ← getCard (·.rca)
  orFail (mmc0CmdSend { c with idx := 7, flags := sdCmdRspBusy, arg := rca <<< 16 }) fun c => do
    let rca ← getCard (·.rca)
    orFail (mmc0CmdSend { c with idx := 55, flags := 0, arg := rca <<< 16 }) fun c => do
      mmcXferSetup .mmc0Rx dataBuffer 8 1
      let rca ← getCard (·.rca)
      transfer
        { c with
          idx := 51
          flags := sdCmdRspRead ||| sdCmdRspData
          arg := rca <<< 16
          nblks := 1 } do
        cp15DCacheFlushBuff issue dataBuffer dataResponseWidth
        let low ← loadWord dataBuffer
        setCard fun card => { card with rawScr := Function.update card.rawScr 0 low }
        let high ← loadWord (dataBuffer + 4)
        setCard fun card => { card with rawScr := Function.update card.rawScr 1 high }
        setCard fun card => { card with
          sdVer := (card.rawScr 0 &&& 0xF).setWidth 8
          busWidth := ((card.rawScr 0 &&& 0xF00) >>> 8).setWidth 8 }
        .done true

/-- `MMCCardInit`. -/
def mmcCardInit (dataBuffer : Nat) : Routine Bool := do
  setCard fun _ => .zero
  orFail mmcCardReset fun _ =>
    orFail mmcCardTypeCheck fun _ =>
      powerUp fun c => readRegisters c fun c => setBlockLen c (readScr dataBuffer)

/-! ## Reading and writing blocks -/

/-- The address of a block: in blocks for high capacity cards, in bytes for others. -/
def blockAddress (block : Word) : Routine Word := do
  let highCap ← getCard (·.highCap)
  if highCap ≠ 0 then
    .done block
  else do
    let blkLen ← getCard (·.blkLen)
    .done (block * blkLen)

/-- The command for blocks, where `several` and `single` are its numbers. -/
def blockCmd (direction several single address nblks : Word) : Cmd :=
  if 1 < nblks then
    { Cmd.blank with
      idx := several
      flags := direction ||| sdCmdRspData ||| sdCmdRspAbort
      arg := address
      nblks := nblks }
  else
    { Cmd.blank with
      idx := single
      flags := direction ||| sdCmdRspData
      arg := address
      nblks := nblks }

/-- Stop a transfer of several blocks. -/
def stopSeveral (nblks : Word) (next : Routine Bool) : Routine Bool :=
  if 1 < nblks then do
    let status ← mmcStopCmdSend
    if status then next else .done false
  else
    next

/-- `MMCWriteCmdSend`. -/
def mmcWriteCmdSend (ptr : Nat) (block nblks : Word) : Routine Bool := do
  let address ← blockAddress block
  cp15DCacheCleanBuff issue ptr (512 * nblks.toNat)
  mmcXferSetup .mmc0Tx ptr 512 nblks.toNat
  transfer (blockCmd sdCmdRspWrite 25 24 address nblks) (stopSeveral nblks (.done true))

/-- `MMCReadCmdSend`. -/
def mmcReadCmdSend (ptr : Nat) (block nblks : Word) : Routine Bool := do
  let address ← blockAddress block
  mmcXferSetup .mmc0Rx ptr 512 nblks.toNat
  transfer (blockCmd sdCmdRspRead 18 17 address nblks)
    (stopSeveral nblks do
      cp15DCacheFlushBuff issue ptr (512 * nblks.toNat)
      .done true)

end BbbEth.Mmc
