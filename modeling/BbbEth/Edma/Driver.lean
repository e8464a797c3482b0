import BbbEth.Registers.File

/-!
# The driver of the DMA controller

The routines of `dma.c` that open and close a channel.  Only `DMAInit` sets `regionId`, and it
sets it to zero.  A shift by a register with a number of 32 or more gives zero.
-/

namespace BbbEth.Edma

open BbbEth.Registers

/-! ## Registers -/

/-- A 32-bit word. -/
abbrev Word := BitVec 32

/-- The words behind the registers. -/
inductive Cell where
  | opt (chNum : Nat)
  | dmaqnum (index : Nat)
  | qdmaqnum
  | drae
  | draeh
  | qrae
  | emr
  | emrh
  | er
  | erh
  | eer
  | eerh
  | ser
  | serh
  | ier
  | ierh
  | qeer
  deriving DecidableEq

/-- The channel controller. -/
abbrev Controller := File Cell 32

def dmaccOpt (chNum : Nat) : Register Cell := ⟨.opt chNum, .plain⟩
def dmaccDmaqnum (index : Nat) : Register Cell := ⟨.dmaqnum index, .plain⟩
def dmaccQdmaqnum : Register Cell := ⟨.qdmaqnum, .plain⟩
def dmaccDrae : Register Cell := ⟨.drae, .plain⟩
def dmaccDraeh : Register Cell := ⟨.draeh, .plain⟩
def dmaccQrae : Register Cell := ⟨.qrae, .plain⟩
def dmaccEmcr : Register Cell := ⟨.emr, .clear⟩
def dmaccEmcrh : Register Cell := ⟨.emrh, .clear⟩
def dmaccSEsr : Register Cell := ⟨.er, .set⟩
def dmaccSEsrh : Register Cell := ⟨.erh, .set⟩
def dmaccSEcr : Register Cell := ⟨.er, .clear⟩
def dmaccSEcrh : Register Cell := ⟨.erh, .clear⟩
def dmaccSEesr : Register Cell := ⟨.eer, .set⟩
def dmaccSEesrh : Register Cell := ⟨.eerh, .set⟩
def dmaccSEecr : Register Cell := ⟨.eer, .clear⟩
def dmaccSEecrh : Register Cell := ⟨.eerh, .clear⟩
def dmaccSSecr : Register Cell := ⟨.ser, .clear⟩
def dmaccSSecrh : Register Cell := ⟨.serh, .clear⟩
def dmaccSIesr : Register Cell := ⟨.ier, .set⟩
def dmaccSIesrh : Register Cell := ⟨.ierh, .set⟩
def dmaccSIecr : Register Cell := ⟨.ier, .clear⟩
def dmaccSIecrh : Register Cell := ⟨.ierh, .clear⟩
def dmaccSQeesr : Register Cell := ⟨.qeer, .set⟩
def dmaccSQeecr : Register Cell := ⟨.qeer, .clear⟩

/-! ## Constants -/

def dmaTrigModeManual : Nat := 0
def dmaTrigModeQdma : Nat := 1
def dmaTrigModeEvent : Nat := 2

def dmaChannelTypeDma : Nat := 0
def dmaChannelTypeQdma : Nat := 1

def socDmaNumDmach : Nat := 64
def socDmaNumQdmach : Nat := 8

/-- `DMACC_OPT_TCC`. -/
def dmaccOptTcc : Word := 0x0003f000

def dmaccOptTccClr : Word := ~~~ dmaccOptTcc
def dmaccOptTccSet (tcc : Nat) : Word := (dmaccOptTcc >>> 12 &&& BitVec.ofNat 32 tcc) <<< 12

def dmaccDmaqnumClr (chNum : Nat) : Word := ~~~ ((0x7 : Word) <<< (chNum % 8 * 4))
def dmaccDmaqnumSet (chNum : Nat) (queNum : Word) : Word := (0x7 &&& queNum) <<< (chNum % 8 * 4)

def dmaccQdmaqnumClr (chNum : Nat) : Word := ~~~ ((0x7 : Word) <<< (chNum * 4))
def dmaccQdmaqnumSet (chNum : Nat) (queNum : Word) : Word := (0x7 &&& queNum) <<< (chNum * 4)

/-! ## Routines -/

/-- The word with one bit. -/
def bit (number : Nat) : Word := 0x01 <<< number

/-- The bit of a channel in one of two registers. -/
def orBit (low high : Register Cell) (chNum : Nat) (controller : Controller) : Controller :=
  if chNum < 32 then controller.orInto low (bit chNum)
  else controller.orInto high (bit (chNum - 32))

/-- `DMAEnableChInShadowReg`. -/
def dmaEnableChInShadowReg (chType chNum : Nat) (controller : Controller) : Controller :=
  if chType = dmaChannelTypeDma then orBit dmaccDrae dmaccDraeh chNum controller
  else if chType = dmaChannelTypeQdma then controller.orInto dmaccQrae (bit chNum)
  else controller

/-- `DMADisableChInShadowReg`; for a QDMA channel the complement is shifted. -/
def dmaDisableChInShadowReg (chType chNum : Nat) (controller : Controller) : Controller :=
  if chType = dmaChannelTypeDma then
    if chNum < 32 then controller.andInto dmaccDrae (~~~ bit chNum)
    else controller.andInto dmaccDraeh (~~~ bit (chNum - 32))
  else if chType = dmaChannelTypeQdma then controller.andInto dmaccQrae ((~~~ 0x01 : Word) <<< chNum)
  else controller

/-- `DMAMapChToEvtQ`. -/
def dmaMapChToEvtQ (chType chNum : Nat) (evtQNum : Word) (controller : Controller) : Controller :=
  if chType = dmaChannelTypeDma then
    (controller.andInto (dmaccDmaqnum (chNum >>> 3)) (dmaccDmaqnumClr chNum)).orInto
      (dmaccDmaqnum (chNum >>> 3)) (dmaccDmaqnumSet chNum evtQNum)
  else if chType = dmaChannelTypeQdma then
    controller.orInto dmaccQdmaqnum (dmaccQdmaqnumSet chNum evtQNum)
  else controller

/-- `DMAUnmapChToEvtQ`, which adds the mask that clears. -/
def dmaUnmapChToEvtQ (chType chNum : Nat) (controller : Controller) : Controller :=
  if chType = dmaChannelTypeDma then
    controller.orInto (dmaccDmaqnum (chNum >>> 3)) (dmaccDmaqnumClr chNum)
  else if chType = dmaChannelTypeQdma then
    controller.orInto dmaccQdmaqnum (dmaccQdmaqnumClr chNum)
  else controller

/-- `DMAClrMissEvt`. -/
def dmaClrMissEvt (chNum : Nat) (controller : Controller) : Controller :=
  if chNum < 32 then
    (controller.write dmaccSSecr (bit chNum)).orInto dmaccEmcr (bit chNum)
  else
    (controller.write dmaccSSecrh (bit (chNum - 32))).orInto dmaccEmcrh (bit (chNum - 32))

/-- `DMASetEvt`. -/
def dmaSetEvt : Nat → Controller → Controller := orBit dmaccSEsr dmaccSEsrh

/-- `DMAClrEvt`. -/
def dmaClrEvt : Nat → Controller → Controller := orBit dmaccSEcr dmaccSEcrh

/-- `DMAEnableDmaEvt`. -/
def dmaEnableDmaEvt : Nat → Controller → Controller := orBit dmaccSEesr dmaccSEesrh

/-- `DMADisableDmaEvt`, where the number of an upper channel is not reduced. -/
def dmaDisableDmaEvt (chNum : Nat) (controller : Controller) : Controller :=
  if chNum < 32 then controller.orInto dmaccSEecr (bit chNum)
  else controller.orInto dmaccSEecrh (bit chNum)

/-- `DMAEnableQdmaEvt`. -/
def dmaEnableQdmaEvt (chNum : Nat) (controller : Controller) : Controller :=
  controller.write dmaccSQeesr (bit chNum)

/-- `DMADisableQdmaEvt`. -/
def dmaDisableQdmaEvt (chNum : Nat) (controller : Controller) : Controller :=
  controller.write dmaccSQeecr (bit chNum)

/-- `DMAEnableEvtIntr`. -/
def dmaEnableEvtIntr : Nat → Controller → Controller := orBit dmaccSIesr dmaccSIesrh

/-- `DMADisableEvtIntr`. -/
def dmaDisableEvtIntr : Nat → Controller → Controller := orBit dmaccSIecr dmaccSIecrh

/-- Write a transfer completion code. -/
def setTcc (chNum tccNum : Nat) (controller : Controller) : Controller :=
  (controller.andInto (dmaccOpt chNum) dmaccOptTccClr).orInto (dmaccOpt chNum)
    (dmaccOptTccSet tccNum)

/-- `DMARequestChannel`. -/
def dmaRequestChannel (chType chNum tccNum : Nat) (evtQNum : Word) (controller : Controller) :
    Bool × Controller :=
  if chNum < socDmaNumDmach then
    let controller := dmaEnableChInShadowReg chType chNum controller
    let controller := dmaMapChToEvtQ chType chNum evtQNum controller
    if chType = dmaChannelTypeDma then
      let (retVal, controller) :=
        if tccNum < socDmaNumDmach then (true, dmaEnableEvtIntr chNum controller)
        else (false, controller)
      (retVal, setTcc chNum tccNum controller)
    else if chType = dmaChannelTypeQdma then
      let (retVal, controller) :=
        if tccNum < socDmaNumQdmach then (true, dmaEnableEvtIntr chNum controller)
        else (false, controller)
      (retVal, setTcc chNum tccNum controller)
    else (false, controller)
  else (false, controller)

/-- `DMAEnableTransfer`. -/
def dmaEnableTransfer (chNum trigMode : Nat) (controller : Controller) : Bool × Controller :=
  if trigMode = dmaTrigModeManual then
    if chNum < socDmaNumDmach then (true, dmaSetEvt chNum controller) else (false, controller)
  else if trigMode = dmaTrigModeQdma then
    if chNum < socDmaNumQdmach then (true, dmaEnableQdmaEvt chNum controller)
    else (false, controller)
  else if trigMode = dmaTrigModeEvent then
    if chNum < socDmaNumDmach then (true, dmaEnableDmaEvt chNum (dmaClrMissEvt chNum controller))
    else (false, controller)
  else (false, controller)

/-- `DMADisableTransfer`. -/
def dmaDisableTransfer (chNum trigMode : Nat) (controller : Controller) : Bool × Controller :=
  if trigMode = dmaTrigModeManual then
    if chNum < socDmaNumDmach then (true, dmaClrEvt chNum controller) else (false, controller)
  else if trigMode = dmaTrigModeQdma then
    if chNum < socDmaNumQdmach then (true, dmaDisableQdmaEvt chNum controller)
    else (false, controller)
  else if trigMode = dmaTrigModeEvent then
    if chNum < socDmaNumDmach then (true, dmaDisableDmaEvt chNum (dmaClrMissEvt chNum controller))
    else (false, controller)
  else (false, controller)

/-- `DMAFreeChannel`, which does not use the event queue that it is given. -/
def dmaFreeChannel (chType chNum trigMode tccNum : Nat) (_evtQNum : Word)
    (controller : Controller) : Bool × Controller :=
  if chNum < socDmaNumDmach then
    let (_, controller) := dmaDisableTransfer chNum trigMode controller
    let controller := dmaDisableChInShadowReg chType chNum controller
    let controller := dmaUnmapChToEvtQ chType chNum controller
    if chType = dmaChannelTypeDma then
      if tccNum < socDmaNumDmach then (true, dmaDisableEvtIntr chNum controller)
      else (false, controller)
    else if chType = dmaChannelTypeQdma then
      if tccNum < socDmaNumQdmach then (true, dmaDisableEvtIntr chNum controller)
      else (false, controller)
    else (false, controller)
  else (false, controller)

end BbbEth.Edma
