import BbbEth.Cpsw.State

/-!
# The driver routines of `cpswif.c`

The routines below follow the C statement by statement, with one atomic access
for each load or store of memory that a DMA engine sees.  They are those of the
build that `lwipopts.h` selects, with `CPSW_DUAL_MAC_MODE` and
`LWIP_CACHE_ENABLED`.  Link statistics are left out, and so is
`SYS_ARCH_PROTECT`, which is what lets a call run without another routine in
between.
-/

namespace BbbEth.Cpsw

open BbbEth.Interference

/-- Routines of the driver. -/
abbrev Routine := Program Access

/-- The `err_t` values of the transmit path. -/
inductive Err where
  | ok
  | mem
  deriving DecidableEq, Repr

/-- `x + 1` on `u32_t`. -/
@[irreducible] def incU32 (value : Nat) : Nat := (value + 1) % 2 ^ 32

/-- `x - 1` on `u32_t`. -/
@[irreducible] def decU32 : Nat → Nat
  | 0 => 2 ^ 32 - 1
  | value + 1 => value

theorem incU32_of_lt {value : Nat} (small : value + 1 < 2 ^ 32) :
    incU32 value = value + 1 := by
  simp only [incU32]
  omega

theorem decU32_of_pos (value : Nat) (positive : 0 < value) : decU32 value = value - 1 := by
  cases value with
  | zero => omega
  | succ value => simp [decU32]

namespace Routine

variable {reply : Type}

/-- Follow a pointer that the code dereferences. -/
def deref : Ptr → Routine Nat
  | some target => .done target
  | none => .fault

def getTxch (field : Txch → reply) : Routine reply :=
  .lift (.txch fun txch => (field txch, txch))

def setTxch (change : Txch → Txch) : Routine Unit :=
  .lift (.txch fun txch => ((), change txch))

def getRxch (field : Rxch → reply) : Routine reply :=
  .lift (.rxch fun rxch => (field rxch, rxch))

def setRxch (change : Rxch → Rxch) : Routine Unit :=
  .lift (.rxch fun rxch => ((), change rxch))

def getPbuf (address : Nat) (field : Pbuf → reply) : Routine reply :=
  .lift (.pbuf address fun pbuf => (field pbuf, pbuf))

def setPbuf (address : Nat) (change : Pbuf → Pbuf) : Routine Unit :=
  .lift (.pbuf address fun pbuf => ((), change pbuf))

/-- `bd->flags_pktlen op= mask`: a load and a store. -/
def updateFlags (chan : Chan) (bd : Nat) (change : Word → Word) : Routine Unit := do
  let flags ← .lift (.loadFlags chan bd .plain)
  .lift (.storeFlags chan bd (change flags))

def emit (event : Event) : Routine Unit := .lift (.emit event)

end Routine

open Routine

/-! ## pbufs -/

/-- One round of `pbuf_clen`, which counts in a `u8_t`. -/
def clenRound : Nat × Ptr → Routine ((Nat × Ptr) ⊕ Nat)
  | (len, none) => .done (.inr len)
  | (len, some address) => do
      let next ← getPbuf address (·.next)
      .done (.inl ((len + 1) % 2 ^ 8, next))

/-- `pbuf_clen`. -/
def pbufClen (p : Ptr) : Routine Nat := .iterate clenRound (0, p)

/-- `pbuf_ref`. -/
def pbufRef : Ptr → Routine Unit
  | none => .done ()
  | some address => setPbuf address fun pbuf => { pbuf with ref := pbuf.ref + 1 }

/-- One round of `pbuf_free`: drop a reference, and go on along the chain if the
count has fallen to zero. -/
def freeRound : Ptr × Nat → Routine ((Ptr × Nat) ⊕ Nat)
  | (none, count) => .done (.inr count)
  | (some address, count) => do
      setPbuf address fun pbuf => { pbuf with ref := pbuf.ref - 1 }
      let ref ← getPbuf address (·.ref)
      if ref = 0 then do
        let next ← getPbuf address (·.next)
        emit (.released address)
        .done (.inl (next, (count + 1) % 2 ^ 8))
      else
        .done (.inl (none, count))

/-- `pbuf_free`, with the number of pbufs given back. -/
def pbufFree : Ptr → Routine Nat
  | none => .done 0
  | some head => do
      emit (.freed head)
      .iterate freeRound (some head, 0)

/-! ## Transmission -/

/-- One round of the loop of `cpswif_transmit` that copies the pbuf information
into the descriptors. -/
def fillRound (pbuf : Nat) :
    Ptr × Ptr × Ptr → Routine ((Ptr × Ptr × Ptr) ⊕ (Ptr × Ptr))
  | (none, currBd, bdEnd) => .done (.inr (currBd, bdEnd))
  | (some q, currBd, _) => do
      let payload ← getPbuf q (·.payload)
      let len ← getPbuf q (·.len)
      emit (.clean payload len.toNat)
      let bd ← deref currBd
      .lift (.storeBufptr .tx bd payload)
      .lift (.storeBufoffLen .tx bd (len.setWidth 32 &&& cpdmaBdLenMask))
      .lift (.storePbuf .tx bd (some pbuf))
      let next ← .lift (.loadNext .tx bd)
      setTxch fun txch => { txch with freeNum := decU32 txch.freeNum }
      let q ← getPbuf q (·.next)
      .done (.inl (q, next, currBd))

/-- The whole loop.  It returns `curr_bd` and `bd_end`. -/
def fillBds (pbuf : Nat) (currBd : Ptr) : Routine (Ptr × Ptr) :=
  .iterate (fillRound pbuf) (some pbuf, currBd, none)

/-- Start the engine on `bdToSend` if it has stopped at the old tail. -/
def restartTx (tail : Nat) (bdToSend : Ptr) : Routine Unit := do
  let flags ← .lift (.loadFlags .tx tail .eoq)
  if flags &&& cpdmaBufDescEoq ≠ 0 then
    .lift (.hdp .tx bdToSend)
  else
    .done ()

/-- The end of `cpswif_transmit`: hand the filled descriptors to the engine,
either through the HDP register or behind the chain that is being sent. -/
def sendBds (bdToSend : Ptr) : Ptr → Routine Unit
  | none => .lift (.hdp .tx bdToSend)
  | some tail => do
      .lift (.storeNext .tx tail bdToSend)
      restartTx tail bdToSend

/-- Indicate the start of the packet, with its total length, in its first
descriptor. -/
def writeHeader (portNum : Word) (first : Nat) (totLen : Half) : Routine Unit := do
  .lift (.storeFlags .tx first (totLen.setWidth 32))
  updateFlags .tx first (· ||| (cpdmaBufDescSop ||| cpdmaBufDescOwner))
  updateFlags .tx first (· ||| cpdmaBufDescToPort portNum)

/-- The middle of `cpswif_transmit`: fill the descriptors of the packet and move
`free_head` behind them.  It returns `bd_to_send` and `bd_end`. -/
def fillPacket (portNum : Word) (pbuf : Nat) : Routine (Ptr × Ptr) := do
  let currBd ← getTxch (·.freeHead)
  let bdToSend ← getTxch (·.freeHead)
  let totLen ← getPbuf pbuf (·.totLen)
  let first ← deref currBd
  writeHeader portNum first totLen
  let filled ← fillBds pbuf currBd
  let last ← deref filled.2
  .lift (.storeNext .tx last none)
  updateFlags .tx last (· ||| cpdmaBufDescEop)
  updateFlags .tx last (· &&& ~~~cpdmaBufDescEoq)
  setTxch fun txch => { txch with freeHead := filled.1 }
  .done (bdToSend, filled.2)

/-- `cpswif_transmit` for the interface on slave port `portNum`. -/
def cpswifTransmit (portNum : Word) (pbuf : Nat) : Routine Err := do
  let clen ← pbufClen (some pbuf)
  let freeNum ← getTxch (·.freeNum)
  if clen > freeNum then
    .done .mem
  else do
    let (bdToSend, bdEnd) ← fillPacket portNum pbuf
    let sendTail ← getTxch (·.sendTail)
    sendBds bdToSend sendTail
    setTxch fun txch => { txch with sendTail := bdEnd }
    .done .ok

def minPktLen : Half := 60#16

/-- One round of the loop of `cpswif_output` that corrects `tot_len` along a
short chain and moves `p` to the next pbuf. -/
def padRound (p : Nat) : Routine (Nat ⊕ Nat) := do
  let next ← getPbuf p (·.next)
  match next with
  | none => .done (.inr p)
  | some next => do
      let totLen ← getPbuf p (·.totLen)
      let len ← getPbuf p (·.len)
      setPbuf next fun pbuf => { pbuf with totLen := totLen - len }
      .done (.inl next)

/-- The length adjustment at the start of `cpswif_output`, with the pbuf that
`p` names afterwards. -/
def padShort (p : Nat) : Routine Nat := do
  let totLen ← getPbuf p (·.totLen)
  if totLen < minPktLen then do
    setPbuf p fun pbuf => { pbuf with totLen := minPktLen }
    let last ← .iterate padRound p
    let totLen ← getPbuf last (·.totLen)
    setPbuf last fun pbuf => { pbuf with len := totLen }
    .done last
  else
    .done p

/-- `cpswif_output`. -/
def cpswifOutput (portNum : Word) (p : Nat) : Routine Err := do
  let p ← padShort p
  pbufRef (some p)
  cpswifTransmit portNum p

/-! ## Reception -/

/-- Arm the descriptor at `curr_bd` with a pbuf. -/
def armBd (bd : Nat) (p : Nat) (payload : Word) : Routine Ptr := do
  .lift (.storeBufptr .rx bd payload)
  let len ← getPbuf p (·.len)
  .lift (.storeBufoffLen .rx bd (len.setWidth 32))
  .lift (.storeFlags .rx bd cpdmaBufDescOwner)
  .lift (.storePbuf .rx bd (some p))
  let next ← .lift (.loadNext .rx bd)
  setRxch fun rxch => { rxch with freeNum := decU32 rxch.freeNum }
  .done next

/-- One round of the loop of `cpswif_rxbd_alloc` that arms free descriptors while
pbufs are to be had. -/
def armRound : Ptr × Ptr → Routine ((Ptr × Ptr) ⊕ (Ptr × Ptr))
  | (currBd, lastBd) => do
      let freeNum ← getRxch (·.freeNum)
      if freeNum = 0 then
        .done (.inr (currBd, lastBd))
      else do
        let p ← .lift .alloc
        match p with
        | none => .done (.inr (currBd, lastBd))
        | some p => do
            emit (.clean (BitVec.ofNat 32 p) sizeofStructPbuf)
            let payload ← getPbuf p (·.payload)
            let bd ← deref currBd
            let next ← armBd bd p payload
            .done (.inl (next, currBd))

/-- The whole loop.  It returns `curr_bd` and `last_bd`. -/
def armBds (currBd lastBd : Ptr) : Routine (Ptr × Ptr) :=
  .iterate armRound (currBd, lastBd)

/-- Move `free_head` behind the armed descriptors, or write the RX HDP if the
entire ring was traversed. -/
def advanceFreeHead (recvHead : Ptr) : Ptr → Routine Unit
  | some next => setRxch fun rxch => { rxch with freeHead := some next }
  | none => .lift (.hdp .rx recvHead)

/-- Start the engine on `recvHead` if it has stopped at the old tail. -/
def restartRx (tail : Nat) (recvHead : Ptr) : Routine Unit := do
  let flags ← .lift (.loadFlags .rx tail .eoq)
  if flags &&& cpdmaBufDescEoq ≠ 0 then
    .lift (.hdp .rx recvHead)
  else
    .done ()

/-- The end of `cpswif_rxbd_alloc`: link the armed descriptors behind the old
tail and close the chain behind them. -/
def publishBds (recvHead recvTail currBd lastBd : Ptr) : Routine Unit := do
  setRxch fun rxch => { rxch with recvTail := lastBd }
  advanceFreeHead recvHead currBd
  let tail ← deref recvTail
  .lift (.storeNext .rx tail recvHead)
  let last ← deref lastBd
  .lift (.storeNext .rx last none)
  restartRx tail recvHead

/-- `cpswif_rxbd_alloc`. -/
def cpswifRxbdAlloc : Routine Unit := do
  let currBd ← getRxch (·.freeHead)
  let recvHead ← getRxch (·.freeHead)
  let recvTail ← getRxch (·.recvTail)
  let savedFreeNum ← getRxch (·.freeNum)
  let lastBd ← getRxch (·.recvTail)
  let armed ← armBds currBd lastBd
  let freeNum ← getRxch (·.freeNum)
  if savedFreeNum = freeNum then
    .done ()
  else
    publishBds recvHead recvTail armed.1 armed.2

/-- What `eth0_rx_isr` does with one completed descriptor before it moves on. -/
def deliverBd (bd : Nat) : Routine Unit := do
  let flags ← .lift (.loadFlags .rx bd .plain)
  let fromPort := (flags &&& cpdmaBufDescFromPort) >>> 16
  let flags ← .lift (.loadFlags .rx bd .plain)
  let totLen := flags &&& cpdmaBdPktlenMask
  let pbuf ← .lift (.loadPbuf .rx bd)
  emit (.flush (BitVec.ofNat 32 (pbuf.getD 0)) (pbufLenMax + sizeofStructPbuf))
  let address ← deref pbuf
  setPbuf address fun cell => { cell with len := totLen.setWidth 16 }
  setPbuf address fun cell => { cell with totLen := totLen.setWidth 16 }
  .lift (.storeFlags .rx bd cpdmaBufDescOwner)
  .lift (.input pbuf (fromPort - 1))
  emit (.cp .rx bd)

/-- Set `recv_head` to the next descriptor to process; the loop ends where the
engine took the NULL pointer. -/
def advanceRecvHead : Ptr → Routine (Ptr ⊕ Unit)
  | none => do
      let freeHead ← getRxch (·.freeHead)
      setRxch fun rxch => { rxch with recvHead := freeHead }
      .done (.inr ())
  | some next => do
      setRxch fun rxch => { rxch with recvHead := some next }
      .done (.inl (some next))

/-- One round of the loop of `eth0_rx_isr`. -/
def receiveRound (currBd : Ptr) : Routine (Ptr ⊕ Unit) := do
  let bd ← deref currBd
  let flags ← .lift (.loadFlags .rx bd .owner)
  if flags &&& cpdmaBufDescOwner = cpdmaBufDescOwner then
    .done (.inr ())
  else do
    deliverBd bd
    let next ← .lift (.loadNext .rx bd)
    setRxch fun rxch => { rxch with freeNum := incU32 rxch.freeNum }
    advanceRecvHead next

/-- `eth0_rx_isr`. -/
def eth0RxIsr : Routine Unit := do
  emit (.gpioOn .usr3)
  let currBd ← getRxch (·.recvHead)
  .iterate receiveRound currBd
  emit (.eoi .rx)
  cpswifRxbdAlloc
  emit (.gpioOff .usr3)

/-! ## Transmit completion -/

/-- One round of the wait of `eth0_tx_isr` for the OWNER bit, which lasts while
the bit is set and `--cnt` is not zero. -/
def awaitRound (bd : Nat) (cnt : Nat) : Routine (Nat ⊕ Nat) := do
  let flags ← .lift (.loadFlags .tx bd .owner)
  if flags &&& cpdmaBufDescOwner = cpdmaBufDescOwner then
    if decU32 cnt = 0 then .done (.inr 0) else .done (.inl (decU32 cnt))
  else
    .done (.inr cnt)

/-- The whole wait.  It returns what is left of `cnt`. -/
def awaitOwner (bd cnt : Nat) : Routine Nat := .iterate (awaitRound bd) cnt

/-- One round of the loop of `eth0_tx_isr` that looks for the end of the packet
and counts its descriptors as free. -/
def countRound (currBd : Nat) : Routine (Nat ⊕ Nat) := do
  let flags ← .lift (.loadFlags .tx currBd .plain)
  if flags &&& cpdmaBufDescEop = cpdmaBufDescEop then
    .done (.inr currBd)
  else do
    let next ← .lift (.loadNext .tx currBd)
    setTxch fun txch => { txch with freeNum := incU32 txch.freeNum }
    let freeNum ← getTxch (·.freeNum)
    let bd ← deref next
    if freeNum = numBd then .done (.inr bd) else .done (.inl bd)

/-- Count the descriptors of the packet at `head`.  It returns `curr_bd`, the last
of them. -/
def countBds (head : Nat) : Routine Nat := do
  setTxch fun txch => { txch with freeNum := incU32 txch.freeNum }
  .iterate countRound head

/-- Set `send_head` to the packet behind the descriptor `curr_bd`. -/
def advanceSendHead (currBd : Nat) : Ptr → Routine Unit
  | none => do
      let freeHead ← getTxch (·.freeHead)
      setTxch fun txch => { txch with sendHead := freeHead }
  | some _ => do
      let next ← .lift (.loadNext .tx currBd)
      setTxch fun txch => { txch with sendHead := next }

/-- The rest of the body of `eth0_tx_isr` for the packet at `head`, once it has
waited for it. -/
def reclaimBds (head : Nat) : Routine Unit := do
  let currBd ← countBds head
  updateFlags .tx head (· &&& ~~~cpdmaBufDescSop)
  updateFlags .tx currBd (· &&& ~~~cpdmaBufDescEop)
  let next ← .lift (.loadNext .tx currBd)
  advanceSendHead currBd next
  emit (.cp .tx currBd)
  let pbuf ← .lift (.loadPbuf .tx currBd)
  let _ ← pbufFree pbuf
  .done ()

/-- One round of the loop of `eth0_tx_isr` over the packets of the send chain. -/
def completeRound : Ptr × Nat → Routine ((Ptr × Nat) ⊕ Unit)
  | (sendHead, cnt) => do
      let head ← deref sendHead
      let flags ← .lift (.loadFlags .tx head .plain)
      if flags &&& cpdmaBufDescSop = 0 then
        .done (.inr ())
      else do
        let cnt ← awaitOwner head cnt
        reclaimBds head
        let sendHead ← getTxch (·.sendHead)
        .done (.inl (sendHead, cnt))

/-- `eth0_tx_isr`. -/
def eth0TxIsr : Routine Unit := do
  emit (.gpioOn .usr4)
  let sendHead ← getTxch (·.sendHead)
  .iterate completeRound (sendHead, 0xFFFF)
  emit (.eoi .tx)
  cpswifRxbdAlloc
  emit (.gpioOff .usr4)

/-! ## Initialisation -/

/-- One round of the loops of `cpswif_cpdma_init` that link a descriptor to the
one behind it and store its flags. -/
def buildRound (chan : Chan) (flags : Word) :
    Nat × Nat × Nat → Routine ((Nat × Nat × Nat) ⊕ Nat)
  | (0, _, lastBd) => .done (.inr lastBd)
  | (numLeft + 1, currBd, _) => do
      .lift (.storeNext chan currBd (some (currBd + 1)))
      .lift (.storeFlags chan currBd flags)
      let next ← .lift (.loadNext chan currBd)
      let bd ← deref next
      .done (.inl (numLeft, bd, currBd))

/-- The whole loop.  It returns the last descriptor. -/
def buildRing (chan : Chan) (flags : Word) : Routine Nat :=
  .iterate (buildRound chan flags) (numBd, 0, 0)

/-- The part of `cpswif_cpdma_init` for the transmit channel. -/
def initTxch : Routine Unit := do
  setTxch fun txch =>
    { txch with freeHead := some 0, sendHead := some 0, sendTail := none, freeNum := numBd }
  let lastTxbd ← buildRing .tx 0
  let freeHead ← getTxch (·.freeHead)
  .lift (.storeNext .tx lastTxbd freeHead)

/-- The part for the receive channel, up to the allocation of pbufs.  It returns
`last_rxbd`. -/
def initRxch : Routine Nat := do
  setRxch fun rxch => { rxch with freeHead := some 0, freeNum := numBd }
  let lastRxbd ← buildRing .rx cpdmaBufDescOwner
  let freeHead ← getRxch (·.freeHead)
  .lift (.storeNext .rx lastRxbd freeHead)
  setRxch fun rxch => { rxch with recvHead := freeHead, recvTail := some lastRxbd }
  .done lastRxbd

/-- `cpswif_cpdma_init`. -/
def cpswifCpdmaInit : Routine Unit := do
  initTxch
  let lastRxbd ← initRxch
  cpswifRxbdAlloc
  .lift (.storeNext .rx lastRxbd none)
  let recvHead ← getRxch (·.recvHead)
  .lift (.hdp .rx recvHead)

end BbbEth.Cpsw
