import BbbEth.Interference.Program
import BbbEth.Coherence.Buffer

/-!
# The state of the MMC driver

The flags that `mmc0_isr` and the DMA callback set, the registers and the
structures that the routines of `mmc_api.c` work on, and the memory with its
cache.  A history of events records which flags were raised and seen, and which
commands were written.
-/

namespace BbbEth.Mmc

open BbbEth.Coherence

/-- A 32-bit word. -/
abbrev Word := BitVec 32

/-- A byte. -/
abbrev Byte := BitVec 8

/-- The global flags for interrupt handling. -/
inductive Flag where
  | callbackOccured
  | xferComp
  | dataTimeout
  | cmdComp
  | cmdTimeout
  deriving DecidableEq, Repr

/-- The two EDMA channels of the driver. -/
inductive Channel where
  | mmc0Tx
  | mmc0Rx
  deriving DecidableEq, Repr

/-- The number of a channel, which is its transfer completion code. -/
def Channel.number : Channel → Word
  | .mmc0Tx => 24
  | .mmc0Rx => 25

/-- `DMACCPaRAMEntry`. -/
structure PaRamEntry where
  srcAddr : Nat
  destAddr : Nat
  aCnt : Nat
  bCnt : Nat
  cCnt : Nat
  srcBIdx : Nat
  destBIdx : Nat
  srcCIdx : Nat
  destCIdx : Nat
  bCntReload : Nat
  linkAddr : Nat
  opt : Word

/-- `mmcCmd`, with the pointer to data left out, which nothing reads. -/
structure Cmd where
  idx : Word
  flags : Word
  arg : Word
  nblks : Word
  rsp : Fin 4 → Word

/-- `mmcCardInfo`. -/
structure CardInfo where
  cardType : Word
  rca : Word
  rawScr : Fin 2 → Word
  rawCsd : Fin 4 → Word
  rawCid : Fin 4 → Word
  ocr : Word
  sdVer : Byte
  busWidth : Byte
  tranSpeed : Byte
  highCap : Byte
  blkLen : Word
  nBlks : Word
  size : Word

/-- The structure after `memset`. -/
def CardInfo.zero : CardInfo where
  cardType := 0
  rca := 0
  rawScr _ := 0
  rawCsd _ := 0
  rawCid _ := 0
  ocr := 0
  sdVer := 0
  busWidth := 0
  tranSpeed := 0
  highCap := 0
  blkLen := 0
  nBlks := 0
  size := 0

/-- What the history records. -/
inductive Event where
  /-- A command word that is written to the CMD register. -/
  | command (word arg nblk : Word)
  | raised (flag : Flag)
  /-- A flag that is read while it is set. -/
  | saw (flag : Flag)
  | clearStatus (bits : Word)
  | setDto (ticks : Nat)
  | blkLen (length : Nat)
  | busWidth (width : Nat)
  | opClk (freq : Nat)
  deriving DecidableEq

/-- The state. -/
structure State where
  flag : Flag → Bool
  dmaEnable : Bool
  /-- The CMD register. -/
  cmd : Word
  /-- The response registers. -/
  rsp : Fin 4 → Word
  /-- Whether the clock to the card can be set. -/
  clockStable : Bool
  card : CardInfo
  /-- The event-enable bits of the channels. -/
  enabled : Channel → Bool
  paRam : Channel → PaRamEntry
  /-- The number of bytes that the receive channel has stored. -/
  moved : Nat
  cached : Cached Nat Nat Byte
  /-- Newest first. -/
  history : List Event

/-- The atomic accesses of the routines. -/
inductive Access : Type → Type 1 where
  /-- The last round of a loop that spins until one of two flags is set. -/
  | awaitFlags (first second : Flag) : Access Unit
  | loadFlag (flag : Flag) : Access Bool
  /-- A poll of `callbackOccured` with the counter at `timeOut`. -/
  | pollCallback (timeOut : Word) : Access Bool
  | storeFlag (flag : Flag) (value : Bool) : Access Unit
  | loadDmaEnable : Access Bool
  | storeDmaEnable (value : Bool) : Access Unit
  | card {reply : Type} (update : CardInfo → reply × CardInfo) : Access reply
  | setPaRam (channel : Channel) (entry : PaRamEntry) : Access Unit
  | enableTransfer (channel : Channel) : Access Unit
  /-- `mmc0_send_cmd`. -/
  | sendCmd (word arg nblk : Word) : Access Unit
  | loadCmd : Access Word
  | getResp : Access (Fin 4 → Word)
  /-- `MMCSetBusFreq`, with whether it succeeds. -/
  | setBusFreq (freq : Nat) : Access Bool
  | maintain (operation : Maintenance) (address : Nat) : Access Unit
  | loadByte (address : Nat) : Access Byte
  | emit (event : Event) : Access Unit

namespace State

variable (state : State)

def record (event : Event) : State := { state with history := event :: state.history }

def setFlag (flag : Flag) (value : Bool) : State :=
  { state with flag := Function.update state.flag flag value }

/-- Read a flag. -/
def seeFlag (flag : Flag) : Bool × State :=
  (state.flag flag, if state.flag flag then state.record (.saw flag) else state)

/-- An interrupt routine sets a flag. -/
def raise (flag : Flag) : State := (state.setFlag flag true).record (.raised flag)

/-- Set a flag if its bits are in the status word. -/
def raiseIf (status bits : Word) (flag : Flag) : State :=
  if status &&& bits ≠ 0 then state.raise flag else state

section Flags

variable {state} {flag other : Flag} {value : Bool}

@[simp] theorem setFlag_flag : (state.setFlag flag value).flag flag = value :=
  Function.update_self ..

theorem setFlag_flag_of_ne (apart : other ≠ flag) :
    (state.setFlag flag value).flag other = state.flag other :=
  Function.update_of_ne apart ..

@[simp] theorem raise_flag : (state.raise flag).flag flag = true := setFlag_flag

theorem raise_flag_of_ne (apart : other ≠ flag) :
    (state.raise flag).flag other = state.flag other :=
  setFlag_flag_of_ne apart

@[simp] theorem seeFlag_flag : (state.seeFlag flag).2.flag = state.flag := by
  unfold seeFlag
  split <;> rfl

/-- An interrupt routine only sets flags. -/
theorem raise_flag_of_set (set : state.flag other = true) :
    (state.raise flag).flag other = true := by
  by_cases same : other = flag
  · rw [same, raise_flag]
  · rw [raise_flag_of_ne same, set]

end Flags

/-- The effect of an access. -/
def perform : {reply : Type} → Access reply → State → reply × State
  | _, .awaitFlags first second, state =>
      ((), if state.flag first then (state.seeFlag first).2 else (state.seeFlag second).2)
  | _, .loadFlag flag, state => state.seeFlag flag
  | _, .pollCallback _, state => state.seeFlag .callbackOccured
  | _, .storeFlag flag value, state => ((), state.setFlag flag value)
  | _, .loadDmaEnable, state => (state.dmaEnable, state)
  | _, .storeDmaEnable value, state => ((), { state with dmaEnable := value })
  | _, .card update, state => ((update state.card).1, { state with card := (update state.card).2 })
  | _, .setPaRam channel entry, state =>
      ((), { state with paRam := Function.update state.paRam channel entry })
  | _, .enableTransfer channel, state =>
      ((), { state with
        enabled := Function.update state.enabled channel true
        moved := if channel = .mmc0Rx then 0 else state.moved })
  | _, .sendCmd word arg nblk, state =>
      ((), { state with cmd := word }.record (.command word arg nblk))
  | _, .loadCmd, state => (state.cmd, state)
  | _, .getResp, state => (state.rsp, state)
  | _, .setBusFreq _, state => (state.clockStable, state)
  | _, .maintain operation address, state =>
      ((), { state with cached := state.cached.maintain lineOf operation (lineOf address) })
  | _, .loadByte address, state => (state.cached.read lineOf address, state)
  | _, .emit event, state => ((), state.record event)

/-! ## Interrupts and hardware -/

def statCmdComp : Word := 0x00000001
def statTrnfComp : Word := 0x00000002
def statCardIns : Word := 0x00000040
def statCRem : Word := 0x00000080
def statErr : Word := 0x00008000
def statCmdTimeout : Word := 0x00010000
def statDataTimeout : Word := 0x00100000

/-- The part of `mmc0_isr` for an error. -/
def raiseErrors (status : Word) : State :=
  if status &&& statErr ≠ 0 then
    (state.raiseIf status statCmdTimeout .cmdTimeout).raiseIf status statDataTimeout .dataTimeout
  else
    state

/-- The part of `mmc0_isr` for a card that is removed: the flags are cleared, and
`mmc0_init` writes command 0. -/
def removeCard (status : Word) : State :=
  if status &&& statCRem ≠ 0 then
    { state with flag := fun _ => false, cmd := 0 }
  else
    state

/-- `mmc0_isr`.  What it does for a card that is inserted is outside this state. -/
def mmc0Isr (status : Word) : State :=
  (((state.raiseIf status statCmdComp .cmdComp).raiseErrors status).raiseIf status
    statTrnfComp .xferComp).removeCard status

/-- `mmc0_isr` changes flags, the CMD register and the history. -/
theorem mmc0Isr_eq (status : Word) : ∃ flag cmd history,
    state.mmc0Isr status = { state with flag := flag, cmd := cmd, history := history } := by
  have raiseIf : ∀ (state : State) (bits : Word) (flag : Flag), ∃ flag' history,
      state.raiseIf status bits flag = { state with flag := flag', history := history } := by
    intro state bits flag
    unfold State.raiseIf
    split
    · exact ⟨_, _, rfl⟩
    · exact ⟨_, _, rfl⟩
  have raiseErrors : ∀ state : State, ∃ flag' history,
      state.raiseErrors status = { state with flag := flag', history := history } := by
    intro state
    unfold State.raiseErrors
    split
    · rcases raiseIf state statCmdTimeout .cmdTimeout with ⟨flag, history, same⟩
      rw [same]
      rcases raiseIf { state with flag := flag, history := history } statDataTimeout .dataTimeout
        with ⟨flag', history', same'⟩
      exact ⟨flag', history', same'⟩
    · exact ⟨_, _, rfl⟩
  rcases raiseIf state statCmdComp .cmdComp with ⟨flag, history, complete⟩
  rcases raiseErrors { state with flag := flag, history := history } with
    ⟨flag', history', erred⟩
  rcases raiseIf { state with flag := flag', history := history' } statTrnfComp .xferComp with
    ⟨flag'', history'', transferred⟩
  unfold State.mmc0Isr
  rw [complete, erred, transferred]
  unfold State.removeCard
  split
  · exact ⟨_, _, _, rfl⟩
  · exact ⟨_, _, _, rfl⟩

/-- `callback`, for the completion of a channel. -/
def callback (channel : Channel) : State :=
  { state.raise .callbackOccured with
    enabled := Function.update state.enabled channel false }

/-- The receive channel stores the next byte. -/
def deliver (value : Byte) : State :=
  { state with
    moved := state.moved + 1
    cached := state.cached.deposit ((state.paRam .mmc0Rx).destAddr + state.moved) value }

end State

end BbbEth.Mmc
