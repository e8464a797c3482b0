import BbbEth.Interference.System
import BbbEth.Linked.Circle

/-!
# The CPSW instance and its CPDMA channels

The state the driver of `cpswif.c` works on: the two rings of buffer descriptors
in CPPI RAM, the ring bookkeeping of `struct txch` and `struct rxch`, the pbufs,
and the two DMA engines.  A buffer descriptor is named by its index in its half
of the CPPI RAM; a pbuf by its address.

`trace` records the register writes, the cache operations, the calls that leave
the driver and the polls of the OWNER bit, newest first.  `fresh` and `received`
are history: which receive descriptors hold a pbuf that the engine has not
filled yet, and what the engine has filled so far.
-/

namespace BbbEth.Cpsw

open BbbEth.Interference

abbrev Word := BitVec 32
abbrev Half := BitVec 16

/-- A C pointer to a descriptor or a pbuf; `NULL` is `none`. -/
abbrev Ptr := Option Nat

/-- CPPI RAM size in bytes. -/
def sizeCppiRam : Nat := 0x2000

/-- `sizeof(cpdma_tx_bd)`, which is also `sizeof(cpdma_rx_bd)`. -/
def sizeofBd : Nat := 20

/-- Descriptors in one half of the CPPI RAM. -/
def numBd : Nat := (sizeCppiRam >>> 1) / sizeofBd

theorem numBd_eq : numBd = 204 := rfl

def cpdmaBufDescSop : Word := 0x80000000#32
def cpdmaBufDescEop : Word := 0x40000000#32
def cpdmaBufDescOwner : Word := 0x20000000#32
def cpdmaBufDescEoq : Word := 0x10000000#32
def cpdmaBufDescFromPort : Word := 0x70000#32
def cpdmaBdLenMask : Word := 0xFFFF#32
def cpdmaBdPktlenMask : Word := 0xFFFF#32

/-- `CPDMA_BUF_DESC_TO_PORT(port)`. -/
def cpdmaBufDescToPort (port : Word) : Word := (port <<< 16) ||| 0x100000#32

/-- The numbers of the `MAX_SLAVEPORT_PER_INST` slave ports. -/
def SlavePort (port : Word) : Prop := port = 1 ∨ port = 2

section Flags

variable (flags : Word)

theorem and_sop_eq_zero_iff :
    flags &&& cpdmaBufDescSop = 0 ↔ flags.getLsbD 31 = false := by
  rw [show cpdmaBufDescSop = BitVec.twoPow 32 31 from rfl, BitVec.and_twoPow]
  cases flags.getLsbD 31 <;> decide

theorem and_eop_eq_iff :
    flags &&& cpdmaBufDescEop = cpdmaBufDescEop ↔ flags.getLsbD 30 = true := by
  rw [show cpdmaBufDescEop = BitVec.twoPow 32 30 from rfl, BitVec.and_twoPow]
  cases flags.getLsbD 30 <;> decide

theorem and_owner_eq_iff :
    flags &&& cpdmaBufDescOwner = cpdmaBufDescOwner ↔ flags.getLsbD 29 = true := by
  rw [show cpdmaBufDescOwner = BitVec.twoPow 32 29 from rfl, BitVec.and_twoPow]
  cases flags.getLsbD 29 <;> decide

theorem getLsbD_and_not_twoPow (index bit : Nat) :
    (flags &&& ~~~BitVec.twoPow 32 index).getLsbD bit =
      (flags.getLsbD bit && !decide (bit = index)) := by
  by_cases inside : bit < 32
  · simp only [BitVec.getLsbD_and, BitVec.getLsbD_not, BitVec.getLsbD_twoPow, inside,
      decide_true, Bool.true_and]
    by_cases same : bit = index
    · subst same
      simp [inside]
    · simp [same, Ne.symm same]
  · simp [BitVec.getLsbD_of_ge _ _ (Nat.le_of_not_lt inside)]

theorem getLsbD_or_twoPow {index : Nat} (small : index < 32) (bit : Nat) :
    (flags ||| BitVec.twoPow 32 index).getLsbD bit =
      (flags.getLsbD bit || decide (bit = index)) := by
  simp only [BitVec.getLsbD_or, BitVec.getLsbD_twoPow, small, decide_true, Bool.true_and]
  by_cases same : bit = index
  · subst same
    simp
  · simp [same, Ne.symm same]

theorem getLsbD_and_not_eoq (bit : Nat) : (flags &&& ~~~cpdmaBufDescEoq).getLsbD bit =
    (flags.getLsbD bit && !decide (bit = 28)) := by
  rw [show cpdmaBufDescEoq = BitVec.twoPow 32 28 from rfl, getLsbD_and_not_twoPow]

theorem getLsbD_and_not_owner (bit : Nat) : (flags &&& ~~~cpdmaBufDescOwner).getLsbD bit =
    (flags.getLsbD bit && !decide (bit = 29)) := by
  rw [show cpdmaBufDescOwner = BitVec.twoPow 32 29 from rfl, getLsbD_and_not_twoPow]

theorem getLsbD_or_sop_owner (bit : Nat) :
    (flags ||| (cpdmaBufDescSop ||| cpdmaBufDescOwner)).getLsbD bit =
      (flags.getLsbD bit || decide (bit = 31) || decide (bit = 29)) := by
  rw [← BitVec.or_assoc, show cpdmaBufDescSop = BitVec.twoPow 32 31 from rfl,
    show cpdmaBufDescOwner = BitVec.twoPow 32 29 from rfl,
    getLsbD_or_twoPow _ (by decide), getLsbD_or_twoPow _ (by decide)]

theorem getLsbD_or_eop (bit : Nat) : (flags ||| cpdmaBufDescEop).getLsbD bit =
    (flags.getLsbD bit || decide (bit = 30)) := by
  rw [show cpdmaBufDescEop = BitVec.twoPow 32 30 from rfl, getLsbD_or_twoPow _ (by decide)]

end Flags

def pbufLenMax : Nat := 1520
def sizeofStructPbuf : Nat := 16

/-- `struct cpdma_tx_bd` and `struct cpdma_rx_bd`, which have the same fields. -/
structure Bd where
  next : Ptr
  bufptr : Word
  bufoffLen : Word
  flagsPktlen : Word
  pbuf : Ptr
  deriving DecidableEq, Repr

namespace Bd

/-- The start-of-packet bit. -/
def sop (bd : Bd) : Bool := bd.flagsPktlen.getLsbD 31

/-- The end-of-packet bit. -/
def eop (bd : Bd) : Bool := bd.flagsPktlen.getLsbD 30

/-- The bit that gives the descriptor to the engine. -/
def owner (bd : Bd) : Bool := bd.flagsPktlen.getLsbD 29

/-- The end-of-queue bit. -/
def eoq (bd : Bd) : Bool := bd.flagsPktlen.getLsbD 28

end Bd

/-- `struct txch`. -/
structure Txch where
  freeHead : Ptr
  sendHead : Ptr
  sendTail : Ptr
  freeNum : Nat
  deriving DecidableEq, Repr

/-- `struct rxch`. -/
structure Rxch where
  freeHead : Ptr
  recvHead : Ptr
  recvTail : Ptr
  freeNum : Nat
  deriving DecidableEq, Repr

/-- `struct pbuf`, without the type and flags that only choose the memory pool
it came from. -/
structure Pbuf where
  next : Ptr
  payload : Word
  totLen : Half
  len : Half
  ref : Half
  deriving DecidableEq, Repr

/-- The two CPDMA channels in use. -/
inductive Chan where
  | tx
  | rx
  deriving DecidableEq, Repr

/-- What a DMA engine is doing: nothing, about to load the next pointer of a
descriptor, or working with the next pointer it has loaded.  `first` is the
descriptor that started the packet. -/
inductive Engine where
  | idle
  | fetch (first bd : Nat)
  | loaded (first bd : Nat) (next : Ptr)
  deriving DecidableEq, Repr

/-- The LEDs that `eth0_rx_isr` and `eth0_tx_isr` light while they run. -/
inductive Led where
  | usr3
  | usr4
  deriving DecidableEq, Repr

/-- What the driver does to the world outside its data structures.  `accepted` is
the caller's note that `cpswif_transmit` has taken a chain of `clen` pbufs. -/
inductive Event where
  | poll (chan : Chan) (bd : Nat) (flags : Word)
  | hdp (chan : Chan) (bd : Ptr)
  | cp (chan : Chan) (bd : Nat)
  | eoi (chan : Chan)
  | gpioOn (led : Led)
  | gpioOff (led : Led)
  | clean (address : Word) (length : Nat)
  | flush (address : Word) (length : Nat)
  | input (pbuf : Ptr) (totLen : Half) (ifNum : Word)
  | freed (pbuf : Nat)
  | released (pbuf : Nat)
  | accepted (pbuf clen : Nat)
  deriving DecidableEq, Repr

/-- Events other than the polls and the HDP writes. -/
def Event.essential : Event → Bool
  | .poll .. => false
  | .hdp .. => false
  | _ => true

/-- A trace without its polls and HDP writes. -/
def essential (trace : List Event) : List Event := trace.filter Event.essential

@[simp] theorem essential_hdp (chan : Chan) (bd : Ptr) (trace : List Event) :
    essential (.hdp chan bd :: trace) = essential trace := rfl

@[simp] theorem essential_poll (chan : Chan) (bd : Nat) (flags : Word)
    (trace : List Event) : essential (.poll chan bd flags :: trace) = essential trace := rfl

structure State where
  txch : Txch
  rxch : Rxch
  bd : Chan → Nat → Bd
  pbuf : Nat → Pbuf
  pool : List Nat
  engine : Chan → Engine
  fresh : Nat → Bool
  received : List (Ptr × Word)
  trace : List Event

namespace State

/-- Change one descriptor. -/
def modifyBd (state : State) (chan : Chan) (index : Nat) (change : Bd → Bd) : State :=
  { state with
    bd := fun queryChan query =>
      if queryChan = chan ∧ query = index then change (state.bd chan index)
      else state.bd queryChan query }

/-- Change one pbuf. -/
def modifyPbuf (state : State) (address : Nat) (change : Pbuf → Pbuf) : State :=
  { state with
    pbuf := fun query =>
      if query = address then change (state.pbuf address) else state.pbuf query }

variable (state : State) (chan other : Chan) (index query address : Nat)

section modifyBd

variable (change : Bd → Bd)

@[simp] theorem modifyBd_txch : (state.modifyBd chan index change).txch = state.txch := rfl
@[simp] theorem modifyBd_rxch : (state.modifyBd chan index change).rxch = state.rxch := rfl
@[simp] theorem modifyBd_pbuf : (state.modifyBd chan index change).pbuf = state.pbuf := rfl
@[simp] theorem modifyBd_pool : (state.modifyBd chan index change).pool = state.pool := rfl
@[simp] theorem modifyBd_engine :
    (state.modifyBd chan index change).engine = state.engine := rfl
@[simp] theorem modifyBd_fresh : (state.modifyBd chan index change).fresh = state.fresh := rfl
@[simp] theorem modifyBd_received :
    (state.modifyBd chan index change).received = state.received := rfl
@[simp] theorem modifyBd_trace : (state.modifyBd chan index change).trace = state.trace := rfl

@[simp] theorem modifyBd_bd_self :
    (state.modifyBd chan index change).bd chan index = change (state.bd chan index) := by
  simp [modifyBd]

@[simp] theorem modifyBd_bd_ne (different : query ≠ index) :
    (state.modifyBd chan index change).bd other query = state.bd other query := by
  simp [modifyBd, different]

@[simp] theorem modifyBd_bd_chan (different : other ≠ chan) :
    (state.modifyBd chan index change).bd other query = state.bd other query := by
  simp [modifyBd, different]

theorem modifyBd_bd :
    (state.modifyBd chan index change).bd chan query =
      if query = index then change (state.bd chan query) else state.bd chan query := by
  by_cases same : query = index
  · subst same
    simp
  · simp [same]

end modifyBd

section modifyPbuf

variable (change : Pbuf → Pbuf)

@[simp] theorem modifyPbuf_txch : (state.modifyPbuf address change).txch = state.txch := rfl
@[simp] theorem modifyPbuf_rxch : (state.modifyPbuf address change).rxch = state.rxch := rfl
@[simp] theorem modifyPbuf_bd : (state.modifyPbuf address change).bd = state.bd := rfl
@[simp] theorem modifyPbuf_pool : (state.modifyPbuf address change).pool = state.pool := rfl
@[simp] theorem modifyPbuf_engine :
    (state.modifyPbuf address change).engine = state.engine := rfl
@[simp] theorem modifyPbuf_fresh :
    (state.modifyPbuf address change).fresh = state.fresh := rfl
@[simp] theorem modifyPbuf_received :
    (state.modifyPbuf address change).received = state.received := rfl
@[simp] theorem modifyPbuf_trace :
    (state.modifyPbuf address change).trace = state.trace := rfl

@[simp] theorem modifyPbuf_pbuf_self :
    (state.modifyPbuf address change).pbuf address = change (state.pbuf address) := by
  simp [modifyPbuf]

@[simp] theorem modifyPbuf_pbuf_ne (different : query ≠ address) :
    (state.modifyPbuf address change).pbuf query = state.pbuf query := by
  simp [modifyPbuf, different]

@[simp] theorem modifyPbuf_same : (state.modifyPbuf address fun pbuf => pbuf) = state := by
  have same : (fun query => if query = address then state.pbuf address
      else state.pbuf query) = state.pbuf := by
    funext query
    split
    next equal => rw [equal]
    next => rfl
  simp only [modifyPbuf, same]

end modifyPbuf

/-- Record an event. -/
def record (state : State) (event : Event) : State :=
  { state with trace := event :: state.trace }

/-- Put an engine into a given position. -/
def setEngine (state : State) (chan : Chan) (position : Engine) : State :=
  { state with
    engine := fun query => if query = chan then position else state.engine query }

/-- A write of the head descriptor pointer register.  It starts an idle engine;
the device defines nothing for a write while the engine is busy, and the model
then leaves it where it is. -/
def start (state : State) (chan : Chan) (bd : Ptr) : State :=
  match state.engine chan, bd with
  | .idle, some index => state.setEngine chan (.fetch index index)
  | _, _ => state

section start

variable (state : State) (chan other : Chan) (bd : Ptr)

theorem start_cases : state.start chan bd = state ∨
    ∃ index, state.engine chan = .idle ∧ bd = some index ∧
      state.start chan bd = state.setEngine chan (.fetch index index) := by
  unfold start
  split
  next index idle => exact .inr ⟨index, idle, rfl, rfl⟩
  next => exact .inl rfl

theorem start_eq : ∃ engine, state.start chan bd = { state with engine := engine } := by
  rcases start_cases state chan bd with same | ⟨index, _, _, same⟩
  · exact ⟨state.engine, same⟩
  · exact ⟨_, same⟩

@[simp] theorem start_txch : (state.start chan bd).txch = state.txch := by
  rcases start_eq state chan bd with ⟨engine, same⟩
  rw [same]

@[simp] theorem start_rxch : (state.start chan bd).rxch = state.rxch := by
  rcases start_eq state chan bd with ⟨engine, same⟩
  rw [same]

@[simp] theorem start_bd : (state.start chan bd).bd = state.bd := by
  rcases start_eq state chan bd with ⟨engine, same⟩
  rw [same]

@[simp] theorem start_pbuf : (state.start chan bd).pbuf = state.pbuf := by
  rcases start_eq state chan bd with ⟨engine, same⟩
  rw [same]

@[simp] theorem start_pool : (state.start chan bd).pool = state.pool := by
  rcases start_eq state chan bd with ⟨engine, same⟩
  rw [same]

@[simp] theorem start_fresh : (state.start chan bd).fresh = state.fresh := by
  rcases start_eq state chan bd with ⟨engine, same⟩
  rw [same]

@[simp] theorem start_received : (state.start chan bd).received = state.received := by
  rcases start_eq state chan bd with ⟨engine, same⟩
  rw [same]

@[simp] theorem start_trace : (state.start chan bd).trace = state.trace := by
  rcases start_eq state chan bd with ⟨engine, same⟩
  rw [same]

end start

/-- A write of the head descriptor pointer register, with its note in the trace. -/
def writeHdp (state : State) (chan : Chan) (bd : Ptr) : State :=
  (state.record (.hdp chan bd)).start chan bd

section writeHdp

variable (state : State) (chan : Chan) (bd : Ptr)

@[simp] theorem writeHdp_txch : (state.writeHdp chan bd).txch = state.txch :=
  start_txch _ _ _

@[simp] theorem writeHdp_rxch : (state.writeHdp chan bd).rxch = state.rxch :=
  start_rxch _ _ _

@[simp] theorem writeHdp_bd : (state.writeHdp chan bd).bd = state.bd :=
  start_bd _ _ _

@[simp] theorem writeHdp_pbuf : (state.writeHdp chan bd).pbuf = state.pbuf :=
  start_pbuf _ _ _

@[simp] theorem writeHdp_pool : (state.writeHdp chan bd).pool = state.pool :=
  start_pool _ _ _

@[simp] theorem writeHdp_fresh : (state.writeHdp chan bd).fresh = state.fresh :=
  start_fresh _ _ _

@[simp] theorem writeHdp_received : (state.writeHdp chan bd).received = state.received :=
  start_received _ _ _

@[simp] theorem writeHdp_trace :
    (state.writeHdp chan bd).trace = .hdp chan bd :: state.trace :=
  start_trace _ _ _

end writeHdp

end State

/-- Which use the driver makes of a flags word it loads. -/
inductive Use where
  | plain
  | owner
  | eoq
  deriving DecidableEq, Repr

/-- The atomic accesses of the driver.  `txch`, `rxch` and `pbuf` load or store a
field of a structure that no DMA engine sees; the others address a descriptor in
CPPI RAM, a CPDMA register, or code outside the driver. -/
inductive Access : Type → Type 1 where
  | txch {reply : Type} (use : Txch → reply × Txch) : Access reply
  | rxch {reply : Type} (use : Rxch → reply × Rxch) : Access reply
  | pbuf {reply : Type} (address : Nat) (use : Pbuf → reply × Pbuf) : Access reply
  | alloc : Access Ptr
  | loadNext (chan : Chan) (bd : Nat) : Access Ptr
  | loadFlags (chan : Chan) (bd : Nat) (use : Use) : Access Word
  | loadPbuf (chan : Chan) (bd : Nat) : Access Ptr
  | storeNext (chan : Chan) (bd : Nat) (value : Ptr) : Access Unit
  | storeBufptr (chan : Chan) (bd : Nat) (value : Word) : Access Unit
  | storeBufoffLen (chan : Chan) (bd : Nat) (value : Word) : Access Unit
  | storeFlags (chan : Chan) (bd : Nat) (value : Word) : Access Unit
  | storePbuf (chan : Chan) (bd : Nat) (value : Ptr) : Access Unit
  | hdp (chan : Chan) (bd : Ptr) : Access Unit
  | input (address : Ptr) (ifNum : Word) : Access Unit
  | emit (event : Event) : Access Unit

namespace State

/-- Mark a receive descriptor as armed with a fresh pbuf. -/
def arm (state : State) (chan : Chan) (index : Nat) : State :=
  match chan with
  | .tx => state
  | .rx => { state with fresh := fun query => query = index || state.fresh query }

/-- The effect of one access. -/
def perform {reply : Type} (request : Access reply) (state : State) : reply × State :=
  match request with
  | .txch use => ((use state.txch).1, { state with txch := (use state.txch).2 })
  | .rxch use => ((use state.rxch).1, { state with rxch := (use state.rxch).2 })
  | .pbuf address use =>
      ((use (state.pbuf address)).1,
        state.modifyPbuf address fun pbuf => (use pbuf).2)
  | .alloc => (state.pool.head?, { state with pool := state.pool.tail })
  | .loadNext chan bd => ((state.bd chan bd).next, state)
  | .loadFlags chan bd .owner =>
      ((state.bd chan bd).flagsPktlen,
        state.record (.poll chan bd (state.bd chan bd).flagsPktlen))
  | .loadFlags chan bd _ => ((state.bd chan bd).flagsPktlen, state)
  | .loadPbuf chan bd => ((state.bd chan bd).pbuf, state)
  | .storeNext chan bd value =>
      ((), state.modifyBd chan bd fun cell => { cell with next := value })
  | .storeBufptr chan bd value =>
      ((), state.modifyBd chan bd fun cell => { cell with bufptr := value })
  | .storeBufoffLen chan bd value =>
      ((), state.modifyBd chan bd fun cell => { cell with bufoffLen := value })
  | .storeFlags chan bd value =>
      ((), state.modifyBd chan bd fun cell => { cell with flagsPktlen := value })
  | .storePbuf chan bd value =>
      ((), (state.modifyBd chan bd fun cell => { cell with pbuf := value }).arm chan bd)
  | .hdp chan bd => ((), state.writeHdp chan bd)
  | .input address ifNum =>
      ((), state.record (.input address
        (match address with
        | some pbuf => (state.pbuf pbuf).totLen
        | none => 0) ifNum))
  | .emit event => ((), state.record event)

end State

end BbbEth.Cpsw
