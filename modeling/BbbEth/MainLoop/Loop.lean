import BbbEth.Interference.Interrupted
import Mathlib.Logic.Function.Basic

/-!
# The main loop

The loop of `main`, with `udp_rx_process`, statement by statement, and the interrupts that share
its variables: `udp_incoming` and `uart0_isr`.  The loop is a machine with a location for each
statement; the statements that touch none of the shared variables are one location.
-/

namespace BbbEth.MainLoop

open BbbEth.Interference

abbrev Byte := BitVec 8
abbrev Half := BitVec 16
abbrev Word := BitVec 32

/-- The size of `udp_buf`. -/
def dataBufSize : Nat := 65536

def newline : Byte := 0x0A

/-- A datagram.  It comes in one packet buffer: fragments are not reassembled, and a frame fits
into a buffer. -/
structure Datagram where
  payload : List Byte
  fits : payload.length < 65535

/-- Where the loop is. -/
inductive Location where
  | others
  | testUdp
  | loadUdpCount
  | storeUdpCount (loaded : Word)
  | saveUdpCount
  | printPacket
  | testLog
  | storeNewline
  | write
  | testWrite (failed : Bool) (bw : Half)
  | sync
  | testSync (failed : Bool)
  | testUart
  | loadUartCount
  | storeUartCount (loaded : Word)
  | saveUartCount
  | testChar
  | collect
  | collecting
  | clearChar
  deriving DecidableEq

/-- What is printed by `udp_rx_process`. -/
inductive Message where
  | packet (count : Word) (contents : List Byte) (pktLen : Half)
  | writeError
  | syncError

/-- The variables of the loop and of the interrupts, and what can be observed: the log file, the
characters that were collected, and what has arrived. -/
structure State where
  location : Location
  udpRxCount : Word
  udpRxOld : Word
  udpBuf : Nat → Byte
  pktLen : Half
  udplogflag : Bool
  uart0IrqCount : Word
  uart0IrqOld : Word
  uart0Rbuf : Word
  log : List Byte
  printed : List Message
  collected : List Byte
  arrived : List Datagram
  received : List Byte

/-- The replies of what the loop calls: of `f_write` and `f_sync`, and what a command makes of
the log. -/
structure Reply where
  writeFails : Bool
  bw : Half
  syncFails : Bool
  udplogflag : Bool

namespace State

variable (state : State)

/-- The string in `udp_buf`. -/
def contents : List Byte := ((List.range dataBufSize).map state.udpBuf).takeWhile (· ≠ 0)

def goto (location : Location) : State := { state with location }

/-- `udp_buf[pkt_len] = '\n'`. -/
def endLine : State :=
  { state with udpBuf := Function.update state.udpBuf state.pktLen.toNat newline }

/-- What `f_write` writes. -/
def writeLog (bw : Half) : State :=
  { state with log := state.log ++ (List.range bw.toNat).map state.udpBuf }

def print (message : Message) : State := { state with printed := state.printed ++ [message] }

/-- An error message, if there is an error. -/
def report (failed : Bool) (message : Message) : State :=
  { state with printed := if failed then state.printed ++ [message] else state.printed }

end State

/-! ## The loop -/

/-- One step of the loop. -/
def advance (reply : Reply) (state : State) : State :=
  match state.location with
  | .others => state.goto .testUdp
  | .testUdp =>
      state.goto (if state.udpRxOld ≠ state.udpRxCount then .loadUdpCount else .testUart)
  -- udp_rx_count &= 0x7fffffff
  | .loadUdpCount => state.goto (.storeUdpCount state.udpRxCount)
  | .storeUdpCount loaded =>
      { state with udpRxCount := loaded &&& 0x7fffffff, location := .saveUdpCount }
  | .saveUdpCount => { state with udpRxOld := state.udpRxCount, location := .printPacket }
  -- udp_rx_process
  | .printPacket =>
      (state.print (.packet state.udpRxCount state.contents state.pktLen)).goto .testLog
  | .testLog => state.goto (if state.udplogflag then .storeNewline else .testUart)
  | .storeNewline => state.endLine.goto .write
  | .write => (state.writeLog reply.bw).goto (.testWrite reply.writeFails reply.bw)
  | .testWrite failed bw =>
      (state.report (failed ∨ bw.toNat < state.pktLen.toNat) .writeError).goto .sync
  | .sync => state.goto (.testSync reply.syncFails)
  | .testSync failed => (state.report failed .syncError).goto .testUart
  | .testUart =>
      state.goto (if state.uart0IrqOld ≠ state.uart0IrqCount then .loadUartCount else .others)
  -- uart0_irq_count &= 0x7fffffff
  | .loadUartCount => state.goto (.storeUartCount state.uart0IrqCount)
  | .storeUartCount loaded =>
      { state with uart0IrqCount := loaded &&& 0x7fffffff, location := .saveUartCount }
  | .saveUartCount => { state with uart0IrqOld := state.uart0IrqCount, location := .testChar }
  | .testChar => state.goto (if 0 < state.uart0Rbuf.toNat then .collect else .others)
  -- char_collect, which may execute a command
  | .collect =>
      { state with collected := state.collected ++ [state.uart0Rbuf.setWidth 8],
                   location := .collecting }
  | .collecting => { state with udplogflag := reply.udplogflag, location := .clearChar }
  | .clearChar => { state with uart0Rbuf := 0, location := .others }

/-! ## Interrupts -/

/-- What `strncpy` and the terminator leave in `udp_buf`. -/
def copyPayload (payload : List Byte) (before : Nat → Byte) (index : Nat) : Byte :=
  if index < payload.length then payload.getD index 0
  else if index = payload.length then 0
  else before index

/-- `udp_incoming`. -/
def udpIncoming (datagram : Datagram) (state : State) : State :=
  { state with
    pktLen := BitVec.ofNat 16 datagram.payload.length
    udpBuf := copyPayload datagram.payload state.udpBuf
    udpRxCount := state.udpRxCount + 1
    arrived := state.arrived ++ [datagram] }

/-- `uart0_isr`, with the interrupt identification and the byte in the holding register.  Where
the interrupt is not for a received byte, a byte may be sent. -/
def uart0Isr (iir : Word) (rhr : Byte) (state : State) : State :=
  { state with
    uart0Rbuf := if iir &&& 0x3E = 0x4 then rhr.setWidth 32 else state.uart0Rbuf
    uart0IrqCount := state.uart0IrqCount + 1 }

/-- The interrupt identification for a received byte. -/
def rhrInterrupt : Word := 0x4

inductive Interrupt where
  | udp (datagram : Datagram)
  | uart (byte : Byte)

def serve : Interrupt → State → State
  | .udp datagram => udpIncoming datagram
  | .uart byte => fun state =>
      { uart0Isr rhrInterrupt byte state with received := state.received ++ [byte] }

/-- The loop at its start: nothing has arrived, and nothing is left over. -/
structure Initial (state : State) : Prop where
  location : state.location = .others
  udp : state.udpRxCount = state.udpRxOld
  uart : state.uart0IrqCount = state.uart0IrqOld
  rbuf : state.uart0Rbuf = 0
  log : state.log = []
  printed : state.printed = []
  collected : state.collected = []
  arrived : state.arrived = []
  received : state.received = []

/-- The main loop. -/
def loop : Machine State Reply Interrupt where
  initial := Initial
  advance := advance
  serve := serve

/-- The loop before anything has arrived. -/
def started : State where
  location := .others
  udpRxCount := 0
  udpRxOld := 0
  udpBuf := fun _ => 0
  pktLen := 0
  udplogflag := true
  uart0IrqCount := 0
  uart0IrqOld := 0
  uart0Rbuf := 0
  log := []
  printed := []
  collected := []
  arrived := []
  received := []

theorem started_initial : Initial started := by
  constructor
  all_goals rfl

/-! ## Rounds -/

/-- The loop is at its start, and both counters have been noticed. -/
structure CaughtUp (state : State) : Prop where
  location : state.location = .others
  udp : state.udpRxCount = state.udpRxOld
  uart : state.uart0IrqCount = state.uart0IrqOld

namespace Location

/-- The number of locations before the start of the loop. -/
def left : Location → Nat
  | .others => 0
  | .testUdp => 19
  | .loadUdpCount => 18
  | .storeUdpCount _ => 17
  | .saveUdpCount => 16
  | .printPacket => 15
  | .testLog => 14
  | .storeNewline => 13
  | .write => 12
  | .testWrite _ _ => 11
  | .sync => 10
  | .testSync _ => 9
  | .testUart => 8
  | .loadUartCount => 7
  | .storeUartCount _ => 6
  | .saveUartCount => 5
  | .testChar => 4
  | .collect => 3
  | .collecting => 2
  | .clearChar => 1

end Location

/-- What has been noticed in a round. -/
structure Noticed (state : State) : Prop where
  udp : state.location.left < 16 → state.udpRxCount = state.udpRxOld
  uart : state.location.left < 5 → state.uart0IrqCount = state.uart0IrqOld

theorem left_advance (reply : Reply) (state : State) (inside : state.location ≠ .others) :
    (advance reply state).location.left < state.location.left := by
  unfold advance
  cases at_ : state.location with
  | others => exact absurd at_ inside
  | testUdp | testLog | testUart | testChar =>
      change (ite _ _ _ : Location).left < _
      split
      all_goals decide
  | _ => exact Nat.lt_succ_self _

/-- Behind the counters of datagrams, they stay as they are. -/
theorem advance_udp (reply : Reply) {state : State} (behind : state.location.left < 16) :
    (advance reply state).udpRxCount = state.udpRxCount ∧
      (advance reply state).udpRxOld = state.udpRxOld := by
  unfold advance
  cases at_ : state.location with
  | storeUdpCount | saveUdpCount => simp [at_, Location.left] at behind
  | _ => exact ⟨rfl, rfl⟩

/-- Outside of the counters of characters, they stay as they are. -/
theorem advance_uart (reply : Reply) {state : State}
    (outside : state.location.left < 5 ∨ 6 < state.location.left) :
    (advance reply state).uart0IrqCount = state.uart0IrqCount ∧
      (advance reply state).uart0IrqOld = state.uart0IrqOld := by
  unfold advance
  cases at_ : state.location with
  | storeUartCount | saveUartCount => simp [at_, Location.left] at outside
  | _ => exact ⟨rfl, rfl⟩

theorem Noticed.advance {state : State} (noticed : Noticed state) (reply : Reply) :
    Noticed (advance reply state) := by
  constructor
  · intro behind
    by_cases before : state.location.left < 16
    · rcases advance_udp reply before with ⟨count, old⟩
      rw [count, old]
      exact noticed.udp before
    · unfold MainLoop.advance at behind ⊢
      cases at_ : state.location with
      | testUdp =>
          rw [at_] at behind
          by_cases differ : state.udpRxOld ≠ state.udpRxCount
          · simp [State.goto, if_pos differ, Location.left] at behind
          · exact (not_not.mp differ).symm
      | saveUdpCount => rfl
      | _ => simp [at_, State.goto, Location.left] at before behind
  · intro behind
    by_cases before : state.location.left < 5
    · rcases advance_uart reply (.inl before) with ⟨count, old⟩
      rw [count, old]
      exact noticed.uart before
    · unfold MainLoop.advance at behind ⊢
      cases at_ : state.location with
      | testUdp | testLog =>
          rw [at_] at behind
          dsimp only [State.goto] at behind
          split at behind
          all_goals simp [Location.left] at behind
      | testUart =>
          rw [at_] at behind
          by_cases differ : state.uart0IrqOld ≠ state.uart0IrqCount
          · simp [State.goto, if_pos differ, Location.left] at behind
          · exact (not_not.mp differ).symm
      | saveUartCount => rfl
      | _ => simp [at_, State.goto, Location.left] at before behind

/-- Without interrupts, the loop catches up. -/
theorem catches_up (replies : Nat → Reply) (state : State) :
    ∃ count, CaughtUp (loop.alone replies state count) := by
  have returns : ∀ (replies : Nat → Reply) (state : State), ∃ count,
      (loop.alone replies state count).location = .others :=
    Machine.reaches (fun state => state.location = .others) (fun state => state.location.left)
      fun before answer inside => left_advance answer before inside
  have keeps : ∀ (replies : Nat → Reply) (state : State) (count : Nat), Noticed state →
      Noticed (loop.alone replies state count) := by
    intro replies state count noticed
    induction count with
    | zero => exact noticed
    | succ count inductionHypothesis => exact inductionHypothesis.advance (replies count)
  -- The first round goes on from anywhere; the next one begins at the start.
  rcases returns replies state with ⟨first, start⟩
  have begun : (loop.alone replies state (first + 1)).location = .testUdp := by
    change (advance (replies first) (loop.alone replies state first)).location = .testUdp
    unfold advance
    rw [start]
    rfl
  have noticed : Noticed (loop.alone replies state (first + 1)) := by
    constructor
    · intro behind
      rw [begun] at behind
      exact absurd behind (by decide)
    · intro behind
      rw [begun] at behind
      exact absurd behind (by decide)
  rcases returns (fun count => replies (first + 1 + count)) (loop.alone replies state (first + 1))
    with ⟨second, again⟩
  have all := keeps (fun count => replies (first + 1 + count)) _ second noticed
  refine ⟨first + 1 + second, ?_⟩
  rw [Machine.alone_add]
  exact ⟨again, all.udp (again ▸ by decide), all.uart (again ▸ by decide)⟩

end BbbEth.MainLoop
