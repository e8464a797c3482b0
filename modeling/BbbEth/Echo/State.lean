import BbbEth.Interference.Fixed
import BbbEth.Linked.Path
import Mathlib.Logic.Function.Basic
import Mathlib.Order.Nat

/-!
# The state of the echo server

The packet buffers that lwIP hands to `echod.c`, and what `echod.c` hands back.  The address of a
packet buffer stands for one allocation of it.
-/

namespace BbbEth.Echo

open BbbEth.Interference

abbrev Byte := BitVec 8
abbrev Half := BitVec 16

/-- The results of `tcp_write` and of a callback. -/
inductive Err where
  | ok
  | mem
  deriving DecidableEq

/-- A packet buffer.  The length of its payload is `len`. -/
structure Pbuf where
  next : Option Nat
  payload : List Byte
  totLen : Half
  ref : Nat

/-- The size of `mydata`. -/
def maxSize : Nat := 4096

/-- The stack around the echo server.  A packet buffer that is free is `none`; how often each of
them has been freed, and how many bytes were stored in `mydata`, is counted. -/
structure Stack where
  pbuf : Nat → Option Pbuf
  freed : Nat → Nat
  mydata : Nat → Byte
  copied : Nat
  /-- The sum of the arguments of `tcp_recved`. -/
  recved : Nat
  /-- The data that was passed to `tcp_write`, with its results. -/
  writes : List (List Byte × Err)
  /-- Whether `echo_recv` is registered. -/
  listens : Bool

namespace Stack

variable (stack : Stack)

def setPbuf (p : Nat) (pbuf : Option Pbuf) : Stack :=
  { stack with pbuf := Function.update stack.pbuf p pbuf }

/-- A packet buffer goes back to its pool. -/
def dealloc (p : Nat) : Stack :=
  { stack.setPbuf p none with freed := Function.update stack.freed p (stack.freed p + 1) }

def store (cnt : Nat) (byte : Byte) : Stack :=
  { stack with mydata := Function.update stack.mydata cnt byte, copied := stack.copied + 1 }

section Lemmas

variable {stack} {p cnt : Nat} {byte : Byte} {pbuf : Option Pbuf}

theorem dealloc_pbuf : (stack.dealloc p).pbuf = Function.update stack.pbuf p none := rfl

theorem dealloc_freed : (stack.dealloc p).freed =
    Function.update stack.freed p (stack.freed p + 1) := rfl

theorem store_mydata : (stack.store cnt byte).mydata =
    Function.update stack.mydata cnt byte := rfl

end Lemmas

/-- The first bytes of `mydata`. -/
def data (count : Nat) : List Byte := (List.range count).map stack.mydata

def write (count : Nat) (err : Err) : Stack :=
  { stack with writes := stack.writes ++ [(stack.data count, err)] }

end Stack

/-! ## Accesses -/

/-- What the echo server does with the stack around it. -/
inductive Access : Type → Type where
  | loadPbuf (p : Nat) : Access (Option Pbuf)
  | storePbuf (p : Nat) (pbuf : Pbuf) : Access Unit
  | dealloc (p : Nat) : Access Unit
  | storeMydata (cnt : Nat) (byte : Byte) : Access Unit
  | tcpRecved (count : Half) : Access Unit
  | tcpWrite (count : Half) : Access Err
  | tcpRecv : Access Unit
  | tcpClose : Access Unit
  | tcpArg : Access Unit
  | tcpSent : Access Unit

/-- What an access does, apart from the result of `tcp_write`. -/
def Access.Answers : {reply : Type} → Access reply → Stack → reply → Stack → Prop
  | _, .loadPbuf p, before, pbuf, after => pbuf = before.pbuf p ∧ after = before
  | _, .storePbuf p pbuf, before, _, after => after = before.setPbuf p (some pbuf)
  | _, .dealloc p, before, _, after => after = before.dealloc p
  | _, .storeMydata cnt byte, before, _, after => after = before.store cnt byte
  | _, .tcpRecved count, before, _, after =>
      after = { before with recved := before.recved + count.toNat }
  | _, .tcpWrite count, before, err, after => after = before.write count.toNat err
  | _, .tcpRecv, before, _, after => after = { before with listens := false }
  | _, .tcpClose, before, _, after | _, .tcpArg, before, _, after | _, .tcpSent, before, _, after =>
      after = before

/-- The stack around the echo server. -/
def lwip : Server Access Stack where
  answers := Access.Answers

end BbbEth.Echo
