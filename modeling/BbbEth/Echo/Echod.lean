import BbbEth.Echo.State

/-!
# The echo server

The functions of `echod.c` and `pbuf_free`, statement by statement.
-/

namespace BbbEth.Echo

open BbbEth.Interference

/-- Access to a packet buffer, which must not be free. -/
def loadPbuf (p : Nat) : Program Access Pbuf :=
  .perform (.loadPbuf p) fun
    | some pbuf => .done pbuf
    | none => .fault

/-! ## `pbuf_free` -/

/-- One round of the loop of `pbuf_free`. -/
def freeRound : Option Nat → Program Access (Option Nat ⊕ Unit)
  | none => .done (.inr ())
  | some p => do
      let pbuf ← loadPbuf p
      .lift (.storePbuf p { pbuf with ref := pbuf.ref - 1 })
      if pbuf.ref - 1 = 0 then do
        .lift (.dealloc p)
        .done (.inl pbuf.next)
      else
        .done (.inl none)

/-- `pbuf_free`. -/
def pbufFree (p : Option Nat) : Program Access Unit := .iterate freeRound p

/-! ## `echod.c` -/

/-- The inner loop of `echo_send_data`.  An access outside of `mydata` faults. -/
def copyPayload : List Byte → Nat → Program Access Nat
  | [], cnt => .done cnt
  | byte :: data, cnt =>
      if cnt < maxSize then do
        .lift (.storeMydata cnt byte)
        copyPayload data (cnt + 1)
      else
        .fault

/-- One round of the outer loop of `echo_send_data`. -/
def copyRound (carried : Nat × Nat) : Program Access ((Nat × Nat) ⊕ Unit) := do
  let pbuf ← loadPbuf carried.1
  let cnt ← copyPayload pbuf.payload carried.2
  match pbuf.next with
  | some next => .done (.inl (next, cnt))
  | none => .done (.inr ())

/-- `echo_send_data`. -/
def echoSendData (p : Nat) : Program Access Err := do
  let pbuf ← loadPbuf p
  .iterate copyRound (p, 0)
  pbufFree (some p)
  .lift (.tcpWrite pbuf.totLen)

/-- `echo_close_conn`. -/
def echoCloseConn : Program Access Unit := do
  .lift .tcpRecv
  .lift .tcpClose
  .lift .tcpArg
  .lift .tcpSent

/-- `echo_recv`. -/
def echoRecv (p : Option Nat) (err : Err) : Program Access Err :=
  match p with
  | none => do
      echoCloseConn
      .done .ok
  | some p => do
      let pbuf ← loadPbuf p
      .lift (.tcpRecved pbuf.totLen)
      if err ≠ .ok then do
        pbufFree (some p)
        echoCloseConn
        .done .ok
      else
        echoSendData p

end BbbEth.Echo
