import Mathlib.Data.BitVec
import Mathlib.Tactic.Ring

/-!
# Transfers by frames

A transfer moves arrays of bytes.  The arrays of a frame are apart by one index and the frames by
another, and an event moves a frame.  A side that reads or writes a register keeps its bytes within
the width of the register.
-/

namespace BbbEth.Strided

variable {width : Nat}

/-- One side of a transfer. -/
structure Side (width : Nat) where
  /-- Where the next frame begins. -/
  base : BitVec width
  bIdx : BitVec width
  cIdx : BitVec width
  /-- The number of bytes of the register, for a constant address. -/
  fifo : Option Nat

namespace Side

variable (side : Side width)

/-- Where a byte of an array is. -/
def offset (byte : Nat) : Nat :=
  match side.fifo with
  | some bytes => byte % bytes
  | none => byte

/-- The address of a byte of the next frame. -/
def address (array byte : Nat) : BitVec width :=
  side.base + .ofNat width array * side.bIdx + .ofNat width (side.offset byte)

/-- The address of a byte of a frame, which is counted from the next one on. -/
def addressAt (frame array byte : Nat) : BitVec width :=
  side.base + .ofNat width frame * side.cIdx + .ofNat width array * side.bIdx +
    .ofNat width (side.offset byte)

/-- The side behind a frame. -/
def next : Side width := { side with base := side.base + side.cIdx }

variable {side} {frame array byte : Nat}

end Side

/-- A transfer. -/
structure Transfer (width : Nat) where
  src : Side width
  dest : Side width
  /-- The bytes of an array, the arrays of a frame and the frames that are left. -/
  aCnt : Nat
  bCnt : Nat
  cCnt : Nat

namespace Transfer

variable (transfer : Transfer width)

/-- The bytes of the next frame, each with the address it goes to. -/
def frame : List (BitVec width × BitVec width) :=
  (List.range transfer.bCnt).flatMap fun array =>
    (List.range transfer.aCnt).map fun byte =>
      (transfer.src.address array byte, transfer.dest.address array byte)

/-- The transfer behind a frame. -/
def next : Transfer width :=
  { transfer with
    src := transfer.src.next
    dest := transfer.dest.next
    cCnt := transfer.cCnt - 1 }

/-- What a number of events moves.  A transfer without frames ignores them. -/
def moves (transfer : Transfer width) : Nat → List (BitVec width × BitVec width)
  | 0 => []
  | events + 1 =>
      if transfer.cCnt = 0 then [] else transfer.frame ++ moves transfer.next events

end Transfer

section Moves

variable {transfer : Transfer width}

end Moves

/-! ## Sides that are counted through -/

/-- Byte `number` of a side is at `place number`. -/
def Side.Counts (side : Side width) (aCnt bCnt : Nat) (place : Nat → BitVec width) : Prop :=
  ∀ frame array byte, byte < aCnt →
    side.addressAt frame array byte = place ((frame * bCnt + array) * aCnt + byte)

section Counts

variable {base : BitVec width} {aCnt bCnt : Nat} {place place' : Nat → BitVec width}

end Counts

end BbbEth.Strided
