import BbbEth.Mmc.Encoding

/-!
# Conversations

The commands of a dialogue by their indices, with the responses of the card, and the transfers.
-/

namespace BbbEth.Mmc

open BbbEth.Interference Server Routine

/-- A response of the card. -/
abbrev Response := Fin 4 → Word

/-- A response has words. -/
instance responseWords : NeZero 4 := ⟨by decide⟩

/-- What is said: a command with its response if it completes, or a transfer. -/
inductive Line where
  | said (idx : Nat) (reply : Option Response)
  | moved (succeeds : Bool)

namespace Line

/-- A command that times out, or a transfer that fails. -/
def failed : Line → Bool
  | said _ reply => reply.isNone
  | moved succeeds => !succeeds

/-- A command of an index. -/
def isCmd (idx : Nat) : Line → Bool
  | said other _ => other = idx
  | moved _ => false

/-- The response to a command of an index. -/
def response (idx : Nat) : Line → Option Response
  | said other reply => if other = idx then reply else none
  | moved _ => none

end Line

/-- What an entry of the log says. -/
def Entry.line : Entry → Option Line
  | .command registers reply => some (.said (indxField.get registers.cmd).toNat reply)
  | .transfer succeeds => some (.moved succeeds)
  | _ => none

/-- What the log says. -/
def Desk.lines (desk : Desk) : List Line := desk.log.filterMap Entry.line

/-- The last response to a command of an index. -/
def lastResponse (idx : Nat) (lines : List Line) : Option Response :=
  lines.reverse.findSome? (Line.response idx)

section Lines

variable {current : Desk} {c : Cmd} {reply : Option Response} {lines more : List Line} {idx : Nat}

@[simp] theorem lines_exchange :
    (current.exchange c reply).lines = current.lines ++ [.said (c.idx.toNat % 64) reply] := by
  simp [Desk.lines, Desk.exchange, Entry.line, toNat_indx]

@[simp] theorem lines_transferred {succeeds : Bool} :
    (current.transferred succeeds).lines = current.lines ++ [.moved succeeds] := by
  simp [Desk.lines, Desk.transferred, Entry.line]

@[simp] theorem lines_prepared {channel : Channel} {entry : PaRamEntry} {blkSize : Nat} :
    (current.prepared channel entry blkSize).lines = current.lines := by
  simp [Desk.lines, Desk.prepared, Entry.line]

/-- A later response hides an earlier one. -/
theorem lastResponse_append :
    lastResponse idx (lines ++ more) = (lastResponse idx more).or (lastResponse idx lines) := by
  simp [lastResponse, List.findSome?_append]

theorem lastResponse_none (none : ∀ line ∈ lines, line.response idx = none) :
    lastResponse idx lines = Option.none := by
  rw [lastResponse, List.findSome?_eq_none_iff]
  intro line inside
  exact none line (List.mem_reverse.mp inside)

end Lines

end BbbEth.Mmc
