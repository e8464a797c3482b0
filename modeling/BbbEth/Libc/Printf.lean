import BbbEth.Libc.Division

/-!
# `ConsolePrintf`

The routine as a loop over the format, with what it transmits.  An access outside of the format
or of the digit buffer is a fault, and so is an argument that is not there.
-/

namespace BbbEth.Libc

open Loops

/-- A byte. -/
abbrev Byte := BitVec 8

/-- A character. -/
def char (c : Char) : Byte := BitVec.ofNat 8 c.toNat

/-- How `num / 10` and `num % 10` are computed for a signed word. -/
structure ByTen where
  quot : Word → Word
  rem : Word → Word
  quot_nonneg : ∀ num, 0 ≤ num.toInt → (quot num).toInt = num.toInt / 10
  rem_nonneg : ∀ num, 0 ≤ num.toInt → (rem num).toInt = num.toInt % 10
  quot_le : ∀ num, (quot num).toInt.natAbs ≤ num.toInt.natAbs / 10

/-- The digits of `%x`, for a number of shifts that are left. -/
def hexFrom (num : Word) : Nat → List Byte
  | 0 => []
  | count + 1 =>
      let hd := num.sshiftRight (4 * count) &&& 0xf
      (if (9 : Word).slt hd then hd + 0x37 else hd + 0x30).setWidth 8 :: hexFrom num count

/-- The digits of `%d`, from a position in `buf`, in front of those that are there. -/
def decimalFrom (byTen : ByTen) : Nat → Word → List Byte → Option (List Byte)
  | 0, _, _ => none
  | position + 1, num, digits =>
      let digits := (0x30 + byTen.rem num).setWidth 8 :: digits
      if byTen.quot num ≠ 0 then decimalFrom byTen position (byTen.quot num) digits
      else some digits

/-- Where the loop is: in the format, or in the string of a `%s`. -/
inductive Location where
  | format (position : Nat)
  | string (position : Nat) (s : Word)

/-- The variables of the loop, and what is transmitted. -/
structure Printer where
  location : Location
  args : List Word
  output : List Byte

/-- What `*stack_head++` is used for. -/
def Printer.takeArg (printer : Printer) (use : Word → List Word → Printer ⊕ Option Printer) :
    Printer ⊕ Option Printer :=
  match printer.args with
  | [] => .inr none
  | arg :: args => use arg args

/-- The `switch`, with the position behind the character. -/
def Printer.convert (byTen : ByTen) (printer : Printer) (conversion : Byte) (position : Nat) :
    Printer ⊕ Option Printer :=
  if conversion = char 'c' then
    printer.takeArg fun arg args =>
      .inl ⟨.format position, args, printer.output ++ [arg.setWidth 8]⟩
  else if conversion = char 's' then
    printer.takeArg fun arg args => .inl ⟨.string position arg, args, printer.output⟩
  else if conversion = char 'x' then
    printer.takeArg fun arg args =>
      .inl ⟨.format position, args, printer.output ++ hexFrom arg 8⟩
  else if conversion = char 'd' then
    printer.takeArg fun arg args =>
      match decimalFrom byTen 15 arg [] with
      | none => .inr none
      | some digits => .inl ⟨.format position, args, printer.output ++ digits⟩
  else
    .inl ⟨.format position, printer.args, printer.output ++ [char '?']⟩

/-- One round of the loops of `ConsolePrintf`. -/
def printRound (byTen : ByTen) (memory : Word → Byte) (fmt : List Byte) (printer : Printer) :
    Printer ⊕ Option Printer :=
  match printer.location with
  | .string position s =>
      if memory s ≠ 0 then
        .inl ⟨.string position (s + 1), printer.args, printer.output ++ [memory s]⟩
      else
        .inl ⟨.format position, printer.args, printer.output⟩
  | .format position =>
      match fmt[position]? with
      | none => .inr none
      | some c =>
          if c = 0 then .inr (some printer)
          else if c = char '%' then
            match fmt[position + 1]? with
            | none => .inr none
            | some conversion => printer.convert byTen conversion (position + 2)
          else .inl ⟨.format (position + 1), printer.args, printer.output ++ [c]⟩

/-- `ConsolePrintf`, with the bytes of the format and its arguments. -/
def consolePrintf (byTen : ByTen) (memory : Word → Byte) (fmt : List Byte) (args : List Word)
    (count : Nat) : Option (Option Printer) :=
  run (printRound byTen memory fmt) count ⟨.format 0, args, []⟩

/-! ## The reference -/

/-- The shortest decimal numeral. -/
def numeral (value : Int) : List Byte :=
  (if value < 0 then [char '-'] else []) ++ (Nat.toDigits 10 value.natAbs).map char

/-- Eight upper-case hexadecimal digits. -/
def hexadecimal (word : Word) : List Byte :=
  (List.range 8).reverse.map fun place => char ((word.toNat / 16 ^ place % 16).digitChar.toUpper)

/-- What a format is made of. -/
inductive Piece where
  | ordinary (c : Byte)
  | conversion (c : Byte)
  /-- A `%` at the end. -/
  | lone
  deriving DecidableEq

/-- The pieces of a format. -/
def pieces : List Byte → List Piece
  | [] => []
  | c :: rest =>
      if c = char '%' then
        match rest with
        | [] => [.lone]
        | conversion :: rest => .conversion conversion :: pieces rest
      else .ordinary c :: pieces rest

/-- A string in memory. -/
def StringAt (memory : Word → Byte) : Word → List Byte → Prop
  | s, [] => memory s = 0
  | s, c :: rest => memory s = c ∧ c ≠ 0 ∧ StringAt memory (s + 1) rest

/-- The expansion of a format with one argument for each conversion that takes one, for a way
to show the argument of a `%d`. -/
inductive Expands (memory : Word → Byte) (shown : Word → List Byte) :
    List Piece → List Word → List Byte → Prop where
  | nil : Expands memory shown [] [] []
  | ordinary (c : Byte) {rest : List Piece} {args : List Word} {out : List Byte} :
      Expands memory shown rest args out →
      Expands memory shown (.ordinary c :: rest) args (c :: out)
  | character {arg : Word} {rest : List Piece} {args : List Word} {out : List Byte} :
      Expands memory shown rest args out →
      Expands memory shown (.conversion (char 'c') :: rest) (arg :: args) (arg.setWidth 8 :: out)
  | string {arg : Word} {text : List Byte} {rest : List Piece} {args : List Word}
      {out : List Byte} : StringAt memory arg text → Expands memory shown rest args out →
      Expands memory shown (.conversion (char 's') :: rest) (arg :: args) (text ++ out)
  | hexadecimal {arg : Word} {rest : List Piece} {args : List Word} {out : List Byte} :
      Expands memory shown rest args out →
      Expands memory shown (.conversion (char 'x') :: rest) (arg :: args)
        (hexadecimal arg ++ out)
  | decimal {arg : Word} {rest : List Piece} {args : List Word} {out : List Byte} :
      Expands memory shown rest args out →
      Expands memory shown (.conversion (char 'd') :: rest) (arg :: args) (shown arg ++ out)
  | unknown (c : Byte) {rest : List Piece} {args : List Word} {out : List Byte} :
      c ∉ [char 'c', char 's', char 'x', char 'd'] → Expands memory shown rest args out →
      Expands memory shown (.conversion c :: rest) args (char '?' :: out)
  | lone : Expands memory shown [.lone] [] [char '?']

/-- The arguments of the conversions `%d`. -/
def decimals : List Piece → List Word → List Word
  | .conversion c :: rest, args =>
      if c ∈ [char 'c', char 's', char 'x', char 'd'] then
        match args with
        | [] => []
        | arg :: args => if c = char 'd' then arg :: decimals rest args else decimals rest args
      else decimals rest args
  | _ :: rest, args => decimals rest args
  | [], _ => []

end BbbEth.Libc
