import Mathlib.Logic.Function.Basic

/-!
# Register files

The registers of a device give access to words, which are its cells.  Some registers set or
clear bits of a cell and read as zero.  A read, a change and a write of one register is one
operation here.
-/

namespace BbbEth.Registers

universe u

/-- What a write of a register does to its cell. -/
inductive View where
  | plain
  | set
  | clear
  deriving DecidableEq

/-- A register. -/
structure Register (cell : Type u) where
  cell : cell
  view : View
  deriving DecidableEq

/-- The cells of a device. -/
abbrev File (cell : Type u) (width : Nat) := cell → BitVec width

variable {cell : Type u} [DecidableEq cell] {width : Nat}

namespace File

/-- A read of a register. -/
def read (file : File cell width) (register : Register cell) : BitVec width :=
  match register.view with
  | .plain => file register.cell
  | .set | .clear => 0

/-- A write of a register. -/
def write (file : File cell width) (register : Register cell) (value : BitVec width) :
    File cell width :=
  Function.update file register.cell <|
    match register.view with
    | .plain => value
    | .set => file register.cell ||| value
    | .clear => file register.cell &&& ~~~ value

/-- A write of what is read with more bits. -/
def orInto (file : File cell width) (register : Register cell) (value : BitVec width) :
    File cell width :=
  file.write register (file.read register ||| value)

/-- A write of what is read with fewer bits. -/
def andInto (file : File cell width) (register : Register cell) (value : BitVec width) :
    File cell width :=
  file.write register (file.read register &&& value)

variable {file : File cell width} {register : Register cell} {value : BitVec width}
  {other place : cell}

/-! ## Other cells -/

theorem write_of_ne (apart : other ≠ register.cell) :
    file.write register value other = file other :=
  Function.update_of_ne apart ..

theorem orInto_of_ne (apart : other ≠ register.cell) :
    file.orInto register value other = file other :=
  write_of_ne apart

theorem andInto_of_ne (apart : other ≠ register.cell) :
    file.andInto register value other = file other :=
  write_of_ne apart

/-! ## The cell of a register -/

theorem orInto_plain : file.orInto ⟨place, .plain⟩ value place = file place ||| value :=
  Function.update_self ..

theorem andInto_plain : file.andInto ⟨place, .plain⟩ value place = file place &&& value :=
  Function.update_self ..

theorem orInto_set : file.orInto ⟨place, .set⟩ value place = file place ||| value := by
  refine (Function.update_self ..).trans ?_
  exact congrArg (file place ||| ·) BitVec.zero_or

theorem orInto_clear : file.orInto ⟨place, .clear⟩ value place = file place &&& ~~~ value := by
  refine (Function.update_self ..).trans ?_
  exact congrArg (file place &&& ~~~ ·) BitVec.zero_or

/-! ## Registers of one effect -/

theorem write_set_eq : file.write ⟨place, .set⟩ value = file.orInto ⟨place, .set⟩ value :=
  congrArg (file.write ⟨place, .set⟩) BitVec.zero_or.symm

theorem write_clear_eq : file.write ⟨place, .clear⟩ value = file.orInto ⟨place, .clear⟩ value :=
  congrArg (file.write ⟨place, .clear⟩) BitVec.zero_or.symm

/-- Bits are taken away from a plain register. -/
theorem andInto_not :
    file.andInto ⟨place, .plain⟩ (~~~ value) = file.orInto ⟨place, .clear⟩ value :=
  write_clear_eq

/-- A change that adds no bit to a register that clears. -/
theorem orInto_clear_zero : file.orInto ⟨place, .clear⟩ 0 = file := by
  have ones : ~~~ (0 : BitVec width) = BitVec.allOnes width := BitVec.not_zero
  funext other
  by_cases here : other = place
  · rw [here, orInto_clear, ones, BitVec.and_allOnes]
  · exact orInto_of_ne here

/-! ## One bit -/

theorem getLsbD_bit {index number : Nat} (inside : index < width) :
    ((1 : BitVec width) <<< number).getLsbD index = decide (index = number) := by
  have power : (1 : BitVec width) <<< number = BitVec.twoPow width number :=
    (BitVec.twoPow_eq ..).symm
  rw [power, BitVec.getLsbD_twoPow]
  by_cases same : index = number
  · subst same
    simp [inside]
  · simp [same, Ne.symm same]

/-- A register that clears takes a bit away, and another one adds it. -/
theorem getLsbD_orInto {view : View} {index number : Nat} (inside : index < width) :
    (file.orInto ⟨place, view⟩ ((1 : BitVec width) <<< number) place).getLsbD index =
      if index = number then decide (view ≠ .clear) else (file place).getLsbD index := by
  cases view with
  | plain =>
      rw [orInto_plain, BitVec.getLsbD_or, getLsbD_bit inside]
      split <;> simp [*]
  | set =>
      rw [orInto_set, BitVec.getLsbD_or, getLsbD_bit inside]
      split <;> simp [*]
  | clear =>
      rw [orInto_clear, BitVec.getLsbD_and, BitVec.getLsbD_not, getLsbD_bit inside]
      split <;> simp [*]

end File

end BbbEth.Registers
