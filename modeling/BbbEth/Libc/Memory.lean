import BbbEth.Libc.Printf
import Mathlib.Logic.Function.Basic

/-!
# A memory of bytes

The memory that the string routines work on, with a record of what is loaded, and strings in it.
-/

namespace BbbEth.Libc

/-- The bytes, and the addresses that were loaded from. -/
structure Memory where
  byte : Nat → Byte
  loads : List Nat

namespace Memory

def load (address : Nat) (memory : Memory) : Byte × Memory :=
  (memory.byte address, { memory with loads := memory.loads ++ [address] })

def store (address : Nat) (value : Byte) (memory : Memory) : Memory :=
  { memory with byte := Function.update memory.byte address value }

end Memory

/-! ## Accesses -/

/-- What was loaded since is at certain addresses. -/
def Reads (allowed : Nat → Prop) (before after : Memory) : Prop :=
  ∃ loads, after.loads = before.loads ++ loads ∧ ∀ address ∈ loads, allowed address

/-- Some bytes from an address on were stored since, and no others. -/
structure Puts (dest size : Nat) (value : Nat → Byte) (before after : Memory) : Prop where
  inside : ∀ index < size, after.byte (dest + index) = value index
  outside : ∀ address, address < dest ∨ dest + size ≤ address →
    after.byte address = before.byte address

/-- Two ranges of addresses without a common one. -/
def Apart (first size second size' : Nat) : Prop :=
  first + size ≤ second ∨ second + size' ≤ first

section Accesses

variable {allowed weaker : Nat → Prop} {before middle after : Memory} {address : Nat}
variable {value : Byte} {dest size : Nat} {values : Nat → Byte}

theorem Reads.refl (allowed : Nat → Prop) (memory : Memory) : Reads allowed memory memory :=
  ⟨[], (List.append_nil _).symm, fun _ member => absurd member List.not_mem_nil⟩

theorem Reads.trans (first : Reads allowed before middle) (second : Reads allowed middle after) :
    Reads allowed before after := by
  rcases first with ⟨loads, same, inside⟩
  rcases second with ⟨loads', same', inside'⟩
  refine ⟨loads ++ loads', ?_, List.forall_mem_append.mpr ⟨inside, inside'⟩⟩
  rw [same', same, List.append_assoc]

theorem Reads.mono (reads : Reads allowed before after)
    (implies : ∀ address, allowed address → weaker address) : Reads weaker before after := by
  rcases reads with ⟨loads, same, inside⟩
  exact ⟨loads, same, fun address member => implies address (inside address member)⟩

theorem Reads.load (reads : Reads allowed before after) (inside : allowed address) :
    Reads allowed before (after.load address).2 :=
  reads.trans ⟨[address], rfl, List.forall_mem_singleton.mpr inside⟩

theorem Reads.store (reads : Reads allowed before after) (address : Nat) (value : Byte) :
    Reads allowed before (after.store address value) := by
  rcases reads with ⟨loads, same, inside⟩
  exact ⟨loads, same, inside⟩

/-- Nothing is stored. -/
theorem Puts.zero (same : after.byte = before.byte) : Puts dest 0 values before after :=
  ⟨fun _ less => absurd less (Nat.not_lt_zero _), fun _ _ => by rw [same]⟩

/-- One byte is stored, and then the bytes behind it. -/
theorem Puts.cons
    (first : middle.byte = Function.update before.byte dest (values 0))
    (others : Puts (dest + 1) size (fun index => values (index + 1)) middle after) :
    Puts dest (size + 1) values before after := by
  constructor
  · intro index less
    cases index with
    | zero =>
        rw [Nat.add_zero, others.outside dest (.inl (Nat.lt_succ_self dest)), first,
          Function.update_self]
    | succ index =>
        have inside := others.inside index (Nat.lt_of_succ_lt_succ less)
        rwa [Nat.add_assoc, Nat.add_comm 1] at inside
  · intro address outside
    have different : address ≠ dest := by omega
    rw [others.outside address (by omega), first, Function.update_of_ne different]

end Accesses

/-! ## Strings -/

/-- A string that ends with a zero. -/
structure IsString (memory : Memory) (address : Nat) (text : List Byte) : Prop where
  char : ∀ index ≤ text.length, memory.byte (address + index) = text.getD index 0
  nonzero : ∀ byte ∈ text, byte ≠ 0

/-- A string in memory. -/
structure CString (memory : Memory) where
  address : Nat
  text : List Byte
  isString : IsString memory address text

namespace IsString

variable {memory other : Memory} {address : Nat} {first : Byte} {text : List Byte}

theorem nul (isString : IsString memory address []) : memory.byte address = 0 :=
  isString.char 0 le_rfl

theorem head (isString : IsString memory address (first :: text)) :
    memory.byte address = first :=
  isString.char 0 (Nat.zero_le _)

theorem head_ne_zero (isString : IsString memory address (first :: text)) : first ≠ 0 :=
  isString.nonzero first List.mem_cons_self

theorem tail (isString : IsString memory address (first :: text)) :
    IsString memory (address + 1) text := by
  constructor
  · intro index inside
    rw [Nat.add_assoc, Nat.add_comm 1]
    exact isString.char (index + 1) (Nat.succ_le_succ inside)
  · exact fun byte member => isString.nonzero byte (List.mem_cons_of_mem first member)

/-- Only the bytes of the string matter. -/
theorem congr (isString : IsString memory address text)
    (same : ∀ index ≤ text.length, other.byte (address + index) = memory.byte (address + index)) :
    IsString other address text :=
  ⟨fun index inside => (same index inside).trans (isString.char index inside), isString.nonzero⟩

end IsString

end BbbEth.Libc
