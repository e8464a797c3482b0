import BbbEth.Console.Libc
import BbbEth.Libc.Compare
import BbbEth.Libc.Copy

/-!
# Objects in memory

The string routines on objects of a known size do what the routines on a memory do where the
objects are.
-/

namespace BbbEth.Libc

open BbbEth.Console

/-- An object is at an address. -/
def Placed (str : Str) (address : Nat) (memory : Memory) : Prop :=
  ∀ index < str.size, memory.byte (address + index) = str.char index

/-- Only the bytes of an object were changed. -/
def OnlyAt (str : Str) (address : Nat) (before after : Memory) : Prop :=
  ∀ other, other < address ∨ address + str.size ≤ other → after.byte other = before.byte other

section Objects

variable {p q : Str} {left right text : List Byte} {a b count : Nat} {memory after : Memory}

theorem Placed.isString (placed : Placed p a memory) (holds : Holds p text) :
    IsString memory a text := by
  have fits := holds.fits
  refine ⟨fun index inside => ?_, holds.nonzero⟩
  rw [placed index (by omega), holds.char index inside]

/-- A copy into an object and the same copy in memory. -/
theorem Placed.copied {copy : Str} {c : Nat} (placed : Placed p a memory)
    (copied : Copied text 0 c p copy)
    (puts : Puts (a + c) (text.length + 1) (fun index => text.getD index 0) memory after) :
    Placed copy a after := by
  intro index less
  rw [copied.size] at less
  by_cases stored : c ≤ index ∧ index < c + (text.length + 1)
  · obtain ⟨rest, rfl⟩ : ∃ rest, index = c + rest := ⟨index - c, by omega⟩
    rw [← Nat.add_assoc, puts.inside rest (by omega), copied.copied rest (by omega), Nat.zero_add]
  · rw [puts.outside _ (by omega), placed index less, copied.kept index (by omega)]

/-- What is stored inside of an object changes nothing else. -/
theorem onlyAt_of_puts {start size : Nat} {value : Nat → Byte}
    (puts : Puts (a + start) size value memory after) (fits : start + size ≤ p.size) :
    OnlyAt p a memory after :=
  fun other outside => puts.outside other (by omega)

/-- `strcpy` on objects, and on the memory that they are in. -/
theorem strcpy_placed (placed : Placed p a memory) (placed' : Placed q b memory)
    (apart : Apart a p.size b q.size) (holds : Holds q text) (fits : text.length < p.size) :
    ∃ copy after, Console.strcpy p q = some copy ∧
      (∃ count, strcpy a b count memory = some (a, after)) ∧
      Placed copy a after ∧ OnlyAt p a memory after := by
  have ends := holds.fits
  have apart' : Apart a (text.length + 1) b (text.length + 1) := by
    unfold Apart at apart ⊢
    omega
  rcases strcpy_stores memory a ⟨b, text, placed'.isString holds⟩ apart' with
    ⟨⟨first, after⟩, ran, same, puts, _⟩
  obtain rfl : first = a := same
  rcases copyFrom_holds holds 0 0 p (Nat.zero_le _) (by omega) with ⟨copy, copies, copied⟩
  have puts' : Puts (first + 0) (text.length + 1) (fun index => text.getD index 0) memory after :=
    puts
  have inside : 0 + (text.length + 1) ≤ p.size := (Nat.zero_add _).trans_le fits
  exact ⟨copy, after, copies, ran, placed.copied copied puts', onlyAt_of_puts puts' inside⟩

/-- `strcat` on objects, and on the memory that they are in. -/
theorem strcat_placed (placed : Placed p a memory) (placed' : Placed q b memory)
    (apart : Apart a p.size b q.size) (holds : Holds p left) (holds' : Holds q right)
    (fits : left.length + right.length < p.size) :
    ∃ copy after, Console.strcat p q = some copy ∧
      (∃ count, strcat a b count memory = some (a, after)) ∧
      Placed copy a after ∧ OnlyAt p a memory after := by
  have ends := holds'.fits
  have apart' : Apart a (left.length + right.length + 1) b (right.length + 1) := by
    unfold Apart at apart ⊢
    omega
  rcases strcat_stores memory ⟨a, left, placed.isString holds⟩ ⟨b, right, placed'.isString holds'⟩
    apart' with ⟨⟨first, after⟩, ran, same, puts, _⟩
  obtain rfl : first = a := same
  rcases copyFrom_holds holds' 0 left.length p (Nat.zero_le _) (by omega) with
    ⟨copy, copies, copied⟩
  refine ⟨copy, after, ?_, ran, placed.copied copied puts, onlyAt_of_puts puts fits⟩
  unfold Console.strcat
  rw [strlen_holds holds]
  exact copies

/-- `strcmp` on objects, and on the memory that they are in. -/
theorem strcmp_placed (placed : Placed p a memory) (placed' : Placed q b memory)
    (holds : Holds p left) (holds' : Holds q right) :
    ∃ result outcome, Console.strcmp p q = some result ∧
      (∃ count, strcmp a b count memory = some outcome) ∧ (result = 0 ↔ outcome.1 = 0) := by
  rcases strcmp_holds holds holds' with ⟨result, compares, equal⟩
  rcases strcmp_ends (placed.isString holds) (placed'.isString holds') with
    ⟨outcome, ran, compared⟩
  refine ⟨result, outcome, compares, ran, ?_⟩
  rw [equal, ← lexSign_zero, ← compared.sign, Int.sign_eq_zero_iff_zero]

/-- `strncmp` on objects, and on the memory that they are in. -/
theorem strncmp_placed (placed : Placed p a memory) (placed' : Placed q b memory)
    (holds : Holds p left) (holds' : Holds q right) :
    ∃ result, Console.strncmp p q right.length = some result ∧
      (result = 0 ↔ (strncmp a b right.length memory).1 = 0) := by
  rcases strncmp_holds holds holds' with ⟨result, compares, equal⟩
  have compared := @strncmp_compared memory a b left right right.length (placed.isString holds)
    (placed'.isString holds')
  refine ⟨result, compares, ?_⟩
  rw [equal, ← Int.sign_eq_zero_iff_zero, compared.sign, lexSign_zero, List.take_length,
    List.prefix_iff_eq_take, eq_comm]

end Objects

end BbbEth.Libc
