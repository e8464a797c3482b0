import BbbEth.Loops.Loop
import Mathlib.Data.BitVec
import Mathlib.Data.Int.Order.Basic
import Mathlib.Algebra.Order.Group.Unbundled.Int

/-!
# The division helpers of `libc.c`

The helpers subtract the denominator while the numerator is not below it.  Arithmetic wraps.
-/

namespace BbbEth.Libc

open Loops

/-- A 32-bit word. -/
abbrev Word := BitVec 32

/-- `idiv_return`. -/
structure IdivReturn where
  quot : Word
  rem : Word
  deriving DecidableEq

/-- `uidiv_return`. -/
structure UidivReturn where
  quot : Word
  rem : Word
  deriving DecidableEq

/-- A round of `while (num >= denom) { num -= denom; q++; }`, with what is returned of `q` and
`num` behind it. -/
def divRound {result : Type} (le : Word → Word → Bool) (finish : Word → Word → result)
    (denom : Word) : Word × Word → (Word × Word) ⊕ result
  | (num, q) => if le denom num then .inl (num - denom, q + 1) else .inr (finish q num)

/-- `__aeabi_idivmod`. -/
def aeabiIdivmod (num denom : Word) (count : Nat) : Option IdivReturn :=
  run (divRound BitVec.sle IdivReturn.mk denom) count (num, 0)

/-- `__aeabi_idiv`. -/
def aeabiIdiv (num denom : Word) (count : Nat) : Option Word :=
  run (divRound BitVec.sle (fun q _ => q) denom) count (num, 0)

/-- `__aeabi_uidivmod`. -/
def aeabiUidivmod (num denom : Word) (count : Nat) : Option UidivReturn :=
  run (divRound BitVec.ule UidivReturn.mk denom) count (num, 0)

/-- `__aeabi_uidiv`. -/
def aeabiUidiv (num denom : Word) (count : Nat) : Option Word :=
  run (divRound BitVec.ule (fun q _ => q) denom) count (num, 0)

section Rounds

variable {result : Type} {le : Word → Word → Bool} {finish : Word → Word → result}
variable {num denom q : Word}

/-- A numerator below the denominator is left alone. -/
theorem divLoop_below (below : le denom num = false) :
    Ends (divRound le finish denom) (num, q) (finish q num) := by
  apply Ends.last
  rw [divRound, if_neg (by rw [below]; exact Bool.false_ne_true)]

theorem toNat_sub_of_le (fits : denom.toNat ≤ num.toNat) :
    (num - denom).toNat = num.toNat - denom.toNat := by
  bv_omega

/-- One round counts one. -/
theorem div_sub (positive : 0 < denom.toNat) (fits : denom.toNat ≤ num.toNat) :
    1 + (num - denom) / denom = num / denom := by
  have quotient := Nat.div_eq_sub_div positive fits
  have small : num.toNat / denom.toNat < 2 ^ 32 :=
    (Nat.div_le_self _ _).trans_lt num.isLt
  apply BitVec.eq_of_toNat_eq
  rw [BitVec.toNat_add, BitVec.toNat_udiv, BitVec.toNat_udiv, toNat_sub_of_le fits, quotient,
    Nat.add_comm]
  rw [quotient] at small
  exact Nat.mod_eq_of_lt small

theorem mod_sub (fits : denom.toNat ≤ num.toNat) : (num - denom) % denom = num % denom := by
  apply BitVec.eq_of_toNat_eq
  rw [BitVec.toNat_umod, BitVec.toNat_umod, toNat_sub_of_le fits]
  exact (Nat.mod_eq_sub_mod fits).symm

/-- Where words are compared by their value, the loop divides. -/
theorem divLoop_ends (positive : 0 < denom.toNat)
    (compares : ∀ left : Word, left.toNat ≤ num.toNat →
      le denom left = decide (denom.toNat ≤ left.toNat)) :
    Ends (divRound le finish denom) (num, q) (finish (q + num / denom) (num % denom)) := by
  generalize size : num.toNat = left
  induction left using Nat.strongRecOn generalizing num q with
  | ind left inductionHypothesis =>
      by_cases fits : denom.toNat ≤ num.toNat
      · have goes : divRound le finish denom (num, q) = .inl (num - denom, q + 1) := by
          rw [divRound, compares num le_rfl, if_pos (decide_eq_true fits)]
        have smaller := toNat_sub_of_le fits
        have rest := @inductionHypothesis (num - denom).toNat (by omega) (num - denom) (q + 1)
          (fun left bound => compares left (by omega)) rfl
        rw [BitVec.add_assoc, div_sub positive fits, mod_sub fits] at rest
        exact rest.next goes
      · have below : le denom num = false := by
          rw [compares num le_rfl, decide_eq_false fits]
        have quotient : num / denom = 0#32 := by
          apply BitVec.eq_of_toNat_eq
          rw [BitVec.toNat_udiv]
          exact Nat.div_eq_of_lt (by omega)
        have remainder : num % denom = num := by
          apply BitVec.eq_of_toNat_eq
          rw [BitVec.toNat_umod]
          exact Nat.mod_eq_of_lt (by omega)
        rw [quotient, remainder, BitVec.add_zero]
        exact divLoop_below below

end Rounds

section Signed

variable {num denom : Word}

/-- Both helpers return, and agree on the quotient. -/
def Returns (num denom quot rem : Word) : Prop :=
  (∃ count, aeabiIdivmod num denom count = some ⟨quot, rem⟩) ∧
    ∃ count, aeabiIdiv num denom count = some quot

/-- The quotient of C, which is truncated, and its remainder. -/
structure Divides (num denom quot rem : Word) : Prop where
  truncated : quot.toInt = num.toInt.tdiv denom.toInt
  restores : num.toInt = quot.toInt * denom.toInt + rem.toInt
  small : |rem.toInt| < |denom.toInt|
  sign : rem = 0 ∨ rem.toInt.sign = num.toInt.sign

/-- A numerator that is smaller than the denominator is its own remainder. -/
theorem returns_below (below : num.toInt < denom.toInt) : Returns num denom 0 num := by
  have stops : denom.sle num = false := by
    rw [BitVec.sle_eq_decide]
    exact decide_eq_false (not_le.mpr below)
  exact ⟨divLoop_below stops, divLoop_below stops⟩

theorem toInt_of_small {word : Word} (small : word.toNat < 2 ^ 31) : word.toInt = word.toNat :=
  BitVec.toInt_eq_toNat_of_lt (by omega)

theorem small_of_nonneg {word : Word} (nonneg : 0 ≤ word.toInt) : word.toNat < 2 ^ 31 := by
  have size := word.isLt
  rw [BitVec.toInt_eq_toNat_cond] at nonneg
  split at nonneg
  · omega
  · omega

theorem toInt_udiv (positive : 0 < denom.toInt) (nonneg : 0 ≤ num.toInt) :
    (num / denom).toInt = num.toInt / denom.toInt := by
  have small := small_of_nonneg nonneg
  have quotient : (num / denom).toNat = num.toNat / denom.toNat := BitVec.toNat_udiv
  have le : num.toNat / denom.toNat ≤ num.toNat := Nat.div_le_self _ _
  rw [toInt_of_small (by omega), toInt_of_small small,
    toInt_of_small (small_of_nonneg positive.le), quotient]
  rfl

theorem toInt_umod (positive : 0 < denom.toInt) (nonneg : 0 ≤ num.toInt) :
    (num % denom).toInt = num.toInt % denom.toInt := by
  have small := small_of_nonneg nonneg
  have remainder : (num % denom).toNat = num.toNat % denom.toNat := BitVec.toNat_umod
  have le : num.toNat % denom.toNat ≤ num.toNat := Nat.mod_le _ _
  rw [toInt_of_small (by omega), toInt_of_small small,
    toInt_of_small (small_of_nonneg positive.le), remainder]
  rfl

/-- Words that are not negative are divided. -/
theorem returns_nonneg (positive : 0 < denom.toInt) (nonneg : 0 ≤ num.toInt) :
    Returns num denom (num / denom) (num % denom) := by
  have size := small_of_nonneg positive.le
  have small := small_of_nonneg nonneg
  have nonzero : 0 < denom.toNat := by
    rw [toInt_of_small size] at positive
    omega
  have compares : ∀ left : Word, left.toNat ≤ num.toNat →
      denom.sle left = decide (denom.toNat ≤ left.toNat) := by
    intro left bound
    rw [BitVec.sle_eq_decide, toInt_of_small size, toInt_of_small (by omega)]
    exact decide_eq_decide.mpr Int.ofNat_le
  constructor
  · have ends : Ends (divRound BitVec.sle IdivReturn.mk denom) (num, 0) _ :=
      divLoop_ends nonzero compares
    rwa [zero_add] at ends
  · have ends : Ends (divRound BitVec.sle (fun q _ => q) denom) (num, 0) _ :=
      divLoop_ends nonzero compares
    rwa [zero_add] at ends

/-- The loops stop below the denominator. -/
theorem Returns.below {quot rem : Word} (returns : Returns num denom quot rem) :
    rem.toInt < denom.toInt := by
  have keeps : ∀ before after : Word × Word, True →
      divRound BitVec.sle IdivReturn.mk denom before = .inl after → True :=
    fun _ _ _ _ => trivial
  rcases Ends.invariant returns.1 keeps trivial with ⟨⟨num', q⟩, _, stops⟩
  rw [divRound] at stops
  split at stops
  · cases stops
  · rename_i below
    cases stops
    rw [BitVec.sle_eq_decide, decide_eq_true_eq] at below
    exact not_le.mp below

theorem Returns.unique {quot rem quot' rem' : Word} (first : Returns num denom quot rem)
    (second : Returns num denom quot' rem') : quot = quot' ∧ rem = rem' := by
  have same : (⟨quot, rem⟩ : IdivReturn) = ⟨quot', rem'⟩ := Ends.unique first.1 second.1
  cases same
  exact ⟨rfl, rfl⟩

theorem divides_nonneg (positive : 0 < denom.toInt) (nonneg : 0 ≤ num.toInt) :
    Divides num denom (num / denom) (num % denom) := by
  have remainder := toInt_umod positive nonneg
  have nonneg' := Int.emod_nonneg num.toInt positive.ne'
  have less := Int.emod_lt_of_pos num.toInt positive
  constructor
  · rw [toInt_udiv positive nonneg, Int.tdiv_eq_ediv_of_nonneg nonneg]
  · rw [toInt_udiv positive nonneg, remainder, Int.mul_comm]
    exact (Int.mul_ediv_add_emod _ _).symm
  · rw [remainder, abs_of_nonneg nonneg', abs_of_pos positive]
    exact less
  · rcases nonneg'.eq_or_lt with zero | above
    · left
      exact BitVec.eq_of_toInt_eq (by rw [remainder, ← zero]; rfl)
    · right
      have num_pos : 0 < num.toInt := by
        refine nonneg.lt_of_ne fun zero => ?_
        rw [← zero, Int.zero_emod] at above
        exact absurd above (lt_irrefl _)
      rw [remainder, Int.sign_eq_one_of_pos above, Int.sign_eq_one_of_pos num_pos]

theorem divides_below (below : num.toInt < denom.toInt) (above : -denom.toInt < num.toInt) :
    Divides num denom 0 num := by
  have small : |num.toInt| < denom.toInt := abs_lt.mpr ⟨above, below⟩
  have positive : 0 < denom.toInt := (abs_nonneg _).trans_lt small
  constructor
  · have quotient : (num.toInt.tdiv denom.toInt).natAbs = 0 := by
      rw [Int.natAbs_tdiv]
      exact Nat.div_eq_of_lt (by omega)
    rw [Int.natAbs_eq_zero.mp quotient]
    rfl
  · simp
  · rwa [abs_of_pos positive]
  · exact .inr rfl

/-- The helpers divide exactly if the denominator is positive and the numerator is above its
negation. -/
theorem idiv_iff (num denom : Word) :
    (∃ quot rem, Returns num denom quot rem ∧ Divides num denom quot rem) ↔
      0 < denom.toInt ∧ -denom.toInt < num.toInt := by
  constructor
  · rintro ⟨quot, rem, returns, divides⟩
    have below := returns.below
    have small := divides.small
    have positive : 0 < denom.toInt := by
      by_contra negative
      rw [abs_of_nonpos (by omega), abs_of_nonpos (by omega)] at small
      omega
    refine ⟨positive, ?_⟩
    by_contra far
    rcases returns.unique (returns_below (by omega)) with ⟨_, rfl⟩
    rw [abs_of_neg (by omega), abs_of_pos positive] at small
    omega
  · rintro ⟨positive, above⟩
    by_cases nonneg : 0 ≤ num.toInt
    · exact ⟨_, _, returns_nonneg positive nonneg, divides_nonneg positive nonneg⟩
    · exact ⟨_, _, returns_below (by omega), divides_below (by omega) above⟩

/-- -7 is not divided by 2. -/
theorem not_idiv : ¬ ∀ num denom : Word, denom ≠ 0 → ¬ (num = BitVec.intMin 32 ∧ denom = -1) →
    ∃ quot rem, Returns num denom quot rem ∧ Divides num denom quot rem := by
  intro divides
  have nonzero : (2 : Word) ≠ 0 := by decide
  have fits : ¬ ((-7 : Word) = BitVec.intMin 32 ∧ (2 : Word) = -1) := by decide
  rcases divides (-7) 2 nonzero fits with ⟨quot, rem, returns, divides⟩
  rcases returns.unique (returns_below (by decide)) with ⟨_, rfl⟩
  exact absurd divides.small (by decide)

end Signed

section Unsigned

variable {num denom : Word}

/-- The unsigned loops divide, whatever is done with the numbers behind them. -/
theorem unsignedLoop_ends {result : Type} {finish : Word → Word → result} (positive : 0 < denom) :
    Ends (divRound BitVec.ule finish denom) (num, 0) (finish (num / denom) (num % denom)) := by
  have ends : Ends (divRound BitVec.ule finish denom) (num, 0)
      (finish (0 + num / denom) (num % denom)) := by
    apply divLoop_ends
    · exact positive
    · intro left _
      exact BitVec.ule_eq_decide ..
  rwa [zero_add] at ends

/-- The helpers for unsigned words return, agree on the quotient, and divide. -/
theorem uidiv_divides (num denom : Word) (positive : 0 < denom) :
    ∃ quot rem, (∃ count, aeabiUidivmod num denom count = some ⟨quot, rem⟩) ∧
      (∃ count, aeabiUidiv num denom count = some quot) ∧
      num.toNat = quot.toNat * denom.toNat + rem.toNat ∧ rem < denom := by
  refine ⟨num / denom, num % denom, unsignedLoop_ends positive, unsignedLoop_ends positive, ?_, ?_⟩
  · rw [BitVec.toNat_udiv, BitVec.toNat_umod, Nat.div_add_mod']
  · exact BitVec.umod_lt num positive

/-- The greatest word is divided by 10. -/
theorem uidiv_divides_allOnes :
    ∃ quot rem, (∃ count, aeabiUidivmod 0xFFFFFFFF 10 count = some ⟨quot, rem⟩) ∧
      (∃ count, aeabiUidiv 0xFFFFFFFF 10 count = some quot) ∧
      (0xFFFFFFFF : Word).toNat = quot.toNat * (10 : Word).toNat + rem.toNat ∧ rem < 10 :=
  uidiv_divides 0xFFFFFFFF 10 (by decide)

end Unsigned

end BbbEth.Libc
