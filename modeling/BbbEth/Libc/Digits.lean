import BbbEth.Libc.Printf
import Mathlib.Data.Nat.Digits.Lemmas
import Mathlib.Data.Int.Bitwise

/-!
# The digits of `%x` and `%d`

A word that is not negative is shown by its numeral, and a negative one by fewer bytes.
-/

namespace BbbEth.Libc

section Divisions

theorem toInt_sdiv_ten (num : Word) : (num.sdiv 10).toInt = num.toInt.tdiv 10 := by
  have ten : (10 : Word).toInt = 10 := by decide
  have size : (num.toInt.tdiv 10).natAbs = num.toInt.natAbs / 10 := Int.natAbs_tdiv _ _
  have above := num.le_toInt
  have below := num.toInt_lt
  rw [BitVec.toInt_sdiv, ten]
  exact Int.bmod_eq_of_le (by omega) (by omega)

/-- The operators of C. -/
def operators : ByTen where
  quot num := num.sdiv 10
  rem num := num.srem 10
  quot_nonneg num nonneg := by
    rw [toInt_sdiv_ten, Int.tdiv_eq_ediv_of_nonneg nonneg]
  rem_nonneg num nonneg := by
    rw [BitVec.toInt_srem]
    exact Int.tmod_eq_emod_of_nonneg nonneg
  quot_le num := by
    rw [toInt_sdiv_ten, Int.natAbs_tdiv]
    rfl

/-- The helpers of `libc.c`. -/
def helpers : ByTen where
  quot num := if 0 ≤ num.toInt then num / 10 else 0
  rem num := if 0 ≤ num.toInt then num % 10 else num
  quot_nonneg num nonneg := by
    rw [if_pos nonneg, toInt_udiv (by decide) nonneg]
    rfl
  rem_nonneg num nonneg := by
    rw [if_pos nonneg, toInt_umod (by decide) nonneg]
    rfl
  quot_le num := by
    by_cases nonneg : 0 ≤ num.toInt
    · have ten : (10 : Word).toInt = 10 := by decide
      rw [if_pos nonneg, toInt_udiv (by decide) nonneg, ten]
      omega
    · rw [if_neg nonneg]
      exact Nat.zero_le _

theorem helpers_return (num : Word) : Returns num 10 (helpers.quot num) (helpers.rem num) := by
  have ten : (10 : Word).toInt = 10 := by decide
  by_cases nonneg : 0 ≤ num.toInt
  · have returns : Returns num 10 _ _ := returns_nonneg (by decide) nonneg
    have quot : helpers.quot num = num / 10 := if_pos nonneg
    have rem : helpers.rem num = num % 10 := if_pos nonneg
    rwa [← quot, ← rem] at returns
  · have returns : Returns num 10 _ _ := returns_below (by omega)
    have quot : helpers.quot num = 0 := if_neg nonneg
    have rem : helpers.rem num = num := if_neg nonneg
    rw [quot, rem]
    exact returns

end Divisions

section Hexadecimal

theorem toNat_low (word : Word) : (word &&& 0xf).toNat = word.toNat % 16 := by
  rw [BitVec.toNat_and]
  exact Nat.and_two_pow_sub_one_eq_mod word.toNat 4

theorem low_clear {position : Nat} (high : 4 ≤ position) :
    BitVec.getLsbD (0xf : Word) position = false := by
  have small : 15 < 2 ^ position :=
    calc 15 < 2 ^ 4 := by decide
      _ ≤ 2 ^ position := Nat.pow_le_pow_right (by decide) high
  change (BitVec.ofNat 32 15).getLsbD position = false
  rw [BitVec.getLsbD_ofNat, Nat.testBit_eq_false_of_lt small, Bool.and_false]

/-- The sign that is shifted in does not reach the low digit. -/
theorem nibble (num : Word) {place : Nat} (inside : place < 8) :
    num.sshiftRight (4 * place) &&& 0xf = BitVec.ofNat 32 (num.toNat / 16 ^ place % 16) := by
  have low : num.sshiftRight (4 * place) &&& 0xf = num.ushiftRight (4 * place) &&& 0xf := by
    apply BitVec.eq_of_getLsbD_eq
    intro position _
    rw [BitVec.getLsbD_and, BitVec.getLsbD_and]
    by_cases small : position < 4
    · rw [BitVec.getLsbD_sshiftRight, if_pos (by omega), decide_eq_false (by omega)]
      simp
    · rw [low_clear (by omega), Bool.and_false, Bool.and_false]
  apply BitVec.eq_of_toNat_eq
  have small := Nat.mod_lt (num.toNat / 16 ^ place) (by decide : 0 < 16)
  have power : (2 : Nat) ^ (4 * place) = 16 ^ place := by
    rw [Nat.pow_mul]
  rw [low, toNat_low, BitVec.toNat_ofNat, Nat.mod_eq_of_lt (b := 2 ^ 32) (by omega)]
  change num.toNat >>> (4 * place) % 16 = _
  rw [Nat.shiftRight_eq_div_pow, power]

/-- A digit from 10 on is a letter. -/
theorem hexDigit : ∀ digit < 16, (if (9 : Word).slt (BitVec.ofNat 32 digit)
    then BitVec.ofNat 32 digit + 0x37 else BitVec.ofNat 32 digit + 0x30).setWidth 8 =
      char digit.digitChar.toUpper := by
  decide

theorem hexFrom_eq (arg : Word) {count : Nat} (inside : count ≤ 8) :
    hexFrom arg count =
      (List.range count).reverse.map fun place =>
        char ((arg.toNat / 16 ^ place % 16).digitChar.toUpper) := by
  induction count with
  | zero => rfl
  | succ count inductionHypothesis =>
      rw [hexFrom, inductionHypothesis (by omega), List.range_succ, List.reverse_append,
        nibble arg (by omega), hexDigit _ (Nat.mod_lt _ (by decide))]
      rfl

theorem hexFrom_eight (arg : Word) : hexFrom arg 8 = hexadecimal arg :=
  hexFrom_eq arg le_rfl

end Hexadecimal

section Decimal

variable (byTen : ByTen) {position : Nat} {num : Word}

theorem decimalDigit : ∀ digit < 10,
    ((0x30 + BitVec.ofNat 32 digit : Word)).setWidth 8 = char digit.digitChar := by
  decide

theorem toDigits_ten {num : Nat} (large : 10 ≤ num) :
    Nat.toDigits 10 num = Nat.toDigits 10 (num / 10) ++ [(num % 10).digitChar] := by
  rw [Nat.toDigits_eq_if (by decide), if_neg (by omega)]

theorem toDigits_pos (num : Nat) : 1 ≤ (Nat.toDigits 10 num).length := Nat.length_toDigits_pos

theorem toDigits_mono {small large : Nat} (le : small ≤ large) :
    (Nat.toDigits 10 small).length ≤ (Nat.toDigits 10 large).length := by
  rw [Nat.length_toDigits_le_iff (by decide) (toDigits_pos large)]
  exact le.trans_lt ((Nat.length_toDigits_le_iff (by decide) (toDigits_pos large)).mp le_rfl)

theorem toInt_zero_iff (word : Word) : word = 0 ↔ word.toInt = 0 := by
  rw [← BitVec.toInt_inj]
  rfl

/-- The digit of a word that is not negative. -/
theorem digit_nonneg (nonneg : 0 ≤ num.toInt) :
    (0x30 + byTen.rem num).setWidth 8 = char (num.toInt.natAbs % 10).digitChar := by
  have same : byTen.rem num = BitVec.ofNat 32 (num.toInt.natAbs % 10) := by
    have value : (BitVec.ofNat 32 (num.toInt.natAbs % 10)).toNat = num.toInt.natAbs % 10 := by
      rw [BitVec.toNat_ofNat]
      omega
    have shown := toInt_of_small (show (BitVec.ofNat 32 (num.toInt.natAbs % 10)).toNat < 2 ^ 31 by
      omega)
    apply BitVec.eq_of_toInt_eq
    rw [byTen.rem_nonneg num nonneg, shown, value]
    omega
  rw [same]
  exact decimalDigit _ (Nat.mod_lt _ (by decide))

/-- A quotient that is not 0 is that of a number from 10 on. -/
theorem large_of_quot (more : byTen.quot num ≠ 0) : 10 ≤ num.toInt.natAbs := by
  have bound := byTen.quot_le num
  have nonzero := (toInt_zero_iff _).not.mp more
  omega

/-- The digits of a word fit, are not more than the numeral has, and are right if the word is not
negative. -/
theorem decimalFrom_ends (fits : num.toInt.natAbs < 10 ^ (position + 1)) (digits : List Byte) :
    ∃ shown, decimalFrom byTen (position + 1) num digits = some (shown ++ digits) ∧
      shown.length ≤ (Nat.toDigits 10 num.toInt.natAbs).length ∧
      (0 ≤ num.toInt → shown = (Nat.toDigits 10 num.toInt.natAbs).map char) := by
  induction position generalizing num digits with
  | zero =>
      have last : ¬ byTen.quot num ≠ 0 := fun more => by
        have large := large_of_quot byTen more
        omega
      refine ⟨[_], by rw [decimalFrom, if_neg last]; rfl, toDigits_pos _, fun nonneg => ?_⟩
      rw [Nat.toDigits_of_lt_base (by omega), digit_nonneg byTen nonneg,
        Nat.mod_eq_of_lt (by omega)]
      rfl
  | succ position inductionHypothesis =>
      have bound := byTen.quot_le num
      by_cases more : byTen.quot num ≠ 0
      · have large := large_of_quot byTen more
        have fewer : (byTen.quot num).toInt.natAbs < 10 ^ (position + 1) := by
          have power : 10 ^ (position + 1 + 1) = 10 ^ (position + 1) * 10 := pow_succ 10 _
          omega
        rcases inductionHypothesis fewer ((0x30 + byTen.rem num).setWidth 8 :: digits) with
          ⟨shown, ends, short, right⟩
        refine ⟨shown ++ [(0x30 + byTen.rem num).setWidth 8], ?_, ?_, fun nonneg => ?_⟩
        · rw [decimalFrom, if_pos more, ends, List.append_assoc]
          rfl
        · have monotone := toDigits_mono bound
          rw [toDigits_ten large, List.length_append, List.length_append]
          simp only [List.length_singleton]
          omega
        · have quotient := byTen.quot_nonneg num nonneg
          have same : (byTen.quot num).toInt.natAbs = num.toInt.natAbs / 10 := by omega
          rw [right (by omega), toDigits_ten large, digit_nonneg byTen nonneg, same,
            List.map_append]
          rfl
      · refine ⟨[_], by rw [decimalFrom, if_neg more]; rfl, toDigits_pos _, fun nonneg => ?_⟩
        have quotient := byTen.quot_nonneg num nonneg
        rw [not_not, toInt_zero_iff] at more
        rw [Nat.toDigits_of_lt_base (by omega), digit_nonneg byTen nonneg,
          Nat.mod_eq_of_lt (by omega)]
        rfl

/-- The digits of `%d`. -/
def digits (num : Word) : List Byte := (decimalFrom byTen 15 num []).getD []

theorem digits_spec (num : Word) : decimalFrom byTen 15 num [] = some (digits byTen num) ∧
    (digits byTen num).length ≤ (Nat.toDigits 10 num.toInt.natAbs).length ∧
    (0 ≤ num.toInt → digits byTen num = (Nat.toDigits 10 num.toInt.natAbs).map char) := by
  have above := num.le_toInt
  have below := num.toInt_lt
  have fits : num.toInt.natAbs < 10 ^ (14 + 1) := by omega
  rcases decimalFrom_ends byTen fits [] with ⟨shown, ends, short, right⟩
  rw [digits, ends, Option.getD_some, List.append_nil]
  exact ⟨rfl, short, right⟩

/-- The digits fit the buffer. -/
theorem decimalFrom_eq (num : Word) : decimalFrom byTen 15 num [] = some (digits byTen num) :=
  (digits_spec byTen num).1

theorem digits_nonneg (nonneg : 0 ≤ num.toInt) : digits byTen num = numeral num.toInt := by
  rw [(digits_spec byTen num).2.2 nonneg, numeral, if_neg (by omega)]
  rfl

/-- No room is taken for a sign. -/
theorem digits_negative (negative : num.toInt < 0) :
    (digits byTen num).length < (numeral num.toInt).length := by
  have short := (digits_spec byTen num).2.1
  rw [numeral, if_pos negative, List.length_append, List.length_map]
  exact Nat.lt_of_le_of_lt short (Nat.lt_add_of_pos_left (by decide))

end Decimal

end BbbEth.Libc
