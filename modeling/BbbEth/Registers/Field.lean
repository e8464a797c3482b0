import Mathlib.Data.BitVec

/-!
# Fields of words

A field is a range of bits.  A word that is put together by `|||` has in a field what its parts
have there.
-/

namespace BbbEth.Registers

/-- A range of bits. -/
structure Field where
  offset : Nat
  size : Nat
  deriving DecidableEq, Repr

namespace Field

variable {width : Nat} {field : Field} {word other value : BitVec width}

/-- What a word has in a field. -/
def get (field : Field) (word : BitVec width) : BitVec field.size :=
  word.extractLsb' field.offset field.size

/-- The bits of a field. -/
def Covers (field : Field) (index : Nat) : Prop :=
  field.offset ≤ index ∧ index < field.offset + field.size

instance (field : Field) (index : Nat) : Decidable (field.Covers index) :=
  inferInstanceAs (Decidable (_ ∧ _))

theorem getLsbD_get {index : Nat} (inside : index < field.size) :
    (field.get word).getLsbD index = word.getLsbD (field.offset + index) := by
  rw [get, BitVec.getLsbD_extractLsb', decide_eq_true inside, Bool.true_and]

@[simp] theorem get_or : field.get (word ||| other) = field.get word ||| field.get other :=
  BitVec.extractLsb'_or

@[simp] theorem get_and : field.get (word &&& other) = field.get word &&& field.get other :=
  BitVec.extractLsb'_and

theorem get_or_left (zero : field.get other = 0) :
    field.get (word ||| other) = field.get word := by
  rw [get_or, zero]
  exact BitVec.or_zero

theorem get_or_right (zero : field.get word = 0) :
    field.get (word ||| other) = field.get other := by
  rw [get_or, zero]
  exact BitVec.zero_or

/-- A field depends on its bits. -/
theorem get_congr
    (agree : ∀ index, field.Covers index → word.getLsbD index = other.getLsbD index) :
    field.get word = field.get other := by
  apply BitVec.eq_of_getLsbD_eq
  intro index inside
  rw [getLsbD_get inside, getLsbD_get inside]
  exact agree _ ⟨by omega, by omega⟩

/-- A word without bits in a field. -/
theorem get_eq_zero (clear : ∀ index, field.Covers index → word.getLsbD index = false) :
    field.get word = 0 := by
  apply BitVec.eq_of_getLsbD_eq
  intro index inside
  rw [getLsbD_get inside, clear _ ⟨by omega, by omega⟩]
  exact BitVec.getLsbD_zero.symm

/-- A value that is shifted to a field. -/
theorem get_shift (fits : field.offset + field.size ≤ width) :
    field.get (value <<< field.offset) = value.setWidth field.size := by
  apply BitVec.eq_of_getLsbD_eq
  intro index inside
  rw [getLsbD_get inside, BitVec.getLsbD_shiftLeft, BitVec.getLsbD_setWidth,
    decide_eq_true (by omega), decide_eq_false (by omega), decide_eq_true inside]
  simp

theorem get_not (fits : field.offset + field.size ≤ width) :
    field.get (~~~word) = ~~~field.get word := by
  apply BitVec.eq_of_getLsbD_eq
  intro index inside
  rw [getLsbD_get inside, BitVec.getLsbD_not, BitVec.getLsbD_not, getLsbD_get inside,
    decide_eq_true (by omega), decide_eq_true inside]

/-- A field that is cleared with its mask and is set to a shifted value. -/
theorem get_replace {mask : BitVec width} (fits : field.offset + field.size ≤ width)
    (ones : field.get mask = BitVec.allOnes field.size) :
    field.get ((word &&& ~~~mask) ||| value <<< field.offset) = value.setWidth field.size := by
  rw [get_or, get_and, get_not fits, ones, BitVec.not_allOnes, get_shift fits]
  exact (congrArg (· ||| _) BitVec.and_zero).trans BitVec.zero_or

/-- A small value that is shifted has no bits above. -/
theorem getLsbD_shift {offset size index : Nat} (small : value.toNat < 2 ^ size)
    (above : offset + size ≤ index) : (value <<< offset).getLsbD index = false := by
  have clear : value.getLsbD (index - offset) = false := by
    rw [← BitVec.testBit_toNat]
    exact Nat.testBit_lt_two_pow
      (small.trans_le (Nat.pow_le_pow_right (by decide) (by omega)))
  rw [BitVec.getLsbD_shiftLeft, clear, Bool.and_false]

/-- A value that fits is what the field of the shifted value has. -/
theorem toNat_get_shift (fits : field.offset + field.size ≤ width)
    (small : value.toNat < 2 ^ field.size) :
    (field.get (value <<< field.offset)).toNat = value.toNat := by
  rw [get_shift fits, BitVec.toNat_setWidth, Nat.mod_eq_of_lt small]

theorem toNat_get : (field.get word).toNat = word.toNat / 2 ^ field.offset % 2 ^ field.size := by
  rw [get, BitVec.extractLsb'_toNat, Nat.shiftRight_eq_div_pow]

/-- A word that is masked and shifted down is what the word has in the field of the mask. -/
theorem toNat_masked (field : Field) (word mask : BitVec width)
    (ones : mask >>> field.offset = BitVec.ofNat width (2 ^ field.size - 1))
    (fits : field.size ≤ width) :
    ((word &&& mask) >>> field.offset).toNat = (field.get word).toNat := by
  have small : 2 ^ field.size - 1 < 2 ^ width :=
    (Nat.sub_lt (Nat.two_pow_pos _) one_pos).trans_le (Nat.pow_le_pow_right (by decide) fits)
  rw [BitVec.ushiftRight_and_distrib, ones, BitVec.toNat_and, BitVec.toNat_ofNat,
    Nat.mod_eq_of_lt small, Nat.and_two_pow_sub_one_eq_mod, BitVec.toNat_ushiftRight,
    Nat.shiftRight_eq_div_pow, toNat_get]

/-- A field that is put together from the low bits of one word and all of another. -/
theorem toNat_joined (high mask low : BitVec width) (size shift : Nat)
    (ones : mask = BitVec.ofNat width (2 ^ size - 1)) (fits : size + shift ≤ width)
    (small : low.toNat < 2 ^ shift) :
    (((high &&& mask) <<< shift) ||| low).toNat =
      high.toNat % 2 ^ size * 2 ^ shift + low.toNat := by
  have mask' : 2 ^ size - 1 < 2 ^ width :=
    (Nat.sub_lt (Nat.two_pow_pos _) one_pos).trans_le (Nat.pow_le_pow_right (by decide) (by omega))
  have shifted : high.toNat % 2 ^ size * 2 ^ shift < 2 ^ width := by
    calc high.toNat % 2 ^ size * 2 ^ shift
      _ < 2 ^ size * 2 ^ shift :=
        Nat.mul_lt_mul_of_pos_right (Nat.mod_lt _ (Nat.two_pow_pos _)) (Nat.two_pow_pos _)
      _ = 2 ^ (size + shift) := (Nat.pow_add ..).symm
      _ ≤ 2 ^ width := Nat.pow_le_pow_right (by decide) fits
  rw [BitVec.toNat_or, BitVec.toNat_shiftLeft, BitVec.toNat_and, ones, BitVec.toNat_ofNat,
    Nat.mod_eq_of_lt mask', Nat.and_two_pow_sub_one_eq_mod, Nat.shiftLeft_eq,
    Nat.mod_eq_of_lt shifted, ← Nat.shiftLeft_eq, Nat.shiftLeft_add_eq_or_of_lt small]

/-! ## Bits of a field that is set -/

/-- A word has the bits of a field, and no others. -/
def IsMask (field : Field) (mask : BitVec width) : Prop :=
  ∀ index < width, mask.getLsbD index = decide (field.Covers index)

instance (field : Field) (mask : BitVec width) : Decidable (field.IsMask mask) :=
  inferInstanceAs (Decidable (∀ index < width, _))

/-- A field of a word is what its bits are. -/
theorem get_eq_iff {part : BitVec field.size} : field.get word = part ↔
    ∀ index, field.Covers index → word.getLsbD index = part.getLsbD (index - field.offset) := by
  constructor
  · rintro rfl index ⟨least, less⟩
    rw [getLsbD_get (by omega), Nat.add_sub_cancel' least]
  · intro agree
    apply BitVec.eq_of_getLsbD_eq
    intro index inside
    rw [getLsbD_get inside, agree _ ⟨by omega, by omega⟩, Nat.add_sub_cancel_left]

/-- A small value that is shifted to a field has its bits there. -/
theorem getLsbD_shifted {index : Nat} (small : value.toNat < 2 ^ field.size)
    (inside : index < width) : (value <<< field.offset).getLsbD index =
      (decide (field.Covers index) && value.getLsbD (index - field.offset)) := by
  by_cases above : field.offset + field.size ≤ index
  · have outside : ¬ field.Covers index := fun covers => absurd covers.2 (by omega)
    rw [getLsbD_shift small above, decide_eq_false outside, Bool.false_and]
  · have covers : field.Covers index ↔ ¬ index < field.offset :=
      ⟨fun covers => not_lt.mpr covers.1, fun least => ⟨not_lt.mp least, by omega⟩⟩
    rw [BitVec.getLsbD_shiftLeft, decide_eq_true inside, Bool.true_and, decide_eq_decide.mpr covers,
      decide_not]

/-- A field that is cleared and is set. -/
theorem getLsbD_replace {mask : BitVec width} {index : Nat} (isMask : field.IsMask mask)
    (small : value.toNat < 2 ^ field.size) (inside : index < width) :
    ((word &&& ~~~mask) ||| value <<< field.offset).getLsbD index =
      if field.Covers index then value.getLsbD (index - field.offset) else word.getLsbD index := by
  rw [BitVec.getLsbD_or, BitVec.getLsbD_and, BitVec.getLsbD_not, isMask index inside,
    getLsbD_shifted small inside, decide_eq_true inside]
  split
  · rename_i covers
    simp [covers]
  · rename_i outside
    simp [outside]

/-! ## Words with bits in one field -/

/-- A word that has bits in a field only. -/
def Holds (field : Field) (word : BitVec width) : Prop :=
  ∀ index < width, ¬ field.Covers index → word.getLsbD index = false

instance (field : Field) (word : BitVec width) : Decidable (field.Holds word) :=
  inferInstanceAs (Decidable (∀ index < width, _))

/-- Two fields without a common bit. -/
def Apart (first second : Field) : Prop :=
  first.offset + first.size ≤ second.offset ∨ second.offset + second.size ≤ first.offset

instance (first second : Field) : Decidable (first.Apart second) :=
  inferInstanceAs (Decidable (_ ∨ _))

theorem Holds.clear (holds : field.Holds word) {index : Nat} (outside : ¬ field.Covers index) :
    word.getLsbD index = false := by
  by_cases inside : index < width
  · exact holds index inside outside
  · exact BitVec.getLsbD_of_ge _ _ (not_lt.mp inside)

theorem Holds.get {second : Field} (holds : second.Holds word) (apart : field.Apart second) :
    field.get word = 0 := by
  apply get_eq_zero
  intro index covers
  apply holds.clear
  rintro ⟨least, less⟩
  rcases covers with ⟨least', less'⟩
  rcases apart with below | above
  · omega
  · omega

theorem holds_shift {offset size : Nat} (small : value.toNat < 2 ^ size) :
    Holds ⟨offset, size⟩ (value <<< offset) := by
  intro index inside outside
  by_cases below : index < offset
  · rw [BitVec.getLsbD_shiftLeft, decide_eq_true below]
    simp
  · apply getLsbD_shift small
    by_contra less
    exact outside ⟨not_lt.mp below, not_le.mp less⟩

end Field

end BbbEth.Registers
