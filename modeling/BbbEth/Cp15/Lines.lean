import BbbEth.Coherence.Cache
import BbbEth.Loops.Loop
import Mathlib.Data.BitVec

/-!
# The lines of a buffer

The two routines of `cp15.s` that walk through the lines of a buffer, with the registers of the
processor.  The Cache Type Register gives the line size, which is a power of two from 4 on.
-/

namespace BbbEth.Cp15

open BbbEth.Coherence BbbEth.Loops

abbrev Word := BitVec 32

/-- An operation on the line of an address. -/
structure Issue where
  operation : Maintenance
  address : Word
  deriving DecidableEq

/-- The line size, from the field DMinLine of the Cache Type Register. -/
def lineSize (ctr : Word) : Word :=
  let r2 := ctr >>> 16 &&& 0xF
  let r3 := 2 + r2
  (1 : Word) <<< r3

/-- `bic`. -/
def bic (value mask : Word) : Word := value &&& ~~~ mask

/-- `mcrne`, with the flag of the last `tst`. -/
def mcrne (notZero : Bool) (issue : Issue) (issued : List Issue) : List Issue :=
  if notZero then issued ++ [issue] else issued

/-- One round of `cleanloop`, which tests at its end. -/
def cleanLoop (r2 r14 : Word) (carried : Word × List Issue) : (Word × List Issue) ⊕ List Issue :=
  let issued := carried.2 ++ [⟨.clean, carried.1⟩]
  let r0 := carried.1 + r2
  if r0.slt r14 then .inl (r0, issued) else .inr issued

/-- `CP15DCacheCleanBuff`, for a number of rounds of its loop. -/
def cp15DCacheCleanBuff (ctr r0 r1 : Word) (rounds : Nat) : Option (List Issue) :=
  let r14 := r0 + r1
  let r2 := lineSize ctr
  let r3 := r2 - 1
  let r0 := bic r0 r3
  let ne := r3 &&& r14 != 0
  let r14 := bic r14 r3
  let issued := mcrne ne ⟨.clean, r14⟩ []
  run (cleanLoop r2 r14) rounds (r0, issued)

/-- One round of `dflushloop` behind `dflushcmp`, which tests at its start. -/
def dflushLoop (r2 r14 : Word) (carried : Word × List Issue) : (Word × List Issue) ⊕ List Issue :=
  if carried.1.slt r14 then
    .inl (carried.1 + r2, carried.2 ++ [⟨.invalidate, carried.1⟩])
  else
    .inr carried.2

/-- `CP15DCacheFlushBuff`, for a number of rounds of its loop. -/
def cp15DCacheFlushBuff (ctr r0 r1 : Word) (rounds : Nat) : Option (List Issue) :=
  let r14 := r0 + r1
  let r2 := lineSize ctr
  let r3 := r2 - 1
  let ne := r3 &&& r0 != 0
  let r0 := bic r0 r3
  let issued := mcrne ne ⟨.cleanInvalidate, r0⟩ []
  let r0 := if ne then r0 + r2 else r0
  let ne := r3 &&& r14 != 0
  let r14 := bic r14 r3
  let issued := mcrne ne ⟨.cleanInvalidate, r14⟩ issued
  run (dflushLoop r2 r14) rounds (r0, issued)

/-! ## Lines -/

/-- The line that an operation is on. -/
def Issue.line (size : Nat) (issue : Issue) : Nat := issue.address.toNat / size

/-- A buffer. -/
structure Buffer where
  start : Word
  length : Word

namespace Buffer

variable (buffer : Buffer)

/-- An address of the buffer. -/
def Has (address : Nat) : Prop :=
  buffer.start.toNat ≤ address ∧ address < buffer.start.toNat + buffer.length.toNat

/-- A buffer of the external memory that is not empty. -/
structure InDdr : Prop where
  positive : 1 ≤ buffer.length.toNat
  above : 0x80000000 ≤ buffer.start.toNat
  below : buffer.start.toNat + buffer.length.toNat ≤ 0xA0000000

/-- The line has a byte of the buffer. -/
def Intersects (size line : Nat) : Prop := ∃ address, buffer.Has address ∧ address / size = line

/-- The buffer has every byte of the line. -/
def Contains (size line : Nat) : Prop := ∀ address, address / size = line → buffer.Has address

/-- Every line of the buffer is cleaned. -/
def Cleaned (size : Nat) (issued : List Issue) : Prop :=
  ∀ line, buffer.Intersects size line →
    ∃ issue ∈ issued, issue.line size = line ∧ issue.operation = .clean

/-- The lines of the buffer are invalidated, those that have other bytes too behind a write to the
memory. -/
structure Flushed (size : Nat) (issued : List Issue) : Prop where
  every : ∀ line, buffer.Intersects size line →
    ∃ issue ∈ issued, issue.line size = line ∧
      (issue.operation = .invalidate ∨ issue.operation = .cleanInvalidate)
  inside : ∀ issue ∈ issued, issue.operation = .invalidate →
    buffer.Contains size (issue.line size)
  only : ∀ issue ∈ issued, buffer.Intersects size (issue.line size)

/-- The first line that begins in the buffer. -/
def first (size : Nat) : Nat :=
  if buffer.start.toNat % size ≠ 0 then buffer.start.toNat / size + 1
  else buffer.start.toNat / size

variable {buffer} {size line : Nat}

theorem le_first : buffer.start.toNat / size ≤ buffer.first size := by
  unfold first
  split <;> omega

/-- Only a line that the buffer begins within is before the first one. -/
theorem before_first (least : buffer.start.toNat / size ≤ line) (less : line < buffer.first size) :
    buffer.start.toNat % size ≠ 0 ∧ line = buffer.start.toNat / size := by
  unfold first at less
  split at less
  · next partly => exact ⟨partly, by omega⟩
  · omega

end Buffer

/-! ## The arithmetic of lines -/

/-- A line size of the register. -/
structure IsLineSize (size : Word) (bits : Nat) : Prop where
  least : 2 ≤ bits
  most : bits ≤ 17
  value : size.toNat = 2 ^ bits

/-- The register has the numbers 0 to 15 for the sizes. -/
theorem isLineSize (ctr : Word) : ∃ bits, IsLineSize (lineSize ctr) bits := by
  have field : (ctr >>> 16 &&& 0xF).toNat ≤ 15 := by
    rw [BitVec.toNat_and]
    exact Nat.and_le_right
  have two : (2 : Word).toNat = 2 := rfl
  have one : (1 : Word).toNat = 1 := rfl
  have shift : ((2 : Word) + (ctr >>> 16 &&& 0xF)).toNat = 2 + (ctr >>> 16 &&& 0xF).toNat := by
    rw [BitVec.toNat_add, two]
    exact Nat.mod_eq_of_lt (by omega)
  refine ⟨2 + (ctr >>> 16 &&& 0xF).toNat, by omega, by omega, ?_⟩
  have small : 2 ^ (2 + (ctr >>> 16 &&& 0xF).toNat) < 2 ^ 32 :=
    Nat.pow_lt_pow_right (by decide) (by omega)
  rw [lineSize, BitVec.shiftLeft_eq', BitVec.toNat_shiftLeft, shift, one, Nat.one_shiftLeft,
    Nat.mod_eq_of_lt small]

namespace IsLineSize

variable {size value : Word} {bits : Nat} (is : IsLineSize size bits)
include is

theorem pos : 0 < size.toNat := by
  rw [is.value]
  exact Nat.two_pow_pos _

theorem small : size.toNat ≤ 2 ^ 17 := by
  rw [is.value]
  exact Nat.pow_le_pow_right (by decide) is.most

theorem mask : (size - 1).toNat = 2 ^ bits - 1 := by
  have one : (1 : Word).toNat = 1 := rfl
  have small := is.small
  have pos := is.pos
  rw [BitVec.toNat_sub, one, ← is.value]
  omega

theorem tst : (size - 1 &&& value != 0) = decide (value.toNat % size.toNat ≠ 0) := by
  have low : (size - 1 &&& value).toNat = value.toNat % size.toNat := by
    rw [BitVec.toNat_and, is.mask, is.value, Nat.and_comm, Nat.and_two_pow_sub_one_eq_mod]
  rw [bne, Bool.beq_eq_decide_eq, ← decide_not, ← low]
  exact decide_eq_decide.mpr (not_congr BitVec.toNat_inj.symm)

theorem toNat_bic (value : Word) :
    (bic value (size - 1)).toNat = value.toNat / size.toNat * size.toNat := by
  have shifted : bic value (size - 1) = value >>> bits <<< bits := by
    apply BitVec.eq_of_getLsbD_eq
    intro i inside
    have masked : (size - 1).getLsbD i = decide (i < bits) := by
      rw [← BitVec.testBit_toNat, is.mask, Nat.testBit_two_pow_sub_one]
    rw [bic, BitVec.getLsbD_and, BitVec.getLsbD_not, masked, BitVec.getLsbD_shiftLeft,
      BitVec.getLsbD_ushiftRight, decide_eq_true inside]
    by_cases below : i < bits
    · rw [decide_eq_true below, Bool.not_true, Bool.and_false, Bool.and_false,
        Bool.false_and]
    · rw [decide_eq_false below, Nat.add_sub_cancel' (Nat.not_lt.mp below), Bool.not_false,
        Bool.and_true, Bool.and_true, Bool.true_and]
  have least : value.toNat / 2 ^ bits * 2 ^ bits < 2 ^ 32 :=
    (Nat.div_mul_le_self ..).trans_lt value.isLt
  rw [shifted, BitVec.toNat_shiftLeft, BitVec.toNat_ushiftRight, Nat.shiftRight_eq_div_pow,
    Nat.shiftLeft_eq, Nat.mod_eq_of_lt least, is.value]

end IsLineSize

/-- The external memory is where addresses are negative. -/
theorem slt_eq {first second : Word} (above : 2 ^ 31 ≤ first.toNat)
    (above' : 2 ^ 31 ≤ second.toNat) :
    first.slt second = decide (first.toNat < second.toNat) := by
  have value : first.toInt = first.toNat - 2 ^ 32 := by
    rw [BitVec.toInt_eq_toNat_cond, if_neg (by omega)]
    rfl
  have value' : second.toInt = second.toNat - 2 ^ 32 := by
    rw [BitVec.toInt_eq_toNat_cond, if_neg (by omega)]
    rfl
  rw [BitVec.slt, value, value']
  exact decide_eq_decide.mpr (by omega)

/-! ## The loops -/

section Loops

variable {size r0 r14 : Word} {bits first last : Nat} {issued : List Issue}

/-- A loop that goes over the lines between two others, beside what is issued before. -/
def Walks (size : Word) (operation : Maintenance) (first last : Nat) (issued out : List Issue) :
    Prop :=
  ∀ issue, issue ∈ out ↔ issue ∈ issued ∨ issue.operation = operation ∧
    ∃ line, first ≤ line ∧ line < last ∧ issue.address.toNat = line * size.toNat

theorem Walks.refl {operation : Maintenance} (none : last ≤ first) :
    Walks size operation first last issued issued := by
  intro issue
  constructor
  · exact .inl
  · rintro (member | ⟨_, line, least, less, _⟩)
    · exact member
    · omega

theorem Walks.step {operation : Maintenance} {out : List Issue} (some : first < last)
    (here : r0.toNat = first * size.toNat)
    (walks : Walks size operation (first + 1) last (issued ++ [⟨operation, r0⟩]) out) :
    Walks size operation first last issued out := by
  intro issue
  rw [walks issue, List.mem_append, List.mem_singleton]
  constructor
  · rintro ((member | rfl) | ⟨same, line, least, less, at'⟩)
    · exact .inl member
    · exact .inr ⟨rfl, first, le_rfl, some, here⟩
    · exact .inr ⟨same, line, by omega, less, at'⟩
  · rintro (member | ⟨same, line, least, less, at'⟩)
    · exact .inl (.inl member)
    · rcases Nat.eq_or_lt_of_le least with rfl | later
      · have address : issue.address = r0 := BitVec.eq_of_toNat_eq (at'.trans here.symm)
        refine .inl (.inr ?_)
        cases issue
        rw [← same, ← address]
      · exact .inr ⟨same, line, later, less, at'⟩

variable (is : IsLineSize size bits) (below : last * size.toNat ≤ 0xA0000000)
  (finish : r14.toNat = last * size.toNat)
include is below finish

/-- The next line of the memory. -/
theorem IsLineSize.next (inside : first ≤ last) (here : r0.toNat = first * size.toNat) :
    (r0 + size).toNat = (first + 1) * size.toNat := by
  have small := is.small
  have scaled := Nat.mul_le_mul_right size.toNat inside
  rw [BitVec.toNat_add, here, Nat.add_mul, Nat.one_mul]
  exact Nat.mod_eq_of_lt (by omega)

/-- The next line is compared with the end. -/
theorem IsLineSize.compare (above : 2 ^ 31 ≤ first * size.toNat)
    (above' : 2 ^ 31 ≤ last * size.toNat) (inside : first ≤ last)
    (here : r0.toNat = first * size.toNat) :
    (r0 + size).slt r14 = decide (first + 1 < last) := by
  have there := is.next below finish inside here
  have further : 2 ^ 31 ≤ (first + 1) * size.toNat := by
    rw [Nat.add_mul]
    omega
  rw [slt_eq (there ▸ further) (finish ▸ above'), there, finish]
  exact decide_eq_decide.mpr (Nat.mul_lt_mul_right is.pos)

theorem dflushLoop_ends (issued : List Issue) (above : 2 ^ 31 ≤ first * size.toNat)
    (above' : 2 ^ 31 ≤ last * size.toNat) (here : r0.toNat = first * size.toNat) :
    ∃ out, Ends (dflushLoop size r14) (r0, issued) out ∧
      Walks size .invalidate first last issued out := by
  have compare : r0.slt r14 = decide (first < last) := by
    rw [slt_eq (here ▸ above) (finish ▸ above'), here, finish]
    exact decide_eq_decide.mpr (Nat.mul_lt_mul_right is.pos)
  induction distance : last - first generalizing first r0 issued with
  | zero =>
      have none : ¬ first < last := by omega
      refine ⟨issued, .last ?_, .refl (Nat.not_lt.mp none)⟩
      rw [dflushLoop, compare, decide_eq_false none]
      rfl
  | succ distance inductionHypothesis =>
      have some : first < last := by omega
      have there := is.next below finish some.le here
      have compare' := is.compare below finish above above' some.le here
      have further : 2 ^ 31 ≤ (first + 1) * size.toNat := by
        rw [Nat.add_mul]
        omega
      rcases inductionHypothesis _ further there compare' (by omega) with ⟨out, ends, walks⟩
      refine ⟨out, .next ?_ ends, walks.step some here⟩
      rw [dflushLoop, compare, decide_eq_true some]
      rfl

/-- The loop that tests at its end goes over one line at least. -/
theorem cleanLoop_ends (issued : List Issue) (above : 2 ^ 31 ≤ first * size.toNat)
    (above' : 2 ^ 31 ≤ last * size.toNat) (inside : first ≤ last)
    (here : r0.toNat = first * size.toNat) :
    ∃ out, Ends (cleanLoop size r14) (r0, issued) out ∧
      Walks size .clean first (max (first + 1) last) issued out := by
  induction distance : last - (first + 1) generalizing first r0 issued with
  | zero =>
      have none : ¬ first + 1 < last := by omega
      have compare := is.compare below finish above above' inside here
      refine ⟨issued ++ [⟨.clean, r0⟩], .last ?_, ?_⟩
      · simp only [cleanLoop, compare, decide_eq_false none]
        rfl
      · rw [Nat.max_eq_left (Nat.not_lt.mp none)]
        exact Walks.step (Nat.lt_succ_self _) here (.refl le_rfl)
  | succ distance inductionHypothesis =>
      have some : first + 1 < last := by omega
      have compare := is.compare below finish above above' inside here
      have there := is.next below finish inside here
      have further : 2 ^ 31 ≤ (first + 1) * size.toNat := by
        rw [Nat.add_mul]
        omega
      rcases inductionHypothesis _ further some.le there (by omega) with ⟨out, ends, walks⟩
      rw [Nat.max_eq_right some] at walks
      refine ⟨out, .next ?_ ends, ?_⟩
      · simp only [cleanLoop, compare, decide_eq_true some]
        rfl
      · rw [Nat.max_eq_right some.le]
        exact walks.step (by omega) here

end Loops

/-! ## The lines of a buffer -/

namespace Buffer

variable {buffer : Buffer} (inDdr : buffer.InDdr)
include inDdr

/-- The end of a buffer does not overflow. -/
theorem InDdr.end_eq :
    (buffer.start + buffer.length).toNat = buffer.start.toNat + buffer.length.toNat := by
  have below := inDdr.below
  rw [BitVec.toNat_add]
  exact Nat.mod_eq_of_lt (by omega)

variable {size line : Nat} (pos : 0 < size)
include pos

theorem InDdr.intersects_iff : buffer.Intersects size line ↔
    buffer.start.toNat < line * size + size ∧
      line * size < buffer.start.toNat + buffer.length.toNat := by
  have positive := inDdr.positive
  constructor
  · rintro ⟨address, ⟨least, less⟩, rfl⟩
    have lower := Nat.div_mul_le_self address size
    have upper := Nat.lt_div_mul_add pos (a := address)
    exact ⟨by omega, by omega⟩
  · rintro ⟨lower, upper⟩
    by_cases within : buffer.start.toNat ≤ line * size
    · exact ⟨line * size, ⟨within, upper⟩, Nat.mul_div_cancel _ pos⟩
    · refine ⟨buffer.start.toNat, ⟨le_rfl, by omega⟩, ?_⟩
      apply Nat.div_eq_of_lt_le
      · exact (Nat.not_le.mp within).le
      · rw [Nat.add_mul, Nat.one_mul]
        exact lower

omit inDdr in
theorem contains_of (lower : buffer.start.toNat ≤ line * size)
    (upper : line * size + size ≤ buffer.start.toNat + buffer.length.toNat) :
    buffer.Contains size line := by
  rintro address rfl
  have lower' := Nat.div_mul_le_self address size
  have upper' := Nat.lt_div_mul_add pos (a := address)
  exact ⟨by omega, by omega⟩

/-- The lines of a buffer are those between its ends, and the last one if the end is within it. -/
theorem InDdr.intersects_iff_line : buffer.Intersects size line ↔
    buffer.start.toNat / size ≤ line ∧
      (line < (buffer.start.toNat + buffer.length.toNat) / size ∨
        line = (buffer.start.toNat + buffer.length.toNat) / size ∧
          (buffer.start.toNat + buffer.length.toNat) % size ≠ 0) := by
  have positive := inDdr.positive
  have split := Nat.div_add_mod' (buffer.start.toNat + buffer.length.toNat) size
  have upper := Nat.lt_div_mul_add pos (a := buffer.start.toNat + buffer.length.toNat)
  have least : buffer.start.toNat / size ≤ line ↔ buffer.start.toNat < line * size + size := by
    rw [← Nat.lt_succ_iff, Nat.div_lt_iff_lt_mul pos, Nat.succ_mul]
  rw [inDdr.intersects_iff pos, ← least]
  refine and_congr_right fun _ => ⟨fun less => ?_, ?_⟩
  · have most : line ≤ (buffer.start.toNat + buffer.length.toNat) / size :=
      (Nat.le_div_iff_mul_le pos).mpr less.le
    rcases Nat.lt_or_eq_of_le most with inside | rfl
    · exact .inl inside
    · exact .inr ⟨rfl, by omega⟩
  · rintro (inside | ⟨rfl, partly⟩)
    · have scaled := Nat.mul_le_mul_right size (Nat.succ_le_of_lt inside)
      rw [Nat.succ_mul] at scaled
      omega
    · omega

omit inDdr in
/-- The buffer starts at its first line or within the line before. -/
theorem start_le : buffer.start.toNat ≤ buffer.first size * size := by
  have split := Nat.div_add_mod' buffer.start.toNat size
  have upper := Nat.lt_div_mul_add pos (a := buffer.start.toNat)
  unfold first
  by_cases partly : buffer.start.toNat % size ≠ 0
  · rw [if_pos partly, Nat.add_mul, Nat.one_mul]
    omega
  · rw [if_neg partly]
    omega

omit inDdr in
/-- The lines from the first one to the end are inside. -/
theorem contains_between (least : buffer.first size ≤ line)
    (less : line < (buffer.start.toNat + buffer.length.toNat) / size) :
    buffer.Contains size line := by
  have base := Nat.mul_le_mul_right size least
  have next := Nat.mul_le_mul_right size (Nat.succ_le_of_lt less)
  have lower := Nat.div_mul_le_self (buffer.start.toNat + buffer.length.toNat) size
  have start : buffer.start.toNat ≤ buffer.first size * size := start_le pos
  rw [Nat.succ_mul] at next
  exact contains_of pos (by omega) (by omega)

end Buffer

section Coverage

variable {size : Word} {bits : Nat} (is : IsLineSize size bits)
include is

theorem IsLineSize.above {address : Nat} (above : 2 ^ 31 ≤ address) :
    2 ^ 31 ≤ address / size.toNat * size.toNat := by
  have divides : size.toNat ∣ 2 ^ 31 := by
    rw [is.value]
    exact Nat.pow_dvd_pow 2 (is.most.trans (by decide))
  calc 2 ^ 31
    _ = 2 ^ 31 / size.toNat * size.toNat := (Nat.div_mul_cancel divides).symm
    _ ≤ address / size.toNat * size.toNat :=
      Nat.mul_le_mul_right _ (Nat.div_le_div_right above)

theorem IsLineSize.line {issue : Issue} {line : Nat}
    (at' : issue.address.toNat = line * size.toNat) : issue.line size.toNat = line := by
  rw [Issue.line, at', Nat.mul_div_cancel _ is.pos]

/-- An operation on each line that a loop goes over. -/
theorem IsLineSize.walked {operation : Maintenance} {first last line : Nat}
    {issued out : List Issue} (walks : Walks size operation first last issued out)
    (least : first ≤ line) (less : line < last) (below : line * size.toNat < 2 ^ 32) :
    ∃ issue ∈ out, issue.line size.toNat = line ∧ issue.operation = operation := by
  have address : (BitVec.ofNat 32 (line * size.toNat)).toNat = line * size.toNat := by
    rw [BitVec.toNat_ofNat, Nat.mod_eq_of_lt below]
  exact ⟨⟨operation, .ofNat 32 (line * size.toNat)⟩,
    (walks _).mpr (.inr ⟨rfl, line, least, less, address⟩), is.line address, rfl⟩

end Coverage

theorem mem_mcrne {notZero : Bool} {issue other : Issue} {issued : List Issue} :
    other ∈ mcrne notZero issue issued ↔ other ∈ issued ∨ notZero = true ∧ other = issue := by
  cases notZero with
  | false => simp [mcrne]
  | true => simp [mcrne]

section Routines

variable {ctr : Word} {buffer : Buffer} (inDdr : buffer.InDdr)
include inDdr

theorem cleanBuff_cleaned : ∃ rounds issued,
    cp15DCacheCleanBuff ctr buffer.start buffer.length rounds = some issued ∧
      buffer.Cleaned (lineSize ctr).toNat issued := by
  rcases isLineSize ctr with ⟨bits, is⟩
  have above := inDdr.above
  have below := inDdr.below
  have finish := inDdr.end_eq
  unfold cp15DCacheCleanBuff
  generalize lineSize ctr = size at *
  have lower := Nat.div_mul_le_self (buffer.start.toNat + buffer.length.toNat) size.toNat
  have last := is.toNat_bic (buffer.start + buffer.length)
  rw [finish] at last
  rcases cleanLoop_ends is (by omega) last (mcrne (size - 1 &&& (buffer.start + buffer.length) != 0)
      ⟨.clean, bic (buffer.start + buffer.length) (size - 1)⟩ []) (is.above above)
    (is.above (by omega)) (Nat.div_le_div_right (by omega)) (is.toNat_bic _) with
    ⟨out, ⟨rounds, ran⟩, walks⟩
  refine ⟨rounds, out, ran, fun line intersects => ?_⟩
  rcases (inDdr.intersects_iff_line is.pos).mp intersects with ⟨least, less | ⟨rfl, partly⟩⟩
  · have base := Nat.mul_le_mul_right size.toNat less.le
    exact is.walked walks least (less.trans_le (Nat.le_max_right ..)) (by omega)
  · refine ⟨⟨.clean, bic (buffer.start + buffer.length) (size - 1)⟩, ?_, is.line last, rfl⟩
    refine (walks _).mpr (.inl (mem_mcrne.mpr (.inr ⟨?_, rfl⟩)))
    rw [is.tst, finish]
    exact decide_eq_true partly

/-- The loop of the flush begins with the first line that the buffer begins in. -/
theorem toNat_first {size : Word} {bits : Nat} (is : IsLineSize size bits) :
    (if size - 1 &&& buffer.start != 0 then bic buffer.start (size - 1) + size
      else bic buffer.start (size - 1)).toNat = buffer.first size.toNat * size.toNat := by
  have below := inDdr.below
  have lower := Nat.div_mul_le_self (buffer.start.toNat + buffer.length.toNat) size.toNat
  have order : buffer.start.toNat / size.toNat ≤
      (buffer.start.toNat + buffer.length.toNat) / size.toNat :=
    Nat.div_le_div_right (by omega)
  have last := is.toNat_bic (buffer.start + buffer.length)
  rw [inDdr.end_eq] at last
  rw [is.tst, Buffer.first]
  by_cases partly : buffer.start.toNat % size.toNat ≠ 0
  · rw [if_pos partly, if_pos (decide_eq_true partly)]
    exact is.next (by omega) last order (is.toNat_bic buffer.start)
  · rw [if_neg partly, if_neg (by rw [decide_eq_false partly]; decide)]
    exact is.toNat_bic buffer.start

/-- A flush cleans the lines at the ends that the buffer does not fill, and goes over the
others. -/
theorem flushBuff_walks {size : Word} {bits : Nat} (is : IsLineSize size bits)
    (sized : lineSize ctr = size) : ∃ rounds edges out,
    cp15DCacheFlushBuff ctr buffer.start buffer.length rounds = some out ∧
      (∀ issue, issue ∈ edges ↔
        buffer.start.toNat % size.toNat ≠ 0 ∧
            issue = ⟨.cleanInvalidate, bic buffer.start (size - 1)⟩ ∨
          (buffer.start.toNat + buffer.length.toNat) % size.toNat ≠ 0 ∧
            issue = ⟨.cleanInvalidate, bic (buffer.start + buffer.length) (size - 1)⟩) ∧
      Walks size .invalidate (buffer.first size.toNat)
        ((buffer.start.toNat + buffer.length.toNat) / size.toNat) edges out := by
  have above := inDdr.above
  have below := inDdr.below
  unfold cp15DCacheFlushBuff
  rw [sized]
  have lower := Nat.div_mul_le_self (buffer.start.toNat + buffer.length.toNat) size.toNat
  have last := is.toNat_bic (buffer.start + buffer.length)
  rw [inDdr.end_eq] at last
  have far : 2 ^ 31 ≤ buffer.start.toNat / size.toNat * size.toNat := is.above above
  have farther := Nat.mul_le_mul_right size.toNat
    (Buffer.le_first : _ ≤ buffer.first size.toNat)
  rcases dflushLoop_ends is (by omega) last
    (mcrne (size - 1 &&& (buffer.start + buffer.length) != 0)
      ⟨.cleanInvalidate, bic (buffer.start + buffer.length) (size - 1)⟩
        (mcrne (size - 1 &&& buffer.start != 0)
          ⟨.cleanInvalidate, bic buffer.start (size - 1)⟩ []))
    (by omega) (is.above (by omega)) (toNat_first inDdr is) with ⟨out, ⟨rounds, ran⟩, walks⟩
  refine ⟨rounds, _, out, ran, fun issue => ?_, walks⟩
  rw [mem_mcrne, mem_mcrne, is.tst, is.tst, inDdr.end_eq, decide_eq_true_iff, decide_eq_true_iff]
  simp only [List.not_mem_nil, false_or]

theorem flushBuff_flushed : ∃ rounds issued,
    cp15DCacheFlushBuff ctr buffer.start buffer.length rounds = some issued ∧
      buffer.Flushed (lineSize ctr).toNat issued := by
  rcases isLineSize ctr with ⟨bits, is⟩
  rcases flushBuff_walks inDdr is rfl with ⟨rounds, edges, out, ran, ends, walks⟩
  have positive := inDdr.positive
  have below := inDdr.below
  have pos := is.pos
  generalize lineSize ctr = size at *
  have order : buffer.start.toNat / size.toNat ≤
      (buffer.start.toNat + buffer.length.toNat) / size.toNat :=
    Nat.div_le_div_right (by omega)
  have start := is.toNat_bic buffer.start
  have last := is.toNat_bic (buffer.start + buffer.length)
  rw [inDdr.end_eq] at last
  have lower := Nat.div_mul_le_self (buffer.start.toNat + buffer.length.toNat) size.toNat
  have issues : ∀ issue, issue ∈ out ↔ issue ∈ edges ∨ issue.operation = .invalidate ∧
      ∃ line, buffer.first size.toNat ≤ line ∧
        line < (buffer.start.toNat + buffer.length.toNat) / size.toNat ∧
          issue.address.toNat = line * size.toNat := walks
  simp only [ends, or_assoc] at issues
  refine ⟨rounds, out, ran, fun line intersects => ?_, fun issue member invalidates => ?_,
    fun issue member => ?_⟩
  · rcases (inDdr.intersects_iff_line pos).mp intersects with ⟨least, less | ⟨rfl, partly⟩⟩
    · by_cases inside : buffer.first size.toNat ≤ line
      · have base := Nat.mul_le_mul_right size.toNat less.le
        rcases is.walked walks inside less (by omega) with ⟨issue, member, at', same⟩
        exact ⟨issue, member, at', .inl same⟩
      · rcases Buffer.before_first least (Nat.not_le.mp inside) with ⟨partly, rfl⟩
        exact ⟨_, (issues _).mpr (.inl ⟨partly, rfl⟩), is.line start, .inr rfl⟩
    · exact ⟨_, (issues _).mpr (.inr (.inl ⟨partly, rfl⟩)), is.line last, .inr rfl⟩
  · rcases (issues issue).mp member with ⟨_, rfl⟩ | ⟨_, rfl⟩ | ⟨_, line, least, less, at'⟩
    · cases invalidates
    · cases invalidates
    · rw [is.line at']
      exact Buffer.contains_between pos least less
  · rw [inDdr.intersects_iff_line pos]
    rcases (issues issue).mp member with ⟨partly, rfl⟩ | ⟨partly, rfl⟩ | ⟨_, line, least, less, at'⟩
    · rw [is.line start, ← inDdr.intersects_iff_line pos]
      exact ⟨buffer.start.toNat, ⟨le_rfl, by omega⟩, rfl⟩
    · rw [is.line last]
      exact ⟨order, .inr ⟨rfl, partly⟩⟩
    · rw [is.line at']
      exact ⟨Buffer.le_first.trans least, .inl less⟩

/-- Both routines come to an end; the first one cleans every line of the buffer, and the second
one flushes every line and no other. -/
theorem buffs_covered :
    (∃ rounds issued, cp15DCacheCleanBuff ctr buffer.start buffer.length rounds = some issued ∧
      buffer.Cleaned (lineSize ctr).toNat issued) ∧
    ∃ rounds issued, cp15DCacheFlushBuff ctr buffer.start buffer.length rounds = some issued ∧
      buffer.Flushed (lineSize ctr).toNat issued :=
  ⟨cleanBuff_cleaned inDdr, flushBuff_flushed inDdr⟩

end Routines

/-- A buffer with a part of a line of 64 bytes at each end. -/
def received : Buffer := ⟨0x80000010, 200⟩

theorem buffs_covered_received :
    (∃ rounds issued,
      cp15DCacheCleanBuff 0x00040000 received.start received.length rounds = some issued ∧
        received.Cleaned (lineSize 0x00040000).toNat issued) ∧
    ∃ rounds issued,
      cp15DCacheFlushBuff 0x00040000 received.start received.length rounds = some issued ∧
        received.Flushed (lineSize 0x00040000).toNat issued :=
  buffs_covered ⟨by decide, by decide, by decide⟩

end BbbEth.Cp15
