import Mathlib.Data.BitVec
import Mathlib.Data.Nat.BitIndices

/-!
# Loops over the bits of a word

A loop shifts a word to the right until it is zero, counts the shifts, and does something for each
bit that it meets.
-/

namespace BbbEth.Loops

universe u

variable {carried : Type u} {width : Nat}

theorem toNat_shift (pending : BitVec width) : (pending >>> 1).toNat = pending.toNat / 2 := by
  rw [BitVec.toNat_ushiftRight, Nat.shiftRight_one]

theorem toNat_shift_lt {pending : BitVec width} (more : pending ≠ 0) :
    (pending >>> 1).toNat < pending.toNat := by
  have positive : 0 < pending.toNat :=
    Nat.pos_of_ne_zero fun zero => more (BitVec.eq_of_toNat_eq zero)
  rw [toNat_shift]
  exact Nat.div_lt_self positive (by decide)

/-- The loop, with the word and the count of shifts. -/
def scan (body : Nat → carried → carried) (pending : BitVec width) (index : Nat)
    (current : carried) : Nat × carried :=
  if pending = 0 then (index, current)
  else
    scan body (pending >>> 1) (index + 1)
      (if pending &&& 1 ≠ 0 then body index current else current)
termination_by pending.toNat
decreasing_by
  exact toNat_shift_lt (by assumption)

variable {body : Nat → carried → carried} {pending : BitVec width} {index : Nat}
  {current : carried}

theorem scan_zero : scan body (0 : BitVec width) index current = (index, current) := by
  rw [scan, if_pos rfl]

/-- The last bit of a word. -/
theorem and_one_ne_zero (more : pending ≠ 0) : pending &&& 1 ≠ 0 ↔ pending.toNat % 2 = 1 := by
  have inside : 0 < width := by
    rcases Nat.eq_zero_or_pos width with rfl | inside
    · exact absurd (BitVec.eq_of_toNat_eq (by omega)) more
    · exact inside
  have one : (1 : BitVec width).toNat = 1 := BitVec.toNat_one inside
  have value : (pending &&& 1).toNat = pending.toNat % 2 := by
    rw [BitVec.toNat_and, one, Nat.and_one_is_mod]
  have zero : (0 : BitVec width).toNat = 0 := BitVec.toNat_zero
  rw [ne_eq, ← BitVec.toNat_inj, value, zero]
  omega

/-- The loop does what it does for the bits of the word, from the last one on. -/
theorem scan_snd : (scan body pending index current).2 =
    pending.toNat.bitIndices.foldl (fun current bit => body (index + bit) current) current := by
  fun_induction scan body pending index current with
  | case1 index current =>
      rw [show (0 : BitVec width).toNat = 0 from BitVec.toNat_zero]
      rfl
  | case2 pending index current more inductionHypothesis =>
      have shift : ∀ start, List.foldl (fun current bit => body (index + 1 + bit) current) start
          (pending.toNat / 2).bitIndices = ((pending.toNat / 2).bitIndices.map (· + 1)).foldl
            (fun current bit => body (index + bit) current) start := by
        intro start
        rw [List.foldl_map]
        simp only [Nat.add_assoc, Nat.add_comm 1]
      simp only [dite_eq_ite] at inductionHypothesis
      rw [inductionHypothesis, toNat_shift, shift]
      by_cases odd : pending.toNat % 2 = 1
      · have whole : pending.toNat = 2 * (pending.toNat / 2) + 1 := by omega
        rw [if_pos ((and_one_ne_zero more).mpr odd)]
        conv_rhs => rw [whole, Nat.bitIndices_two_mul_add_one]
        rfl
      · have whole : pending.toNat = 2 * (pending.toNat / 2) := by omega
        rw [if_neg fun bit => odd ((and_one_ne_zero more).mp bit)]
        conv_rhs => rw [whole, Nat.bitIndices_two_mul]

theorem le_scan_fst : index ≤ (scan body pending index current).1 := by
  fun_induction scan body pending index current with
  | case1 => exact le_rfl
  | case2 pending index current more inductionHypothesis =>
      simp only [dite_eq_ite] at inductionHypothesis
      exact (Nat.le_succ index).trans inductionHypothesis

/-- A loop that takes something away where it hits. -/
theorem foldl_hits {rounds : List Nat} {body : carried → Nat → carried}
    (observe : carried → Bool) (hit : Nat → Bool)
    (takes : ∀ round ∈ rounds, ∀ current,
      observe (body current round) = (observe current && !hit round)) :
    observe (rounds.foldl body current) = (observe current && !rounds.any hit) := by
  induction rounds generalizing current with
  | nil => exact (Bool.and_true _).symm
  | cons round rounds inductionHypothesis =>
      rcases List.forall_mem_cons.mp takes with ⟨first, others⟩
      rw [List.foldl_cons, inductionHypothesis others, first, List.any_cons, Bool.not_or,
        Bool.and_assoc]

/-- A loop keeps what its body keeps. -/
theorem foldl_keeps {kept : Type u} {rounds : List Nat} {body : carried → Nat → carried}
    (observe : carried → kept)
    (keeps : ∀ round current, observe (body current round) = observe current) :
    observe (rounds.foldl body current) = observe current := by
  induction rounds generalizing current with
  | nil => rfl
  | cons round rounds inductionHypothesis =>
      rw [List.foldl_cons, inductionHypothesis, keeps]

/-- The count tells whether there was a bit. -/
theorem scan_fst_eq_zero_iff : (scan body pending 0 current).1 = 0 ↔ pending = 0 := by
  constructor
  · intro zero
    by_contra more
    rw [scan, if_neg more] at zero
    exact absurd (le_scan_fst.trans_eq zero) (by decide)
  · rintro rfl
    rw [scan_zero]

/-! ## Bits in turn -/

theorem mem_bits {bit : Nat} : bit ∈ pending.toNat.bitIndices ↔ pending.getLsbD bit = true := by
  rw [Nat.mem_bitIndices, BitVec.testBit_toNat]

/-- How often something is in what the bits of a word add to a list. -/
theorem count_flatMap_bits {event : Type u} [DecidableEq event] {adds : Nat → List event}
    {what : event} {bit : Nat} (apart : ∀ other, other ≠ bit → what ∉ adds other) :
    (pending.toNat.bitIndices.flatMap adds).count what =
      if pending.getLsbD bit then (adds bit).count what else 0 := by
  have general : ∀ bits : List Nat, bits.Nodup →
      (bits.flatMap adds).count what = if bit ∈ bits then (adds bit).count what else 0 := by
    intro bits once
    induction bits with
    | nil => rfl
    | cons head tail inductionHypothesis =>
        rcases List.nodup_cons.mp once with ⟨fresh, rest⟩
        rw [List.flatMap_cons, List.count_append, inductionHypothesis rest]
        by_cases here : head = bit
        · subst here
          rw [if_neg fresh, if_pos List.mem_cons_self, Nat.add_zero]
        · rw [List.count_eq_zero_of_not_mem (apart head here), Nat.zero_add]
          simp only [List.mem_cons, Ne.symm here, false_or]
  rw [general _ Nat.bitIndices_nodup]
  simp only [mem_bits]

end BbbEth.Loops
