import BbbEth.Interference.Within
import BbbEth.Coherence.Cache
import Mathlib.Tactic.Ring

/-!
# Cache maintenance by buffer

The routines of `cp15.s` that clean or invalidate the cache lines of a buffer.
The registers of the code are addresses; a buffer lies in one piece of memory, so
that the signed comparison of two addresses is that of the numbers.
-/

namespace BbbEth.Coherence

open BbbEth.Interference

universe u v

/-- The line size that the Cache Type Register gives. -/
def lineSize : Nat := 64

/-- The line of an address. -/
def lineOf (address : Nat) : Nat := address / lineSize

/-- `bic` with the mask of the line size. -/
def alignDown (address : Nat) : Nat := address - address % lineSize

section Routines

variable {access : Type → Type u} (issue : Maintenance → Nat → Program access Unit)

/-- `mcrne`: an operation on the line of an address that is not aligned. -/
def mcrne (operation : Maintenance) (address : Nat) : Program access Unit :=
  if address % lineSize ≠ 0 then issue operation (alignDown address) else .done ()

/-- One round of `cleanloop`, which tests at its end. -/
def cleanLoop (finish : Nat) (address : Nat) : Program access (Nat ⊕ Unit) := do
  issue .clean address
  if address + lineSize < finish then
    .done (.inl (address + lineSize))
  else
    .done (.inr ())

/-- `CP15DCacheCleanBuff`. -/
def cp15DCacheCleanBuff (start length : Nat) : Program access Unit := do
  let finish := start + length
  mcrne issue .clean finish
  .iterate (cleanLoop issue (alignDown finish)) (alignDown start)

/-- One round of `dflushloop`, which tests at its start. -/
def dflushLoop (finish : Nat) (address : Nat) : Program access (Nat ⊕ Unit) := do
  if address < finish then do
    issue .invalidate address
    .done (.inl (address + lineSize))
  else
    .done (.inr ())

/-- `CP15DCacheFlushBuff`. -/
def cp15DCacheFlushBuff (start length : Nat) : Program access Unit := do
  let finish := start + length
  mcrne issue .cleanInvalidate start
  let first := alignDown start + if start % lineSize ≠ 0 then lineSize else 0
  mcrne issue .cleanInvalidate finish
  .iterate (dflushLoop issue (alignDown finish)) first

end Routines

section Within

variable {access : Type → Type u} {allowed : {reply : Type} → access reply → Prop}
variable {issue : Maintenance → Nat → Program access Unit}
variable (issues : ∀ operation address, Program.Within @allowed (issue operation address))
include issues

theorem mcrne_within (operation : Maintenance) (address : Nat) :
    Program.Within @allowed (mcrne issue operation address) :=
  .ite (issues operation _) .done

theorem cleanLoop_within (finish address : Nat) :
    Program.Within @allowed (.iterate (cleanLoop issue finish) address) := by
  have size : 0 < lineSize := by decide
  induction distance : finish - address using Nat.strong_induction_on generalizing address with
  | _ distance inductionHypothesis =>
      apply Program.Within.loop
      unfold Program.unroll cleanLoop
      rw [Program.bind_eq, Program.bind_assoc]
      apply (issues _ _).bind
      intro _
      by_cases inside : address + lineSize < finish
      · rw [if_pos inside]
        exact inductionHypothesis _ (by omega) _ rfl
      · rw [if_neg inside]
        exact .done

theorem dflushLoop_within (finish address : Nat) :
    Program.Within @allowed (.iterate (dflushLoop issue finish) address) := by
  have size : 0 < lineSize := by decide
  induction distance : finish - address using Nat.strong_induction_on generalizing address with
  | _ distance inductionHypothesis =>
      apply Program.Within.loop
      unfold Program.unroll dflushLoop
      by_cases inside : address < finish
      · rw [if_pos inside, Program.bind_eq, Program.bind_assoc]
        apply (issues _ _).bind
        intro _
        exact inductionHypothesis _ (by omega) _ rfl
      · rw [if_neg inside]
        exact .done

/-- Both routines only issue operations, and come to an end. -/
theorem cleanBuff_within (start length : Nat) :
    Program.Within @allowed (cp15DCacheCleanBuff issue start length) :=
  (mcrne_within issues _ _).bind fun _ => cleanLoop_within issues _ _

theorem flushBuff_within (start length : Nat) :
    Program.Within @allowed (cp15DCacheFlushBuff issue start length) :=
  (mcrne_within issues _ _).bind fun _ =>
    (mcrne_within issues _ _).bind fun _ => dflushLoop_within issues _ _

end Within

/-- The line has a byte of the buffer. -/
def Overlaps (start length line : Nat) : Prop :=
  ∃ address, start ≤ address ∧ address < start + length ∧ lineOf address = line

theorem alignDown_eq (address : Nat) : alignDown address = lineOf address * lineSize := by
  have split := Nat.div_add_mod' address lineSize
  unfold alignDown lineOf
  omega

@[simp] theorem lineOf_mul (line : Nat) : lineOf (line * lineSize) = line :=
  Nat.mul_div_cancel _ (by decide)

theorem overlaps_iff {start length line : Nat} (positive : 0 < length) :
    Overlaps start length line ↔
      lineOf start ≤ line ∧ line ≤ lineOf (start + length - 1) := by
  have size : 0 < lineSize := by decide
  constructor
  · rintro ⟨address, above, below, rfl⟩
    exact ⟨Nat.div_le_div_right above, Nat.div_le_div_right (by omega)⟩
  · rintro ⟨above, below⟩
    by_cases first : line = lineOf start
    · exact ⟨start, le_rfl, by omega, first.symm⟩
    · have base : start ≤ line * lineSize := by
        have beyond : lineOf start + 1 ≤ line := by omega
        have split := Nat.lt_div_mul_add size (a := start)
        have scaled := Nat.mul_le_mul_right lineSize beyond
        unfold lineOf at scaled
        rw [Nat.add_mul] at scaled
        omega
      have inside : line * lineSize ≤ start + length - 1 :=
        (Nat.le_div_iff_mul_le size).mp below
      exact ⟨line * lineSize, base, by omega, lineOf_mul line⟩

/-- How a contract treats invalidations.  The assertion is indexed by the lines that
are invalidated already. -/
structure Maintains {access : Type → Type u} {state : Type v}
    (contract : Contract access state) (issue : Maintenance → Nat → Program access Unit)
    (within : Nat → Prop) (holds : (Nat → Prop) → state → Prop) : Prop where
  stable : ∀ finished, contract.Stable none (holds finished)
  safe : ∀ finished current, holds finished current → contract.safe current
  issues : ∀ operation line finished current, within line → operation ≠ .clean →
    holds finished current →
    contract.Ensures (fun _ => holds fun other => other = line ∨ finished other)
      (issue operation (line * lineSize)) current

section Flush

variable {access : Type → Type u} {state : Type v} {contract : Contract access state}
variable {issue : Maintenance → Nat → Program access Unit} {within : Nat → Prop}
variable {holds : (Nat → Prop) → state → Prop} {current : state} {finished : Nat → Prop}

/-- Lines that are invalidated, beside those that were before. -/
def Adds (holds : (Nat → Prop) → state → Prop) (finished more : Nat → Prop)
    (after : state) : Prop :=
  ∃ all, (∀ line, finished line ∨ more line → all line) ∧ holds all after

/-- The loop invalidates the lines between two others. -/
theorem Maintains.dflushLoop (maintains : Maintains contract issue within holds)
    {first last : Nat} (inside : ∀ line, first ≤ line → line < last → within line)
    (start : holds finished current) :
    contract.Ensures (fun _ => Adds holds finished fun line => first ≤ line ∧ line < last)
      (.iterate (dflushLoop issue (last * lineSize)) (first * lineSize)) current := by
  have size : 0 < lineSize := by decide
  induction distance : last - first generalizing first finished current with
  | zero =>
      apply Contract.Ensures.of_loop (maintains.stable finished) start (maintains.safe finished)
      intro before kept
      have leave : ¬ first * lineSize < last * lineSize := by
        rw [Nat.mul_lt_mul_right size]
        omega
      have round : Coherence.dflushLoop issue (last * lineSize) (first * lineSize) =
          .done (.inr ()) := if_neg leave
      unfold Program.unroll
      rw [round]
      apply Contract.Ensures.of_done (maintains.stable finished) kept (maintains.safe finished)
      intro after still
      refine ⟨finished, fun line member => ?_, still⟩
      rcases member with member | ⟨above, below⟩
      · exact member
      · omega
  | succ count inductionHypothesis =>
      apply Contract.Ensures.of_loop (maintains.stable finished) start (maintains.safe finished)
      intro before kept
      have enter : first * lineSize < last * lineSize :=
        Nat.mul_lt_mul_of_pos_right (by omega) size
      have round : Coherence.dflushLoop issue (last * lineSize) (first * lineSize) =
          issue .invalidate (first * lineSize) >>= fun _ =>
            .done (.inl (first * lineSize + lineSize)) := if_pos enter
      unfold Program.unroll
      rw [round, Program.bind_eq, Program.bind_assoc]
      apply Contract.Ensures.bind
        (maintains.issues .invalidate first finished before (inside first le_rfl (by omega))
          (by decide) kept)
      intro _ after invalidated
      have remaining : ∀ line, first + 1 ≤ line → line < last → within line :=
        fun line above below => inside line (by omega) below
      have others := inductionHypothesis remaining invalidated (by omega)
      rw [show (first + 1) * lineSize = first * lineSize + lineSize by ring] at others
      apply others.mono
      rintro _ late ⟨all, covers, holdsAll⟩
      refine ⟨all, fun line member => covers line ?_, holdsAll⟩
      rcases member with member | ⟨above, below⟩
      · exact .inl (.inr member)
      · by_cases same : line = first
        · exact .inl (.inl same)
        · exact .inr ⟨by omega, below⟩

/-- The operation on a line that the buffer fills in part. -/
theorem Maintains.mcrne (maintains : Maintains contract issue within holds)
    {address : Nat} (inside : address % lineSize ≠ 0 → within (lineOf address))
    (start : holds finished current) :
    contract.Ensures
      (fun _ => Adds holds finished fun line =>
        address % lineSize ≠ 0 ∧ line = lineOf address)
      (mcrne issue .cleanInvalidate address) current := by
  unfold Coherence.mcrne
  rw [alignDown_eq]
  by_cases partly : address % lineSize ≠ 0
  · rw [if_pos partly]
    apply (maintains.issues .cleanInvalidate (lineOf address) finished current
      (inside partly) (by decide) start).mono
    intro _ after kept
    refine ⟨_, fun line member => ?_, kept⟩
    rcases member with member | ⟨_, same⟩
    · exact .inr member
    · exact .inl same
  · rw [if_neg partly]
    apply Contract.Ensures.of_done (maintains.stable finished) start (maintains.safe finished)
    intro after kept
    refine ⟨finished, fun line member => ?_, kept⟩
    rcases member with member | ⟨unaligned, _⟩
    · exact member
    · exact absurd unaligned partly

/-- The first line to invalidate. -/
theorem first_eq (start : Nat) :
    (alignDown start + if start % lineSize ≠ 0 then lineSize else 0) =
      (lineOf start + if start % lineSize ≠ 0 then 1 else 0) * lineSize := by
  rw [alignDown_eq, Nat.add_mul]
  split
  · rw [Nat.one_mul]
  · rw [Nat.zero_mul]

/-- `CP15DCacheFlushBuff` invalidates every line of the buffer, and no other. -/
theorem Maintains.flushBuff {begin length : Nat} (positive : 0 < length)
    (maintains : Maintains contract issue (Overlaps begin length) holds)
    (start : holds finished current) :
    contract.Ensures (fun _ => Adds holds finished (Overlaps begin length))
      (cp15DCacheFlushBuff issue begin length) current := by
  have size : 0 < lineSize := by decide
  have lower : lineOf begin ≤ lineOf (begin + length - 1) := Nat.div_le_div_right (by omega)
  have upper : lineOf (begin + length - 1) ≤ lineOf (begin + length) :=
    Nat.div_le_div_right (by omega)
  have partly : (begin + length) % lineSize ≠ 0 →
      lineOf (begin + length - 1) = lineOf (begin + length) := by
    unfold lineOf lineSize
    omega
  have wholly : (begin + length) % lineSize = 0 →
      lineOf (begin + length) = lineOf (begin + length - 1) + 1 := by
    unfold lineOf lineSize
    omega
  unfold cp15DCacheFlushBuff
  apply Contract.Ensures.bind (maintains.mcrne
    (fun _ => (overlaps_iff positive).mpr ⟨le_rfl, lower⟩) start)
  rintro _ first ⟨done, covers, kept⟩
  apply Contract.Ensures.bind (maintains.mcrne (fun unaligned =>
    (overlaps_iff positive).mpr ⟨by omega, (partly unaligned).ge⟩) kept)
  rintro _ second ⟨more, coversMore, keptMore⟩
  have inside : ∀ line, (lineOf begin + if begin % lineSize ≠ 0 then 1 else 0) ≤ line →
      line < lineOf (begin + length) → Overlaps begin length line := by
    intro line above below
    apply (overlaps_iff positive).mpr
    constructor
    · split at above <;> omega
    · by_cases whole : (begin + length) % lineSize = 0
      · have next := wholly whole
        omega
      · have same := partly whole
        omega
  rw [first_eq, alignDown_eq]
  apply (maintains.dflushLoop inside keptMore).mono
  rintro _ third ⟨all, coversAll, keptAll⟩
  refine ⟨all, fun line member => ?_, keptAll⟩
  rcases member with member | member
  · exact coversAll line (.inl (coversMore line (.inl (covers line (.inl member)))))
  · rcases (overlaps_iff positive).mp member with ⟨above, below⟩
    by_cases isFirst : begin % lineSize ≠ 0 ∧ line = lineOf begin
    · exact coversAll line (.inl (coversMore line (.inl (covers line (.inr isFirst)))))
    · by_cases isLast : (begin + length) % lineSize ≠ 0 ∧ line = lineOf (begin + length)
      · exact coversAll line (.inl (coversMore line (.inr isLast)))
      · apply coversAll line (.inr ⟨?_, ?_⟩)
        · split <;> omega
        · by_cases whole : (begin + length) % lineSize = 0
          · have next := wholly whole
            omega
          · have same := partly whole
            omega

end Flush

end BbbEth.Coherence
