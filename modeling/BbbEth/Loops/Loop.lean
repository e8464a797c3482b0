import Mathlib.Order.Nat

/-!
# Loops that may not end

A loop is given by its round, which goes on in another state or ends with a result.
-/

namespace BbbEth.Loops

universe u v

variable {carried : Type u} {result : Type v}

/-- A number of rounds of a loop. -/
def run (round : carried → carried ⊕ result) : Nat → carried → Option result
  | 0, _ => none
  | count + 1, start =>
      match round start with
      | .inl next => run round count next
      | .inr value => some value

/-- The loop comes to an end, with a result. -/
def Ends (round : carried → carried ⊕ result) (start : carried) (value : result) : Prop :=
  ∃ count, run round count start = some value

variable {round : carried → carried ⊕ result} {start later : carried} {value other : result}

theorem Ends.last (ends : round start = .inr value) : Ends round start value :=
  ⟨1, by rw [run, ends]⟩

theorem Ends.next (goes : round start = .inl later) (ends : Ends round later value) :
    Ends round start value := by
  rcases ends with ⟨count, ran⟩
  exact ⟨count + 1, by rw [run, goes]; exact ran⟩

/-- More rounds change nothing. -/
theorem run_le {few many : Nat} (ran : run round few start = some value) (le : few ≤ many) :
    run round many start = some value := by
  induction few generalizing start many with
  | zero => cases ran
  | succ few inductionHypothesis =>
      rcases Nat.exists_eq_add_of_le' le with ⟨more, rfl⟩
      rw [← Nat.add_assoc, run]
      rw [run] at ran
      cases goes : round start with
      | inl next =>
          rw [goes] at ran
          exact inductionHypothesis ran (Nat.le_add_left ..)
      | inr last =>
          rw [goes] at ran
          exact ran

theorem Ends.eventually (ends : Ends round start value) :
    ∃ count, ∀ many, count ≤ many → run round many start = some value := by
  rcases ends with ⟨count, ran⟩
  exact ⟨count, fun _ le => run_le ran le⟩

theorem ends_inr_iff (ended : round start = .inr other) :
    Ends round start value ↔ value = other := by
  constructor
  · rintro ⟨count, ran⟩
    cases count with
    | zero => cases ran
    | succ count =>
        rw [run, ended] at ran
        exact (Option.some.inj ran).symm
  · rintro rfl
    exact .last ended

theorem ends_inl_iff (goes : round start = .inl later) :
    Ends round start value ↔ Ends round later value := by
  constructor
  · rintro ⟨count, ran⟩
    cases count with
    | zero => cases ran
    | succ count =>
        rw [run, goes] at ran
        exact ⟨count, ran⟩
  · exact .next goes

/-- A loop has at most one result. -/
theorem Ends.unique (first : Ends round start value) (second : Ends round start other) :
    value = other := by
  rcases first with ⟨count, ran⟩
  induction count generalizing start with
  | zero => cases ran
  | succ count inductionHypothesis =>
      cases goes : round start with
      | inl next =>
          rw [run, goes] at ran
          exact inductionHypothesis ((ends_inl_iff goes).mp second) ran
      | inr last =>
          rw [run, goes] at ran
          rw [(ends_inr_iff goes).mp second]
          exact (Option.some.inj ran).symm

/-- What every round keeps holds before the last one. -/
theorem Ends.invariant {holds : carried → Prop} (ends : Ends round start value)
    (keeps : ∀ before after, holds before → round before = .inl after → holds after)
    (initial : holds start) : ∃ last, holds last ∧ round last = .inr value := by
  rcases ends with ⟨count, ran⟩
  induction count generalizing start with
  | zero => cases ran
  | succ count inductionHypothesis =>
      cases goes : round start with
      | inl next =>
          rw [run, goes] at ran
          exact inductionHypothesis (keeps _ _ initial goes) ran
      | inr last =>
          rw [run, goes] at ran
          exact ⟨start, initial, by rw [goes, Option.some.inj ran]⟩

end BbbEth.Loops
