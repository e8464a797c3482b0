import Mathlib.Order.Nat

/-!
# Machines that are interrupted

A machine advances by itself, and between two of its steps interrupts may come, where they are
allowed.
-/

namespace BbbEth.Interference

universe u v w

/-- A machine, with the replies of what it calls, and its interrupts. -/
structure Machine (state : Type u) (reply : Type v) (interrupt : Type w) where
  initial : state → Prop
  advance : reply → state → state
  serve : interrupt → state → state

namespace Machine

variable {state : Type u} {reply : Type v} {interrupt : Type w}
variable (machine : Machine state reply interrupt)

/-- What a run may meet: the replies, and the interrupts in each state. -/
structure Setting (state : Type u) (reply : Type v) (interrupt : Type w) where
  replies : reply → state → Prop
  interrupts : interrupt → state → Prop

variable (setting : Setting state reply interrupt)

/-- The states of the runs of a machine. -/
inductive Run : state → Prop where
  | initial {start : state} : machine.initial start → Run start
  | advance {before : state} {answer : reply} : Run before → setting.replies answer before →
      Run (machine.advance answer before)
  | interrupt {before : state} {request : interrupt} : Run before →
      setting.interrupts request before → Run (machine.serve request before)

/-- The machine alone, for a number of steps. -/
def alone (replies : Nat → reply) (before : state) : Nat → state
  | 0 => before
  | count + 1 => machine.advance (replies count) (alone replies before count)

variable {machine setting}

/-- What holds initially and is kept by steps and interrupts holds along every run. -/
theorem Run.invariant {holds : state → Prop} {current : state}
    (run : machine.Run setting current) (initial : ∀ start, machine.initial start → holds start)
    (advance : ∀ answer before, holds before → setting.replies answer before →
      holds (machine.advance answer before))
    (interrupt : ∀ request before, holds before → setting.interrupts request before →
      holds (machine.serve request before)) : holds current := by
  induction run with
  | initial starts => exact initial _ starts
  | advance _ replies inductionHypothesis => exact advance _ _ inductionHypothesis replies
  | interrupt _ allowed inductionHypothesis => exact interrupt _ _ inductionHypothesis allowed

/-- The machine alone, after a number of steps. -/
theorem alone_add (replies : Nat → reply) (before : state) (first second : Nat) :
    machine.alone replies before (first + second) =
      machine.alone (fun count => replies (first + count)) (machine.alone replies before first)
        second := by
  induction second with
  | zero => rfl
  | succ second inductionHypothesis =>
      change machine.advance (replies (first + second))
        (machine.alone replies before (first + second)) = _
      rw [inductionHypothesis]
      rfl

/-- A run goes on alone, with the replies that it may meet. -/
theorem Run.alone {current : state} (run : machine.Run setting current) {replies : Nat → reply}
    {count : Nat} (answered : ∀ index < count,
      setting.replies (replies index) (machine.alone replies current index)) :
    machine.Run setting (machine.alone replies current count) := by
  induction count with
  | zero => exact run
  | succ count inductionHypothesis =>
      have before := inductionHypothesis fun index below => answered index (below.trans_le
        (Nat.le_succ count))
      exact .advance before (answered count (Nat.lt_succ_self count))

/-- A measure that every step decreases until a goal is reached. -/
theorem reaches (goal : state → Prop) (measure : state → Nat)
    (step : ∀ before answer, ¬ goal before →
      measure (machine.advance answer before) < measure before)
    (replies : Nat → reply) (before : state) :
    ∃ count, goal (machine.alone replies before count) := by
  generalize size : measure before = left
  induction left using Nat.strongRecOn generalizing before replies with
  | ind left inductionHypothesis =>
      by_cases there : goal before
      · exact ⟨0, there⟩
      · have shorter := step before (replies 0) there
        rw [size] at shorter
        rcases inductionHypothesis _ shorter (fun count => replies (1 + count))
          (machine.advance (replies 0) before) rfl with ⟨count, reached⟩
        refine ⟨1 + count, ?_⟩
        rw [alone_add]
        exact reached

end Machine

end BbbEth.Interference
