import BbbEth.Cpsw.Outline

/-!
# Runs without interference

In the `quiet` setting nothing happens between the accesses of a routine.
-/

namespace BbbEth.Cpsw

open BbbEth.Interference

/-- Routines that run alone. -/
def quiet : Setting Access State where
  perform := State.perform
  rely _ _ _ := False
  admits _ _ := True

/-- The contract of a routine that runs alone. -/
def quietContract : Contract Access State where
  toSetting := quiet
  safe _ := True
  guarantee _ _ := True
  mayFault := False

/-- The outline in which every access is known exactly. -/
abbrev still : Outline Access State := outline (fun _ => True) fun _ _ => True

section Exact

variable {reply : Type} (request : Access reply) (state : State)

/-- An outline in which every descriptor is known gives the replies of the model, -/
theorem exact_replies : outlineReplies (fun _ => True) request state (state.perform request).1 := by
  cases request with
  | loadFlags chan d use =>
      cases chan with
      | tx =>
          cases use with
          | plain =>
              exact (Reads.refl _ : Reads (fun _ => True) d (state.bd .tx d).flagsPktlen _)
          | owner => rfl
          | eoq => rfl
      | rx => rfl
  | _ => rfl

/-- and moves as the model does. -/
theorem exact_moves {answer : reply} {next : State}
    (moves : outlineMoves (fun _ => True) request state answer next) :
    next = (state.perform request).2 := by
  cases request with
  | storeFlags chan d word =>
      cases chan with
      | tx =>
          rcases moves with ⟨stored, reads, rfl⟩
          rw [reads.2 trivial]
      | rx => exact moves
  | _ => exact moves

end Exact

theorem still_describes : still.Describes quietContract fun model actual => actual = model where
  stable _ _ _ _ _ step := step.elim
  safe _ := trivial
  guarantee _ _ _ := trivial
  replies {reply request model actual} same _ := by
    subst same
    exact exact_replies request actual
  moves {reply request model next actual} same _ moves := by
    subst same
    exact (exact_moves request actual moves).symm

section

variable {result : Type} {code : Routine result} {before after : State} {value : result}

theorem ensures_of_still (runs : still.Runs code before value after) :
    quietContract.Ensures (fun answer later => answer = value ∧ later = after)
      code before :=
  still_describes.ensures_post runs rfl

/-- A run of the outline is a complete run. -/
theorem returns_of_still (runs : still.Runs code before value after) :
    quiet.Returns code before value after := by
  rcases (ensures_of_still runs).exists_returns not_false (fun _ _ => trivial) with
    ⟨answer, later, returns, rfl, rfl⟩
  exact returns

/-- It is the only one. -/
theorem still_unique (runs : still.Runs code before value after) {answer : result}
    {later : State} (returns : quiet.Returns code before answer later) :
    answer = value ∧ later = after :=
  (ensures_of_still runs).post_of_returns returns

/-- A run without interference may be part of any run of a system that admits its accesses. -/
theorem reachable_of_runs {system : System Access State}
    {permits : {reply : Type} → Access reply → State → Prop}
    (effects : ∀ {reply : Type} (request : Access reply) state,
      system.perform request state = state.perform request)
    (admits : ∀ {reply : Type} (request : Access reply) state,
      permits request state → system.admits request state)
    {rest : result → Routine Unit} (reachable : system.Reachable ⟨before, code >>= rest⟩)
    (runs : (outline (fun _ => True) permits).Runs code before value after) :
    system.Reachable ⟨after, rest value⟩ := by
  induction runs with
  | done => exact reachable
  | @perform reply _ request others current after value middle permitted moves _
      inductionHypothesis =>
      have step : system.CodeStep ⟨current, .perform request others⟩ ⟨_, others _⟩ :=
        .perform (admits request current permitted)
      rw [effects] at step
      have same := exact_moves request current (moves _ (exact_replies request current))
      have next := reachable.step (.code (system.codeStep_bind step rest))
      rw [← same] at next
      exact inductionHypothesis _ (exact_replies request current) next
  | loop _ inductionHypothesis =>
      exact inductionHypothesis (reachable.step (.code (system.codeStep_bind .unroll rest)))

/-- In a system that admits every access, it may be part of any run. -/
theorem reachable_of_still {system : System Access State}
    (effects : ∀ {reply : Type} (request : Access reply) state,
      system.perform request state = state.perform request)
    (admits : ∀ {reply : Type} (request : Access reply) state,
      system.admits request state)
    {rest : result → Routine Unit} (reachable : system.Reachable ⟨before, code >>= rest⟩)
    (runs : still.Runs code before value after) :
    system.Reachable ⟨after, rest value⟩ :=
  reachable_of_runs effects (fun request state _ => admits request state) reachable runs

end

end BbbEth.Cpsw
