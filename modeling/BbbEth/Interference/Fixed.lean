import BbbEth.Interference.Server

/-!
# Accesses with one answer

Where an access has only one answer, a routine meets its postcondition if and only if the rest
of it does, after that answer.
-/

namespace BbbEth.Interference.Server

universe u v

variable {access : Type → Type u} {state : Type v} {result carried reply : Type}
variable {server : Server access state} {always : state → Prop}
variable {post : result → state → Prop} {current : state}

/-- The only answer of an access. -/
structure Fixed (server : Server access state) (request : access reply) (current : state)
    (answer : reply) (next : state) : Prop where
  answers : server.answers request current answer next
  only : ∀ answer' next', server.answers request current answer' next' →
    answer' = answer ∧ next' = next

theorem Fixed.meets_iff {request : access reply} {answer : reply} {next : state}
    {rest : reply → Program access result} (fixed : server.Fixed request current answer next)
    (safe : always current) : server.Meets always post (.perform request rest) current ↔
      server.Meets always post (rest answer) next := by
  constructor
  · intro meets
    exact meets.of_perform fixed.answers
  · intro meets
    apply Meets.perform safe
    intro answer' next' answered
    rcases fixed.only answer' next' answered with ⟨rfl, rfl⟩
    exact meets

/-- A routine that faults meets nothing. -/
theorem not_meets_fault : ¬ server.Meets always post .fault current :=
  fun meets => meets.faultless _ .fault

/-- A loop is as good as its first round. -/
theorem meets_loop_iff {body : carried → Program access (carried ⊕ reply)} {start : carried}
    {rest : reply → Program access result} :
    server.Meets always post (.loop body start rest) current ↔
      server.Meets always post (.unroll body start rest) current := by
  constructor
  · exact Meets.of_loop
  · intro meets
    constructor
    · intro outcome after exec
      cases exec with
      | running => exact meets.always _ _ .running
      | loop exec => exact meets.always _ _ exec
    · intro after exec
      cases exec with
      | loop exec => exact meets.faultless _ exec
    · intro value after exec
      cases exec with
      | loop exec => exact meets.returns _ _ exec

end BbbEth.Interference.Server
