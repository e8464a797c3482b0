import BbbEth.Interference.Only

/-!
# Routines without faults

A routine is safe if it makes only allowed accesses and no run of it, whatever the answers,
faults.  What its first access leaves decides whether a routine keeps an assertion.
-/

namespace BbbEth.Interference

universe u v

namespace Program

variable {access : Type → Type u} {result final carried reply : Type}

/-- The routine makes only allowed accesses, and does not fault. -/
inductive Safe (allowed : {reply : Type} → access reply → Prop) :
    {result : Type} → Program access result → Prop where
  | done {result : Type} {value : result} : Safe allowed (.done value)
  | perform {reply result : Type} {request : access reply}
      {rest : reply → Program access result} :
      allowed request → (∀ answer, Safe allowed (rest answer)) →
      Safe allowed (.perform request rest)
  | loop {carried reply result : Type} {body : carried → Program access (carried ⊕ reply)}
      {start : carried} {rest : reply → Program access result} :
      (∀ start, Safe allowed (body start)) → (∀ answer, Safe allowed (rest answer)) →
      Safe allowed (.loop body start rest)

namespace Safe

variable {allowed : {reply : Type} → access reply → Prop}

theorem lift {request : access reply} (allows : allowed request) :
    Safe @allowed (Program.lift request) :=
  .perform allows fun _ => .done

theorem iterate {body : carried → Program access (carried ⊕ reply)} {start : carried}
    (round : ∀ start, Safe @allowed (body start)) : Safe @allowed (.iterate body start) :=
  .loop round fun _ => .done

theorem bind {code : Program access result} {rest : result → Program access final}
    (first : Safe @allowed code) (others : ∀ value, Safe @allowed (rest value)) :
    Safe @allowed (code >>= rest) := by
  induction first with
  | done => exact others _
  | perform allows _ inductionHypothesis =>
      exact .perform allows fun answer => inductionHypothesis answer others
  | loop round _ _ inductionHypothesis =>
      exact .loop round fun answer => inductionHypothesis answer others

theorem ite {condition : Prop} [Decidable condition] {left right : Program access result}
    (first : Safe @allowed left) (second : Safe @allowed right) :
    Safe @allowed (if condition then left else right) := by
  split
  · exact first
  · exact second

theorem unroll {body : carried → Program access (carried ⊕ reply)} {start : carried}
    {rest : reply → Program access result} (round : ∀ start, Safe @allowed (body start))
    (others : ∀ answer, Safe @allowed (rest answer)) :
    Safe @allowed (.unroll body start rest) := by
  apply (round start).bind
  intro outcome
  cases outcome with
  | inl later => exact .loop round others
  | inr answer => exact others answer

end Safe

end Program

namespace Server

variable {access : Type → Type u} {state : Type v} {result reply : Type}
variable {server : Server access state} {always : state → Prop} {post : result → state → Prop}
variable {current : state}

/-- A safe routine does not fault. -/
theorem Exec.faultless {allowed : {reply : Type} → access reply → Prop}
    {code : Program access result} {before after : state} {outcome : Outcome result}
    (exec : server.Exec code before outcome after) (safe : Program.Safe @allowed code) :
    outcome ≠ .faults := by
  induction exec with
  | running =>
      intro same
      cases same
  | done =>
      intro same
      cases same
  | perform _ _ inductionHypothesis =>
      cases safe with
      | perform _ others => exact inductionHypothesis (others _)
  | loop _ inductionHypothesis =>
      cases safe with
      | loop round others => exact inductionHypothesis (.unroll round others)
  | fault => cases safe

/-- A safe routine keeps what its accesses keep. -/
theorem Exec.safe {allowed : {reply : Type} → access reply → Prop}
    (keeps : ∀ {reply : Type} (request : access reply) before answer after, allowed request →
      server.answers request before answer after → after = before)
    {code : Program access result} {before after : state} {outcome : Outcome result}
    (exec : server.Exec code before outcome after) (safe : Program.Safe @allowed code) :
    after = before := by
  induction exec with
  | running => rfl
  | done => rfl
  | perform answered _ inductionHypothesis =>
      cases safe with
      | perform allows others =>
          have same := keeps _ _ _ _ allows answered
          exact same ▸ inductionHypothesis (others _)
  | loop _ inductionHypothesis =>
      cases safe with
      | loop round others => exact inductionHypothesis (.unroll round others)
  | fault => rfl

namespace Meets

/-- A safe routine leaves a state that no access of it changes. -/
theorem of_safe {allowed : {reply : Type} → access reply → Prop}
    (keeps : ∀ {reply : Type} (request : access reply) before answer after, allowed request →
      server.answers request before answer after → after = before)
    {code : Program access result} (safe : Program.Safe @allowed code)
    (holds : always current) (ends : ∀ value, post value current) :
    server.Meets always post code current where
  always _ _ exec := exec.safe keeps safe ▸ holds
  faultless _ exec := exec.faultless safe rfl
  returns value _ exec := exec.safe keeps safe ▸ ends value

theorem now {code : Program access result} (meets : server.Meets always post code current) :
    always current :=
  meets.always _ _ .running

/-- An access that is answered in one way only. -/
theorem perform_iff {request : access reply} {rest : reply → Program access result}
    {next : reply → state} (answers : ∀ answer after,
      server.answers request current answer after ↔ after = next answer) :
    server.Meets always post (.perform request rest) current ↔
      always current ∧ ∀ answer, server.Meets always post (rest answer) (next answer) := by
  constructor
  · intro meets
    exact ⟨meets.now, fun answer => meets.of_perform ((answers answer _).mpr rfl)⟩
  · rintro ⟨holds, others⟩
    apply Meets.perform holds
    intro answer after answered
    rw [(answers answer after).mp answered]
    exact others answer

end Meets

end Server

end BbbEth.Interference
