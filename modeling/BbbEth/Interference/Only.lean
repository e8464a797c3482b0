import BbbEth.Interference.Server

/-!
# Accesses that a routine can make

A routine makes only allowed accesses if no run of it, whatever the answers, makes another
one.  A relation that every allowed access keeps is then kept by each of its runs.
-/

namespace BbbEth.Interference

universe u v

namespace Program

variable {access : Type → Type u} {result final carried reply : Type}

/-- Some run of the routine, with some answers, makes the access. -/
inductive Makes {wanted : Type} (request : access wanted) :
    {result : Type} → Program access result → Prop where
  | now {result : Type} {rest : wanted → Program access result} :
      Makes request (.perform request rest)
  | later {reply result : Type} {request' : access reply}
      {rest : reply → Program access result} (answer : reply) :
      Makes request (rest answer) → Makes request (.perform request' rest)
  | loop {carried reply result : Type} {body : carried → Program access (carried ⊕ reply)}
      {start : carried} {rest : reply → Program access result} :
      Makes request (.unroll body start rest) → Makes request (.loop body start rest)

/-- What the first part of a sequence makes, the sequence makes. -/
theorem Makes.bind {wanted : Type} {request : access wanted} {code : Program access result}
    (makes : code.Makes request) (rest : result → Program access final) :
    (code >>= rest).Makes request := by
  induction makes with
  | now => exact .now
  | later answer _ inductionHypothesis => exact .later answer (inductionHypothesis rest)
  | loop _ inductionHypothesis =>
      apply Makes.loop
      have makes := inductionHypothesis rest
      rwa [unroll_bind] at makes

/-- The routine makes only allowed accesses. -/
inductive Only (allowed : {reply : Type} → access reply → Prop) :
    {result : Type} → Program access result → Prop where
  | done {result : Type} {value : result} : Only allowed (.done value)
  | perform {reply result : Type} {request : access reply}
      {rest : reply → Program access result} :
      allowed request → (∀ answer, Only allowed (rest answer)) →
      Only allowed (.perform request rest)
  | loop {carried reply result : Type} {body : carried → Program access (carried ⊕ reply)}
      {start : carried} {rest : reply → Program access result} :
      (∀ start, Only allowed (body start)) → (∀ answer, Only allowed (rest answer)) →
      Only allowed (.loop body start rest)
  | fault {result : Type} : Only allowed (.fault : Program access result)

namespace Only

variable {allowed : {reply : Type} → access reply → Prop}

theorem lift {request : access reply} (allows : allowed request) :
    Only @allowed (Program.lift request) :=
  .perform allows fun _ => .done

theorem iterate {body : carried → Program access (carried ⊕ reply)} {start : carried}
    (round : ∀ start, Only @allowed (body start)) : Only @allowed (.iterate body start) :=
  .loop round fun _ => .done

theorem bind {code : Program access result} {rest : result → Program access final}
    (first : Only @allowed code) (others : ∀ value, Only @allowed (rest value)) :
    Only @allowed (code >>= rest) := by
  induction first with
  | done => exact others _
  | perform allows _ inductionHypothesis =>
      exact .perform allows fun answer => inductionHypothesis answer others
  | loop round _ _ inductionHypothesis =>
      exact .loop round fun answer => inductionHypothesis answer others
  | fault => exact .fault

theorem ite {condition : Prop} [Decidable condition] {left right : Program access result}
    (first : Only @allowed left) (second : Only @allowed right) :
    Only @allowed (if condition then left else right) := by
  split
  · exact first
  · exact second

theorem unroll {body : carried → Program access (carried ⊕ reply)} {start : carried}
    {rest : reply → Program access result} (round : ∀ start, Only @allowed (body start))
    (others : ∀ answer, Only @allowed (rest answer)) :
    Only @allowed (.unroll body start rest) := by
  apply (round start).bind
  intro outcome
  cases outcome with
  | inl later => exact .loop round others
  | inr answer => exact others answer

/-- A routine does not make an access that is not allowed. -/
theorem not_makes {wanted : Type} {request : access wanted} (denied : ¬ allowed request)
    {code : Program access result} (only : Only @allowed code) : ¬ code.Makes request := by
  intro makes
  induction makes with
  | now =>
      cases only with
      | perform allows _ => exact denied allows
  | later answer _ inductionHypothesis =>
      cases only with
      | perform _ others => exact inductionHypothesis (others answer)
  | loop _ inductionHypothesis =>
      cases only with
      | loop round others => exact inductionHypothesis (.unroll round others)

end Only

end Program

namespace Server

variable {access : Type → Type u} {state : Type v} {result final reply : Type}
variable (server : Server access state)

/-- A postcondition holds wherever the routine returns. -/
def Ends (post : result → state → Prop) (code : Program access result) (current : state) :
    Prop :=
  ∀ value after, server.Exec code current (.returns value) after → post value after

variable {server} {post : result → state → Prop} {current : state}

namespace Ends

theorem done {value : result} (holds : post value current) :
    server.Ends post (.done value) current := by
  intro _ _ exec
  cases exec
  exact holds

theorem fault : server.Ends post .fault current := nofun

theorem perform {request : access reply} {rest : reply → Program access result}
    (others : ∀ answer next, server.answers request current answer next →
      server.Ends post (rest answer) next) : server.Ends post (.perform request rest) current := by
  intro value after exec
  cases exec with
  | perform answered others' => exact others _ _ answered value after others'

theorem bind {middle : result → state → Prop} {post : final → state → Prop}
    {code : Program access result} {rest : result → Program access final}
    (first : server.Ends middle code current)
    (others : ∀ value next, middle value next → server.Ends post (rest value) next) :
    server.Ends post (code >>= rest) current := by
  intro value after exec
  cases exec.split with
  | returns exec more => exact others _ _ (first _ _ exec) value after more

theorem mono {stronger : result → state → Prop} {code : Program access result}
    (ends : server.Ends stronger code current)
    (implies : ∀ value after, stronger value after → post value after) :
    server.Ends post code current :=
  fun value after exec => implies value after (ends value after exec)

end Ends

/-- What every allowed access keeps is kept by every run. -/
theorem Exec.only {allowed : {reply : Type} → access reply → Prop} {kept : state → state → Prop}
    (refl : ∀ current, kept current current)
    (trans : ∀ {first second third}, kept first second → kept second third → kept first third)
    (keeps : ∀ {reply : Type} (request : access reply) before answer after, allowed request →
      server.answers request before answer after → kept before after)
    {code : Program access result} {before after : state} {outcome : Outcome result}
    (exec : server.Exec code before outcome after) (only : Program.Only @allowed code) :
    kept before after := by
  induction exec with
  | running => exact refl _
  | done => exact refl _
  | perform answered _ inductionHypothesis =>
      cases only with
      | perform allows others =>
          exact trans (keeps _ _ _ _ allows answered) (inductionHypothesis (others _))
  | loop _ inductionHypothesis =>
      cases only with
      | loop round others => exact inductionHypothesis (.unroll round others)
  | fault => exact refl _

end Server

end BbbEth.Interference
