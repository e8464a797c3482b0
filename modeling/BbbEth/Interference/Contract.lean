import BbbEth.Interference.Program

/-!
# Total correctness under interference

`Contract.Ensures` is the rely/guarantee judgement of this library: whatever the
environment does between two accesses, the routine comes to an end without a
fault, every state on the way is safe, every access it makes respects the
guarantee, and the final state meets the postcondition.  The rules below follow
the constructors of `Program`; a loop is unfolded one round at a time, so a proof
about a loop is an induction on whatever bounds it.
-/

namespace BbbEth.Interference

universe u v

/-- What is demanded of every state, and of every access the routine makes, and
whether it may fault. -/
structure Contract (access : Type → Type u) (state : Type v) extends
    Setting access state where
  safe : state → Prop
  guarantee : state → state → Prop
  mayFault : Prop

namespace Contract

variable {access : Type → Type u} {state : Type v} {reply result final carried : Type}
variable (contract : Contract access state)

/-- The routine ends in `post`, safely, in every interleaving, unless it faults and
may do so. -/
inductive Ensures (post : result → state → Prop) :
    Program access result → state → Prop where
  | done {value : result} {current : state} :
      (∀ next, contract.Interferes none current next →
        contract.safe next) →
      (∀ next, contract.Interferes none current next → post value next) →
      Ensures post (.done value) current
  | perform {reply : Type} {request : access reply}
      {rest : reply → Program access result} {current : state} :
      (∀ next, contract.Interferes (some ⟨reply, request⟩) current next →
        contract.safe next) →
      (∀ next, contract.Interferes (some ⟨reply, request⟩) current next →
        contract.admits request next →
        contract.guarantee next (contract.perform request next).2) →
      (∀ next, contract.Interferes (some ⟨reply, request⟩) current next →
        contract.admits request next →
        Ensures post (rest (contract.perform request next).1)
          (contract.perform request next).2) →
      Ensures post (.perform request rest) current
  | loop {carried reply : Type}
      {body : carried → Program access (carried ⊕ reply)} {start : carried}
      {rest : reply → Program access result} {current : state} :
      (∀ next, contract.Interferes none current next → contract.safe next) →
      (∀ next, contract.Interferes none current next →
        Ensures post (.unroll body start rest) next) →
      Ensures post (.loop body start rest) current
  | fault {current : state} :
      (∀ next, contract.Interferes none current next → contract.safe next) →
      contract.mayFault → Ensures post .fault current

/-- An assertion the environment keeps before a given access. -/
def Stable (pending : Option (Pending access)) (assertion : state → Prop) : Prop :=
  ∀ current next, assertion current → contract.rely pending current next →
    assertion next

variable {contract} {post : result → state → Prop} {current next : state}
variable {pending : Option (Pending access)} {assertion : state → Prop}

theorem Stable.interferes (stable : contract.Stable pending assertion)
    (interference : contract.Interferes pending current next)
    (holds : assertion current) : assertion next := by
  induction interference with
  | refl => exact holds
  | tail _ step inductionHypothesis => exact stable _ _ inductionHypothesis step

namespace Ensures

/-- A finished routine: the assertion is stable, safe and implies the result. -/
theorem of_done {value : result} (stable : contract.Stable none assertion)
    (holds : assertion current)
    (safe : ∀ after, assertion after → contract.safe after)
    (implies : ∀ after, assertion after → post value after) :
    contract.Ensures post (.done value) current :=
  .done (fun _ interference => safe _ (stable.interferes interference holds))
    (fun _ interference => implies _ (stable.interferes interference holds))

/-- One access: a stable assertion before it, and the rest from its effect. -/
theorem of_perform {request : access reply} {rest : reply → Program access result}
    (stable : contract.Stable (some ⟨reply, request⟩) assertion)
    (holds : assertion current)
    (safe : ∀ before, assertion before → contract.safe before)
    (guarantee : ∀ before, assertion before → contract.admits request before →
      contract.guarantee before (contract.perform request before).2)
    (continues : ∀ before, assertion before → contract.admits request before →
      contract.Ensures post (rest (contract.perform request before).1)
        (contract.perform request before).2) :
    contract.Ensures post (.perform request rest) current :=
  .perform
    (fun _ interference => safe _ (stable.interferes interference holds))
    (fun _ interference admitted =>
      guarantee _ (stable.interferes interference holds) admitted)
    (fun _ interference admitted =>
      continues _ (stable.interferes interference holds) admitted)

/-- One round of a loop. -/
theorem of_loop {body : carried → Program access (carried ⊕ reply)} {start : carried}
    {rest : reply → Program access result}
    (stable : contract.Stable none assertion) (holds : assertion current)
    (safe : ∀ before, assertion before → contract.safe before)
    (continues : ∀ before, assertion before →
      contract.Ensures post (.unroll body start rest) before) :
    contract.Ensures post (.loop body start rest) current :=
  .loop (fun _ interference => safe _ (stable.interferes interference holds))
    (fun _ interference => continues _ (stable.interferes interference holds))

theorem mono {post weaker : result → state → Prop} {code : Program access result}
    (ensures : contract.Ensures post code current)
    (implies : ∀ value after, post value after → weaker value after) :
    contract.Ensures weaker code current := by
  induction ensures with
  | done safe holds =>
      exact .done safe fun after interference => implies _ after (holds after interference)
  | perform safe guarantee _ inductionHypothesis =>
      exact .perform safe guarantee inductionHypothesis
  | loop safe _ inductionHypothesis => exact .loop safe inductionHypothesis
  | fault safe tolerated => exact .fault safe tolerated

/-- Sequential composition. -/
theorem bind {middle : result → state → Prop} {post : final → state → Prop}
    {code : Program access result} {rest : result → Program access final}
    (ensures : contract.Ensures middle code current)
    (continues : ∀ value after, middle value after →
      contract.Ensures post (rest value) after) :
    contract.Ensures post (code >>= rest) current := by
  induction ensures with
  | done _ holds => exact continues _ _ (holds _ .refl)
  | perform safe guarantee _ inductionHypothesis =>
      exact .perform safe guarantee inductionHypothesis
  | @loop _ _ body start rest' current safe _ inductionHypothesis =>
      refine .loop safe fun after interference => ?_
      change contract.Ensures post
        (Program.unroll body start fun answer => rest' answer >>= rest) after
      rw [← Program.unroll_bind]
      exact inductionHypothesis after interference
  | fault safe tolerated => exact .fault safe tolerated

theorem safe {code : Program access result}
    (ensures : contract.Ensures post code current) : contract.safe current := by
  cases ensures with
  | done safe _ => exact safe _ .refl
  | perform safe _ _ => exact safe _ .refl
  | loop safe _ => exact safe _ .refl
  | fault safe _ => exact safe _ .refl

theorem of_interferes {code : Program access result}
    (ensures : contract.Ensures post code current)
    (interference : contract.Interferes code.pending current next) :
    contract.Ensures post code next := by
  cases ensures with
  | done safe holds =>
      exact .done (fun after later => safe after (interference.trans later))
        (fun after later => holds after (interference.trans later))
  | perform safe guarantee continues =>
      exact .perform (fun after later => safe after (interference.trans later))
        (fun after later => guarantee after (interference.trans later))
        (fun after later => continues after (interference.trans later))
  | loop safe continues =>
      exact .loop (fun after later => safe after (interference.trans later))
        (fun after later => continues after (interference.trans later))
  | fault safe tolerated =>
      exact .fault (fun after later => safe after (interference.trans later)) tolerated

theorem of_codeStep {before after : Config access state result}
    (ensures : contract.Ensures post before.code before.state)
    (step : contract.CodeStep before after) :
    contract.Ensures post after.code after.state := by
  cases step with
  | perform admitted =>
      cases ensures with
      | perform _ _ continues => exact continues _ .refl admitted
  | unroll =>
      cases ensures with
      | loop _ continues => exact continues _ .refl

theorem of_steps {before after : Config access state result}
    (ensures : contract.Ensures post before.code before.state)
    (steps : contract.Steps before after) :
    contract.Ensures post after.code after.state := by
  induction steps with
  | refl => exact ensures
  | tail _ step inductionHypothesis =>
      cases step with
      | interfere rely => exact inductionHypothesis.of_interferes (.single rely)
      | code step => exact inductionHypothesis.of_codeStep step

/-- Every complete run ends in the postcondition. -/
theorem post_of_returns {code : Program access result} {value : result}
    (ensures : contract.Ensures post code current)
    (returns : contract.Returns code current value next) : post value next := by
  have final : contract.Ensures post (.done value) next := ensures.of_steps returns
  cases final with
  | done _ holds => exact holds _ .refl

theorem ne_fault {code : Program access result} (strict : ¬ contract.mayFault)
    (ensures : contract.Ensures post code current) : code ≠ .fault := by
  intro equal
  subst equal
  cases ensures with
  | fault _ tolerated => exact strict tolerated

/-- However the environment interferes, the routine's own steps are finite in
number. -/
theorem finite {code : Program access result}
    (ensures : contract.Ensures post code current) :
    Acc contract.Advances ⟨current, code⟩ := by
  induction ensures with
  | done =>
      constructor
      rintro after ⟨middle, _, step⟩
      cases step
  | perform _ _ _ inductionHypothesis =>
      constructor
      rintro after ⟨middle, interference, step⟩
      cases step with
      | perform admitted => exact inductionHypothesis middle interference admitted
  | loop _ _ inductionHypothesis =>
      constructor
      rintro after ⟨middle, interference, step⟩
      cases step with
      | unroll => exact inductionHypothesis middle interference
  | fault =>
      constructor
      rintro after ⟨middle, _, step⟩
      cases step

theorem completes {code : Program access result} (strict : ¬ contract.mayFault)
    (ensures : contract.Ensures post code current) : contract.Completes code current post where
  finite := ensures.finite
  faultless _ steps := (ensures.of_steps steps).ne_fault strict
  ends _ _ returns := ensures.post_of_returns returns

/-- Where every access is admitted, a complete run exists in which the
environment stays still. -/
theorem exists_returns {code : Program access result} (strict : ¬ contract.mayFault)
    (ensures : contract.Ensures post code current)
    (admits : ∀ {reply : Type} (request : access reply) before,
      contract.admits request before) :
    ∃ value after, contract.Returns code current value after ∧ post value after := by
  induction ensures with
  | done _ holds => exact ⟨_, _, .refl, holds _ .refl⟩
  | perform _ _ _ inductionHypothesis =>
      obtain ⟨value, after, run, holds⟩ := inductionHypothesis _ .refl (admits _ _)
      exact ⟨value, after, .head (.code (.perform (admits _ _))) run, holds⟩
  | loop _ _ inductionHypothesis =>
      obtain ⟨value, after, run, holds⟩ := inductionHypothesis _ .refl
      exact ⟨value, after, .head (.code .unroll) run, holds⟩
  | fault _ tolerated => exact (strict tolerated).elim

end Ensures

end Contract

end BbbEth.Interference
