import BbbEth.Interference.Server

/-!
# What a routine returns

The complete runs of a served routine, read off the routine step by step.
-/

namespace BbbEth.Interference.Server

universe u v

variable {access : Type → Type u} {state : Type v} {result final carried reply : Type}
variable {server : Server access state} {current after : state}

/-- A complete run, with its result and the state it leaves. -/
def Results (server : Server access state) (code : Program access result) (current : state)
    (value : result) (after : state) : Prop :=
  server.Exec code current (.returns value) after

@[simp] theorem results_done {value value' : result} :
    server.Results (.done value) current value' after ↔ value' = value ∧ after = current := by
  constructor
  · intro exec
    cases exec
    exact ⟨rfl, rfl⟩
  · rintro ⟨rfl, rfl⟩
    exact .done

@[simp] theorem results_perform {request : access reply} {rest : reply → Program access result}
    {value : result} : server.Results (.perform request rest) current value after ↔
      ∃ answer next, server.answers request current answer next ∧
        server.Results (rest answer) next value after := by
  constructor
  · intro exec
    cases exec with
    | perform answered others => exact ⟨_, _, answered, others⟩
  · rintro ⟨answer, next, answered, others⟩
    exact .perform answered others

@[simp] theorem results_lift {request : access reply} {value : reply} :
    server.Results (.lift request) current value after ↔
      server.answers request current value after := by
  constructor
  · intro exec
    rcases results_perform.mp exec with ⟨answer, next, answered, ends⟩
    rcases results_done.mp ends with ⟨rfl, rfl⟩
    exact answered
  · intro answered
    exact results_perform.mpr ⟨_, _, answered, results_done.mpr ⟨rfl, rfl⟩⟩

/-- A sequence returns what its second part does, after the first. -/
theorem results_bind {code : Program access result} {rest : result → Program access final}
    {value : final} : server.Results (code >>= rest) current value after ↔
      ∃ first next, server.Results code current first next ∧
        server.Results (rest first) next value after := by
  constructor
  · intro exec
    cases exec.split with
    | returns first others => exact ⟨_, _, first, others⟩
  · rintro ⟨first, next, ends, others⟩
    exact Exec.bind ends others

@[simp] theorem results_ite {condition : Prop} [Decidable condition]
    {left right : Program access result} {value : result} :
    server.Results (if condition then left else right) current value after ↔
      if condition then server.Results left current value after
      else server.Results right current value after := by
  split <;> rfl

@[simp] theorem results_fault {value : result} :
    ¬ server.Results (.fault : Program access result) current value after := nofun

/-- A loop returns after a round, or after a round and the other ones. -/
theorem results_iterate {body : carried → Program access (carried ⊕ reply)} {start : carried}
    {value : reply} : server.Results (.iterate body start) current value after ↔
      (∃ later next, server.Results (body start) current (.inl later) next ∧
        server.Results (.iterate body later) next value after) ∨
      server.Results (body start) current (.inr value) after := by
  have unfolded : server.Results (.iterate body start) current value after ↔
      server.Results (body start >>= resume body) current value after := by
    rw [← unroll_resume]
    constructor
    · intro exec
      cases exec with
      | loop exec => exact exec
    · exact .loop
  rw [unfolded, results_bind]
  constructor
  · rintro ⟨outcome, next, round, others⟩
    cases outcome with
    | inl later => exact .inl ⟨later, next, round, others⟩
    | inr answer =>
        rcases results_done.mp others with ⟨rfl, rfl⟩
        exact .inr round
  · rintro (⟨later, next, round, others⟩ | round)
    · exact ⟨.inl later, next, round, others⟩
    · exact ⟨.inr value, after, round, results_done.mpr ⟨rfl, rfl⟩⟩

section Loop

variable {invariant : carried → state → Prop} {post : reply → state → Prop}
variable {body : carried → Program access (carried ⊕ reply)}

/-- What a complete round of a loop leaves. -/
def RoundLeaves (invariant : carried → state → Prop) (post : reply → state → Prop) :
    carried ⊕ reply → state → Prop
  | .inl later, next => invariant later next
  | .inr answer, next => post answer next

/-- A complete run that is inside of a round. -/
theorem Exec.leaves
    (round : ∀ start current outcome next, invariant start current →
      server.Results (body start) current outcome next → RoundLeaves invariant post outcome next)
    {code : Program access (carried ⊕ reply)} {sequence : Program access reply}
    {outcome : Outcome reply} (exec : server.Exec sequence current outcome after)
    (whole : code >>= resume body = sequence)
    (ends : ∀ outcome next, server.Results code current outcome next →
      RoundLeaves invariant post outcome next) :
    ∀ value, outcome = .returns value → post value after := by
  induction exec with
  | running => exact nofun
  | done =>
      rintro _ ⟨⟩
      cases code with
      | done value =>
          cases value with
          | inl later => cases whole
          | inr answer =>
              cases whole
              exact ends _ _ .done
      | _ => cases whole
  | perform answered _ inductionHypothesis =>
      cases code with
      | done value =>
          cases value with
          | inl later => cases whole
          | inr answer => cases whole
      | perform request rest =>
          cases whole
          exact inductionHypothesis round rfl fun outcome next run =>
            ends outcome next (.perform answered run)
      | _ => cases whole
  | loop others inductionHypothesis =>
      cases code with
      | done value =>
          cases value with
          | inl later =>
              cases whole
              exact inductionHypothesis round (unroll_resume _ later).symm fun outcome next run =>
                round later _ outcome next (ends _ _ .done) run
          | inr answer => cases whole
      | loop body' start' rest =>
          cases whole
          exact inductionHypothesis round (Program.unroll_bind ..) fun outcome next run =>
            ends outcome next (.loop run)
      | _ => cases whole
  | fault => exact nofun

/-- What every round keeps, or leaves when it is the last one. -/
theorem Results.leaves (invariant : carried → state → Prop) (post : reply → state → Prop)
    {start : carried} {value : reply}
    (run : server.Results (.iterate body start) current value after)
    (holds : invariant start current)
    (round : ∀ start current outcome next, invariant start current →
      server.Results (body start) current outcome next →
        RoundLeaves invariant post outcome next) : post value after := by
  have started : Program.done (.inl start) >>= resume body = .iterate body start := rfl
  refine Exec.leaves round run started ?_ value rfl
  intro outcome next ends
  rcases results_done.mp ends with ⟨rfl, rfl⟩
  exact holds

end Loop

end BbbEth.Interference.Server
