import BbbEth.Interference.Contract

/-!
# Routines that make only some accesses

Where an assertion survives every access of a kind, it survives a routine that
makes no other accesses, whatever replies the routine gets.
-/

namespace BbbEth.Interference

universe u v

namespace Program

variable {access : Type → Type u} {result final carried reply : Type}

/-- The routine makes only allowed accesses, does not fault, and comes to an end
whatever the replies. -/
inductive Within (allowed : {reply : Type} → access reply → Prop) :
    {result : Type} → Program access result → Prop where
  | done {result : Type} {value : result} : Within allowed (.done value)
  | perform {reply result : Type} {request : access reply}
      {rest : reply → Program access result} :
      allowed request → (∀ answer, Within allowed (rest answer)) →
      Within allowed (.perform request rest)
  | loop {carried reply result : Type}
      {body : carried → Program access (carried ⊕ reply)} {start : carried}
      {rest : reply → Program access result} :
      Within allowed (.unroll body start rest) → Within allowed (.loop body start rest)

namespace Within

variable {allowed wider : {reply : Type} → access reply → Prop}

theorem lift {request : access reply} (allows : allowed request) :
    Within @allowed (Program.lift request) :=
  .perform allows fun _ => .done

theorem bind {code : Program access result} {rest : result → Program access final}
    (first : Within @allowed code) (others : ∀ value, Within @allowed (rest value)) :
    Within @allowed (code >>= rest) := by
  induction first with
  | done => exact others _
  | perform allows _ inductionHypothesis =>
      exact .perform allows fun answer => inductionHypothesis answer others
  | @loop _ _ _ body start rest' _ inductionHypothesis =>
      apply Within.loop
      change Within @allowed (Program.unroll body start fun answer => rest' answer >>= rest)
      rw [← Program.unroll_bind]
      exact inductionHypothesis others

theorem mono {code : Program access result} (within : Within @allowed code)
    (widens : ∀ {reply : Type} (request : access reply), allowed request → wider request) :
    Within @wider code := by
  induction within with
  | done => exact .done
  | perform allows _ inductionHypothesis =>
      exact .perform (widens _ allows) inductionHypothesis
  | loop _ inductionHypothesis => exact .loop inductionHypothesis

theorem ite {condition : Prop} [Decidable condition] {left right : Program access result}
    (first : Within @allowed left) (second : Within @allowed right) :
    Within @allowed (if condition then left else right) := by
  split
  · exact first
  · exact second

/-- A round of a loop whose every outcome is within bounds. -/
theorem round {body : carried → Program access (carried ⊕ reply)} {start : carried}
    {rest : reply → Program access result} (first : Within @allowed (body start))
    (next : ∀ later, Within @allowed (.loop body later rest))
    (leave : ∀ answer, Within @allowed (rest answer)) :
    Within @allowed (.loop body start rest) := by
  apply Within.loop
  apply first.bind
  intro outcome
  cases outcome with
  | inl later => exact next later
  | inr answer => exact leave answer

end Within

end Program

namespace Contract

variable {access : Type → Type u} {state : Type v} {result : Type}

/-- An assertion that the environment keeps, and the accesses of a kind with it. -/
structure Keeps (contract : Contract access state)
    (allowed : {reply : Type} → access reply → Prop) (assertion : state → Prop) : Prop where
  stable : ∀ pending, contract.Stable pending assertion
  safe : ∀ current, assertion current → contract.safe current
  guarantee : ∀ {reply : Type} (request : access reply) current, allowed request →
    assertion current → contract.admits request current →
    contract.guarantee current (contract.perform request current).2
  moves : ∀ {reply : Type} (request : access reply) current, allowed request →
    assertion current → contract.admits request current →
    assertion (contract.perform request current).2

/-- The assertion survives a routine that makes no other accesses. -/
theorem Keeps.ensures {contract : Contract access state}
    {allowed : {reply : Type} → access reply → Prop} {assertion : state → Prop}
    (keeps : contract.Keeps @allowed assertion) {code : Program access result}
    (within : Program.Within @allowed code) {current : state} (holds : assertion current) :
    contract.Ensures (fun _ => assertion) code current := by
  induction within generalizing current with
  | done =>
      exact .of_done (keeps.stable none) holds keeps.safe fun _ kept => kept
  | perform allows _ inductionHypothesis =>
      apply Ensures.of_perform (keeps.stable _) holds keeps.safe
      · intro before kept admitted
        exact keeps.guarantee _ before allows kept admitted
      · intro before kept admitted
        exact inductionHypothesis _ (keeps.moves _ before allows kept admitted)
  | loop _ inductionHypothesis =>
      exact .of_loop (keeps.stable none) holds keeps.safe fun _ kept =>
        inductionHypothesis kept

/-- The routine takes one assertion to another. -/
def Leads (contract : Contract access state) (before after : state → Prop)
    (code : Program access result) : Prop :=
  ∀ current, before current → contract.Ensures (fun _ => after) code current

/-- The routine keeps an assertion. -/
abbrev Preserves (contract : Contract access state) (assertion : state → Prop)
    (code : Program access result) : Prop :=
  contract.Leads assertion assertion code

theorem Keeps.preserves {contract : Contract access state}
    {allowed : {reply : Type} → access reply → Prop} {assertion : state → Prop}
    (keeps : contract.Keeps @allowed assertion) {code : Program access result}
    (within : Program.Within @allowed code) : contract.Preserves assertion code :=
  fun _ holds => keeps.ensures within holds

namespace Leads

variable {contract : Contract access state} {final : Type}
variable {first middle last : state → Prop}

theorem bind {code : Program access result} {rest : result → Program access final}
    (leads : contract.Leads first middle code)
    (others : ∀ value, contract.Leads middle last (rest value)) :
    contract.Leads first last (code >>= rest) :=
  fun _ holds => (leads _ holds).bind fun value after kept => others value after kept

theorem ite {condition : Prop} [Decidable condition] {left right : Program access result}
    (positive : condition → contract.Leads first last left)
    (negative : ¬ condition → contract.Leads first last right) :
    contract.Leads first last (if condition then left else right) := by
  split
  · next holds => exact positive holds
  · next fails => exact negative fails

/-- A loop whose rounds count down, and keep one assertion until they establish the
other. -/
theorem countdown {carried : Type} {body : carried → Program access (carried ⊕ result)}
    (measure : carried → Nat) (stable : contract.Stable none first)
    (stableLast : contract.Stable none last)
    (safe : ∀ current, first current → contract.safe current)
    (safeLast : ∀ current, last current → contract.safe current)
    (round : ∀ start current, first current →
      contract.Ensures (fun outcome after =>
        (∀ next, outcome = .inl next → measure next < measure start ∧ first after) ∧
        ∀ answer, outcome = .inr answer → last after) (body start) current)
    (start : carried) : contract.Leads first last (.iterate body start) := by
  induction bound : measure start using Nat.strongRecOn generalizing start with
  | ind bound inductionHypothesis =>
      intro current holds
      apply Ensures.of_loop stable holds safe
      intro before kept
      apply (round start before kept).bind
      rintro (next | answer) after ⟨goesOn, leaves⟩
      · rcases goesOn next rfl with ⟨decreases, still⟩
        exact inductionHypothesis _ (bound ▸ decreases) next rfl after still
      · exact .of_done stableLast (leaves answer rfl) safeLast fun _ held => held

/-- A routine that has nothing left to do keeps an assertion. -/
theorem done {value : result} (stable : contract.Stable none first)
    (safe : ∀ current, first current → contract.safe current) :
    contract.Preserves first (.done value) :=
  fun _ holds => .of_done stable holds safe fun _ kept => kept

end Leads

end Contract

end BbbEth.Interference
