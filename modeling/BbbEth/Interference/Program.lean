import Mathlib.Logic.Relation

/-!
# Routines that run beside an environment

A routine is a tree of atomic accesses to a shared state.  Between two accesses
an environment may change the state, within a relation that can depend on the
access the routine is about to make.  This module defines routines, their
small-step runs, and the judgement that a routine, whatever the environment
does, comes to an end, never faults and ends in a given postcondition.

Nothing here refers to a particular machine or program.
-/

namespace BbbEth.Interference

universe u v

/-- A routine over a signature of atomic accesses.  `perform` makes one access
and continues with its reply, `loop` runs its body until the body answers with
`inr`, and `fault` is an access through a null pointer. -/
inductive Program (access : Type → Type u) : Type → Type (max 1 u) where
  | done {result : Type} : result → Program access result
  | perform {reply result : Type} :
      access reply → (reply → Program access result) → Program access result
  | loop {carried reply result : Type} :
      (carried → Program access (carried ⊕ reply)) → carried →
      (reply → Program access result) → Program access result
  | fault {result : Type} : Program access result

/-- An access together with the type of its reply. -/
abbrev Pending (access : Type → Type u) := Σ reply : Type, access reply

namespace Program

variable {access : Type → Type u} {reply result final carried : Type}

/-- Run `next` on the result of a routine. -/
def bind : {result : Type} → Program access result →
    (result → Program access final) → Program access final
  | _, .done value, next => next value
  | _, .perform request rest, next => .perform request fun answer => (rest answer).bind next
  | _, .loop body start rest, next => .loop body start fun answer => (rest answer).bind next
  | _, .fault, _ => .fault

instance : Monad (Program access) where
  pure := .done
  bind := bind

/-- A single access. -/
def lift (request : access reply) : Program access reply :=
  .perform request .done

/-- A loop whose result is the result of the routine. -/
def iterate (body : carried → Program access (carried ⊕ reply)) (start : carried) :
    Program access reply :=
  .loop body start .done

/-- One round of a loop: the body, then either the next round or the rest. -/
def unroll (body : carried → Program access (carried ⊕ reply)) (start : carried)
    (rest : reply → Program access result) : Program access result :=
  (body start).bind fun outcome =>
    match outcome with
    | .inl next => .loop body next rest
    | .inr answer => rest answer

/-- The access a routine makes next, if it is about to make one. -/
def pending : Program access result → Option (Pending access)
  | @perform _ reply _ request _ => some ⟨reply, request⟩
  | _ => none

@[simp] theorem pure_eq_done (value : result) :
    (pure value : Program access result) = .done value := rfl

@[simp] theorem bind_done (value : result) (next : result → Program access final) :
    (Program.done value : Program access result) >>= next = next value := rfl

@[simp] theorem bind_perform (request : access reply)
    (rest : reply → Program access result) (next : result → Program access final) :
    Program.perform request rest >>= next =
      .perform request fun answer => rest answer >>= next := rfl

@[simp] theorem bind_loop (body : carried → Program access (carried ⊕ reply))
    (start : carried) (rest : reply → Program access result)
    (next : result → Program access final) :
    Program.loop body start rest >>= next =
      .loop body start fun answer => rest answer >>= next := rfl

@[simp] theorem bind_fault (next : result → Program access final) :
    (Program.fault : Program access result) >>= next = .fault := rfl

@[simp] theorem bind_lift (request : access reply) (next : reply → Program access result) :
    lift request >>= next = .perform request next := rfl

@[simp] theorem bind_iterate (body : carried → Program access (carried ⊕ reply))
    (start : carried) (next : reply → Program access result) :
    iterate body start >>= next = .loop body start next := rfl

@[simp] theorem bind_eq (code : Program access result)
    (next : result → Program access final) : code.bind next = code >>= next := rfl

@[simp] theorem bind_assoc {last : Type} (code : Program access result)
    (next : result → Program access final) (after : final → Program access last) :
    code >>= next >>= after = code >>= fun value => next value >>= after := by
  induction code with
  | done value => rfl
  | perform request rest inductionHypothesis =>
      simp only [bind_perform]
      congr 1
      funext answer
      exact inductionHypothesis answer next
  | loop body start rest _ inductionHypothesis =>
      simp only [bind_loop]
      congr 1
      funext answer
      exact inductionHypothesis answer next
  | fault => rfl

@[simp] theorem bind_pure (code : Program access result) : code >>= .done = code := by
  induction code with
  | done value => rfl
  | perform request rest inductionHypothesis =>
      simp only [bind_perform]
      congr 1
      funext answer
      exact inductionHypothesis answer
  | loop body start rest _ inductionHypothesis =>
      simp only [bind_loop]
      congr 1
      funext answer
      exact inductionHypothesis answer
  | fault => rfl

/-- A loop that is followed by `next` is unfolded with `next` inside its rest. -/
theorem unroll_bind (body : carried → Program access (carried ⊕ reply))
    (start : carried) (rest : reply → Program access result)
    (next : result → Program access final) :
    unroll body start rest >>= next =
      unroll body start fun answer => rest answer >>= next := by
  simp only [unroll, bind_eq, bind_assoc]
  congr 1
  funext outcome
  cases outcome <;> rfl

@[simp] theorem bind_ite (condition : Prop) [Decidable condition]
    (left right : Program access result) (next : result → Program access final) :
    (if condition then left else right) >>= next =
      if condition then left >>= next else right >>= next := by
  split <;> rfl

end Program

/-- A state with a routine that is running in it. -/
structure Config (access : Type → Type u) (state : Type v) (result : Type) where
  state : state
  code : Program access result

/-- How accesses act, what the environment may do before a given access, and
which accesses the schedule under study admits. -/
structure Setting (access : Type → Type u) (state : Type v) where
  perform : {reply : Type} → access reply → state → reply × state
  rely : Option (Pending access) → state → state → Prop
  admits : {reply : Type} → access reply → state → Prop

namespace Setting

variable {access : Type → Type u} {state : Type v} {result final : Type}
variable (setting : Setting access state)

/-- Any number of environment steps before a given access. -/
abbrev Interferes (pending : Option (Pending access)) : state → state → Prop :=
  Relation.ReflTransGen (setting.rely pending)

/-- A step of the routine itself. -/
inductive CodeStep : Config access state result → Config access state result → Prop where
  | perform {reply : Type} {request : access reply}
      {rest : reply → Program access result} {current : state} :
      setting.admits request current →
      CodeStep ⟨current, .perform request rest⟩
        ⟨(setting.perform request current).2, rest (setting.perform request current).1⟩
  | unroll {carried reply : Type}
      {body : carried → Program access (carried ⊕ reply)} {start : carried}
      {rest : reply → Program access result} {current : state} :
      CodeStep ⟨current, .loop body start rest⟩ ⟨current, .unroll body start rest⟩

/-- A step of the routine or of its environment. -/
inductive Step : Config access state result → Config access state result → Prop where
  | interfere {current next : state} {code : Program access result} :
      setting.rely code.pending current next → Step ⟨current, code⟩ ⟨next, code⟩
  | code {before after : Config access state result} :
      setting.CodeStep before after → Step before after

/-- Interleaved runs. -/
abbrev Steps : Config access state result → Config access state result → Prop :=
  Relation.ReflTransGen setting.Step

/-- The routine makes a step of its own, after any number of environment steps. -/
def Advances (after before : Config access state result) : Prop :=
  ∃ middle, setting.Interferes before.code.pending before.state middle ∧
    setting.CodeStep ⟨middle, before.code⟩ after

/-- A complete run of a routine. -/
def Returns (code : Program access result) (before : state) (value : result)
    (after : state) : Prop :=
  setting.Steps ⟨before, code⟩ ⟨after, .done value⟩

/-- Total correctness: in every interleaving the routine makes finitely many steps,
never faults, and ends in `post`. -/
structure Completes (code : Program access result) (current : state)
    (post : result → state → Prop) : Prop where
  finite : Acc setting.Advances ⟨current, code⟩
  faultless : ∀ config, setting.Steps ⟨current, code⟩ config → config.code ≠ .fault
  ends : ∀ value after, setting.Returns code current value after → post value after

theorem codeStep_bind {before after : Config access state result}
    (step : setting.CodeStep before after) (next : result → Program access final) :
    setting.CodeStep ⟨before.state, before.code >>= next⟩
      ⟨after.state, after.code >>= next⟩ := by
  cases step with
  | perform admitted => exact .perform admitted
  | unroll =>
      rw [Program.unroll_bind]
      exact .unroll

end Setting

end BbbEth.Interference
