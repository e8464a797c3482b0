import BbbEth.Interference.Only

/-!
# Routines that match

Two routines match if they make the same accesses, whatever the answers, and end with
related results.  A routine then meets what the other one meets.
-/

namespace BbbEth.Interference

universe u v

namespace Program

variable {access : Type → Type u}

/-- The routines make the same accesses, and their results are related. -/
inductive Matches {left right : Type} (related : left → right → Prop) :
    Program access left → Program access right → Prop where
  | done {value : left} {value' : right} : related value value' →
      Matches related (.done value) (.done value')
  | perform {reply : Type} {request : access reply} {rest : reply → Program access left}
      {rest' : reply → Program access right} :
      (∀ answer, Matches related (rest answer) (rest' answer)) →
      Matches related (.perform request rest) (.perform request rest')
  | loop {carried reply : Type} {body : carried → Program access (carried ⊕ reply)}
      {start : carried} {rest : reply → Program access left}
      {rest' : reply → Program access right} :
      (∀ answer, Matches related (rest answer) (rest' answer)) →
      Matches related (.loop body start rest) (.loop body start rest')
  | fault : Matches related .fault .fault

namespace Matches

variable {left right final last : Type} {related : left → right → Prop}
variable {code : Program access left} {code' : Program access right}

theorem bind {ending : final → last → Prop} {rest : left → Program access final}
    {rest' : right → Program access last} (first : Matches related code code')
    (others : ∀ value value', related value value' → Matches ending (rest value) (rest' value')) :
    Matches ending (code >>= rest) (code' >>= rest') := by
  induction first with
  | done relates => exact others _ _ relates
  | perform _ inductionHypothesis => exact .perform inductionHypothesis
  | loop _ inductionHypothesis => exact .loop inductionHypothesis
  | fault => exact .fault

theorem refl (code : Program access left) : Matches Eq code code := by
  induction code with
  | done value => exact .done rfl
  | perform _ _ inductionHypothesis => exact .perform inductionHypothesis
  | loop _ _ _ _ inductionHypothesis => exact .loop inductionHypothesis
  | fault => exact .fault

theorem mono {weaker : left → right → Prop} (matching : Matches related code code')
    (implies : ∀ value value', related value value' → weaker value value') :
    Matches weaker code code' := by
  induction matching with
  | done relates => exact .done (implies _ _ relates)
  | perform _ inductionHypothesis => exact .perform inductionHypothesis
  | loop _ inductionHypothesis => exact .loop inductionHypothesis
  | fault => exact .fault

theorem symm (matching : Matches related code code') :
    Matches (fun value value' => related value' value) code' code := by
  induction matching with
  | done relates => exact .done relates
  | perform _ inductionHypothesis => exact .perform inductionHypothesis
  | loop _ inductionHypothesis => exact .loop inductionHypothesis
  | fault => exact .fault

theorem unroll {carried reply : Type} {body : carried → Program access (carried ⊕ reply)}
    {start : carried} {rest : reply → Program access left}
    {rest' : reply → Program access right}
    (others : ∀ answer, Matches related (rest answer) (rest' answer)) :
    Matches related (.unroll body start rest) (.unroll body start rest') := by
  apply (refl (body start)).bind
  rintro outcome _ rfl
  cases outcome with
  | inl later => exact .loop others
  | inr answer => exact others answer

/-- Where the results do not matter, routines that match are the same. -/
theorem forget (matching : Matches related code code') :
    (code >>= fun _ => .done ()) = code' >>= fun _ => (.done () : Program access Unit) := by
  induction matching with
  | done => rfl
  | perform _ inductionHypothesis =>
      rw [bind_perform, bind_perform]
      congr 1
      funext answer
      exact inductionHypothesis answer
  | loop _ inductionHypothesis =>
      rw [bind_loop, bind_loop]
      congr 1
      funext answer
      exact inductionHypothesis answer
  | fault => rfl

end Matches

section Makes

variable {left right wanted : Type} {related : left → right → Prop} {request : access wanted}

/-- Routines that match make the same accesses. -/
theorem Makes.matches {code : Program access left} {code' : Program access right}
    (makes : code.Makes request) (matching : Matches related code code') : code'.Makes request := by
  induction makes generalizing right with
  | now =>
      cases matching with
      | perform _ => exact .now
  | later answer _ inductionHypothesis =>
      cases matching with
      | perform others => exact .later answer (inductionHypothesis (others answer))
  | loop _ inductionHypothesis =>
      cases matching with
      | loop others => exact .loop (inductionHypothesis (.unroll others))

theorem Matches.makes_iff {code : Program access left} {code' : Program access right}
    (matching : Matches related code code') : code.Makes request ↔ code'.Makes request :=
  ⟨fun makes => makes.matches matching, fun makes => makes.matches matching.symm⟩

end Makes

end Program

/-- How far two routines have come that match. -/
inductive Outcome.Related {left right : Type} (related : left → right → Prop) :
    Outcome left → Outcome right → Prop where
  | returns {value : left} {value' : right} : related value value' →
      Related related (.returns value) (.returns value')
  | faults : Related related .faults .faults
  | running : Related related .running .running

namespace Server

variable {access : Type → Type u} {state : Type v} {left right : Type}
variable {server : Server access state} {related : left → right → Prop}
variable {code : Program access left} {code' : Program access right}

/-- A run of a routine is a run of each routine that it matches. -/
theorem Exec.matches {current after : state} {outcome : Outcome left}
    (exec : server.Exec code current outcome after) (matching : code.Matches related code') :
    ∃ outcome', server.Exec code' current outcome' after ∧ outcome.Related related outcome' := by
  induction exec generalizing code' with
  | running => exact ⟨.running, .running, .running⟩
  | done =>
      cases matching with
      | done relates => exact ⟨_, .done, .returns relates⟩
  | perform answered _ inductionHypothesis =>
      cases matching with
      | perform others =>
          rcases inductionHypothesis (others _) with ⟨outcome', exec', relates⟩
          exact ⟨outcome', .perform answered exec', relates⟩
  | loop _ inductionHypothesis =>
      cases matching with
      | loop others =>
          rcases inductionHypothesis (.unroll others) with ⟨outcome', exec', relates⟩
          exact ⟨outcome', .loop exec', relates⟩
  | fault =>
      cases matching with
      | fault => exact ⟨_, .fault, .faults⟩

/-- A routine meets what the routine that it matches meets. -/
theorem Meets.matches {always : state → Prop} {post : left → state → Prop}
    {post' : right → state → Prop} {current : state}
    (meets : server.Meets always post' code' current) (matching : code.Matches related code')
    (implies : ∀ value value' after, related value value' → post' value' after →
      post value after) : server.Meets always post code current where
  always outcome after exec := by
    rcases exec.matches matching with ⟨outcome', exec', _⟩
    exact meets.always _ _ exec'
  faultless after exec := by
    rcases exec.matches matching with ⟨_, exec', relates⟩
    cases relates
    exact meets.faultless _ exec'
  returns value after exec := by
    rcases exec.matches matching with ⟨_, exec', relates⟩
    cases relates with
    | returns relates => exact implies _ _ _ relates (meets.returns _ _ exec')

end Server

end BbbEth.Interference
