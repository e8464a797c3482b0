import BbbEth.Interference.Outline
import BbbEth.Interference.Within

/-!
# Runs under a fixed schedule

A schedule fixes what the environment does before each access.  A routine that
runs under it, with the replies this gives, has an interleaved run.
-/

namespace BbbEth.Interference

universe u v

/-- What the environment does before each access. -/
structure Schedule {access : Type → Type u} {state : Type v}
    (setting : Setting access state) where
  ahead : {reply : Type} → access reply → state → state
  follows : ∀ {reply : Type} (request : access reply) current,
    setting.Interferes (some ⟨reply, request⟩) current (ahead request current)

namespace Schedule

variable {access : Type → Type u} {state : Type v} {result final : Type}
variable {setting : Setting access state}

/-- The schedule in which the environment does nothing. -/
def still (setting : Setting access state) : Schedule setting where
  ahead _ current := current
  follows _ _ := .refl

/-- The only run under the schedule. -/
def outline (schedule : Schedule setting) : Outline access state where
  permits request current := setting.admits request (schedule.ahead request current)
  replies request current answer :=
    answer = (setting.perform request (schedule.ahead request current)).1
  moves request current _ next :=
    next = (setting.perform request (schedule.ahead request current)).2

variable {schedule : Schedule setting}

/-- One access of a run. -/
theorem runs_perform {reply : Type} {request : access reply}
    {rest : reply → Program access result} {current after : state} {value : result}
    (admitted : setting.admits request (schedule.ahead request current))
    (others : schedule.outline.Runs
      (rest (setting.perform request (schedule.ahead request current)).1)
      (setting.perform request (schedule.ahead request current)).2 value after) :
    schedule.outline.Runs (.perform request rest) current value after :=
  .perform (fun _ => (setting.perform request (schedule.ahead request current)).2)
    admitted (fun _ _ => rfl) fun _ given => given ▸ others

/-- The environment moves while a routine waits. -/
theorem steps_of_interferes {code : Program access result} {before after : state}
    (interference : setting.Interferes code.pending before after) :
    setting.Steps ⟨before, code⟩ ⟨after, code⟩ := by
  induction interference with
  | refl => exact .refl
  | tail _ step others => exact others.tail (.interfere step)

/-- A routine that runs under the schedule has a run. -/
theorem steps {code : Program access result} {before after : state} {value : result}
    (runs : schedule.outline.Runs code before value after)
    (rest : result → Program access final) :
    setting.Steps ⟨before, code >>= rest⟩ ⟨after, rest value⟩ := by
  induction runs with
  | done => exact .refl
  | @perform reply _ request rest' before after value middle admitted moves _
      inductionHypothesis =>
      have ahead : setting.Steps ⟨before, Program.perform request rest' >>= rest⟩
          ⟨schedule.ahead request before, Program.perform request rest' >>= rest⟩ :=
        steps_of_interferes (schedule.follows request before)
      have moved := moves _ rfl
      have others := inductionHypothesis _ rfl rest
      rw [moved] at others
      exact (ahead.tail (.code (.perform admitted))).trans others
  | @loop _ _ _ body start rest' before after value _ inductionHypothesis =>
      have others := inductionHypothesis rest
      rw [Program.unroll_bind] at others
      exact .head (.code .unroll) others

theorem returns {code : Program access result} {before after : state} {value : result}
    (runs : schedule.outline.Runs code before value after) :
    setting.Returns code before value after := by
  have run := steps runs (fun last => (.done last : Program access result))
  rwa [Program.bind_pure] at run

/-- The run under the schedule comes to an end, in `post`. -/
def Reaches (schedule : Schedule setting) (post : result → state → Prop)
    (code : Program access result) (current : state) : Prop :=
  ∃ value after, schedule.outline.Runs code current value after ∧ post value after

namespace Reaches

variable {post : result → state → Prop} {current : state}

theorem done {value : result} (holds : post value current) :
    schedule.Reaches post (.done value) current :=
  ⟨value, current, .done, holds⟩

theorem perform {reply : Type} {request : access reply}
    {rest : reply → Program access result}
    (admitted : setting.admits request (schedule.ahead request current))
    (others : schedule.Reaches post
      (rest (setting.perform request (schedule.ahead request current)).1)
      (setting.perform request (schedule.ahead request current)).2) :
    schedule.Reaches post (.perform request rest) current := by
  rcases others with ⟨value, after, runs, holds⟩
  exact ⟨value, after, runs_perform admitted runs, holds⟩

theorem bind {middle : result → state → Prop} {post : final → state → Prop}
    {code : Program access result} {rest : result → Program access final}
    (first : schedule.Reaches middle code current)
    (others : ∀ value next, middle value next → schedule.Reaches post (rest value) next) :
    schedule.Reaches post (code >>= rest) current := by
  rcases first with ⟨value, next, runs, holds⟩
  rcases others value next holds with ⟨last, after, more, ends⟩
  exact ⟨last, after, runs.bind more, ends⟩

theorem loop {carried reply : Type} {body : carried → Program access (carried ⊕ reply)}
    {start : carried} {rest : reply → Program access result}
    (round : schedule.Reaches post (.unroll body start rest) current) :
    schedule.Reaches post (.loop body start rest) current := by
  rcases round with ⟨value, after, runs, holds⟩
  exact ⟨value, after, .loop runs, holds⟩

theorem mono {weaker : result → state → Prop} {code : Program access result}
    (reaches : schedule.Reaches post code current)
    (implies : ∀ value after, post value after → weaker value after) :
    schedule.Reaches weaker code current := by
  rcases reaches with ⟨value, after, runs, holds⟩
  exact ⟨value, after, runs, implies value after holds⟩

/-- An assertion survives a routine whose accesses keep it. -/
theorem within {allowed : {reply : Type} → access reply → Prop} {assertion : state → Prop}
    (admits : ∀ {reply : Type} (request : access reply) before, allowed request →
      assertion before → setting.admits request (schedule.ahead request before))
    (moves : ∀ {reply : Type} (request : access reply) before, allowed request →
      assertion before →
      assertion (setting.perform request (schedule.ahead request before)).2)
    {code : Program access result} (inside : Program.Within @allowed code)
    (holds : assertion current) : schedule.Reaches (fun _ => assertion) code current := by
  induction inside generalizing current with
  | done => exact done holds
  | perform allows _ inductionHypothesis =>
      exact perform (admits _ _ allows holds) (inductionHypothesis _ (moves _ _ allows holds))
  | loop _ inductionHypothesis => exact loop (inductionHypothesis holds)

theorem returns {code : Program access result} (reaches : schedule.Reaches post code current) :
    ∃ value after, setting.Returns code current value after ∧ post value after := by
  rcases reaches with ⟨value, after, runs, holds⟩
  have run := steps runs (fun last => (.done last : Program access result))
  rw [Program.bind_pure] at run
  exact ⟨value, after, run, holds⟩

end Reaches

/-- Compute the run under the schedule, in so many steps at most, where `test` tells
which accesses are admitted. -/
def run (schedule : Schedule setting) (test : {reply : Type} → access reply → state → Bool) :
    Nat → Program access result → state → Option (result × state)
  | 0, _, _ => none
  | _ + 1, .done value, current => some (value, current)
  | fuel + 1, .perform request rest, current =>
      if test request (schedule.ahead request current) then
        schedule.run test fuel (rest (setting.perform request (schedule.ahead request current)).1)
          (setting.perform request (schedule.ahead request current)).2
      else
        none
  | fuel + 1, .loop body start rest, current =>
      schedule.run test fuel (.unroll body start rest) current
  | _ + 1, .fault, _ => none

/-- What is computed is a run. -/
theorem returns_of_run {test : {reply : Type} → access reply → state → Bool}
    (sound : ∀ {reply : Type} (request : access reply) current,
      test request current = true → setting.admits request current)
    {fuel : Nat} {code : Program access result} {before after : state} {value : result}
    (computed : schedule.run @test fuel code before = some (value, after)) :
    setting.Returns code before value after := by
  induction fuel generalizing code before with
  | zero => cases computed
  | succ fuel inductionHypothesis =>
      cases code with
      | done last =>
          cases computed
          exact .refl
      | perform request rest =>
          have branch : (if test request (schedule.ahead request before) then _ else none) =
              some (value, after) := computed
          split at branch
          · next admitted =>
              have follows := schedule.follows request before
              have waits : setting.Steps ⟨before, .perform request rest⟩
                  ⟨schedule.ahead request before, .perform request rest⟩ :=
                steps_of_interferes follows
              exact (waits.tail (.code (.perform (sound _ _ admitted)))).trans
                (inductionHypothesis branch)
          · cases branch
      | loop body start rest => exact .head (.code .unroll) (inductionHypothesis computed)
      | fault => cases computed

end Schedule

end BbbEth.Interference
