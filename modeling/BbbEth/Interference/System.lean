import BbbEth.Interference.Contract

/-!
# Systems that call one routine at a time

A system starts routines only when none is running; its environment acts at any
time, and `outside` collects what else happens between two calls.  An invariant
that holds initially, that the environment and the outside keep, and that every
call re-establishes, holds in every reachable state in which no routine runs.
-/

namespace BbbEth.Interference

universe u v

/-- A setting with initial states, the calls that may be started in a state, and
the activity between calls. -/
structure System (access : Type → Type u) (state : Type v) extends
    Setting access state where
  initial : state → Prop
  calls : state → Program access Unit → Prop
  outside : state → state → Prop

namespace System

variable {access : Type → Type u} {state : Type v}
variable (system : System access state)

/-- One step of the whole system. -/
inductive Step : Config access state Unit → Config access state Unit → Prop where
  | interfere {current next : state} {code : Program access Unit} :
      system.rely code.pending current next → Step ⟨current, code⟩ ⟨next, code⟩
  | outside {current next : state} :
      system.outside current next → Step ⟨current, .done ()⟩ ⟨next, .done ()⟩
  | call {current : state} {code : Program access Unit} :
      system.calls current code → Step ⟨current, .done ()⟩ ⟨current, code⟩
  | code {before after : Config access state Unit} :
      system.CodeStep before after → Step before after

/-- The configurations of a run from an initial state. -/
inductive Reachable : Config access state Unit → Prop where
  | initial {start : state} : system.initial start → Reachable ⟨start, .done ()⟩
  | step {before after : Config access state Unit} :
      Reachable before → system.Step before after → Reachable after

/-- A reachable state in which no routine is running. -/
def Idle (current : state) : Prop := system.Reachable ⟨current, .done ()⟩

variable {system}

theorem Reachable.steps {before after : Config access state Unit}
    (reachable : system.Reachable before) (steps : system.Steps before after) :
    system.Reachable after := by
  induction steps with
  | refl => exact reachable
  | tail _ step inductionHypothesis =>
      cases step with
      | interfere rely => exact .step inductionHypothesis (.interfere rely)
      | code step => exact .step inductionHypothesis (.code step)

/-- A complete call leads from an idle state to an idle state. -/
theorem Idle.returns {current next : state} {code : Program access Unit}
    (idle : system.Idle current) (allowed : system.calls current code)
    (returns : system.Returns code current () next) : system.Idle next :=
  (Reachable.step idle (.call allowed)).steps returns

theorem Idle.outside {current next : state} (idle : system.Idle current)
    (step : system.outside current next) : system.Idle next :=
  .step idle (.outside step)

theorem Idle.interferes {current next : state} (idle : system.Idle current)
    (steps : system.Interferes none current next) : system.Idle next := by
  induction steps with
  | refl => exact idle
  | tail _ step inductionHypothesis => exact .step inductionHypothesis (.interfere step)

variable (system)

/-- What a proof about every run of a system has to provide. -/
structure Invariant (safe : state → Prop) (guarantee : state → state → Prop)
    (invariant : state → Prop) : Prop where
  initial : ∀ start, system.initial start → invariant start
  outside : ∀ current next, invariant current → system.outside current next →
    invariant next
  rely : ∀ current next, invariant current → system.rely none current next →
    invariant next
  safely : ∀ current, invariant current → safe current
  calls : ∀ current code, invariant current → system.calls current code →
    Contract.Ensures ⟨system.toSetting, safe, guarantee, False⟩
      (fun _ after => invariant after) code current

namespace Invariant

variable {system} {safe invariant : state → Prop} {guarantee : state → state → Prop}
variable {config : Config access state Unit}

/-- The run lemma: along every run the code that is left still ensures the
invariant. -/
theorem ensures (rules : system.Invariant safe guarantee invariant)
    (reachable : system.Reachable config) :
    Contract.Ensures ⟨system.toSetting, safe, guarantee, False⟩
      (fun _ after => invariant after) config.code config.state := by
  have idle : ∀ current, invariant current →
      Contract.Ensures ⟨system.toSetting, safe, guarantee, False⟩
        (fun _ after => invariant after) (.done ()) current := by
    intro current holds
    exact .of_done (fun before after => rules.rely before after) holds rules.safely
      (fun _ kept => kept)
  induction reachable with
  | initial start => exact idle _ (rules.initial _ start)
  | step _ step inductionHypothesis =>
      cases step with
      | interfere rely => exact inductionHypothesis.of_interferes (.single rely)
      | outside step =>
          cases inductionHypothesis with
          | done _ holds => exact idle _ (rules.outside _ _ (holds _ .refl) step)
      | call allowed =>
          cases inductionHypothesis with
          | done _ holds => exact rules.calls _ _ (holds _ .refl) allowed
      | code step => exact inductionHypothesis.of_codeStep step

theorem of_idle (rules : system.Invariant safe guarantee invariant) {current : state}
    (idle : system.Idle current) : invariant current := by
  have final := rules.ensures idle
  cases final with
  | done _ holds => exact holds _ .refl

theorem of_reachable (rules : system.Invariant safe guarantee invariant)
    (reachable : system.Reachable config) : safe config.state :=
  (rules.ensures reachable).safe

/-- Every access made on a run respects the guarantee. -/
theorem of_access (rules : system.Invariant safe guarantee invariant) {reply : Type}
    {request : access reply} {rest : reply → Program access Unit} {current : state}
    (reachable : system.Reachable ⟨current, .perform request rest⟩)
    (admitted : system.admits request current) :
    guarantee current (system.perform request current).2 := by
  have running := rules.ensures reachable
  cases running with
  | perform _ respects _ => exact respects _ .refl admitted

end Invariant

end System

end BbbEth.Interference
