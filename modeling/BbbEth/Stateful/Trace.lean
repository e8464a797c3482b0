import Mathlib.Init

/-!
# Traces

The labels of the steps of a system, and simulation of one system by another.
-/

namespace BbbEth.Stateful

variable {σ τ Label : Type}

/-- The system goes from a state to another by steps with these labels. -/
inductive Trace (step : σ → Label → σ → Prop) : σ → List Label → σ → Prop where
  | nil {state : σ} : Trace step state [] state
  | cons {first middle last : σ} {label : Label} {labels : List Label}
      (goes : step first label middle) (rest : Trace step middle labels last) :
      Trace step first (label :: labels) last

namespace Trace

variable {step : σ → Label → σ → Prop} {abstract : τ → Label → τ → Prop}
variable {first middle last : σ} {left right : List Label} {label : Label}

theorem append_iff : Trace step first (left ++ right) last ↔
    ∃ middle, Trace step first left middle ∧ Trace step middle right last := by
  induction left generalizing first with
  | nil =>
      constructor
      · exact fun trace => ⟨first, .nil, trace⟩
      · rintro ⟨_, ⟨⟩, trace⟩
        exact trace
  | cons label left inductionHypothesis =>
      constructor
      · rintro (_ | ⟨goes, rest⟩)
        rcases inductionHypothesis.mp rest with ⟨middle, before, after⟩
        exact ⟨middle, .cons goes before, after⟩
      · rintro ⟨middle, _ | ⟨goes, rest⟩, after⟩
        exact .cons goes (inductionHypothesis.mpr ⟨middle, rest, after⟩)

theorem singleton_iff : Trace step first [label] last ↔ step first label last := by
  constructor
  · rintro (_ | ⟨goes, ⟨⟩⟩)
    exact goes
  · exact fun goes => .cons goes .nil

/-- What every step keeps holds after a trace. -/
theorem keeps (holds : σ → Prop) {allowed : Label → Prop}
    (kept : ∀ before label after, allowed label → step before label after → holds before →
      holds after)
    (trace : Trace step first left last) (all : ∀ label ∈ left, allowed label)
    (initial : holds first) : holds last := by
  induction trace with
  | nil => exact initial
  | cons goes _ inductionHypothesis =>
      exact inductionHypothesis (fun label member => all label (List.mem_cons_of_mem _ member))
        (kept _ _ _ (all _ List.mem_cons_self) goes initial)

/-- A system whose steps are simulated has no traces but those of the other system. -/
theorem simulate {models : σ → τ → Prop}
    (forward : ∀ before label after model, models before model → step before label after →
      ∃ next, abstract model label next ∧ models after next)
    {model : τ} (trace : Trace step first left last) (initial : models first model) :
    ∃ next, Trace abstract model left next ∧ models last next := by
  induction trace generalizing model with
  | nil => exact ⟨model, .nil, initial⟩
  | cons goes _ inductionHypothesis =>
      rcases forward _ _ _ _ initial goes with ⟨between, same, models⟩
      rcases inductionHypothesis models with ⟨next, rest, final⟩
      exact ⟨next, .cons same rest, final⟩

end Trace

end BbbEth.Stateful
