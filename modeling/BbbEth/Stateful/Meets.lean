import Mathlib.Init

/-!
# Routines over a state

A routine changes a state and gives a value; a loop that does not end gives nothing.
`Meets routine start post` says that the routine ends, with a value and a state as in `post`.
-/

namespace BbbEth.Stateful

variable {σ α β carried result : Type}

/-- The routine ends from `start`, as `post` says. -/
def Meets (routine : StateT σ Option α) (start : σ) (post : α → σ → Prop) : Prop :=
  ∃ value last, routine start = some (value, last) ∧ post value last

section Rules

variable {routine : StateT σ Option α} {next : α → StateT σ Option β} {start : σ}
variable {post mid : α → σ → Prop} {after : β → σ → Prop}

theorem Meets.mono (meets : Meets routine start mid)
    (weaker : ∀ value last, mid value last → post value last) : Meets routine start post := by
  rcases meets with ⟨value, last, ends, holds⟩
  exact ⟨value, last, ends, weaker value last holds⟩

/-- What is known of a routine holds of what it gave. -/
theorem Meets.of_eq {value : α} {last : σ} (meets : Meets routine start post)
    (ran : routine start = some (value, last)) : post value last := by
  rcases meets with ⟨other, otherLast, ends, holds⟩
  rw [ran] at ends
  cases ends
  exact holds

/-- What two results say of a routine holds together. -/
theorem Meets.and (first : Meets routine start post) (second : Meets routine start mid) :
    Meets routine start fun value last => post value last ∧ mid value last := by
  rcases first with ⟨value, last, ends, holds⟩
  rcases second with ⟨other, otherLast, otherEnds, otherHolds⟩
  rw [ends] at otherEnds
  cases otherEnds
  exact ⟨value, last, ends, holds, otherHolds⟩

@[simp] theorem meets_pure {value : α} :
    Meets (pure value : StateT σ Option α) start post ↔ post value start := by
  constructor
  · rintro ⟨other, last, ends, holds⟩
    cases ends
    exact holds
  · exact fun holds => ⟨value, start, rfl, holds⟩

theorem meets_bind : Meets (routine >>= next) start after ↔
    Meets routine start fun value last => Meets (next value) last after := by
  constructor
  · rintro ⟨value, last, ends, holds⟩
    change (routine start).bind (fun found => next found.1 found.2) = some (value, last) at ends
    rcases Option.bind_eq_some_iff.mp ends with ⟨⟨first, between⟩, ran, rest⟩
    exact ⟨first, between, ran, value, last, rest, holds⟩
  · rintro ⟨first, between, ran, value, last, rest, holds⟩
    refine ⟨value, last, ?_, holds⟩
    change (routine start).bind (fun found => next found.1 found.2) = some (value, last)
    rw [ran]
    exact rest

theorem Meets.bind (first : Meets routine start mid)
    (rest : ∀ value last, mid value last → Meets (next value) last after) :
    Meets (routine >>= next) start after :=
  meets_bind.mpr (first.mono rest)

@[simp] theorem meets_get {reading : σ → σ → Prop} :
    Meets (get : StateT σ Option σ) start reading ↔ reading start start := by
  constructor
  · rintro ⟨value, last, ends, holds⟩
    cases ends
    exact holds
  · exact fun holds => ⟨start, start, rfl, holds⟩

@[simp] theorem meets_get_bind {rest : σ → StateT σ Option β} :
    Meets ((get : StateT σ Option σ) >>= rest) start after ↔ Meets (rest start) start after := by
  rw [meets_bind, meets_get]

@[simp] theorem meets_modify {update : σ → σ} {changed : PUnit → σ → Prop} :
    Meets (modify update : StateT σ Option PUnit) start changed ↔ changed ⟨⟩ (update start) := by
  constructor
  · rintro ⟨value, last, ends, holds⟩
    cases ends
    exact holds
  · exact fun holds => ⟨⟨⟩, update start, rfl, holds⟩

@[simp] theorem meets_modify_bind {update : σ → σ} {rest : PUnit → StateT σ Option β} :
    Meets ((modify update : StateT σ Option PUnit) >>= rest) start after ↔
      Meets (rest ⟨⟩) (update start) after := by
  rw [meets_bind, meets_modify]

/-- To go on where a test succeeds, and otherwise to return at once. -/
def orReturn (test : StateT σ Option Bool) (failure : α) (rest : StateT σ Option α) :
    StateT σ Option α := do
  if ← test then rest else pure failure

theorem meets_orReturn {test : StateT σ Option Bool} {failure : α} :
    Meets (orReturn test failure routine) start post ↔
      Meets test start fun success last =>
        if success = true then Meets routine last post else post failure last := by
  rw [orReturn, meets_bind]
  constructor <;>
    · intro tested
      refine tested.mono ?_
      rintro (_ | _) last holds
      · simpa using holds
      · simpa using holds

theorem Meets.orReturn {test : StateT σ Option Bool} {failure : α}
    {passed failed : σ → Prop}
    (tested : Meets test start fun success last => if success = true then passed last else failed last)
    (goes : ∀ last, passed last → Meets routine last post)
    (returns : ∀ last, failed last → post failure last) :
    Meets (orReturn test failure routine) start post := by
  refine meets_orReturn.mpr (tested.mono ?_)
  intro success last holds
  split at holds
  next success => exact (if_pos success).mpr (goes last holds)
  next failed => exact (if_neg failed).mpr (returns last holds)

/-- A routine that does not end. -/
def diverge : StateT σ Option α := fun _ => none

/-- A bounded number of rounds of a loop.  What needs more of them does not end. -/
def loop (round : carried → StateT σ Option (carried ⊕ result)) :
    Nat → carried → StateT σ Option result
  | 0, _ => diverge
  | fuel + 1, now => do
      match ← round now with
      | .inl later => loop round fuel later
      | .inr value => pure value

/-- A loop whose rounds keep an invariant and use up a bound ends. -/
theorem Meets.loop {round : carried → StateT σ Option (carried ⊕ result)}
    {ended : result → σ → Prop} (holds : Nat → carried → σ → Prop)
    (keeps : ∀ bound now state, holds bound now state →
      Meets (round now) state fun step last =>
        step.elim (fun later => ∃ fewer < bound, holds fewer later last)
          (fun value => ended value last))
    {fuel bound : Nat} {now : carried} {start : σ} (enough : bound < fuel)
    (initial : holds bound now start) : Meets (loop round fuel now) start ended := by
  induction fuel generalizing bound now start with
  | zero => exact absurd enough (Nat.not_lt_zero _)
  | succ fuel inductionHypothesis =>
      refine Meets.bind (keeps bound now start initial) ?_
      intro step last holds
      cases step with
      | inl later =>
          rcases holds with ⟨fewer, less, holds⟩
          exact inductionHypothesis (Nat.lt_of_lt_of_le less (Nat.le_of_lt_succ enough)) holds
      | inr value => exact meets_pure.mpr holds

end Rules

end BbbEth.Stateful
