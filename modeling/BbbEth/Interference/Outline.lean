import BbbEth.Interference.Contract

/-!
# Sequential outlines

Between the points at which a routine meets its environment it often works on
data that the environment leaves alone, or changes only where the routine does
not look.  An `Outline` is a model of such a stretch without any environment: it
says which replies an access may give in a model state and how the model moves.
`Outline.Runs` is the run of a routine in the model; `Outline.Describes` relates
the model to the states of a contract, and transfers runs to it.
-/

namespace BbbEth.Interference

universe u v w

/-- A model of a stretch of code: the accesses it may make, the replies they may
give, and where the model moves with a reply. -/
structure Outline (access : Type → Type u) (model : Type w) where
  permits : {reply : Type} → access reply → model → Prop
  replies : {reply : Type} → access reply → model → reply → Prop
  moves : {reply : Type} → access reply → model → reply → model → Prop

namespace Outline

variable {access : Type → Type u} {state : Type v} {model : Type w}
variable {reply result final carried : Type}
variable (outline : Outline access model)

/-- The routine ends with one result in one model state, whatever replies it
gets. -/
inductive Runs : {result : Type} → Program access result → model → result → model → Prop where
  | done {result : Type} {value : result} {current : model} :
      Runs (.done value) current value current
  | perform {reply result : Type} {request : access reply}
      {rest : reply → Program access result} {before after : model} {value : result}
      (middle : reply → model) :
      outline.permits request before →
      (∀ answer, outline.replies request before answer →
        outline.moves request before answer (middle answer)) →
      (∀ answer, outline.replies request before answer →
        Runs (rest answer) (middle answer) value after) →
      Runs (.perform request rest) before value after
  | loop {carried reply result : Type}
      {body : carried → Program access (carried ⊕ reply)} {start : carried}
      {rest : reply → Program access result} {before after : model} {value : result} :
      Runs (.unroll body start rest) before value after →
      Runs (.loop body start rest) before value after

namespace Runs

variable {outline} {before middle after : model} {value : result} {last : final}

/-- Sequential composition. -/
theorem bind {code : Program access result} {rest : result → Program access final}
    (first : outline.Runs code before value middle)
    (second : outline.Runs (rest value) middle last after) :
    outline.Runs (code >>= rest) before last after := by
  induction first with
  | done => exact second
  | perform pick permitted moves _ inductionHypothesis =>
      exact .perform pick permitted moves fun answer given =>
        inductionHypothesis answer given second
  | @loop _ _ _ body start rest' before after value _ inductionHypothesis =>
      apply Runs.loop
      change outline.Runs
        (Program.unroll body start fun answer => rest' answer >>= rest) before last _
      rw [← Program.unroll_bind]
      exact inductionHypothesis second

/-- A round of a loop that goes on. -/
theorem next {body : carried → Program access (carried ⊕ reply)} {start later : carried}
    {rest : reply → Program access result}
    (round : outline.Runs (body start) before (.inl later) middle)
    (others : outline.Runs (.loop body later rest) middle value after) :
    outline.Runs (.loop body start rest) before value after :=
  .loop (round.bind others)

/-- The round that leaves the loop. -/
theorem leave {body : carried → Program access (carried ⊕ reply)} {start : carried}
    {answer : reply} {rest : reply → Program access result}
    (round : outline.Runs (body start) before (.inr answer) middle)
    (others : outline.Runs (rest answer) middle value after) :
    outline.Runs (.loop body start rest) before value after :=
  .loop (round.bind others)

end Runs

/-- The routine faults, whatever replies it gets. -/
inductive Faults : {result : Type} → Program access result → model → Prop where
  | fault {result : Type} {current : model} :
      Faults (.fault : Program access result) current
  | after {result final : Type} {code : Program access result}
      {rest : result → Program access final} {before middle : model} {value : result} :
      outline.Runs code before value middle → Faults (rest value) middle →
      Faults (code >>= rest) before
  | loop {carried reply result : Type}
      {body : carried → Program access (carried ⊕ reply)} {start : carried}
      {rest : reply → Program access result} {before : model} :
      Faults (.unroll body start rest) before →
      Faults (.loop body start rest) before

namespace Faults

variable {outline} {before middle : model}

theorem bind {code : Program access result} (rest : result → Program access final)
    (faults : outline.Faults code before) : outline.Faults (code >>= rest) before := by
  induction faults with
  | fault => exact .fault
  | @after _ _ code rest' before middle value runs _ inductionHypothesis =>
      rw [Program.bind_assoc]
      exact .after runs (inductionHypothesis rest)
  | @loop _ _ _ body start rest' before _ inductionHypothesis =>
      apply Faults.loop
      change outline.Faults
        (Program.unroll body start fun answer => rest' answer >>= rest) before
      rw [← Program.unroll_bind]
      exact inductionHypothesis rest

/-- A round of a loop before the one that faults. -/
theorem next {body : carried → Program access (carried ⊕ reply)} {start later : carried}
    {rest : reply → Program access result}
    (round : outline.Runs (body start) before (.inl later) middle)
    (others : outline.Faults (.loop body later rest) middle) :
    outline.Faults (.loop body start rest) before :=
  .loop (.after round others)

/-- The round that faults. -/
theorem round {body : carried → Program access (carried ⊕ reply)} {start : carried}
    {rest : reply → Program access result} (faults : outline.Faults (body start) before) :
    outline.Faults (.loop body start rest) before :=
  .loop (faults.bind _)

end Faults

/-- The model accounts for everything that the contract lets happen. -/
structure Describes (contract : Contract access state) (related : model → state → Prop) :
    Prop where
  stable : ∀ current pending, contract.Stable pending (related current)
  safe : ∀ {current : model} {actual : state}, related current actual →
    contract.safe actual
  guarantee : ∀ {reply : Type} {request : access reply} {current : model}
    {actual : state}, related current actual → outline.permits request current →
    contract.admits request actual →
    contract.guarantee actual (contract.perform request actual).2
  replies : ∀ {reply : Type} {request : access reply} {current : model}
    {actual : state}, related current actual → outline.permits request current →
    outline.replies request current (contract.perform request actual).1
  moves : ∀ {reply : Type} {request : access reply} {current next : model}
    {actual : state}, related current actual → outline.permits request current →
    outline.moves request current (contract.perform request actual).1 next →
    related next (contract.perform request actual).2

/-- A run in the model is what happens in every interleaving. -/
theorem Describes.ensures {outline : Outline access model}
    {contract : Contract access state} {related : model → state → Prop}
    (describes : outline.Describes contract related) {post : final → state → Prop}
    {code : Program access result} {rest : result → Program access final}
    {before after : model} {value : result} {actual : state}
    (runs : outline.Runs code before value after) (holds : related before actual)
    (continues : ∀ later, related after later →
      contract.Ensures post (rest value) later) :
    contract.Ensures post (code >>= rest) actual := by
  induction runs generalizing actual with
  | done => exact continues actual holds
  | perform pick permitted moves _ inductionHypothesis =>
      apply Contract.Ensures.of_perform (describes.stable _ _) holds
      · intro current kept
        exact describes.safe kept
      · intro current kept admitted
        exact describes.guarantee kept permitted admitted
      · intro current kept _
        have given := describes.replies kept permitted
        exact inductionHypothesis _ given
          (describes.moves kept permitted (moves _ given)) continues
  | @loop _ _ _ body start rest' before after value _ inductionHypothesis =>
      apply Contract.Ensures.of_loop (describes.stable _ _) holds
      · intro current kept
        exact describes.safe kept
      · intro current kept
        have rounds := inductionHypothesis kept continues
        rwa [Program.unroll_bind] at rounds

/-- Where faults are tolerated, a routine that faults ensures anything. -/
theorem Describes.faults {outline : Outline access model}
    {contract : Contract access state} {related : model → state → Prop}
    (describes : outline.Describes contract related) (tolerated : contract.mayFault)
    {post : result → state → Prop} {code : Program access result} {before : model}
    {actual : state} (faults : outline.Faults code before) (holds : related before actual) :
    contract.Ensures post code actual := by
  induction faults generalizing actual with
  | fault =>
      apply Contract.Ensures.fault _ tolerated
      intro next interference
      exact describes.safe ((describes.stable _ none).interferes interference holds)
  | after runs _ inductionHypothesis =>
      exact describes.ensures runs holds fun later kept => inductionHypothesis kept
  | loop _ inductionHypothesis =>
      exact .of_loop (describes.stable _ none) holds (fun _ kept => describes.safe kept)
        fun _ kept => inductionHypothesis kept

/-- The round that leaves a loop. -/
theorem Describes.leave {outline : Outline access model}
    {contract : Contract access state} {related : model → state → Prop}
    (describes : outline.Describes contract related) {post : result → state → Prop}
    {body : carried → Program access (carried ⊕ reply)} {start : carried} {answer : reply}
    {rest : reply → Program access result} {before after : model} {actual : state}
    (round : outline.Runs (body start) before (.inr answer) after)
    (holds : related before actual)
    (continues : ∀ later, related after later →
      contract.Ensures post (rest answer) later) :
    contract.Ensures post (.loop body start rest) actual :=
  .of_loop (describes.stable before none) holds (fun _ kept => describes.safe kept)
    fun _ kept => describes.ensures round kept continues

/-- The end of a routine. -/
theorem Describes.done {outline : Outline access model}
    {contract : Contract access state} {related : model → state → Prop}
    (describes : outline.Describes contract related) {post : result → state → Prop}
    {current : model} {actual : state} {value : result} (holds : related current actual)
    (implies : ∀ later, related current later → post value later) :
    contract.Ensures post (.done value) actual :=
  .of_done (describes.stable current none) holds (fun _ kept => describes.safe kept) implies

/-- The same for a whole routine. -/
theorem Describes.ensures_post {outline : Outline access model}
    {contract : Contract access state} {related : model → state → Prop}
    (describes : outline.Describes contract related)
    {code : Program access result} {before after : model} {value : result}
    {actual : state} (runs : outline.Runs code before value after)
    (holds : related before actual) :
    contract.Ensures (fun answer later => answer = value ∧ related after later)
      code actual := by
  rw [← Program.bind_pure code]
  apply describes.ensures runs holds
  intro later kept
  exact describes.done kept fun _ still => ⟨rfl, still⟩

end Outline

end BbbEth.Interference
