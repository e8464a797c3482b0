import BbbEth.Interference.Program

/-!
# Routines that are served

Where nothing happens between the accesses of a routine, a server answers them one
after the other.  A routine may be stopped anywhere, so that what holds of its runs holds
of routines that do not come to an end, too.
-/

namespace BbbEth.Interference

universe u v

/-- How accesses are answered. -/
structure Server (access : Type → Type u) (state : Type v) where
  answers : {reply : Type} → access reply → state → reply → state → Prop

/-- How far a routine has come. -/
inductive Outcome (result : Type) where
  | returns (value : result)
  | faults
  | running

namespace Server

variable {access : Type → Type u} {state : Type v} {result final carried reply : Type}
variable (server : Server access state)

/-- A run of a routine. -/
inductive Exec : {result : Type} → Program access result → state → Outcome result → state →
    Prop where
  | running {result : Type} {code : Program access result} {current : state} :
      Exec code current .running current
  | done {result : Type} {value : result} {current : state} :
      Exec (.done value) current (.returns value) current
  | perform {reply result : Type} {request : access reply}
      {rest : reply → Program access result} {current next after : state} {answer : reply}
      {outcome : Outcome result} :
      server.answers request current answer next → Exec (rest answer) next outcome after →
      Exec (.perform request rest) current outcome after
  | loop {carried reply result : Type} {body : carried → Program access (carried ⊕ reply)}
      {start : carried} {rest : reply → Program access result} {current after : state}
      {outcome : Outcome result} :
      Exec (.unroll body start rest) current outcome after →
      Exec (.loop body start rest) current outcome after
  | fault {result : Type} {current : state} :
      Exec (.fault : Program access result) current .faults current

/-- A run of an access that is answered in a given way. -/
theorem Exec.answer {server : Server access state} {request : access reply}
    {rest : reply → Program access result} {current next after : state}
    {outcome : Outcome result} (answer : reply)
    (answered : server.answers request current answer next)
    (exec : server.Exec (rest answer) next outcome after) :
    server.Exec (.perform request rest) current outcome after :=
  .perform answered exec

/-- In every run an assertion holds on the way, the routine does not fault, and a
postcondition holds where it returns. -/
structure Meets (always : state → Prop) (post : result → state → Prop)
    (code : Program access result) (current : state) : Prop where
  always : ∀ outcome after, server.Exec code current outcome after → always after
  faultless : ∀ after, ¬ server.Exec code current .faults after
  returns : ∀ value after, server.Exec code current (.returns value) after → post value after

variable {server} {always : state → Prop} {post : result → state → Prop} {current : state}

namespace Meets

theorem done {value : result} (safe : always current) (holds : post value current) :
    server.Meets always post (.done value) current where
  always _ _ exec := by
    cases exec with
    | running => exact safe
    | done => exact safe
  faultless _ exec := by cases exec
  returns _ _ exec := by
    cases exec
    exact holds

theorem perform {request : access reply} {rest : reply → Program access result}
    (safe : always current)
    (others : ∀ answer next, server.answers request current answer next →
      server.Meets always post (rest answer) next) :
    server.Meets always post (.perform request rest) current where
  always _ _ exec := by
    cases exec with
    | running => exact safe
    | perform answered others' => exact (others _ _ answered).always _ _ others'
  faultless _ exec := by
    cases exec with
    | perform answered others' => exact (others _ _ answered).faultless _ others'
  returns _ _ exec := by
    cases exec with
    | perform answered others' => exact (others _ _ answered).returns _ _ others'

theorem mono {stronger : result → state → Prop} {code : Program access result}
    (meets : server.Meets always stronger code current)
    (implies : ∀ value after, stronger value after → post value after) :
    server.Meets always post code current :=
  ⟨meets.always, meets.faultless, fun value after exec =>
    implies value after (meets.returns value after exec)⟩

end Meets

/-- A run of a sequence stays in the first part, or goes on with a run of the second. -/
inductive Split (server : Server access state) (code : Program access result)
    (rest : result → Program access final) (before : state) : Outcome final → state → Prop where
  | running {after : state} : server.Exec code before .running after →
      Split server code rest before .running after
  | faults {after : state} : server.Exec code before .faults after →
      Split server code rest before .faults after
  | returns {value : result} {middle after : state} {outcome : Outcome final} :
      server.Exec code before (.returns value) middle →
      server.Exec (rest value) middle outcome after →
      Split server code rest before outcome after

theorem Exec.split {code : Program access result} {rest : result → Program access final}
    {before after : state} {outcome : Outcome final}
    (exec : server.Exec (code >>= rest) before outcome after) :
    server.Split code rest before outcome after := by
  generalize whole : code >>= rest = sequence at exec
  induction exec generalizing code with
  | running => exact .running .running
  | @done _ last current =>
      cases code with
      | done value =>
          have same : rest value = .done last := whole
          exact .returns .done (same.symm ▸ .done)
      | _ => cases whole
  | @perform _ _ request rest' current next after answer outcome answered others
      inductionHypothesis =>
      cases code with
      | done value =>
          have same : rest value = .perform request rest' := whole
          exact .returns .done (same.symm ▸ .perform answered others)
      | perform request' rest'' =>
          cases whole
          have later : server.Split (rest'' answer) rest next outcome after :=
            inductionHypothesis rfl
          cases later with
          | running exec => exact .running (.perform answered exec)
          | faults exec => exact .faults (.perform answered exec)
          | returns exec more => exact .returns (.perform answered exec) more
      | _ => cases whole
  | @loop _ _ _ body start rest' current after outcome others inductionHypothesis =>
      cases code with
      | done value =>
          have same : rest value = .loop body start rest' := whole
          exact .returns .done (same.symm ▸ .loop others)
      | loop body' start' rest'' =>
          cases whole
          have later : server.Split (.unroll body start rest'') rest current outcome after :=
            inductionHypothesis (Program.unroll_bind ..)
          cases later with
          | running exec => exact .running (.loop exec)
          | faults exec => exact .faults (.loop exec)
          | returns exec more => exact .returns (.loop exec) more
      | _ => cases whole
  | @fault _ current =>
      cases code with
      | done value =>
          have same : rest value = .fault := whole
          exact .returns .done (same.symm ▸ .fault)
      | fault => exact .faults .fault
      | _ => cases whole

/-- A run of the first part of a sequence, and a run of the second. -/
theorem Exec.bind {code : Program access result} {rest : result → Program access final}
    {value : result} {before middle after : state} {outcome : Outcome final}
    (exec : server.Exec code before (.returns value) middle)
    (more : server.Exec (rest value) middle outcome after) :
    server.Exec (code >>= rest) before outcome after := by
  generalize whole : Outcome.returns value = returned at exec
  induction exec with
  | running => cases whole
  | done =>
      cases whole
      exact more
  | perform answered _ inductionHypothesis => exact .perform answered (inductionHypothesis more whole)
  | loop _ inductionHypothesis =>
      apply Exec.loop
      have exec := inductionHypothesis more whole
      rwa [Program.unroll_bind] at exec
  | fault => cases whole

namespace Meets

theorem bind {middle : result → state → Prop} {post : final → state → Prop}
    {code : Program access result} {rest : result → Program access final}
    (first : server.Meets always middle code current)
    (others : ∀ value next, middle value next → server.Meets always post (rest value) next) :
    server.Meets always post (code >>= rest) current where
  always outcome after exec := by
    cases exec.split with
    | running exec => exact first.always _ _ exec
    | faults exec => exact first.always _ _ exec
    | returns exec more => exact (others _ _ (first.returns _ _ exec)).always _ _ more
  faultless after exec := by
    cases exec.split with
    | faults exec => exact first.faultless _ exec
    | returns exec more => exact (others _ _ (first.returns _ _ exec)).faultless _ more
  returns value after exec := by
    cases exec.split with
    | returns exec more => exact (others _ _ (first.returns _ _ exec)).returns _ _ more

theorem lift {request : access reply} {post : reply → state → Prop} (safe : always current)
    (ends : ∀ answer next, server.answers request current answer next →
      always next ∧ post answer next) :
    server.Meets always post (.lift request) current :=
  perform safe fun answer next answered =>
    done (ends answer next answered).1 (ends answer next answered).2

theorem of_perform {request : access reply} {rest : reply → Program access result}
    {answer : reply} {next : state}
    (meets : server.Meets always post (.perform request rest) current)
    (answered : server.answers request current answer next) :
    server.Meets always post (rest answer) next :=
  ⟨fun _ _ exec => meets.always _ _ (.perform answered exec),
    fun _ exec => meets.faultless _ (.perform answered exec),
    fun _ _ exec => meets.returns _ _ (.perform answered exec)⟩

theorem of_loop {body : carried → Program access (carried ⊕ reply)} {start : carried}
    {rest : reply → Program access result}
    (meets : server.Meets always post (.loop body start rest) current) :
    server.Meets always post (.unroll body start rest) current :=
  ⟨fun _ _ exec => meets.always _ _ (.loop exec), fun _ exec => meets.faultless _ (.loop exec),
    fun _ _ exec => meets.returns _ _ (.loop exec)⟩

theorem of_done {value : result} (meets : server.Meets always post (.done value) current) :
    always current ∧ post value current :=
  ⟨meets.always _ _ .running, meets.returns _ _ .done⟩

end Meets

/-- What follows a round of a loop. -/
def resume (body : carried → Program access (carried ⊕ reply)) :
    carried ⊕ reply → Program access reply
  | .inl later => .iterate body later
  | .inr answer => .done answer

theorem unroll_resume (body : carried → Program access (carried ⊕ reply)) (start : carried) :
    Program.unroll body start .done = body start >>= resume body := by
  unfold Program.unroll
  rw [Program.bind_eq]
  congr 1
  funext outcome
  cases outcome with
  | inl later => rfl
  | inr answer => rfl

section Loop

variable {invariant : carried → state → Prop} {post : reply → state → Prop}
variable {body : carried → Program access (carried ⊕ reply)}

/-- What a round of a loop leaves: the invariant, or the postcondition. -/
def RoundEnds (always : state → Prop) (invariant : carried → state → Prop)
    (post : reply → state → Prop) : carried ⊕ reply → state → Prop
  | .inl later, next => invariant later next
  | .inr answer, next => always next ∧ post answer next

/-- A run that is inside of a round. -/
theorem Exec.inRound
    (round : ∀ start current, invariant start current →
      server.Meets always (RoundEnds always invariant post) (body start) current)
    {code : Program access (carried ⊕ reply)} {sequence : Program access reply}
    {after : state} {outcome : Outcome reply}
    (exec : server.Exec sequence current outcome after)
    (whole : code >>= resume body = sequence)
    (meets : server.Meets always (RoundEnds always invariant post) code current) :
    always after ∧ outcome ≠ .faults ∧ ∀ value, outcome = .returns value → post value after := by
  induction exec with
  | running => exact ⟨meets.always _ _ .running, nofun, nofun⟩
  | done =>
      cases code with
      | done value =>
          cases value with
          | inl later => cases whole
          | inr answer =>
              cases whole
              rcases meets.of_done with ⟨safely, _, holds⟩
              refine ⟨safely, nofun, ?_⟩
              rintro _ ⟨⟩
              exact holds
      | _ => cases whole
  | perform answered _ inductionHypothesis =>
      cases code with
      | done value =>
          cases value with
          | inl later => cases whole
          | inr answer => cases whole
      | perform request rest =>
          cases whole
          exact inductionHypothesis round rfl (meets.of_perform answered)
      | _ => cases whole
  | loop others inductionHypothesis =>
      cases code with
      | done value =>
          cases value with
          | inl later =>
              cases whole
              exact inductionHypothesis round (unroll_resume _ later).symm
                (round later _ meets.of_done.2)
          | inr answer => cases whole
      | loop body' start' rest =>
          cases whole
          exact inductionHypothesis round (Program.unroll_bind ..) meets.of_loop
      | _ => cases whole
  | fault =>
      cases code with
      | done value =>
          cases value with
          | inl later => cases whole
          | inr answer => cases whole
      | fault => exact absurd .fault (meets.faultless _)
      | _ => cases whole

/-- A loop whose every round keeps an invariant, or ends in the postcondition. -/
theorem Meets.iterate
    (round : ∀ start current, invariant start current →
      server.Meets always (RoundEnds always invariant post) (body start) current)
    (safe : ∀ start current, invariant start current → always current)
    {start : carried} (holds : invariant start current) :
    server.Meets always post (.iterate body start) current := by
  have started : server.Meets always (RoundEnds always invariant post)
      (.done (.inl start)) current := .done (safe start current holds) holds
  constructor
  · exact fun outcome after exec => (exec.inRound round rfl started).1
  · exact fun after exec => (exec.inRound round rfl started).2.1 rfl
  · exact fun value after exec => (exec.inRound round rfl started).2.2 value rfl

end Loop

end Server

end BbbEth.Interference
