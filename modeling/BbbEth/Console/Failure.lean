import BbbEth.Console.Card
import BbbEth.Console.Cat
import BbbEth.Interference.Safe

/-!
# A copy that fails

What `cat A > B` leaves on the card and in the file objects if it does not report success.
-/

namespace BbbEth.Console

open BbbEth.Interference

variable {file : Type}

/-- A copy leaves no trace: `B` is not there if it was not there before, each file that has been
opened is closed again, data that `B` has got is recorded, and `B` is as before if `A` could not
be opened. -/
structure Traceless (target : file) (before after : Card file) : Prop where
  absent : before.entry target = none → after.entry target = none
  closed : ∀ object, (object, FResult.ok) ∈ after.opens → after.opened object = none
  recorded : target ∈ after.received → after.entry target = some (after.data target)
  source : (FileObject.fileObject, FResult.ok) ∉ after.opens →
    after.entry target = before.entry target ∧ after.data target = before.data target

/-- Either no file could be opened, or no call of FatFs has failed. -/
def Card.AllOrNone (card : Card file) : Prop :=
  (∀ object, (object, FResult.ok) ∉ card.opens) ∨
    (∀ answer ∈ card.opens, answer.2 = .ok) ∧ ∀ fresult ∈ card.others, fresult = .ok

/-- A file that has been opened is still open, although a call has failed. -/
structure Card.Lost (card : Card file) : Prop where
  still : ∃ object, (object, FResult.ok) ∈ card.opens ∧ card.opened object ≠ none
  fails : ¬ card.AllOrNone

/-- Both files are open, and no call has failed. -/
structure Card.BothOpen (card : Card file) : Prop where
  source : (card.opened .fileObject).isSome
  target : (card.opened .fileObjectWrite).isSome
  opens : card.opens = [(.fileObject, .ok), (.fileObjectWrite, .ok)]
  others : ∀ fresult ∈ card.others, fresult = .ok

section Copy

variable {target : file} {before after : Card file} {fresult : FResult}

theorem Card.Lost.not_traceless (lost : after.Lost) : ¬ Traceless target before after := by
  intro traceless
  rcases lost.still with ⟨object, opens, still⟩
  exact still (traceless.closed object opens)

/-- A call fails, and a file is left open that has been opened. -/
theorem lost_of_fails {object : FileObject} (opens : (object, FResult.ok) ∈ after.opens)
    (still : (after.opened object).isSome)
    (fails : (∃ answer ∈ after.opens, answer.2 ≠ .ok) ∨ ∃ fresult ∈ after.others, fresult ≠ .ok) :
    after.Lost := by
  refine ⟨⟨object, opens, ?_⟩, ?_⟩
  · intro closed
    rw [closed] at still
    cases still
  · rintro (none | ⟨allOpened, allOthers⟩)
    · exact none object opens
    · rcases fails with ⟨answer, member, fails⟩ | ⟨fresult, member, fails⟩
      · exact fails (allOpened answer member)
      · exact fails (allOthers fresult member)

/-- One more call that does not fail. -/
theorem others_ok (others : after.others = before.others ++ [.ok])
    (earlier : ∀ fresult ∈ before.others, fresult = .ok) :
    ∀ fresult ∈ after.others, fresult = .ok := by
  intro fresult member
  rw [others] at member
  rcases List.mem_append.mp member with member | last
  · exact earlier fresult member
  · exact List.mem_singleton.mp last

theorem Card.BothOpen.next (open' : before.BothOpen) (holding : Holding .ok before after) :
    after.BothOpen :=
  ⟨(holding.opened _).trans open'.source, (holding.opened _).trans open'.target,
    holding.opens.trans open'.opens, others_ok holding.others open'.others⟩

/-- A call that fails while both files are open. -/
theorem Card.BothOpen.lost (open' : before.BothOpen) (holding : Holding fresult before after)
    (fails : fresult ≠ .ok) : after.Lost := by
  have opens : (FileObject.fileObject, FResult.ok) ∈ after.opens := by
    rw [holding.opens, open'.opens]
    exact List.mem_cons_self
  have member : fresult ∈ after.others := by
    rw [holding.others]
    exact List.mem_append_right _ List.mem_cons_self
  exact lost_of_fails opens ((holding.opened _).trans open'.source) (.inr ⟨_, member, fails⟩)

/-- A part of a copy succeeds, or a file is left open. -/
def CopyLeaves (succeeds : Card file → Prop) (status : Int) (after : Card file) : Prop :=
  if status = 0 then succeeds after else after.Lost

theorem copyLeaves_fails {succeeds : Card file → Prop} (lost : after.Lost)
    (fails : fresult ≠ .ok) : CopyLeaves succeeds fresult.code after := by
  unfold CopyLeaves
  rwa [if_neg (FResult.code_ne_zero fails)]

/-- What a copy leaves. -/
theorem copyLeaves_iff {status : Int} (leaves : CopyLeaves Card.AllOrNone status after) :
    (status ≠ 0 → Traceless target before after) ↔ after.AllOrNone := by
  unfold CopyLeaves at leaves
  by_cases succeeds : status = 0
  · rw [if_pos succeeds] at leaves
    exact iff_of_true (fun fails => absurd succeeds fails) leaves
  · rw [if_neg succeeds] at leaves
    exact iff_of_false (fun traceless => leaves.not_traceless (traceless succeeds)) leaves.fails

/-- Neither file could be opened. -/
theorem traceless_of_fails {source dest : FResult} (fresh : before.Fresh)
    (sourceFails : source ≠ .ok) (destFails : dest ≠ .ok)
    (same : after = (((before.setHandle .fileObject none).answerOpen .fileObject source).setHandle
      .fileObjectWrite none).answerOpen .fileObjectWrite dest) :
    Traceless target before after ∧ after.AllOrNone := by
  have opens : after.opens = [(.fileObject, source), (.fileObjectWrite, dest)] := by
    rw [same]
    change (before.opens ++ [_]) ++ [_] = _
    rw [fresh.opens]
    rfl
  have nothing : ∀ object, (object, FResult.ok) ∉ after.opens := by
    intro object member
    rw [opens] at member
    rcases List.mem_cons.mp member with first | member
    · exact sourceFails (congrArg Prod.snd first).symm
    · exact destFails (congrArg Prod.snd (List.mem_singleton.mp member)).symm
  have received : after.received = [] := by
    rw [same]
    exact fresh.received
  refine ⟨⟨?_, fun object member => absurd member (nothing object), ?_, ?_⟩, .inl nothing⟩
  · intro absent
    rw [same]
    exact absent
  · rw [received]
    exact nofun
  · intro _
    rw [same]
    exact ⟨rfl, rfl⟩

variable [DecidableEq file] {resolve : List Byte → file}

/-- A round of the loop: both files stay open, or a call has failed. -/
theorem catRound_leaves {card : Card file} (open' : card.BothOpen) (start : Unit) :
    (cards resolve).Meets (fun _ => True)
      (Server.RoundEnds (fun _ => True) (fun _ card => card.BothOpen)
        (CopyLeaves Card.BothOpen)) (catRound true start) card := by
  unfold catRound
  rw [Program.bind_lift]
  apply Server.Meets.perform trivial
  rintro ⟨fresultRead, data⟩ middle reads
  have holding : Holding fresultRead card middle := ReadsFile.holding reads
  dsimp only
  by_cases fails : fresultRead ≠ .ok
  · rw [if_pos fails]
    exact .done trivial ⟨trivial, copyLeaves_fails (open'.lost holding fails) fails⟩
  · rw [if_neg fails, if_pos rfl, Program.bind_lift]
    rw [not_not.mp fails] at holding
    have open' := open'.next holding
    apply Server.Meets.perform trivial
    rintro ⟨fresultWrite, written⟩ after writes
    have holding : Holding fresultWrite middle after := WritesFile.holding writes
    dsimp only
    by_cases fails : fresultWrite ≠ .ok
    · rw [if_pos fails]
      exact .done trivial ⟨trivial, copyLeaves_fails (open'.lost holding fails) fails⟩
    · rw [if_neg fails]
      rw [not_not.mp fails] at holding
      have open' := open'.next holding
      split
      · exact .done trivial open'
      · exact .done trivial ⟨trivial, open'⟩

/-- The target is closed last. -/
theorem closeTarget_leaves {card : Card file} (still : (card.opened .fileObjectWrite).isSome)
    (opens : card.opens = [(.fileObject, .ok), (.fileObjectWrite, .ok)])
    (others : ∀ fresult ∈ card.others, fresult = .ok) :
    (cards resolve).Meets (fun _ => True) (CopyLeaves Card.AllOrNone)
      (closeFile .fileObjectWrite (.done 0)) card := by
  unfold closeFile
  rw [Program.bind_lift]
  apply Server.Meets.perform trivial
  intro fresult after closes
  by_cases fails : fresult ≠ .ok
  · have holding : Holding fresult card after := ClosesFile.holding fails closes
    rw [if_pos fails, Program.bind_lift]
    apply Server.Meets.perform trivial
    intro _ current same
    rw [show current = after from same]
    have opened : (FileObject.fileObjectWrite, FResult.ok) ∈ after.opens := by
      rw [holding.opens, opens]
      exact List.mem_cons_of_mem _ List.mem_cons_self
    have member : fresult ∈ after.others := by
      rw [holding.others]
      exact List.mem_append_right _ List.mem_cons_self
    have lost : after.Lost :=
      lost_of_fails opened ((holding.opened _).trans still) (.inr ⟨_, member, fails⟩)
    exact .done trivial (copyLeaves_fails lost fails)
  · rw [not_not.mp fails] at closes
    rw [if_neg fails]
    rcases ClosesFile.closed closes with ⟨opens', others', _⟩
    refine .done trivial (.inr ⟨?_, others_ok others' others⟩)
    rw [opens', opens]
    decide

/-- The part of the copy from the loop on. -/
theorem copyBlocks_leaves {card : Card file} (open' : card.BothOpen) :
    (cards resolve).Meets (fun _ => True) (CopyLeaves Card.AllOrNone) (copyBlocks true) card := by
  have round : ∀ (start : Unit) (current : Card file), current.BothOpen →
      (cards resolve).Meets (fun _ => True)
        (Server.RoundEnds (fun _ => True) (fun _ card => card.BothOpen)
          (CopyLeaves Card.BothOpen)) (catRound true start) current :=
    fun start _ open' => catRound_leaves open' start
  have rounds : (cards resolve).Meets (fun _ => True) (CopyLeaves Card.BothOpen)
      (.iterate (catRound true) ()) card :=
    Server.Meets.iterate round (fun _ _ _ => trivial) open'
  apply rounds.bind
  intro status middle leaves
  unfold CopyLeaves at leaves
  by_cases fails : status ≠ 0
  · rw [if_neg fails] at leaves
    rw [if_pos fails]
    apply Server.Meets.done trivial
    unfold CopyLeaves
    rwa [if_neg fails]
  · rw [if_pos (not_not.mp fails)] at leaves
    rw [if_neg fails, if_pos rfl]
    unfold closeFile
    rw [Program.bind_lift]
    apply Server.Meets.perform trivial
    intro fresult after closes
    by_cases fails : fresult ≠ .ok
    · have holding : Holding fresult middle after := ClosesFile.holding fails closes
      rw [if_pos fails, Program.bind_lift]
      apply Server.Meets.perform trivial
      intro _ current same
      rw [show current = after from same]
      exact .done trivial (copyLeaves_fails (leaves.lost holding fails) fails)
    · rw [not_not.mp fails] at closes
      rw [if_neg fails]
      rcases ClosesFile.closed closes with ⟨opens, others, opened⟩
      have still : (after.opened .fileObjectWrite).isSome := by
        rw [opened .fileObjectWrite (by decide)]
        exact leaves.target
      exact closeTarget_leaves still (opens.trans leaves.opens) (others_ok others leaves.others)

/-- Both files are opened, or what is opened is left open, or nothing is opened. -/
theorem opens_leaves {middle : Card file} {path path' : List Byte}
    {fresultRead fresultWrite : FResult} (fresh : before.Fresh)
    (reads : (cards resolve).answers (.fOpen .fileObject path faRead) before fresultRead middle)
    (writes : (cards resolve).answers (.fOpen .fileObjectWrite path' (faWrite ||| faOpenAlways))
      middle fresultWrite after) :
    fresultRead = .ok ∧ fresultWrite = .ok ∧ after.BothOpen ∨
      (fresultRead ≠ .ok ∨ fresultWrite ≠ .ok) ∧
        (after.Lost ∨ Traceless target before after ∧ after.AllOrNone) := by
  by_cases sourceFails : fresultRead = .ok
  · subst sourceFails
    rcases OpensFile.succeeds reads with ⟨opens, others, opened, _⟩
    rw [fresh.opens, List.nil_append] at opens
    by_cases destFails : fresultWrite = .ok
    · subst destFails
      rcases OpensFile.succeeds writes with ⟨opens', others', opened', kept⟩
      refine .inl ⟨rfl, rfl, ?_, opened', ?_, ?_⟩
      · rw [kept .fileObject (by decide)]
        exact opened
      · rw [opens', opens]
        rfl
      · rw [others', others, fresh.others]
        exact nofun
    · have same := OpensFile.fails destFails (by decide) writes
      refine .inr ⟨.inr destFails, .inl ?_⟩
      have opens' : after.opens = [(.fileObject, .ok), (.fileObjectWrite, fresultWrite)] := by
        rw [same]
        change middle.opens ++ [_] = _
        rw [opens]
        rfl
      have apart : FileObject.fileObject ≠ .fileObjectWrite := by decide
      have still : after.opened .fileObject = middle.opened .fileObject := by
        rw [same]
        exact Function.update_of_ne apart none middle.opened
      have member : (FileObject.fileObject, FResult.ok) ∈ after.opens := by
        rw [opens']
        exact List.mem_cons_self
      refine lost_of_fails member (still ▸ opened) (.inl ⟨(.fileObjectWrite, _), ?_, destFails⟩)
      rw [opens']
      exact List.mem_cons_of_mem _ List.mem_cons_self
  · have same := OpensFile.fails sourceFails (by decide) reads
    refine .inr ⟨.inl sourceFails, ?_⟩
    by_cases destFails : fresultWrite = .ok
    · subst destFails
      rcases OpensFile.succeeds writes with ⟨opens', _, opened', _⟩
      have opens : after.opens = [(.fileObject, fresultRead), (.fileObjectWrite, .ok)] := by
        rw [opens', same]
        change (before.opens ++ [_]) ++ [_] = _
        rw [fresh.opens]
        rfl
      have member : (FileObject.fileObjectWrite, FResult.ok) ∈ after.opens := by
        rw [opens]
        exact List.mem_cons_of_mem _ List.mem_cons_self
      refine .inl (lost_of_fails member opened' (.inl ⟨(.fileObject, _), ?_, sourceFails⟩))
      rw [opens]
      exact List.mem_cons_self
    · right
      apply traceless_of_fails fresh sourceFails destFails
      rw [OpensFile.fails destFails (by decide) writes, same]

end Copy

/-! ## The handler -/

namespace Shell

variable [DecidableEq file] {resolve : List Byte → file} {shell : Shell} {arguments : Arguments}
variable {name target : List Byte} {before : Card file}

/-- A copy whose target fits into its buffer. -/
theorem copy_traceless (third : arguments 3 = some target)
    (fits : shell.base.length + target.length < pathBufSize) (fresh : before.Fresh) :
    (cards resolve).Meets (fun _ => True) (fun status after =>
        (status ≠ 0 → Traceless (resolve (shell.base ++ target)) before after) ↔ after.AllOrNone)
      (shell.copy arguments name true) before := by
  apply Server.Meets.perform trivial
  intro fresultRead middle reads
  rw [if_pos rfl]
  apply Server.Meets.perform trivial
  intro _ loaded same
  rw [show loaded = middle from same, third]
  dsimp only
  rw [if_neg (not_le.mpr fits)]
  apply Server.Meets.perform trivial
  intro fresultWrite after writes
  rcases opens_leaves fresh reads writes with ⟨ok, ok', open'⟩ | ⟨fails, leaves⟩
  · rw [if_neg (not_not.mpr ok), if_neg (not_not.mpr ok')]
    exact (copyBlocks_leaves open').mono fun _ _ leaves => copyLeaves_iff leaves
  · have ends : ∀ status : Int, status ≠ 0 →
        ((status ≠ 0 → Traceless (resolve (shell.base ++ target)) before after) ↔
          after.AllOrNone) := by
      intro status nonzero
      rcases leaves with lost | ⟨traceless, none⟩
      · exact iff_of_false (fun all => lost.not_traceless (all nonzero)) lost.fails
      · exact iff_of_true (fun _ => traceless) none
    by_cases sourceFails : fresultRead ≠ .ok
    · rw [if_pos sourceFails]
      exact .done trivial (ends _ (FResult.code_ne_zero sourceFails))
    · have destFails := fails.resolve_left sourceFails
      rw [if_neg sourceFails, if_pos destFails]
      exact .done trivial (ends _ (FResult.code_ne_zero destFails))

/-- A copy whose target does not fit does not return. -/
theorem copy_overflows (third : arguments 3 = some target)
    (outside : ¬ shell.base.length + target.length < pathBufSize) :
    (cards resolve).Ends (fun _ _ => False) (shell.copy arguments name true) before := by
  apply Server.Ends.perform
  intro fresultRead middle _
  rw [if_pos rfl]
  apply Server.Ends.perform
  intro _ loaded _
  rw [third]
  dsimp only
  rw [if_pos (not_lt.mp outside)]
  exact .fault

end Shell

/-- What is asked of a run: it does not fault, and leaves no trace if it does not succeed. -/
def Tidy {result : Type} (failed : result → Prop) (target : file) (before : Card file) :
    Outcome result → Card file → Prop
  | .returns value, after => failed value → Traceless target before after
  | .faults, _ => False
  | .running, _ => True

theorem tidy_related {left right : Type} {related : left → right → Prop}
    {failed : left → Prop} {failed' : right → Prop} {target : file} {before after : Card file}
    {outcome : Outcome left} {outcome' : Outcome right} (relates : outcome.Related related outcome')
    (same : ∀ value value', related value value' → (failed value ↔ failed' value')) :
    Tidy failed target before outcome after ↔ Tidy failed' target before outcome' after := by
  cases relates with
  | returns relates => exact imp_congr_left (same _ _ relates)
  | faults => exact Iff.rfl
  | running => exact Iff.rfl

/-- Nothing is done. -/
theorem traceless_refl {target : file} {card : Card file} (fresh : card.Fresh) :
    Traceless target card card ∧ card.AllOrNone := by
  have nothing : ∀ object, (object, FResult.ok) ∉ card.opens := by
    rw [fresh.opens]
    exact fun _ => List.not_mem_nil
  refine ⟨⟨id, fun object member => absurd member (nothing object), ?_, fun _ => ⟨rfl, rfl⟩⟩,
    .inl nothing⟩
  rw [fresh.received]
  exact nofun

namespace Shell

variable [DecidableEq file] {resolve : List Byte → file} {shell : Shell} {arguments : Arguments}
variable {name target : List Byte} {before after : Card file} {outcome : Outcome Int}

/-- A call after which the card is as before. -/
def Idle (resolve : List Byte → file) {reply : Type} (request : Call reply) : Prop :=
  ∀ before answer after, (cards resolve).answers request before answer after → after = before

/-- A source that is refused. -/
theorem cat_refused_safe (first : arguments 1 = some name) (second : arguments 2 = some [greater])
    (refused : shell.TooLong name ∨ name = devUart) :
    (shell.cat arguments 4).Safe (Idle resolve) := by
  rw [cat_found first second]
  refine .perform (fun _ _ _ same => same) fun _ => ?_
  by_cases tooLong : shell.TooLong name
  · rw [if_pos tooLong]
    exact .perform (fun _ _ _ same => same) fun _ => .done
  · rw [if_neg tooLong]
    unfold catFile
    rw [if_pos (refused.resolve_left tooLong)]
    exact .perform (fun _ _ _ same => same) fun _ => .perform (fun _ _ _ same => same) fun _ =>
      .perform (fun _ _ _ same => same) fun _ => .perform (fun _ _ _ same => same) fun _ => .done

/-- The handler, run to its end. -/
theorem cat_sound_iff (first : arguments 1 = some name) (second : arguments 2 = some [greater])
    (third : arguments 3 = some target) (fresh : before.Fresh)
    (exec : (cards resolve).Exec (shell.cat arguments 4) before outcome after)
    (ended : outcome ≠ .running) :
    Tidy (fun status => status ≠ 0 ∨ shell.TooLong name) (resolve (shell.base ++ target)) before
      outcome after ↔ (shell.TooLong name ∨ name = devUart ∨
        shell.base.length + target.length < pathBufSize) ∧ after.AllOrNone := by
  by_cases refused : shell.TooLong name ∨ name = devUart
  · have safe : (shell.cat arguments 4).Safe (Idle resolve) :=
      cat_refused_safe first second refused
    have kept := exec.safe (fun request before answer after idle answered =>
      idle before answer after answered) safe
    have refl : Traceless (resolve (shell.base ++ target)) before before ∧ before.AllOrNone :=
      traceless_refl fresh
    rcases refl with ⟨traceless, none⟩
    rw [kept]
    refine iff_of_true ?_ ⟨or_assoc.mp (.inl refused), none⟩
    cases outcome with
    | returns status => exact fun _ => traceless
    | faults => exact exec.faultless safe rfl
    | running => trivial
  · rcases not_or.mp refused with ⟨short, other⟩
    have copies : (cards resolve).Exec (shell.copy arguments name true) before outcome after := by
      rw [cat_found first second, if_neg short] at exec
      cases exec with
      | running => exact absurd rfl ended
      | perform answered exec =>
          cases exec with
          | running => exact absurd rfl ended
          | perform answered' exec =>
              unfold catFile at exec
              rw [if_neg other] at exec
              rw [← show _ = before from Eq.trans answered' answered]
              exact exec
    by_cases fits : shell.base.length + target.length < pathBufSize
    · have meets : (cards resolve).Meets _ _ (shell.copy arguments name true) before :=
        copy_traceless third fits fresh
      cases outcome with
      | returns status =>
          refine Iff.trans ?_ ((meets.returns _ _ copies).trans
            (and_iff_right (.inr (.inr fits))).symm)
          exact imp_congr_left (or_iff_left short)
      | faults => exact absurd copies (meets.faultless _)
      | running => exact absurd rfl ended
    · have outside : ¬ (shell.TooLong name ∨ name = devUart ∨
          shell.base.length + target.length < pathBufSize) := by
        rintro (tooLong | device | inside)
        · exact short tooLong
        · exact other device
        · exact fits inside
      refine iff_of_false ?_ fun both => outside both.1
      cases outcome with
      | returns status => exact (copy_overflows third fits _ _ copies).elim
      | faults => exact id
      | running => exact absurd rfl ended

end Shell

/-! ## The line -/

section Line

variable [DecidableEq file] {resolve : List Byte → file} {memory : Memory} {shell : Shell}
variable {name target line : List Byte} {before after : Card file}

/-- The line, run to its end, without the buffers. -/
theorem execute_sound_iff {arguments : Arguments} {outcome : Outcome (Int × Shell)}
    (supplied : Supplied arguments (words line)) (asks : IsCopy name target line)
    (fresh : before.Fresh)
    (exec : (cards resolve).Exec (shell.execute arguments line) before outcome after)
    (ended : outcome ≠ .running) :
    Tidy (fun value => value.1 ≠ 0 ∨ shell.TooLong name) (resolve (shell.base ++ target)) before
      outcome after ↔ (shell.TooLong name ∨ name = devUart ∨
        shell.base.length + target.length < pathBufSize) ∧ after.AllOrNone := by
  rw [asks] at supplied
  rw [Shell.execute_copy asks] at exec
  cases exec with
  | running => exact absurd rfl ended
  | perform answered exec =>
      rw [show _ = before from answered] at exec
      rcases exec.matches (Shell.leaves_matches _) with ⟨outcome', exec', relates⟩
      have ended' : outcome' ≠ .running := by
        rintro rfl
        cases relates
        exact ended rfl
      rw [tidy_related relates fun value status same => by rw [same],
        ← Shell.cat_sound_iff (supplied 1 name rfl) (supplied 2 [greater] rfl)
          (supplied 3 target rfl) fresh exec' ended']

/-- The line with the buffers of the console. -/
theorem parse_sound_iff {outcome : Outcome (Int × Memory)} (represents : Represents memory shell)
    (isLine : IsLine line) (asks : IsCopy name target line) (fresh : before.Fresh)
    (exec : (cards resolve).Exec (cmdLineParse (memory.typed line)) before outcome after)
    (ended : outcome ≠ .running) :
    Tidy (fun value => value.1 ≠ 0 ∨ shell.TooLong name) (resolve (shell.base ++ target)) before
      outcome after ↔ (shell.TooLong name ∨ name = devUart ∨
        shell.base.length + target.length < pathBufSize) ∧ after.AllOrNone := by
  rcases cmdLineParse_matches (represents.typed isLine) (isLine.holds _) with
    ⟨arguments, supplied, _, matching⟩
  rcases exec.matches matching with ⟨outcome', exec', relates⟩
  have ended' : outcome' ≠ .running := by
    rintro rfl
    cases relates
    exact ended rfl
  rw [tidy_related relates fun value value' leaves => by rw [leaves.1],
    ← execute_sound_iff supplied asks fresh exec' ended']

/-- Where `A` cannot be opened, `B` has been opened all the same. -/
theorem source_fails_exec {middle : Card file} {fresultRead fresultWrite : FResult}
    (represents : Represents memory shell) (isLine : IsLine line) (asks : IsCopy name target line)
    (short : ¬ shell.TooLong name) (other : name ≠ devUart)
    (fits : shell.base.length + target.length < pathBufSize) (fails : fresultRead ≠ .ok)
    (reads : OpensFile .fileObject (resolve (shell.base ++ name)) faRead before fresultRead middle)
    (writes : OpensFile .fileObjectWrite (resolve (shell.base ++ target))
      (faWrite ||| faOpenAlways) middle fresultWrite after) : ∃ memory',
      (cards resolve).Exec (cmdLineParse (memory.typed line)) before
        (.returns (fresultRead.code, memory')) after := by
  rcases cmdLineParse_matches (represents.typed isLine) (isLine.holds _) with
    ⟨arguments, supplied, _, matching⟩
  rw [asks] at supplied
  have copies : (cards resolve).Exec (shell.copy arguments name true) before
      (.returns fresultRead.code) after := by
    apply Server.Exec.answer fresultRead reads
    rw [if_pos rfl]
    apply Server.Exec.answer () rfl
    rw [supplied 3 target rfl]
    dsimp only
    rw [if_neg (not_le.mpr fits)]
    apply Server.Exec.answer fresultWrite writes
    rw [if_pos fails]
    exact .done
  have cats : (cards resolve).Exec (shell.cat arguments 4) before
      (.returns fresultRead.code) after := by
    rw [Shell.cat_found (supplied 1 name rfl) (supplied 2 [greater] rfl), if_neg short]
    unfold Shell.catFile
    rw [if_neg other]
    exact .answer () rfl (.answer () rfl copies)
  have executes : (cards resolve).Exec (shell.execute arguments line) before
      (.returns (fresultRead.code, shell)) after := by
    rw [Shell.execute_copy asks]
    exact .answer () rfl (cats.bind .done)
  rcases executes.matches matching.symm with ⟨outcome, exec, relates⟩
  cases relates with
  | returns leaves =>
      rename_i value
      rcases value with ⟨status, memory'⟩
      have same : status = fresultRead.code := leaves.1
      subst same
      exact ⟨memory', exec⟩

/-- After every history, for every card and every run of `cat A > B` to its end: it leaves no
trace where it does not succeed, and does not fault, if and only if the path of `B` fits (or `A`
is refused), and either neither file could be opened or no call of FatFs has failed. -/
theorem copy_sound_iff {outcome : Outcome (Int × Memory)} (reached : Reached memory)
    (cwd : text memory.cwd = some shell.cwd) (isLine : IsLine line)
    (asks : IsCopy name target line) (fresh : before.Fresh)
    (exec : (cards resolve).Exec (cmdLineParse (memory.typed line)) before outcome after)
    (ended : outcome ≠ .running) :
    Tidy (fun value => value.1 ≠ 0 ∨ shell.TooLong name) (resolve (shell.base ++ target)) before
      outcome after ↔ (shell.TooLong name ∨ name = devUart ∨
        shell.base.length + target.length < pathBufSize) ∧ after.AllOrNone := by
  rcases reached.represents with ⟨shell', represents⟩
  rw [text_holds represents.cwd] at cwd
  have represents : Represents memory ⟨shell.cwd, shell'.udplogflag⟩ := by
    rw [← Option.some.inj cwd]
    exact represents
  have sound := parse_sound_iff represents isLine asks fresh exec ended
  exact sound

end Line

/-- A card without files. -/
def Card.empty : Card (List Byte) := ⟨fun _ => none, fun _ => [], fun _ => none, [], [], []⟩

theorem empty_fresh : Card.empty.Fresh := ⟨rfl, rfl, rfl⟩

/-- `A` is not there. -/
def Card.noSource : Card (List Byte) :=
  (Card.empty.setHandle .fileObject none).answerOpen .fileObject .noFile

/-- The line `cat a > b`, where `a` is not there. -/
theorem lineCat_fails {fresultWrite : FResult} {after : Card (List Byte)}
    (writes : OpensFile .fileObjectWrite (chars ['/', 'b']) (faWrite ||| faOpenAlways)
      Card.noSource fresultWrite after) : ∃ memory,
      (cards id).Exec (cmdLineParse (Memory.initial.typed lineCat)) Card.empty
        (.returns (FResult.noFile.code, memory)) after := by
  have short : ¬ Shell.TooLong ⟨[slash], false⟩ (chars ['a']) := by decide
  have fits : (Shell.base ⟨[slash], false⟩).length + (chars ['b']).length < pathBufSize := by decide
  have fails : FResult.noFile ≠ .ok := by decide
  have reads : OpensFile .fileObject (id (Shell.base ⟨[slash], false⟩ ++ chars ['a'])) faRead
      Card.empty .noFile Card.noSource := .inr rfl
  exact source_fails_exec initial_represents lineCat_isLine lineCat_isCopy short (by decide) fits
    fails reads writes

/-- Neither file can be opened, and nothing is left. -/
theorem copy_sound_of_fails : ∃ (memory : Memory) (after : Card (List Byte)),
    Tidy (fun value : Int × Memory => value.1 ≠ 0 ∨ Shell.TooLong ⟨[slash], false⟩ (chars ['a']))
      (chars ['/', 'b']) Card.empty (.returns (FResult.noFile.code, memory)) after := by
  have writes : OpensFile .fileObjectWrite (chars ['/', 'b']) (faWrite ||| faOpenAlways)
      Card.noSource .denied
      ((Card.noSource.setHandle .fileObjectWrite none).answerOpen .fileObjectWrite .denied) :=
    .inr rfl
  have fits : (Shell.base ⟨[slash], false⟩).length + (chars ['b']).length < pathBufSize := by decide
  rcases lineCat_fails writes with ⟨memory, exec⟩
  refine ⟨memory, _, (copy_sound_iff .initial (text_holds initial_represents.cwd) lineCat_isLine
    lineCat_isCopy empty_fresh exec nofun).mpr ⟨.inr (.inr fits), .inl fun object member => ?_⟩⟩
  rcases List.mem_cons.mp member with first | member
  · cases first
  · cases List.mem_singleton.mp member

/-- `B` is created, and left open, although `A` is not there. -/
theorem not_copy_sound : ¬ ∀ (memory : Memory) (shell : Shell) (name target line : List Byte)
    (before after : Card (List Byte)) (outcome : Outcome (Int × Memory)), Reached memory →
      text memory.cwd = some shell.cwd → IsLine line → IsCopy name target line → before.Fresh →
        (cards id).Exec (cmdLineParse (memory.typed line)) before outcome after →
          Tidy (fun value => value.1 ≠ 0 ∨ shell.TooLong name) (shell.base ++ target) before
            outcome after := by
  intro sound
  have writes : OpensFile .fileObjectWrite (chars ['/', 'b']) (faWrite ||| faOpenAlways)
      Card.noSource .ok (((Card.noSource.setFile (chars ['/', 'b']) []).setHandle .fileObjectWrite
        (some ⟨chars ['/', 'b'], 0, 0, false⟩)).answerOpen .fileObjectWrite .ok) :=
    ⟨[], rfl, rfl⟩
  rcases lineCat_fails writes with ⟨memory, exec⟩
  have nonzero : FResult.noFile.code ≠ 0 := by decide
  have traceless := sound _ ⟨[slash], false⟩ _ _ _ _ _ _ .initial
    (text_holds initial_represents.cwd) lineCat_isLine lineCat_isCopy empty_fresh exec
    (.inl nonzero)
  have created := traceless.absent rfl
  exact absurd created (by decide)

end BbbEth.Console
