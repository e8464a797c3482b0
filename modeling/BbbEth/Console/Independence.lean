import BbbEth.Console.Parse

/-!
# Lines and the lines before them

The array `argv` is static, and is not cleared between two lines.  A line does the same
after all histories, and reads only what it supplies, if its handler finds an argument or
does not look for one.
-/

namespace BbbEth.Console

open BbbEth.Interference Routine

/-! ## Arguments that are read -/

/-- Whether a handler looks for an argument, while there is a log or not. -/
def Command.reads (udplogflag : Bool) : Command → Bool
  | .help | .ls | .pwd | .udplog0 => false
  | .udplog => !udplogflag
  | .cd | .mkdir | .cat | .rm | .udptx => true

/-- A line that has no argument for a handler that looks for one. -/
def NeedsArgument (udplogflag : Bool) (line : List Byte) : Prop :=
  ∃ word command, words line = [word] ∧ lookup word = some command ∧
    command.reads udplogflag = true

/-- A call that reads the arguments below a number only. -/
def Call.Below (argc : Nat) : {reply : Type} → Call reply → Prop
  | _, .loadArgv index => index < argc
  | _, _ => True

section Reads

variable {result : Type} {arguments arguments' : Arguments} {argc index : Nat}

theorem Arguments.read_congr {next next' : List Byte → Program Call result}
    (same : arguments index = arguments' index) (others : ∀ name, next name = next' name) :
    arguments.read index next = arguments'.read index next' := by
  rw [show next = next' from funext others]
  unfold Arguments.read
  rw [same]

theorem Arguments.read_only {next : List Byte → Program Call result} (inside : index < argc)
    (others : ∀ name, (next name).Only (Call.Below argc)) :
    (arguments.read index next).Only (Call.Below argc) := by
  apply Program.Only.perform inside
  intro _
  cases arguments index with
  | none => exact .fault
  | some name => exact others name

theorem complain_only (message : String) (value : result) :
    (complain message value).Only (Call.Below argc) :=
  .perform trivial fun _ => .done

end Reads

/-! ## Handlers -/

namespace Shell

variable {shell : Shell} {arguments arguments' : Arguments} {argc : Nat}

/-- A handler that finds its arguments does not depend on what is left over. -/
theorem handler_congr {command : Command} (agree : ∀ index, index < argc →
      arguments index = arguments' index)
    (enough : command.reads shell.udplogflag = true → 2 ≤ argc) :
    shell.handler arguments argc command = shell.handler arguments' argc command := by
  have first : command.reads shell.udplogflag = true → arguments 1 = arguments' 1 :=
    fun reads => agree 1 (enough reads)
  cases command with
  | help | ls | pwd | udplog0 => rfl
  | cd => exact Arguments.read_congr (first rfl) fun _ => rfl
  | mkdir => exact congrArg shell.leaves (Arguments.read_congr (first rfl) fun _ => rfl)
  | rm => exact congrArg shell.leaves (Arguments.read_congr (first rfl) fun _ => rfl)
  | udptx => exact congrArg shell.leaves (Arguments.read_congr (first rfl) fun _ => rfl)
  | udplog =>
      change shell.udplog arguments = shell.udplog arguments'
      unfold udplog
      by_cases logging : shell.udplogflag = true
      · rw [if_pos logging, if_pos logging]
      · rw [if_neg logging, if_neg logging]
        refine Arguments.read_congr (first ?_) fun _ => rfl
        unfold Command.reads
        rw [Bool.eq_false_iff.mpr logging]
        rfl
  | cat =>
      apply congrArg shell.leaves
      apply Arguments.read_congr (first rfl)
      intro name
      by_cases redirected : 4 ≤ argc
      · rw [if_pos redirected, if_pos redirected]
        have third : arguments 3 = arguments' 3 := agree 3 redirected
        have copies : ∀ flagWrite, shell.copy arguments name flagWrite =
            shell.copy arguments' name flagWrite := by
          intro flagWrite
          unfold copy
          refine congrArg _ (funext fun fresultRead => ?_)
          rw [Arguments.read_congr third fun _ => rfl]
        rw [Arguments.read_congr (agree 2 (Nat.lt_of_succ_lt redirected)) fun redirection => ?_]
        unfold catFile
        rw [copies]
      · rw [if_neg redirected, if_neg redirected]
        rfl

theorem printEntry_below (info : FileInfo) : (printEntry info).Only (Call.Below argc) :=
  .bind (.lift trivial) fun _ => .bind (.lift trivial) fun _ => .bind (.lift trivial) fun _ =>
    .ite (.lift trivial) (.lift trivial)

theorem leaves_below {code : Program Call Int} (only : code.Only (Call.Below argc)) :
    (shell.leaves code).Only (Call.Below argc) :=
  only.bind fun _ => .done

theorem unlink_below (path : List Byte) : (shell.unlink path).Only (Call.Below argc) :=
  .perform trivial fun _ => .ite (.perform trivial fun _ => .done) .done

theorem create_below (path : List Byte) : (create path).Only (Call.Below argc) :=
  .perform trivial fun _ => .ite (.perform trivial fun _ => .done) .done

theorem enter_below (path : List Byte) : (shell.enter path).Only (Call.Below argc) :=
  .perform trivial fun _ => .ite (.perform trivial fun _ => .done) .done

theorem resolve_below {result : Type} {name : List Byte} {tooLong : Program Call result}
    {next : List Byte → Program Call result} (first : tooLong.Only (Call.Below argc))
    (others : ∀ path, (next path).Only (Call.Below argc)) :
    (shell.resolve name tooLong next).Only (Call.Below argc) :=
  .ite (others _) (.ite first (others _))

theorem copyBlocks_below (flagWrite : Bool) : (copyBlocks flagWrite).Only (Call.Below argc) := by
  have round : ∀ start, (catRound flagWrite start).Only (Call.Below argc) := by
    intro start
    apply Program.Only.perform trivial
    intro answer
    apply Program.Only.ite .done
    apply Program.Only.ite
    · exact .perform trivial fun _ => .ite .done (.ite .done .done)
    · exact .perform trivial fun _ => .ite .done .done
  have closes : ∀ object (next : Program Call Int), next.Only (Call.Below argc) →
      (closeFile object next).Only (Call.Below argc) := fun _ _ only =>
    .perform trivial fun _ => .ite (.perform trivial fun _ => .done) only
  apply Program.Only.bind (.iterate round)
  intro fresult
  exact .ite .done (closes _ _ (.ite (closes _ _ .done) .done))

theorem copy_below {flagWrite : Bool} (name : List Byte)
    (enough : flagWrite = true → 4 ≤ argc) :
    (shell.copy arguments name flagWrite).Only (Call.Below argc) := by
  apply Program.Only.perform trivial
  intro fresultRead
  cases flagWrite with
  | false =>
      rw [if_neg Bool.false_ne_true]
      exact .ite .done (copyBlocks_below false)
  | true =>
      rw [if_pos rfl]
      apply Arguments.read_only (enough rfl)
      intro target
      exact .ite .fault (.perform trivial fun _ => .ite .done (.ite .done (copyBlocks_below true)))

theorem catFile_below {flagWrite : Bool} (name : List Byte)
    (enough : flagWrite = true → 4 ≤ argc) :
    (shell.catFile arguments name flagWrite).Only (Call.Below argc) :=
  .ite (.perform trivial fun _ => .perform trivial fun _ => .perform trivial fun _ => .done)
    (copy_below name enough)

theorem cat_below (enough : 2 ≤ argc) : (shell.cat arguments argc).Only (Call.Below argc) := by
  apply Arguments.read_only enough
  intro name
  apply Program.Only.ite (complain_only _ _)
  by_cases redirected : 4 ≤ argc
  · rw [if_pos redirected]
    exact Arguments.read_only (Nat.lt_of_succ_lt redirected) fun _ =>
      catFile_below name fun _ => redirected
  · rw [if_neg redirected]
    exact catFile_below name nofun

theorem udptx_below (enough : 2 ≤ argc) : (udptx arguments argc).Only (Call.Below argc) := by
  apply Arguments.read_only enough
  intro name
  apply Program.Only.ite (complain_only _ _)
  exact .perform trivial fun _ => .perform trivial fun _ => .perform trivial fun _ =>
    .ite (.perform trivial fun _ => .perform trivial fun _ => .done)
      (.perform trivial fun _ => .done)

theorem helpEntries_below : ∀ entries, (helpEntries entries).Only (Call.Below argc)
  | [] => .done
  | _ :: rest => .perform trivial fun _ => helpEntries_below rest

/-- A handler that finds an argument reads no other than those that the line supplies. -/
theorem handler_below {command : Command}
    (enough : command.reads shell.udplogflag = true → 2 ≤ argc) :
    (shell.handler arguments argc command).Only (Call.Below argc) := by
  cases command with
  | help =>
      exact leaves_below (.bind (.lift trivial) fun _ => .bind (.lift trivial) fun _ =>
        helpEntries_below cmdTable)
  | ls =>
      apply leaves_below
      apply Program.Only.perform trivial
      intro fresult
      apply Program.Only.ite .done
      apply Program.Only.iterate
      intro _
      apply Program.Only.perform trivial
      intro answer
      exact .ite .done (.ite .done (.bind (printEntry_below _) fun _ => .done))
  | pwd => exact leaves_below (.perform trivial fun _ => .done)
  | cd =>
      exact Arguments.read_only (enough rfl) fun _ => .ite (.ite .fault (enter_below _))
        (resolve_below (complain_only _ _) enter_below)
  | mkdir =>
      exact leaves_below (Arguments.read_only (enough rfl) fun _ =>
        resolve_below (complain_only _ _) create_below)
  | rm =>
      exact leaves_below (Arguments.read_only (enough rfl) fun _ =>
        .ite (.ite (complain_only _ _) (unlink_below _))
          (.ite (complain_only _ _) (unlink_below _)))
  | cat => exact leaves_below (cat_below (enough rfl))
  | udptx => exact leaves_below (udptx_below (enough rfl))
  | udplog0 => exact .ite (.perform trivial fun _ => .done) .done
  | udplog =>
      change (shell.udplog arguments).Only (Call.Below argc)
      unfold udplog
      by_cases logging : shell.udplogflag = true
      · rw [if_pos logging]
        exact .done
      · rw [if_neg logging]
        have reads : Command.udplog.reads shell.udplogflag = true := by
          rw [Bool.eq_false_iff.mpr logging]
          rfl
        exact Arguments.read_only (enough reads) fun _ =>
          .ite .fault (.perform trivial fun _ => .done)

/-- A handler that looks for an argument begins with reading it. -/
theorem handler_makes {command : Command} (reads : command.reads shell.udplogflag = true) :
    (shell.handler arguments argc command).Makes (.loadArgv 1) := by
  cases command with
  | help | ls | pwd | udplog0 => exact absurd reads Bool.false_ne_true
  | cd => exact .now
  | mkdir | rm | cat | udptx => exact .now
  | udplog =>
      change (shell.udplog arguments).Makes (.loadArgv 1)
      have quiet : ¬ shell.udplogflag = true := by
        intro logging
        rw [logging] at reads
        exact absurd reads Bool.false_ne_true
      unfold udplog
      rw [if_neg quiet]
      exact .now

/-! ## Lines -/

variable {line : List Byte}

/-- The handler of a line finds its argument, if it looks for one. -/
theorem enough_of_not_needs (supplies : ¬ NeedsArgument shell.udplogflag line) {command : Command}
    (found : (words line).head?.bind lookup = some command)
    (reads : command.reads shell.udplogflag = true) : 2 ≤ (words line).length := by
  cases list : words line with
  | nil =>
      rw [list] at found
      cases found
  | cons word others =>
      rw [list] at found
      cases others with
      | nil => exact absurd ⟨word, command, list, found, reads⟩ supplies
      | cons _ _ => exact Nat.succ_le_succ (Nat.succ_le_succ (Nat.zero_le _))

theorem process_congr (supplies : ¬ NeedsArgument shell.udplogflag line)
    (supplied : Supplied arguments (words line)) (supplied' : Supplied arguments' (words line)) :
    shell.process arguments line = shell.process arguments' line := by
  have agree : ∀ index, index < (words line).length → arguments index = arguments' index := by
    intro index inside
    have finds := List.getElem?_eq_getElem inside
    rw [supplied index _ finds, supplied' index _ finds]
  have executes : shell.execute arguments line = shell.execute arguments' line := by
    unfold execute
    cases found : (words line).head?.bind lookup with
    | none => rfl
    | some command =>
        dsimp only
        rw [handler_congr agree (enough_of_not_needs supplies found)]
  unfold process
  rw [executes]

theorem prompt_below : shell.prompt.Only (Call.Below argc) :=
  .perform trivial fun _ => .done

theorem process_below (supplies : ¬ NeedsArgument shell.udplogflag line) :
    (shell.process arguments line).Only (Call.Below (words line).length) := by
  have executes : (shell.execute arguments line).Only (Call.Below (words line).length) := by
    apply Program.Only.ite .done
    cases found : (words line).head?.bind lookup with
    | none => exact .done
    | some command =>
        exact .perform trivial fun _ => handler_below (enough_of_not_needs supplies found)
  apply Program.Only.perform trivial
  intro _
  apply Program.Only.ite prompt_below
  apply executes.bind
  intro outcome
  refine Program.Only.bind ?_ fun _ => prompt_below
  exact .ite (.lift trivial) (.ite (.lift trivial) (.ite (.lift trivial) .done))

theorem process_makes (needs : NeedsArgument shell.udplogflag line) :
    (shell.process arguments line).Makes (.loadArgv 1) := by
  rcases needs with ⟨word, command, list, found, reads⟩
  have nonempty : line ≠ [] := by
    rintro rfl
    cases list
  apply Program.Makes.later ()
  rw [if_neg nonempty]
  apply Program.Makes.bind
  unfold execute
  rw [list]
  rw [show [word].head?.bind lookup = some command from found]
  exact .later () (handler_makes reads)

end Shell

/-! ## Histories -/

/-- A line: characters other than NUL, with room for the one that ends it. -/
structure IsLine (line : List Byte) : Prop where
  nonzero : ∀ byte ∈ line, byte ≠ 0
  fits : line.length < cmdBufSize

/-- A line is in `CmdBuf`.  What is behind it is left over. -/
def Memory.typed (memory : Memory) (line : List Byte) : Memory :=
  { memory with cmdBuf := fun index =>
      if index ≤ line.length then line.getD index 0 else memory.cmdBuf index }

section Histories

variable {memory left right : Memory} {shell : Shell} {line : List Byte}

theorem IsLine.holds (isLine : IsLine line) (memory : Memory) :
    Holds (memory.typed line).line line :=
  ⟨fun _ inside => if_pos inside, isLine.nonzero, isLine.fits⟩

theorem Represents.typed (represents : Represents memory shell) (isLine : IsLine line) :
    Represents (memory.typed line) shell := by
  refine ⟨represents.cwd, represents.rooted, represents.udplogflag, represents.wr, ?_,
    represents.argv⟩
  change (if cmdBufSize - 1 ≤ line.length then line.getD (cmdBufSize - 1) 0
    else memory.cmdBuf (cmdBufSize - 1)) = 0
  split
  · next whole => exact List.getD_eq_default _ _ (Nat.le_pred_of_lt isLine.fits)
  · exact represents.last

/-- Calls that are answered in any way. -/
def answered : Server Call Unit where
  answers _ _ _ _ := True

theorem answered_exec {reply result : Type} {request : Call reply}
    {rest : reply → Program Call result} {outcome : Outcome result} (answer : reply)
    (exec : answered.Exec (rest answer) () outcome ()) :
    answered.Exec (.perform request rest) () outcome () :=
  Server.Exec.answer answer (show answered.answers request () answer () from trivial) exec

/-- The memory after a history of lines.  A line whose command follows a null pointer or leaves its
buffer does not return, and no line comes after it. -/
inductive Reached : Memory → Prop where
  | initial : Reached Memory.initial
  | line {memory after : Memory} {line : List Byte} : Reached memory → IsLine line →
      answered.Exec (cmdLineProcess (memory.typed line)) () (.returns ((), after)) () →
      Reached after

theorem initial_represents : Represents Memory.initial ⟨[slash], false⟩ := by
  refine ⟨⟨fun index inside => rfl, by decide, by decide⟩, .inr rfl, rfl, by decide, rfl, nofun⟩

theorem Reached.represents (reached : Reached memory) : ∃ shell, Represents memory shell := by
  induction reached with
  | initial => exact ⟨_, initial_represents⟩
  | line _ isLine exec inductionHypothesis =>
      rcases inductionHypothesis with ⟨shell, represents⟩
      rcases cmdLineProcess_matches (represents.typed isLine) (isLine.holds _) with
        ⟨arguments, _, _, matching⟩
      rcases exec.matches matching with ⟨outcome, _, relates⟩
      cases relates with
      | returns settles => exact ⟨_, settles⟩

/-- The line in the buffer is executed with its own words. -/
theorem process_matches (represents : Represents memory shell) (isLine : IsLine line) :
    ∃ arguments, Supplied arguments (words line) ∧
      (cmdLineProcess (memory.typed line)).Matches Settles (shell.process arguments line) := by
  rcases cmdLineProcess_matches (represents.typed isLine) (isLine.holds _) with
    ⟨arguments, supplied, _, matching⟩
  exact ⟨arguments, supplied, matching⟩

/-- What a shell leaves behind after a line is reached. -/
theorem Reached.process {shell' : Shell} (reached : Reached memory)
    (represents : Represents memory shell) (isLine : IsLine line)
    (exec : ∀ arguments, Supplied arguments (words line) →
      answered.Exec (shell.process arguments line) () (.returns shell') ()) :
    ∃ after, Reached after ∧ Represents after shell' := by
  rcases process_matches represents isLine with ⟨arguments, supplied, matching⟩
  rcases (exec arguments supplied).matches matching.symm with ⟨outcome, exec', relates⟩
  cases relates with
  | returns settles => exact ⟨_, .line reached isLine exec', settles⟩

/-- A line that needs an argument reads one that it does not supply. -/
theorem not_supplied (reached : Reached memory) (isLine : IsLine line)
    (needs : NeedsArgument memory.udplogflag line) :
    (cmdLineProcess (memory.typed line)).Makes (.loadArgv 1) ∧ ¬ 1 < (words line).length := by
  rcases reached.represents with ⟨shell, represents⟩
  rcases cmdLineProcess_matches (represents.typed isLine) (isLine.holds _) with
    ⟨arguments, _, _, matching⟩
  rw [represents.udplogflag] at needs
  refine ⟨matching.makes_iff.mpr (Shell.process_makes needs), ?_⟩
  rcases needs with ⟨word, _, list, _⟩
  rw [list]
  exact lt_irrefl 1

/-- After both histories the line passes the same arguments to the same handler and makes the
same calls, and no handler reads an argument that the line does not supply. -/
structure Independent (left right : Memory) (line : List Byte) : Prop where
  calls : (cmdLineProcess (left.typed line) >>= fun _ => .done ()) =
    cmdLineProcess (right.typed line) >>= fun _ => (.done () : Program Call Unit)
  supplied : ∀ index, (cmdLineProcess (left.typed line)).Makes (.loadArgv index) ∨
    (cmdLineProcess (right.typed line)).Makes (.loadArgv index) → index < (words line).length

/-- After histories with the same directory and the same log, a line does the same, and reads
its own arguments only, if and only if it does not need an argument. -/
theorem independent_iff (reached : Reached left) (reached' : Reached right)
    (cwd : text left.cwd = text right.cwd) (udplogflag : left.udplogflag = right.udplogflag)
    (isLine : IsLine line) :
    Independent left right line ↔ ¬ NeedsArgument left.udplogflag line := by
  rcases reached.represents with ⟨shell, represents⟩
  rcases reached'.represents with ⟨shell', represents'⟩
  have same : shell' = shell := by
    have directory : shell.cwd = shell'.cwd := by
      rw [text_holds represents.cwd, text_holds represents'.cwd] at cwd
      exact Option.some.inj cwd
    have log : shell.udplogflag = shell'.udplogflag := by
      rw [← represents.udplogflag, ← represents'.udplogflag, udplogflag]
    cases shell
    cases shell'
    cases directory
    cases log
    rfl
  subst same
  rcases cmdLineProcess_matches (represents.typed isLine) (isLine.holds _) with
    ⟨arguments, supplied, _, matching⟩
  rcases cmdLineProcess_matches (represents'.typed isLine) (isLine.holds _) with
    ⟨arguments', supplied', _, matching'⟩
  constructor
  · intro independent needs
    rcases not_supplied reached isLine needs with ⟨makes, outside⟩
    exact outside (independent.supplied 1 (.inl makes))
  · intro supplies
    rw [represents.udplogflag] at supplies
    constructor
    · rw [matching.forget, matching'.forget, Shell.process_congr supplies supplied supplied']
    · intro index makes
      by_contra outside
      rcases makes with makes | makes
      · exact (Shell.process_below supplies).not_makes outside (matching.makes_iff.mp makes)
      · exact (Shell.process_below supplies).not_makes outside (matching'.makes_iff.mp makes)

end Histories

/-! ### Two histories -/

/-- The line `mkdir /d`. -/
def lineMkdirD : List Byte := chars ['m', 'k', 'd', 'i', 'r', ' ', '/', 'd']

/-- The line `cd /d`. -/
def lineCdAbsolute : List Byte := chars ['c', 'd', ' ', '/', 'd']

/-- The line `cd d`. -/
def lineCdRelative : List Byte := chars ['c', 'd', ' ', 'd']

/-- The calls around a command. -/
def Call.Around : {reply : Type} → Call reply → Prop
  | _, .process _ => True
  | _, .handler _ _ => True
  | _, .loadArgv _ => True
  | _, .consolePrintf _ _ => True
  | _, _ => False

/-- `cd` to a directory that opens. -/
theorem Shell.process_enters {state : Type} {server : Server Call state} {before after : state}
    {shell : Shell} {arguments : Arguments} {line name path : List Byte}
    (list : words line = [chars ['c', 'd'], name]) (supplied : Supplied arguments (words line))
    (goes : ∀ arguments : Arguments, arguments 1 = some name →
      shell.cd arguments = .perform (.loadArgv 1) fun _ => shell.enter path)
    (around : ∀ (request : Call Unit) current, request.Around →
      server.answers request current () current)
    (opens : server.answers (.fOpendir path) before .ok after) :
    server.Exec (shell.process arguments line) before
      (.returns ⟨path, shell.udplogflag⟩) after := by
  have first : arguments 1 = some name := by
    apply supplied
    rw [list]
    rfl
  have nonempty : line ≠ [] := by
    rintro rfl
    cases list
  have executes : shell.execute arguments line =
      .perform (.handler .cd (words line)) fun _ => shell.cd arguments := by
    unfold Shell.execute
    rw [list]
    rfl
  unfold Shell.process
  rw [if_neg nonempty, executes, goes arguments first]
  exact .answer () (around _ _ trivial) (.answer () (around _ _ trivial) (.answer ()
    (around _ _ trivial) (.answer .ok opens (.answer () (around _ _ trivial) .done))))

/-- The lines `mkdir /d` and `cd /d`. -/
theorem reached_absolute : ∃ after, Reached after ∧ Represents after ⟨chars ['/', 'd'], false⟩ := by
  have made : ∃ after, Reached after ∧ Represents after ⟨[slash], false⟩ := by
    have isLine : IsLine lineMkdirD := ⟨by decide, by decide⟩
    apply Reached.process .initial initial_represents isLine
    intro arguments supplied
    have first : arguments 1 = some (chars ['/', 'd']) := supplied 1 _ rfl
    have executes : Shell.execute ⟨[slash], false⟩ arguments lineMkdirD =
        .perform (.handler .mkdir (words lineMkdirD)) fun _ =>
          Shell.leaves ⟨[slash], false⟩ (.perform (.loadArgv 1) fun _ =>
            Shell.create (chars ['/', 'd'])) := by
      have reads : Shell.mkdir ⟨[slash], false⟩ arguments = .perform (.loadArgv 1) fun _ =>
          Shell.create (chars ['/', 'd']) := by
        unfold Shell.mkdir Arguments.read
        rw [first]
        rfl
      rw [← reads]
      rfl
    unfold Shell.process
    rw [executes]
    exact answered_exec () (answered_exec () (answered_exec () (answered_exec .ok
      (answered_exec () .done))))
  rcases made with ⟨after, reached, represents⟩
  have isLine : IsLine lineCdAbsolute := ⟨by decide, by decide⟩
  apply reached.process represents isLine
  intro arguments supplied
  refine Shell.process_enters rfl supplied (fun arguments first => ?_)
    (fun _ _ _ => trivial) trivial
  unfold Shell.cd Arguments.read
  rw [first]
  rfl

/-- The line `cd d`. -/
theorem reached_relative : ∃ after, Reached after ∧ Represents after ⟨chars ['/', 'd'], false⟩ := by
  have isLine : IsLine lineCdRelative := ⟨by decide, by decide⟩
  apply Reached.process .initial initial_represents isLine
  intro arguments supplied
  refine Shell.process_enters rfl supplied (fun arguments first => ?_)
    (fun _ _ _ => trivial) trivial
  unfold Shell.cd Arguments.read
  rw [first]
  rfl

/-- The line `rm f`. -/
def lineRmFile : List Byte := chars ['r', 'm', ' ', 'f']

/-- After `mkdir /d` and `cd /d`, and after `cd d`, the line does the same. -/
theorem rmFile_independent : ∃ left right, Reached left ∧ Reached right ∧
    text left.cwd = some (chars ['/', 'd']) ∧ text right.cwd = some (chars ['/', 'd']) ∧
      Independent left right lineRmFile := by
  rcases reached_absolute with ⟨left, reached, represents⟩
  rcases reached_relative with ⟨right, reached', represents'⟩
  have cwd := text_holds represents.cwd
  have cwd' := text_holds represents'.cwd
  refine ⟨left, right, reached, reached', cwd, cwd', ?_⟩
  refine (independent_iff reached reached' (cwd.trans cwd'.symm)
    (represents.udplogflag.trans represents'.udplogflag.symm) ⟨by decide, by decide⟩).mpr ?_
  rintro ⟨word, command, list, _⟩
  have length : (words lineRmFile).length = 2 := rfl
  rw [list] at length
  cases length

/-- The line `rm`. -/
def lineRm : List Byte := chars ['r', 'm']

/-- Without an argument `rm` reads what a line before has left, or a pointer that is null. -/
theorem not_independent_rm : ¬ ∀ (left right : Memory) (line : List Byte), Reached left →
    Reached right → text left.cwd = text right.cwd → left.udplogflag = right.udplogflag →
      IsLine line → Independent left right line := by
  intro holds
  rcases reached_absolute with ⟨left, reached, represents⟩
  rcases reached_relative with ⟨right, reached', represents'⟩
  have isLine : IsLine lineRm := ⟨by decide, by decide⟩
  have independent := holds left right lineRm reached reached'
    ((text_holds represents.cwd).trans (text_holds represents'.cwd).symm)
    (represents.udplogflag.trans represents'.udplogflag.symm) isLine
  have needs : NeedsArgument left.udplogflag lineRm := ⟨lineRm, .rm, rfl, rfl, rfl⟩
  rcases not_supplied reached isLine needs with ⟨makes, outside⟩
  exact outside (independent.supplied 1 (.inl makes))

end BbbEth.Console
