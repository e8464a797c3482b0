import BbbEth.Console.Independence
import BbbEth.Interference.Safe

/-!
# The working directory

What `cd` makes of `CwdBuf`, over sessions of `cd`, `mkdir`, `rm`, `ls`, `pwd` and `cat`.
-/

namespace BbbEth.Console

open BbbEth.Interference Routine

/-! ## Directories -/

/-- The text before the last separator. -/
def beforeSlash : List Byte → Option (List Byte)
  | [] => none
  | char :: rest =>
      match beforeSlash rest with
      | some before => some (char :: before)
      | none => if char = slash then some [] else none

/-- The parent directory: the text before the last separator, or the root directory. -/
def parent (path : List Byte) : List Byte :=
  match beforeSlash path with
  | some (char :: before) => char :: before
  | _ => [slash]

/-- The parent directory. -/
def dots : List Byte := chars ['.', '.']

/-- A directory, with one separator behind it. -/
def separated (directory : List Byte) : List Byte :=
  if directory.getLast? = some slash then directory else directory ++ [slash]

/-- A directory other than the root directory that ends in a separator. -/
def EndsInSlash (directory : List Byte) : Prop :=
  directory ≠ [slash] ∧ directory.getLast? = some slash

instance (directory : List Byte) : Decidable (EndsInSlash directory) :=
  inferInstanceAs (Decidable (_ ∧ _))

/-- The directory that `cd` goes to, if its path is not too long: an absolute path, the parent
directory, or a name behind the current directory and one separator. -/
def destination (cwd name : List Byte) : Option (List Byte) :=
  if name.getD 0 0 = slash then some name
  else if name = dots then some (parent cwd)
  else if pathBufSize < cwd.length + name.length + 1 + 1 then none
  else some (separated cwd ++ name)

/-- The handlers put a separator behind each directory but the root directory. -/
theorem separated_eq_base {shell : Shell} (single : ¬ EndsInSlash shell.cwd) :
    separated shell.cwd = shell.base := by
  unfold separated Shell.base
  by_cases root : shell.cwd = [slash]
  · rw [if_pos root, root]
    rfl
  · rw [if_neg root, if_neg fun last => single ⟨root, last⟩]

theorem beforeSlash_none {name : List Byte} (plain : slash ∉ name) : beforeSlash name = none := by
  induction name with
  | nil => rfl
  | cons char rest inductionHypothesis =>
      rw [List.mem_cons, not_or] at plain
      rw [beforeSlash, inductionHypothesis plain.2]
      exact if_neg (Ne.symm plain.1)

theorem beforeSlash_append (before : List Byte) {name : List Byte} (plain : slash ∉ name) :
    beforeSlash (before ++ slash :: name) = some before := by
  induction before with
  | nil =>
      rw [List.nil_append, beforeSlash, beforeSlash_none plain]
      exact if_pos rfl
  | cons char rest inductionHypothesis =>
      rw [List.cons_append, beforeSlash, inductionHypothesis]

/-- A path with a separator has a last one. -/
theorem exists_lastSlash {path : List Byte} (member : slash ∈ path) :
    ∃ before name, path = before ++ slash :: name ∧ slash ∉ name := by
  induction path with
  | nil => exact absurd member List.not_mem_nil
  | cons char rest inductionHypothesis =>
      by_cases later : slash ∈ rest
      · rcases inductionHypothesis later with ⟨before, name, rfl, plain⟩
        exact ⟨char :: before, name, rfl, plain⟩
      · rcases List.mem_cons.mp member with rfl | inside
        · exact ⟨[], rest, rfl, later⟩
        · exact absurd inside later

/-- From behind the last separator the loop of `cd ..` goes back to it, but not to the start. -/
theorem cutIndex_eq {before name : List Byte} (plain : slash ∉ name) : ∀ index, 1 ≤ index →
    before.length ≤ index → index < (before ++ slash :: name).length →
      Shell.cutIndex (before ++ slash :: name) index = max before.length 1
  | 0, positive, _, _ => absurd positive (Nat.not_succ_le_zero 0)
  | index + 1, _, behind, inside => by
      unfold Shell.cutIndex
      rcases behind.lt_or_eq with later | here
      · have position : index + 1 - before.length = index - before.length + 1 :=
          Nat.succ_sub (Nat.lt_succ_iff.mp later)
        have nameInside : index - before.length < name.length := by
          rw [List.length_append, List.length_cons] at inside
          omega
        have other : (before ++ slash :: name).getD (index + 1) 0 ≠ slash := by
          rw [List.getD_append_right _ _ _ _ later.le, position]
          change name.getD (index - before.length) 0 ≠ slash
          rw [List.getD_eq_getElem _ _ nameInside]
          exact fun same => plain (same ▸ List.getElem_mem nameInside)
        by_cases goesOn : 1 < index + 1
        · rw [if_pos ⟨other, goesOn⟩]
          exact cutIndex_eq plain index (Nat.lt_succ_iff.mp goesOn) (Nat.lt_succ_iff.mp later)
            (Nat.lt_of_succ_lt inside)
        · rw [if_neg fun both => goesOn both.2]
          omega
      · have same : (before ++ slash :: name).getD (index + 1) 0 = slash := by
          rw [← here, List.getD_append_right _ _ _ _ le_rfl, Nat.sub_self]
          rfl
        rw [if_neg fun both => both.1 same]
        omega

/-- Below the root directory, `cd ..` goes to the parent directory. -/
theorem cut_eq_parent {path : List Byte} (rooted : path.getD 0 0 = slash)
    (below : path ≠ [slash]) : Shell.cut path = parent path := by
  have member : slash ∈ path := by
    cases path with
    | nil => exact absurd rooted (by decide)
    | cons char rest => exact List.mem_cons.mpr (.inl rooted.symm)
  rcases exists_lastSlash member with ⟨before, name, rfl, plain⟩
  have length : (before ++ slash :: name).length = before.length + name.length + 1 := by
    rw [List.length_append, List.length_cons]
    rfl
  have more : before ≠ [] ∨ name ≠ [] := by
    by_contra none
    rw [not_or, not_not, not_not] at none
    apply below
    rw [none.1, none.2]
    rfl
  have long : 1 ≤ before.length + name.length := by
    rcases more with more | more
    · exact (List.length_pos_iff.mpr more).trans_le (Nat.le_add_right _ _)
    · exact (List.length_pos_iff.mpr more).trans_le (Nat.le_add_left _ _)
  unfold Shell.cut parent
  rw [beforeSlash_append before plain, cutIndex_eq plain _ (by omega) (by omega) (by omega)]
  cases before with
  | nil => rfl
  | cons char rest =>
      have least : max (char :: rest).length 1 = (char :: rest).length :=
        max_eq_left (Nat.succ_le_succ (Nat.zero_le _))
      rw [least, List.take_left]

theorem parent_rooted {path : List Byte} (rooted : path.getD 0 0 = slash) :
    (parent path).getD 0 0 = slash := by
  have member : slash ∈ path := by
    cases path with
    | nil => exact absurd rooted (by decide)
    | cons char rest => exact List.mem_cons.mpr (.inl rooted.symm)
  rcases exists_lastSlash member with ⟨before, name, rfl, plain⟩
  unfold parent
  rw [beforeSlash_append before plain]
  cases before with
  | nil => rfl
  | cons char rest => exact rooted

/-- A directory that `cd` goes to is absolute. -/
theorem destination_rooted {cwd name path : List Byte} (rooted : cwd.getD 0 0 = slash)
    (goes : destination cwd name = some path) : path.getD 0 0 = slash := by
  unfold destination at goes
  split at goes
  · next absolute =>
      cases goes
      exact absolute
  · split at goes
    · cases goes
      exact parent_rooted rooted
    · split at goes
      · cases goes
      · cases goes
        cases cwd with
        | nil => exact absurd rooted (by decide)
        | cons char rest =>
            unfold separated
            split <;> exact rooted

/-! ## What the file system answers -/

/-- The directories that are opened, with the results. -/
abbrev Opened := List (List Byte × FResult)

/-- What a call adds to the record, and how it may be answered: the root directory, by its name
and by the empty path, can always be opened. -/
def Call.Opens : {reply : Type} → Call reply → Opened → reply → Opened → Prop
  | _, .fOpendir path, before, fresult, after => after = before ++ [(path, fresult)] ∧
      (path = [] ∨ path = [slash] → fresult = .ok)
  | _, _, before, _, after => after = before

/-- The calls are answered in any way, but for the root directory. -/
def directories : Server Call Opened where
  answers := Call.Opens

/-- The calls do not fault, and the routine may end in any way. -/
abbrev Runs {result : Type} (code : Program Call result) (log : Opened) : Prop :=
  directories.Meets (fun _ => True) (fun _ _ => True) code log

/-- Any call may be made, and the routine does not fault. -/
abbrev Faultless {result : Type} (code : Program Call result) : Prop :=
  code.Safe fun _ => True

theorem Runs.of_faultless {result : Type} {code : Program Call result} {log : Opened}
    (faultless : Faultless code) : Runs code log :=
  ⟨fun _ _ _ => trivial, fun _ exec => exec.faultless faultless rfl, fun _ _ _ => trivial⟩

theorem Faultless.perform {reply result : Type} {request : Call reply}
    {rest : reply → Program Call result} (others : ∀ answer, Faultless (rest answer)) :
    Faultless (.perform request rest) :=
  Program.Safe.perform trivial others

theorem Faultless.call {reply : Type} {request : Call reply} : Faultless (.lift request) :=
  Program.Safe.lift trivial

namespace Shell

variable {shell : Shell} {arguments : Arguments} {log : Opened}

theorem faultless_read {result : Type} {index : Nat} {next : List Byte → Program Call result}
    {name : List Byte} (finds : arguments index = some name) (others : Faultless (next name)) :
    Faultless (arguments.read index next) := by
  apply Faultless.perform
  intro _
  rw [finds]
  exact others

theorem faultless_complain {result : Type} (message : String) (value : result) :
    Faultless (complain message value) :=
  Faultless.perform fun _ => .done

theorem faultless_unlink (path : List Byte) : Faultless (shell.unlink path) :=
  Faultless.perform fun _ => .ite (Faultless.perform fun _ => .done) .done

theorem faultless_create (path : List Byte) : Faultless (create path) :=
  Faultless.perform fun _ => .ite (Faultless.perform fun _ => .done) .done

theorem faultless_rm {name : List Byte} (finds : arguments 1 = some name) :
    Faultless (shell.rm arguments) :=
  faultless_read finds <| .ite (.ite (faultless_complain _ _) (faultless_unlink _))
    (.ite (faultless_complain _ _) (faultless_unlink _))

theorem faultless_mkdir {name : List Byte} (finds : arguments 1 = some name) :
    Faultless (shell.mkdir arguments) :=
  faultless_read finds <| .ite (faultless_create _)
    (.ite (faultless_complain _ _) (faultless_create _))

theorem faultless_printEntry (info : FileInfo) : Faultless (printEntry info) :=
  Faultless.call.bind fun _ => Faultless.call.bind fun _ => Faultless.call.bind fun _ =>
    .ite Faultless.call Faultless.call

theorem faultless_ls : Faultless shell.ls := by
  apply Faultless.perform
  intro fresult
  apply Program.Safe.ite .done
  apply Program.Safe.iterate
  intro _
  apply Faultless.perform
  intro answer
  exact .ite .done (.ite .done ((faultless_printEntry _).bind fun _ => .done))

theorem faultless_pwd : Faultless shell.pwd :=
  Faultless.perform fun _ => .done

theorem faultless_catRound (flagWrite : Bool) (start : Unit) :
    Faultless (catRound flagWrite start) := by
  apply Faultless.perform
  intro answer
  apply Program.Safe.ite .done
  apply Program.Safe.ite
  · exact Faultless.perform fun _ => .ite .done (.ite .done .done)
  · exact Faultless.perform fun _ => .ite .done .done

theorem faultless_closeFile (object : FileObject) {next : Program Call Int}
    (others : Faultless next) : Faultless (closeFile object next) :=
  Faultless.perform fun _ => .ite (Faultless.perform fun _ => .done) others

theorem faultless_copyBlocks (flagWrite : Bool) : Faultless (copyBlocks flagWrite) := by
  apply Program.Safe.bind (.iterate (faultless_catRound flagWrite))
  intro fresult
  exact .ite .done (faultless_closeFile _ (.ite (faultless_closeFile _ .done) .done))

/-- The target of a redirection fits behind the current directory. -/
theorem faultless_copy {name : List Byte} {flagWrite : Bool}
    (fits : flagWrite = true → ∃ target, arguments 3 = some target ∧
      shell.base.length + target.length < pathBufSize) :
    Faultless (shell.copy arguments name flagWrite) := by
  apply Faultless.perform
  intro fresultRead
  cases flagWrite with
  | false =>
      rw [if_neg Bool.false_ne_true]
      exact .ite .done (faultless_copyBlocks false)
  | true =>
      rcases fits rfl with ⟨target, finds, short⟩
      rw [if_pos rfl]
      apply faultless_read finds
      rw [if_neg (not_le.mpr short)]
      exact Faultless.perform fun _ => .ite .done (.ite .done (faultless_copyBlocks true))

theorem faultless_uart : Faultless uart :=
  Faultless.perform fun _ => Faultless.perform fun _ => Faultless.perform fun _ => .done

theorem faultless_cat {argc : Nat} {name : List Byte} (finds : arguments 1 = some name)
    (supplies : 4 ≤ argc → ∃ redirection target, arguments 2 = some redirection ∧
      arguments 3 = some target ∧ (redirection = [greater] → ¬ shell.TooLong name →
        name ≠ devUart → shell.base.length + target.length < pathBufSize)) :
    Faultless (shell.cat arguments argc) := by
  apply faultless_read finds
  by_cases tooLong : shell.TooLong name
  · rw [if_pos tooLong]
    exact faultless_complain _ _
  · rw [if_neg tooLong]
    by_cases redirected : 4 ≤ argc
    · rcases supplies redirected with ⟨redirection, target, second, third, fits⟩
      rw [if_pos redirected]
      apply faultless_read second
      unfold catFile
      by_cases device : name = devUart
      · rw [if_pos device]
        exact faultless_uart
      · rw [if_neg device]
        apply faultless_copy
        intro isGreater
        exact ⟨target, third, fits (of_decide_eq_true isGreater) tooLong device⟩
    · rw [if_neg redirected]
      exact .ite faultless_uart (faultless_copy nofun)

/-- What `cd` leaves: the directory that it goes to, if that can be opened. -/
def Moved (cwd name : List Byte) (log : Opened) (cwd' : List Byte) (log' : Opened) : Prop :=
  match destination cwd name with
  | some path => ∃ fresult, log' = log ++ [(path, fresult)] ∧
      cwd' = if fresult = .ok then path else cwd
  | none => log' = log ∧ cwd' = cwd

theorem enter_meets (path : List Byte) :
    directories.Meets (fun _ => True) (fun outcome log' => ∃ fresult,
      log' = log ++ [(path, fresult)] ∧
        outcome.2 = { shell with cwd := if fresult = .ok then path else shell.cwd })
      (shell.enter path) log := by
  apply Server.Meets.perform trivial
  rintro fresult after ⟨rfl, _⟩
  by_cases fails : fresult ≠ .ok
  · rw [if_pos fails]
    apply Server.Meets.perform trivial
    rintro _ _ rfl
    refine .done trivial ⟨fresult, rfl, ?_⟩
    rw [if_neg fails]
  · rw [if_neg fails]
    refine .done trivial ⟨fresult, rfl, ?_⟩
    rw [if_pos (not_not.mp fails)]

/-- `cd` is not asked for the parent of the root directory, nor for a name behind a directory that
ends in a separator. -/
def Goes (shell : Shell) (name : List Byte) : Prop :=
  ¬ (name = dots ∧ shell.cwd = [slash]) ∧
    (name.getD 0 0 ≠ slash → name ≠ dots → ¬ shell.TooLong name → ¬ EndsInSlash shell.cwd)

/-- `cd` then goes where it should. -/
theorem cd_meets {name : List Byte} (rooted : shell.cwd.getD 0 0 = slash)
    (finds : arguments 1 = some name) (goes : shell.Goes name) :
    directories.Meets (fun _ => True) (fun outcome log' =>
      Moved shell.cwd name log outcome.2.cwd log' ∧
        outcome.2.udplogflag = shell.udplogflag) (shell.cd arguments) log := by
  apply Server.Meets.perform trivial
  intro _ after same
  rw [show after = log from same, finds]
  have enters : ∀ path, destination shell.cwd name = some path →
      directories.Meets (fun _ => True) (fun outcome log' =>
        Moved shell.cwd name log outcome.2.cwd log' ∧
          outcome.2.udplogflag = shell.udplogflag) (shell.enter path) log := by
    intro path goes
    apply (enter_meets path).mono
    rintro ⟨status, after⟩ log' ⟨fresult, rfl, rfl⟩
    unfold Moved
    rw [goes]
    exact ⟨⟨fresult, rfl, rfl⟩, rfl⟩
  change directories.Meets _ _ (if name = dots then
    if shell.cwd = [] then .fault else shell.enter (cut shell.cwd) else _) _
  by_cases up : name = dots
  · have relative : ¬ name.getD 0 0 = slash := by
      rw [up]
      exact dots_relative
    have nonempty : shell.cwd ≠ [] := by
      intro empty
      rw [empty] at rooted
      exact absurd rooted (by decide)
    rw [if_pos up, if_neg nonempty]
    apply enters
    unfold destination
    rw [if_neg relative, if_pos up, cut_eq_parent rooted fun root => goes.1 ⟨up, root⟩]
  · rw [if_neg up]
    unfold resolve
    by_cases absolute : name.getD 0 0 = slash
    · rw [if_pos absolute]
      apply enters
      exact if_pos absolute
    · rw [if_neg absolute]
      by_cases tooLong : shell.TooLong name
      · have nowhere : destination shell.cwd name = none := by
          unfold destination
          rw [if_neg absolute, if_neg up]
          exact if_pos tooLong
        rw [if_pos tooLong]
        apply Server.Meets.perform trivial
        rintro _ _ rfl
        apply Server.Meets.done trivial
        unfold Moved
        rw [nowhere]
        exact ⟨⟨rfl, rfl⟩, rfl⟩
      · rw [if_neg tooLong]
        apply enters
        have short : ¬ pathBufSize < shell.cwd.length + name.length + 1 + 1 := tooLong
        unfold destination
        rw [if_neg absolute, if_neg up, if_neg short,
          separated_eq_base (goes.2 absolute up tooLong)]

/-- What a handler needs so that it keeps to its buffers, and the directory stays absolute: an
argument, for `cd` a directory that it extends as it should, and for a redirection a path that
fits. -/
def Sound (shell : Shell) (arguments : Arguments) (argc : Nat) : Command → Prop
  | .cd => ∃ name, arguments 1 = some name ∧ shell.Goes name
  | .mkdir | .rm => ∃ name, arguments 1 = some name
  | .cat => ∃ name, arguments 1 = some name ∧ (4 ≤ argc → arguments 2 = some [greater] →
      ¬ shell.TooLong name → name ≠ devUart → ∀ target, arguments 3 = some target →
        shell.base.length + target.length < pathBufSize)
  | .ls | .pwd => True
  | .help | .udptx | .udplog | .udplog0 => False

/-- What a command makes of the directory. -/
def Transition (command : Option Command) (arguments : Arguments) (cwd : List Byte) (log : Opened)
    (cwd' : List Byte) (log' : Opened) : Prop :=
  match command with
  | some .cd => ∃ name, arguments 1 = some name ∧ Moved cwd name log cwd' log'
  | _ => cwd' = cwd

/-- What a handler leaves of a shell. -/
def Changed (shell : Shell) (command : Option Command) (arguments : Arguments) (log : Opened)
    (shell' : Shell) (log' : Opened) : Prop :=
  Transition command arguments shell.cwd log shell'.cwd log' ∧
    shell'.udplogflag = shell.udplogflag

theorem leaves_meets {code : Program Call Int} (runs : Runs code log) :
    directories.Meets (fun _ => True) (fun outcome _ => outcome.2 = shell)
      (shell.leaves code) log :=
  Server.Meets.bind runs fun _ _ _ => .done trivial rfl

theorem handler_meets {command : Command} {others : List (List Byte)}
    (rooted : shell.cwd.getD 0 0 = slash) (supplied : Supplied arguments others)
    (sound : shell.Sound arguments others.length command) :
    directories.Meets (fun _ => True)
      (fun outcome log' => Changed shell (some command) arguments log outcome.2 log')
      (shell.handler arguments others.length command) log := by
  have finds : ∀ index, index < others.length → ∃ name, arguments index = some name :=
    fun index inside => ⟨_, supplied index _ (List.getElem?_eq_getElem inside)⟩
  have kept : ∀ {code : Program Call Int}, command ≠ .cd → Runs code log →
      directories.Meets (fun _ => True)
        (fun outcome log' => Changed shell (some command) arguments log outcome.2 log')
        (shell.leaves code) log := by
    intro code other runs
    apply (leaves_meets runs).mono
    rintro ⟨status, _⟩ log' rfl
    refine ⟨?_, rfl⟩
    cases command with
    | cd => exact absurd rfl other
    | _ => rfl
  cases command with
  | help | udptx | udplog | udplog0 => exact sound.elim
  | ls => exact kept nofun (.of_faultless faultless_ls)
  | pwd => exact kept nofun (.of_faultless faultless_pwd)
  | mkdir =>
      rcases sound with ⟨name, first⟩
      exact kept nofun (.of_faultless <| faultless_mkdir first)
  | rm =>
      rcases sound with ⟨name, first⟩
      exact kept nofun (.of_faultless <| faultless_rm first)
  | cat =>
      rcases sound with ⟨name, first, fits⟩
      refine kept nofun (.of_faultless <| faultless_cat first fun redirected => ?_)
      rcases finds 2 (Nat.lt_of_succ_lt redirected) with ⟨redirection, second⟩
      rcases finds 3 redirected with ⟨target, third⟩
      refine ⟨redirection, target, second, third, fun isGreater short other => ?_⟩
      exact fits redirected (second.trans (congrArg some isGreater)) short other target third
  | cd =>
      rcases sound with ⟨name, first, below⟩
      apply (cd_meets rooted first below).mono
      exact fun outcome log' moved => ⟨⟨name, first, moved.1⟩, moved.2⟩

end Shell

/-! ## Lines -/

/-- The command that a line executes. -/
def executed (line : List Byte) : Option Command :=
  if cmdlineMaxArgs < (words line).length then none else (words line).head?.bind lookup

namespace Shell

variable {shell : Shell} {arguments : Arguments} {log : Opened} {line : List Byte}

theorem execute_meets (rooted : shell.cwd.getD 0 0 = slash)
    (supplied : Supplied arguments (words line))
    (sound : ∀ command, executed line = some command →
      shell.Sound arguments (words line).length command) :
    directories.Meets (fun _ => True)
      (fun outcome log' => Changed shell (executed line) arguments log outcome.2 log')
      (shell.execute arguments line) log := by
  unfold execute
  by_cases many : cmdlineMaxArgs < (words line).length
  · have nothing : executed line = none := if_pos many
    rw [if_pos many, nothing]
    exact .done trivial ⟨rfl, rfl⟩
  · have same : executed line = (words line).head?.bind lookup := if_neg many
    rw [if_neg many]
    cases found : (words line).head?.bind lookup with
    | none =>
        rw [same.trans found]
        exact .done trivial ⟨rfl, rfl⟩
    | some command =>
        rw [same.trans found]
        apply Server.Meets.perform trivial
        intro _ after same'
        rw [show after = log from same']
        exact handler_meets rooted supplied (sound command (same.trans found))

/-- A status is reported, and the next line is prompted for. -/
theorem report_meets (status : Int) :
    directories.Meets (fun _ => True) (fun shell' log' => shell' = shell ∧ log' = log)
      (reportStatus status >>= fun _ => shell.prompt) log := by
  have prompts : ∀ log', log' = log → directories.Meets (fun _ => True)
      (fun shell' log' => shell' = shell ∧ log' = log) shell.prompt log' := by
    rintro _ rfl
    apply Server.Meets.perform trivial
    intro _ after same
    exact .done trivial ⟨rfl, same⟩
  have printed : ∀ message : String, directories.Meets (fun _ => True)
      (fun (_ : Unit) log' => log' = log) (.lift (.consolePrintf message [])) log :=
    fun _ => .lift trivial fun _ _ same => ⟨trivial, same⟩
  refine Server.Meets.bind ?_ fun _ => prompts
  unfold reportStatus
  split
  · exact printed _
  · split
    · exact printed _
    · split
      · exact printed _
      · exact .done trivial rfl

theorem process_meets (rooted : shell.cwd.getD 0 0 = slash)
    (supplied : Supplied arguments (words line))
    (sound : ∀ command, executed line = some command →
      shell.Sound arguments (words line).length command) :
    directories.Meets (fun _ => True)
      (fun shell' log' => Changed shell (executed line) arguments log shell' log')
      (shell.process arguments line) log := by
  apply Server.Meets.perform trivial
  intro _ after same
  rw [show after = log from same]
  by_cases empty : line = []
  · rw [if_pos empty]
    apply Server.Meets.perform trivial
    intro _ after' same'
    rw [empty]
    exact .done trivial ⟨rfl, rfl⟩
  · rw [if_neg empty]
    apply (execute_meets rooted supplied sound).bind
    intro outcome log' changed
    apply (report_meets outcome.1).mono
    rintro _ _ ⟨rfl, rfl⟩
    exact changed

end Shell

/-! ## Sessions -/

/-- The lines of a session. -/
def Command.OnDirectories : Command → Prop
  | .cd | .mkdir | .rm | .ls | .pwd | .cat => True
  | .help | .udptx | .udplog | .udplog0 => False

/-- A line of `cd`, `mkdir`, `rm`, `ls`, `pwd` or `cat`. -/
def AnyLine (_ : Memory) (line : List Byte) : Prop :=
  ∀ command, executed line = some command → command.OnDirectories

/-- Sessions of lines, with the directories that are opened on the way. -/
inductive Session (allowed : Memory → List Byte → Prop) : Memory → Opened → Prop where
  | initial : Session allowed Memory.initial []
  | line {memory after : Memory} {log log' : Opened} {line : List Byte} :
      Session allowed memory log → IsLine line → allowed memory line →
      directories.Exec (cmdLineProcess (memory.typed line)) log (.returns ((), after)) log' →
      Session allowed after log'

/-- A line that keeps to its buffers and keeps the directory absolute. -/
def Allowed (memory : Memory) (line : List Byte) : Prop :=
  ∀ command, executed line = some command → ∃ cwd, text memory.cwd = some cwd ∧
    Shell.Sound ⟨cwd, memory.udplogflag⟩ (memory.typed line).arguments (words line).length command

/-- What a line leaves in `CwdBuf`. -/
def LineMoves (memory : Memory) (line : List Byte) (log : Opened) (after : Memory)
    (log' : Opened) : Prop :=
  ∃ cwd cwd', text memory.cwd = some cwd ∧ text after.cwd = some cwd' ∧
    Shell.Transition (executed line) (memory.typed line).arguments cwd log cwd' log'

section Sessions

variable {memory : Memory} {shell shell' : Shell} {log log' : Opened} {line : List Byte}

theorem Shell.Changed.rooted {command : Option Command} {arguments : Arguments}
    (changed : Changed shell command arguments log shell' log')
    (rooted : shell.cwd.getD 0 0 = slash) : shell'.cwd.getD 0 0 = slash := by
  have transition := changed.1
  unfold Transition at transition
  split at transition
  · rcases transition with ⟨name, _, moved⟩
    unfold Moved at moved
    split at moved
    · next path goes =>
        rcases moved with ⟨fresult, _, same⟩
        rw [same]
        split
        · exact destination_rooted rooted goes
        · exact rooted
    · exact moved.2 ▸ rooted
  · exact transition ▸ rooted

/-- A line of a session, from a directory that is absolute. -/
theorem line_meets (represents : Represents memory shell) (rooted : shell.cwd.getD 0 0 = slash)
    (isLine : IsLine line) (allows : Allowed memory line) :
    directories.Meets (fun _ => True) (fun result log' => ∃ shell', Represents result.2 shell' ∧
      Shell.Changed shell (executed line) (memory.typed line).arguments log shell' log')
      (cmdLineProcess (memory.typed line)) log := by
  rcases cmdLineProcess_matches (represents.typed isLine) (isLine.holds _) with
    ⟨arguments, supplied, finds, matching⟩
  have sound : ∀ command, executed line = some command →
      shell.Sound arguments (words line).length command := by
    intro command executes
    rcases allows command executes with ⟨cwd, reads, sound⟩
    have few : (words line).length ≤ cmdlineMaxArgs := by
      by_contra many
      rw [executed, if_pos (not_le.mp many)] at executes
      cases executes
    rw [text_holds represents.cwd] at reads
    cases reads
    rw [finds few]
    rw [represents.udplogflag] at sound
    exact sound
  apply (Shell.process_meets rooted supplied sound).matches matching
  intro result shell' log' settles changed
  refine ⟨shell', settles, ?_⟩
  by_cases few : (words line).length ≤ cmdlineMaxArgs
  · rw [← finds few]
    exact changed
  · have nothing : executed line = none := if_pos (not_le.mp few)
    rw [nothing] at changed ⊢
    exact changed

theorem Session.rooted (session : Session Allowed memory log) :
    ∃ shell, Represents memory shell ∧ shell.cwd.getD 0 0 = slash := by
  induction session with
  | initial => exact ⟨_, initial_represents, rfl⟩
  | line _ isLine allows exec inductionHypothesis =>
      rcases inductionHypothesis with ⟨shell, represents, rooted⟩
      rcases (line_meets represents rooted isLine allows).returns _ _ exec with
        ⟨shell', represents', changed⟩
      exact ⟨shell', represents', changed.rooted rooted⟩

/-- In every session of allowed lines `CwdBuf` holds an absolute path, and the next allowed
line keeps to its buffers and makes of the directory what it should. -/
theorem session_directory (session : Session Allowed memory log) :
    (∃ cwd, text memory.cwd = some cwd ∧ cwd.length ≤ 511 ∧ cwd.getD 0 0 = slash) ∧
      ∀ line, IsLine line → Allowed memory line →
        directories.Meets (fun _ => True)
          (fun result log' => LineMoves memory line log result.2 log')
          (cmdLineProcess (memory.typed line)) log := by
  rcases session.rooted with ⟨shell, represents, rooted⟩
  have reads := text_holds represents.cwd
  constructor
  · exact ⟨shell.cwd, reads, Nat.le_of_lt_succ represents.cwd.fits, rooted⟩
  · intro line isLine allows
    apply (line_meets represents rooted isLine allows).mono
    rintro ⟨_, after⟩ log' ⟨shell', represents', changed⟩
    exact ⟨shell.cwd, shell'.cwd, reads, text_holds represents'.cwd, changed.1⟩

end Sessions

/-! ### Lines of `cd` -/

theorem directories_around {reply : Type} (request : Call reply) (log : Opened) (answer : reply)
    (around : request.Around) : directories.answers request log answer log := by
  cases request with
  | process | handler | loadArgv | consolePrintf => rfl
  | _ => exact around.elim

/-- A line that enters a directory. -/
theorem Represents.enters {memory : Memory} {shell : Shell} {line name path : List Byte}
    {log : Opened} (represents : Represents memory shell) (isLine : IsLine line)
    (list : words line = [chars ['c', 'd'], name])
    (goes : ∀ arguments : Arguments, arguments 1 = some name →
      shell.cd arguments = .perform (.loadArgv 1) fun _ => shell.enter path) :
    ∃ after, Represents after ⟨path, shell.udplogflag⟩ ∧ directories.Exec
      (cmdLineProcess (memory.typed line)) log (.returns ((), after)) (log ++ [(path, .ok)]) := by
  rcases process_matches represents isLine with ⟨arguments, supplied, matching⟩
  have opens : directories.answers (.fOpendir path) log .ok (log ++ [(path, .ok)]) :=
    ⟨rfl, fun _ => rfl⟩
  have exec := Shell.process_enters list supplied goes
    (fun request log => directories_around request log ()) opens
  rcases exec.matches matching.symm with ⟨outcome, exec', relates⟩
  cases relates with
  | returns settles => exact ⟨_, settles, exec'⟩

/-- The line `cd /a`. -/
def lineCd : List Byte := chars ['c', 'd', ' ', '/', 'a']

/-- The line `cd b`. -/
def lineCdBelow : List Byte := chars ['c', 'd', ' ', 'b']

theorem cd_allowed : Allowed Memory.initial lineCd := by
  intro command executes
  have same : some Command.cd = some command := executes
  cases same
  refine ⟨[slash], text_holds initial_represents.cwd, chars ['/', 'a'], rfl, ?_⟩
  exact ⟨by decide, fun relative => absurd rfl relative⟩

theorem cd_below_allowed {memory : Memory}
    (represents : Represents memory ⟨chars ['/', 'a'], false⟩) :
    Allowed memory lineCdBelow := by
  intro command executes
  have same : some Command.cd = some command := executes
  cases same
  have isLine : IsLine lineCdBelow := ⟨by decide, by decide⟩
  rcases cmdLineProcess_matches (represents.typed isLine) (isLine.holds memory) with
    ⟨arguments, supplied, finds, _⟩
  have first : arguments 1 = some (chars ['b']) := supplied 1 _ rfl
  rw [finds (by decide)] at first
  have below : ¬ (chars ['b'] = dots ∧ chars ['/', 'a'] = [slash]) := by decide
  have single : ¬ EndsInSlash (chars ['/', 'a']) := by decide
  exact ⟨_, text_holds represents.cwd, _, first, below, fun _ _ _ => single⟩

/-- The line `cd /a`, as the first line of a session. -/
theorem session_below : ∃ memory log, Session Allowed memory log ∧
    Represents memory ⟨chars ['/', 'a'], false⟩ := by
  have isLine : IsLine lineCd := ⟨by decide, by decide⟩
  rcases initial_represents.enters isLine rfl (fun arguments first => by
    unfold Shell.cd Arguments.read
    rw [first]
    rfl) with ⟨memory, represents, exec⟩
  exact ⟨memory, _, .line .initial isLine cd_allowed exec, represents⟩

/-- The line `cd b` behind it. -/
theorem cd_directory : ∃ memory log, Session Allowed memory log ∧
    text memory.cwd = some (chars ['/', 'a']) ∧ directories.Meets (fun _ => True)
      (fun result log' => LineMoves memory lineCdBelow log result.2 log')
      (cmdLineProcess (memory.typed lineCdBelow)) log := by
  rcases session_below with ⟨memory, log, session, represents⟩
  exact ⟨memory, log, session, text_holds represents.cwd,
    (session_directory session).2 lineCdBelow ⟨by decide, by decide⟩ (cd_below_allowed represents)⟩

/-- The line `cd ..`. -/
def lineUp : List Byte := chars ['c', 'd', ' ', '.', '.']

/-- In the root directory, `cd ..` leaves an empty path. -/
theorem up_exec : ∃ after log, text after.cwd = some [] ∧ directories.Exec
    (cmdLineProcess (Memory.initial.typed lineUp)) [] (.returns ((), after)) log := by
  have isLine : IsLine lineUp := ⟨by decide, by decide⟩
  rcases initial_represents.enters isLine rfl (fun arguments first => by
    unfold Shell.cd Arguments.read
    rw [first]
    rfl) with ⟨after, represents, exec⟩
  exact ⟨after, _, text_holds represents.cwd, exec⟩

/-- With `cd ..` in the root directory the path does not begin with a separator. -/
theorem not_session_directory : ¬ ∀ (memory : Memory) (log : Opened),
    Session AnyLine memory log →
      ∃ cwd, text memory.cwd = some cwd ∧ cwd.length ≤ 511 ∧ cwd.getD 0 0 = slash := by
  intro holds
  rcases up_exec with ⟨after, log, empty, exec⟩
  have onDirectories : AnyLine Memory.initial lineUp := by
    intro command executes
    have same : some Command.cd = some command := executes
    cases same
    trivial
  have session : Session AnyLine after log :=
    .line .initial ⟨by decide, by decide⟩ onDirectories exec
  rcases holds after log session with ⟨cwd, reads, _, rooted⟩
  rw [empty] at reads
  cases reads
  exact absurd rooted (by decide)

end BbbEth.Console
