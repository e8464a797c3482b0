import BbbEth.Console.Copy
import BbbEth.Console.Independence

/-!
# The line `cat A > B`

If the line returns 0, the file `B` equals the file `A`, if and only if `A` was not refused, `B`
was not longer, and the disk has room.
-/

namespace BbbEth.Console

open BbbEth.Interference

variable {file : Type} {resolve : List Byte → file}

/-! ## Both files -/

/-- The line `cat A > B`. -/
def IsCopy (name target line : List Byte) : Prop :=
  words line = [chars ['c', 'a', 't'], name, [greater], target]

/-- What was in a file is in both files. -/
def SameFiles (source target : file) (before after : Disk file) : Prop :=
  after.content source = before.content source ∧ after.content target = before.content source

/-- The content of a file that is opened to write. -/
def Disk.held (disk : Disk file) (name : file) : List Byte := (disk.content name).getD []

/-- A file finds room in another one, and covers it. -/
def Disk.Covers (disk : Disk file) (source target : file) : Prop :=
  ∀ content, disk.content source = some content →
    (disk.held target).length ≤ content.length ∧
      content.length ≤ (disk.held target).length + disk.room

section Files

variable {source target : file} {content : List Byte} {disk after : Disk file}

/-- What a copy leaves in `B` is `A` exactly if `A` covers `B` and finds room. -/
theorem CopyEnds.same_iff
    (ends : CopyEnds source target content (disk.held target) disk.room after)
    (holds : disk.content source = some content) :
    SameFiles source target disk after ↔ disk.Covers source target := by
  have longer : content.length ≤ (disk.held target).length →
      written (disk.held target) disk.room content.length = content.length :=
    fun longer => min_eq_left (longer.trans (Nat.le_add_right _ _))
  have whole : written (disk.held target) disk.room content.length = content.length ↔
      content.length ≤ (disk.held target).length + disk.room := by
    unfold written
    omega
  have short : written (disk.held target) disk.room content.length ≤ content.length :=
    min_le_left _ _
  have same := mixed_eq_iff short longer
  unfold SameFiles Disk.Covers
  rw [ends.source, ends.target, holds, Option.some_inj, Option.some_inj, same,
    whole]
  constructor
  · rintro ⟨_, room, covers⟩ _ ⟨⟩
    exact ⟨covers, room⟩
  · intro covers
    exact ⟨rfl, (covers content rfl).2, (covers content rfl).1⟩

variable [DecidableEq file]

/-- Both files are opened, and nothing of them is cut. -/
theorem opens_both {path path' : List Byte} {middle : Disk file}
    (distinct : resolve path ≠ resolve path')
    (reads : (disks resolve).answers (.fOpen .fileObject path faRead) disk .ok middle)
    (writes : (disks resolve).answers (.fOpen .fileObjectWrite path' (faWrite ||| faOpenAlways))
      middle .ok after) : ∃ content, disk.content (resolve path) = some content ∧
    after = startedCopy (resolve path) (resolve path') content (disk.held (resolve path')) disk := by
  rcases reads rfl with ⟨content, holds, rfl⟩
  rcases writes rfl with ⟨content', holds', rfl⟩
  rw [Disk.opened_other distinct] at holds'
  cases holds'
  exact ⟨content, holds, rfl⟩

/-- Files that can be opened. -/
theorem opens_file {path : List Byte} {object : FileObject} {mode : Byte}
    (opens : Disk.openedContent mode (disk.content (resolve path)) = some content) :
    (disks resolve).answers (.fOpen object path mode) disk .ok
      ((disk.setContent (resolve path) content).setOpened object (resolve path) 0) :=
  fun _ => ⟨content, opens, rfl⟩

end Files

/-! ## The handler -/

namespace Shell

variable [DecidableEq file]

variable {shell : Shell} {arguments : Arguments} {name target : List Byte} {disk : Disk file}

theorem copy_meets (distinct : resolve (shell.base ++ name) ≠ resolve (shell.base ++ target))
    (third : arguments 3 = some target)
    (fits : shell.base.length + target.length < pathBufSize)
    (covers : disk.Covers (resolve (shell.base ++ name)) (resolve (shell.base ++ target))) :
    (disks resolve).Meets (fun _ => True)
      (fun status after => status = 0 → SameFiles (resolve (shell.base ++ name))
        (resolve (shell.base ++ target)) disk after) (shell.copy arguments name true) disk := by
  apply Server.Meets.perform trivial
  intro fresultRead middle reads
  rw [if_pos rfl]
  apply Server.Meets.perform trivial
  intro _ loaded same
  rw [show loaded = middle from same, third]
  dsimp only
  rw [if_neg (not_le.mpr fits)]
  apply Server.Meets.perform trivial
  intro fresultWrite after writes
  by_cases fails : fresultRead ≠ .ok
  · rw [if_pos fails]
    exact .done trivial fun zero => absurd zero (FResult.code_ne_zero fails)
  by_cases fails' : fresultWrite ≠ .ok
  · rw [if_neg fails, if_pos fails']
    exact .done trivial fun zero => absurd zero (FResult.code_ne_zero fails')
  rw [if_neg fails, if_neg fails']
  rw [not_not.mp fails] at reads
  rw [not_not.mp fails'] at writes
  rcases opens_both distinct reads writes with ⟨content, holds, rfl⟩
  apply (copyBlocks_meets distinct (copying_started distinct)).mono
  exact fun status after ends zero => ((ends zero).same_iff holds).mpr covers

/-- A copy of a file that exists, in which no call fails. -/
theorem copy_exec (distinct : resolve (shell.base ++ name) ≠ resolve (shell.base ++ target))
    (third : arguments 3 = some target)
    (fits : shell.base.length + target.length < pathBufSize) {content : List Byte}
    (holds : disk.content (resolve (shell.base ++ name)) = some content) : ∃ after,
      (disks resolve).Exec (shell.copy arguments name true) disk (.returns 0) after ∧
        CopyEnds (resolve (shell.base ++ name)) (resolve (shell.base ++ target)) content
          (disk.held (resolve (shell.base ++ target))) disk.room after := by
  have copying : Copying (resolve (shell.base ++ name)) (resolve (shell.base ++ target)) content
      (disk.held (resolve (shell.base ++ target))) disk.room 0 _ := copying_started distinct
  have blocks : ∃ after, (disks resolve).Exec (copyBlocks true) _ _ after ∧ _ :=
    copyBlocks_exec distinct copying
  rcases blocks with ⟨after, exec, ends⟩
  refine ⟨after, ?_, ends⟩
  have reads : Disk.openedContent faRead (disk.content (resolve (shell.base ++ name))) =
      some content := holds
  apply Server.Exec.answer .ok (opens_file reads)
  rw [if_pos rfl]
  apply Server.Exec.answer () rfl
  rw [third]
  dsimp only
  rw [if_neg (not_le.mpr fits)]
  have opens : Disk.openedContent (faWrite ||| faOpenAlways)
      (disk.content (resolve (shell.base ++ target))) =
        some (disk.held (resolve (shell.base ++ target))) := rfl
  rw [← Disk.opened_other distinct] at opens
  apply Server.Exec.answer .ok (opens_file opens)
  rwa [if_neg (not_not.mpr rfl), if_neg (not_not.mpr rfl)]

end Shell

/-! ## The line -/

section Line

variable [DecidableEq file]

/-- If a routine returns 0, then it has copied a file. -/
def Copies (resolve : List Byte → file) (source target : file) {result : Type}
    (status : result → Int) (code : Program Call result) (disk : Disk file) : Prop :=
  (disks resolve).Meets (fun _ => True)
    (fun value after => status value = 0 → SameFiles source target disk after) code disk

/-- The lines that copy. -/
def Shell.Copyable (shell : Shell) (resolve : List Byte → file) (name target : List Byte)
    (disk : Disk file) : Prop :=
  let source := resolve (shell.base ++ name)
  let dest := resolve (shell.base ++ target)
  if shell.TooLong name ∨ name = devUart then disk.content dest = disk.content source
  else shell.base.length + target.length < pathBufSize ∧ disk.Covers source dest

variable {source target : file} {disk : Disk file}

theorem Copies.matches_iff {left right : Type} {related : left → right → Prop}
    {status : left → Int} {status' : right → Int} {code : Program Call left}
    {code' : Program Call right} (matching : code.Matches related code')
    (same : ∀ value value', related value value' → status value = status' value') :
    Copies resolve source target status code disk ↔
      Copies resolve source target status' code' disk := by
  constructor
  · intro copies
    apply Server.Meets.matches copies matching.symm
    intro value value' after relates ends zero
    exact ends ((same value' value relates).trans zero)
  · intro copies
    apply Server.Meets.matches copies matching
    intro value value' after relates ends zero
    exact ends ((same value value' relates).symm.trans zero)

namespace Shell

variable {shell : Shell} {arguments : Arguments} {name target line : List Byte}

/-- The handler, once its arguments are found. -/
theorem cat_found (first : arguments 1 = some name) (second : arguments 2 = some [greater]) :
    shell.cat arguments 4 = .perform (.loadArgv 1) fun _ =>
      if shell.TooLong name then complain "Resulting path name is too long\n\r" 0
      else .perform (.loadArgv 2) fun _ => shell.catFile arguments name true := by
  unfold cat Arguments.read
  rw [first, second]
  rfl

/-- A file that is refused: the handler returns 0, and the disk stays as it is. -/
theorem cat_refused_meets (first : arguments 1 = some name) (second : arguments 2 = some [greater])
    (refused : shell.TooLong name ∨ name = devUart) :
    (disks resolve).Meets (fun _ => True) (fun _ after => after = disk) (shell.cat arguments 4)
      disk := by
  have stays : ∀ {before : Disk file} (format : String) (printed : List Printed)
      (next : Program Call Int), before = disk →
      (∀ current, current = disk → (disks resolve).Meets (fun _ => True)
        (fun _ after => after = disk) next current) →
      (disks resolve).Meets (fun _ => True) (fun _ after => after = disk)
        (.perform (.consolePrintf format printed) fun _ => next) before := by
    intro before format printed next same others
    apply Server.Meets.perform trivial
    intro _ current answered
    exact others current ((show current = before from answered).trans same)
  have ends : ∀ current, current = disk → (disks resolve).Meets (fun _ => True)
      (fun _ after => after = disk) (.done (0 : Int)) current :=
    fun _ same => .done trivial same
  rw [cat_found first second]
  apply Server.Meets.perform trivial
  intro _ current same
  by_cases tooLong : shell.TooLong name
  · rw [if_pos tooLong]
    exact stays _ _ _ same ends
  · rw [if_neg tooLong]
    apply Server.Meets.perform trivial
    intro _ current' same'
    unfold catFile
    rw [if_pos (refused.resolve_left tooLong)]
    refine stays _ _ _ ((show current' = current from same').trans same) fun _ same => ?_
    exact stays _ _ _ same fun _ same => stays _ _ _ same ends

theorem cat_refused_exec (first : arguments 1 = some name) (second : arguments 2 = some [greater])
    (refused : shell.TooLong name ∨ name = devUart) :
    (disks resolve).Exec (shell.cat arguments 4) disk (.returns 0) disk := by
  rw [cat_found first second]
  apply Server.Exec.answer () rfl
  by_cases tooLong : shell.TooLong name
  · rw [if_pos tooLong]
    exact .answer () rfl .done
  · rw [if_neg tooLong]
    apply Server.Exec.answer () rfl
    unfold catFile
    rw [if_pos (refused.resolve_left tooLong)]
    exact .answer () rfl (.answer () rfl (.answer () rfl .done))

/-- A target that does not fit into its buffer. -/
theorem copy_faults (third : arguments 3 = some target)
    (outside : ¬ shell.base.length + target.length < pathBufSize) : ∃ after,
      (disks resolve).Exec (shell.copy arguments name true) disk .faults after := by
  refine ⟨disk, ?_⟩
  -- The first file could not be opened, either.
  have fails : (disks resolve).answers (.fOpen .fileObject (shell.base ++ name) faRead) disk
      .noFile disk := fun opened => nomatch opened
  apply Server.Exec.answer FResult.noFile fails
  rw [if_pos rfl]
  apply Server.Exec.answer () rfl
  rw [third]
  dsimp only
  rw [if_pos (not_lt.mp outside)]
  exact .fault

/-- The handler copies exactly the lines that copy. -/
theorem cat_copies_iff (disk : Disk file)
    (distinct : resolve (shell.base ++ name) ≠ resolve (shell.base ++ target))
    (first : arguments 1 = some name) (second : arguments 2 = some [greater])
    (third : arguments 3 = some target) :
    Copies resolve (resolve (shell.base ++ name)) (resolve (shell.base ++ target)) id
      (shell.cat arguments 4) disk ↔ shell.Copyable resolve name target disk := by
  unfold Copyable
  by_cases refused : shell.TooLong name ∨ name = devUart
  · rw [if_pos refused]
    constructor
    · intro copies
      exact (copies.returns _ _ (cat_refused_exec first second refused) rfl).2
    · intro same
      apply (cat_refused_meets first second refused).mono
      rintro _ _ rfl _
      exact ⟨rfl, same⟩
  · rcases not_or.mp refused with ⟨fits, other⟩
    have goes : shell.cat arguments 4 = .perform (.loadArgv 1) fun _ =>
        .perform (.loadArgv 2) fun _ => shell.copy arguments name true := by
      rw [cat_found first second]
      unfold catFile
      rw [if_neg fits, if_neg other]
    have reaches : ∀ {outcome : Outcome Int} {after : Disk file},
        (disks resolve).Exec (shell.copy arguments name true) disk outcome after →
        (disks resolve).Exec (shell.cat arguments 4) disk outcome after := by
      intro outcome after exec
      rw [goes]
      exact .answer () rfl (.answer () rfl exec)
    rw [if_neg refused]
    constructor
    · intro copies
      have fits : shell.base.length + target.length < pathBufSize := by
        by_contra outside
        have faults : ∃ after, (disks resolve).Exec (shell.copy arguments name true) disk .faults
            after := copy_faults third outside
        rcases faults with ⟨after, exec⟩
        exact copies.faultless _ (reaches exec)
      refine ⟨fits, fun content holds => ?_⟩
      rcases copy_exec distinct third fits holds with ⟨after, exec, ends⟩
      exact (ends.same_iff holds).mp (copies.returns _ _ (reaches exec) rfl) content holds
    · rintro ⟨fits, covers⟩
      rw [goes]
      apply Server.Meets.perform trivial
      intro _ current same
      apply Server.Meets.perform trivial
      intro _ current' same'
      rw [show current' = disk from (show current' = current from same').trans same]
      exact copy_meets distinct third fits covers

theorem leaves_matches (code : Program Call Int) :
    (shell.leaves code).Matches (fun value status => value.1 = status) code := by
  have matching : (shell.leaves code).Matches (fun value status => value.1 = status)
      (code >>= .done) := by
    apply (Program.Matches.refl code).bind
    rintro status _ rfl
    exact .done rfl
  rwa [Program.bind_pure] at matching

/-- What the line does, once its words are found. -/
theorem execute_copy (asks : IsCopy name target line) : shell.execute arguments line =
    .perform (.handler .cat (words line)) fun _ => shell.leaves (shell.cat arguments 4) := by
  have found : lookup (chars ['c', 'a', 't']) = some .cat := by decide
  have few : ¬ cmdlineMaxArgs < [chars ['c', 'a', 't'], name, [greater], target].length :=
    (by decide : ¬ cmdlineMaxArgs < 4)
  unfold execute
  rw [asks, if_neg few, List.head?_cons, Option.bind_some, found]
  rfl

theorem execute_copies_iff
    (distinct : resolve (shell.base ++ name) ≠ resolve (shell.base ++ target))
    (supplied : Supplied arguments (words line)) (asks : IsCopy name target line) :
    Copies resolve (resolve (shell.base ++ name)) (resolve (shell.base ++ target)) Prod.fst
      (shell.execute arguments line) disk ↔ shell.Copyable resolve name target disk := by
  rw [asks] at supplied
  have handles := cat_copies_iff disk distinct (supplied 1 name rfl)
    (supplied 2 [greater] rfl) (supplied 3 target rfl)
  have forgets : Copies resolve (resolve (shell.base ++ name)) (resolve (shell.base ++ target))
      Prod.fst (shell.leaves (shell.cat arguments 4)) disk ↔
        Copies resolve (resolve (shell.base ++ name)) (resolve (shell.base ++ target)) id
          (shell.cat arguments 4) disk :=
    Copies.matches_iff (leaves_matches _) fun _ _ same => same
  rw [← handles, ← forgets, execute_copy asks]
  constructor
  · intro copies
    have answered : (disks resolve).answers (.handler .cat (words line)) disk () disk := rfl
    exact Server.Meets.of_perform copies answered
  · intro copies
    apply Server.Meets.perform trivial
    intro _ after same
    rw [show after = disk from same]
    exact copies

end Shell

variable {memory : Memory} {shell : Shell} {name target line : List Byte}

/-- The line copies, with the buffers of the console, too. -/
theorem parse_copies_iff (disk : Disk file) (represents : Represents memory shell) (isLine : IsLine line)
    (asks : IsCopy name target line)
    (distinct : resolve (shell.base ++ name) ≠ resolve (shell.base ++ target)) :
    Copies resolve (resolve (shell.base ++ name)) (resolve (shell.base ++ target)) Prod.fst
      (cmdLineParse (memory.typed line)) disk ↔ shell.Copyable resolve name target disk := by
  rcases cmdLineParse_matches (represents.typed isLine) (isLine.holds _) with
    ⟨arguments, supplied, _, matching⟩
  rw [← Shell.execute_copies_iff distinct supplied asks]
  exact Copies.matches_iff matching fun _ _ leaves => leaves.1

/-- After every history, and for every disk: where `cat A > B` returns 0, `B` equals `A`, if
and only if the line is one that copies. -/
theorem line_copies_iff (reached : Reached memory) (cwd : text memory.cwd = some shell.cwd)
    (isLine : IsLine line) (asks : IsCopy name target line)
    (distinct : resolve (shell.base ++ name) ≠ resolve (shell.base ++ target)) :
    Copies resolve (resolve (shell.base ++ name)) (resolve (shell.base ++ target)) Prod.fst
      (cmdLineParse (memory.typed line)) disk ↔ shell.Copyable resolve name target disk := by
  rcases reached.represents with ⟨shell', represents⟩
  rw [text_holds represents.cwd] at cwd
  have represents : Represents memory ⟨shell.cwd, shell'.udplogflag⟩ := by
    rw [← Option.some.inj cwd]
    exact represents
  have copies := parse_copies_iff disk represents isLine asks distinct
  exact copies

end Line

/-- The line `cat a > b`. -/
def lineCat : List Byte := chars ['c', 'a', 't', ' ', 'a', ' ', '>', ' ', 'b']

/-- A disk with the files `/a` and `/b`. -/
def diskOf (content old : List Byte) : Disk (List Byte) where
  content := fun path => if path = chars ['/', 'a'] then some content
    else if path = chars ['/', 'b'] then some old else none
  room := 512
  opened := fun _ => none

theorem lineCat_isCopy : IsCopy (chars ['a']) (chars ['b']) lineCat := rfl

theorem lineCat_isLine : IsLine lineCat := ⟨by decide, by decide⟩

/-- A file that covers the other one. -/
theorem cat_copies : Copies id (chars ['/', 'a']) (chars ['/', 'b']) Prod.fst
    (cmdLineParse (Memory.initial.typed lineCat)) (diskOf [1, 2] [3]) := by
  have copyable : Shell.Copyable ⟨[slash], false⟩ id (chars ['a']) (chars ['b'])
      (diskOf [1, 2] [3]) := by
    unfold Shell.Copyable
    rw [if_neg (by decide)]
    refine ⟨by decide, ?_⟩
    rintro content ⟨⟩
    exact ⟨by decide, by decide⟩
  exact (line_copies_iff .initial (text_holds initial_represents.cwd) lineCat_isLine
    lineCat_isCopy (by decide)).mpr copyable

/-- What is behind the end of a longer file stays. -/
theorem not_line_copies : ¬ ∀ (memory : Memory) (shell : Shell) (name target line : List Byte)
    (disk : Disk (List Byte)), Reached memory → text memory.cwd = some shell.cwd → IsLine line →
      IsCopy name target line → shell.base ++ name ≠ shell.base ++ target →
        Copies id (shell.base ++ name) (shell.base ++ target) Prod.fst
          (cmdLineParse (memory.typed line)) disk := by
  intro holds
  have copies := holds _ ⟨[slash], false⟩ _ _ _ (diskOf [1] [2, 3]) .initial
    (text_holds initial_represents.cwd) lineCat_isLine lineCat_isCopy (by decide)
  have exactly : Copies id _ _ Prod.fst _ _ ↔ Shell.Copyable _ id _ _ _ :=
    parse_copies_iff (diskOf [1] [2, 3]) initial_represents lineCat_isLine lineCat_isCopy
      (by decide)
  have copyable := exactly.mp copies
  unfold Shell.Copyable at copyable
  rw [if_neg (by decide)] at copyable
  have covers := copyable.2 [1] rfl
  exact absurd covers.1 (by decide)

end BbbEth.Console
