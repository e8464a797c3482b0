import BbbEth.Console.Bounds
import BbbEth.Console.Grammar
import BbbEth.FatFs.Path

/-!
# The protection of the working directory

Whether `rm` refuses the current directory and the directories above it, which it compares
byte by byte, while FatFs compares names.
-/

namespace BbbEth.Console

open BbbEth.Interference BbbEth.FatFs Routine

namespace Shell

variable (shell : Shell)

/-- The path that `rm` passes to `f_unlink`, if any. -/
def removes (name : List Byte) : Option (List Byte) :=
  if name.getD 0 0 = slash then if shell.IsAbove name then none else some name
  else if shell.TooLong name then none
  else some (shell.base ++ name)

/-- The working directory is protected: `f_unlink` is called on no path that FatFs resolves to
it or to one of its ancestors, and any other path is passed to `f_unlink` as it is. -/
abbrev Protects (name : List Byte) {result : Type} (code : Program Call result)
    (trace : Trace) : Prop :=
  paths.Meets (fun trace => ∀ path, .unlink path ∈ trace.passed → ¬ Encloses path shell.cwd)
    (fun _ trace => ∀ path, shell.path name = some path → ¬ Encloses path shell.cwd →
      trace.passed = [.unlink path]) code trace

end Shell

section Removal

variable {memory : Memory} {shell : Shell} {names : List (List Byte)} {name path : List Byte}

/-- The argument of a line fits into a path. -/
theorem Supplies.short (supplies : Supplies memory names) (finds : names[1]? = some name) :
    name.length + 2 < pathBufSize := by
  rcases supplies 1 name finds with ⟨offset, _, holds, apart⟩
  have fits : name.length < cmdBufSize - offset := holds.fits
  have limits : pathBufSize = 512 ∧ cmdBufSize = 512 := ⟨rfl, rfl⟩
  omega

/-- A path is passed to `f_unlink`, or none. -/
def Removes {result : Type} (code : Program Call result) : Option (List Byte) → Prop
  | none => code.Safe @Call.Quiet
  | some path => Ends code (.fUnlink path)

/-- `rm` reads its argument, and calls `f_unlink` at most once. -/
theorem cmdRm_removes (cwd : Holds memory.cwd shell.cwd) (supplies : Supplies memory names)
    (finds : names[1]? = some name) : ∃ body,
      cmdRm memory = .perform (.loadArgv 1) (fun _ => body) ∧
        Removes body (shell.removes name) := by
  have short := supplies.short finds
  rcases supplies 1 name finds with ⟨offset, points, holds, _⟩
  unfold cmdRm cmdRmBy Shell.removes
  rw [bind_argv, points]
  refine ⟨_, rfl, ?_⟩
  dsimp only
  by_cases absolute : name.getD 0 0 = slash
  · rw [if_pos absolute, if_pos ((absolute_iff holds).mpr absolute),
      bind_ofOption (strlen_holds holds), if_neg (absolute_fits (Nat.lt_of_succ_lt short)),
      bind_of_eq_done (aboveCwd_eq cwd holds)]
    by_cases above : shell.IsAbove name
    · rw [if_pos above, if_pos (decide_eq_true above)]
      exact complain_safe _ _
    · rcases copyPath_prepares holds (Nat.lt_pred_of_succ_lt (Nat.lt_of_succ_lt short)) with
        ⟨tmp, prepared, copies⟩
      rw [if_neg above, if_neg (by rw [decide_eq_false above]; exact Bool.false_ne_true),
        bind_of_eq_done copies]
      exact removePath_ends cwd prepared
  · rcases copyCwd_prepares cwd with ⟨tmp, copied, copies⟩
    rw [if_neg absolute, if_neg fun first => absolute ((absolute_iff holds).mp first),
      bind_of_eq_done copies]
    by_cases tooLong : shell.TooLong name
    · rw [if_pos tooLong, bind_of_eq_done (appendName_tooLong copied holds tooLong)]
      exact complain_safe _ _
    · rcases appendName_prepares copied holds tooLong with ⟨tmp', prepared, appends⟩
      rw [if_neg tooLong, bind_of_eq_done appends]
      exact removePath_ends cwd prepared

/-- A path below the current directory. -/
theorem not_encloses_base (more : name ≠ []) : ¬ Encloses (shell.base ++ name) shell.cwd := by
  unfold Shell.base
  by_cases root : shell.cwd = [slash]
  · have same : resolve [slash] = resolve [] := rfl
    have below : ¬ Encloses ([] ++ slash :: name) [] := not_encloses_append more
    have whole : [slash] ++ name = [] ++ slash :: name := rfl
    rw [if_pos root, root, whole]
    unfold Encloses at below ⊢
    rwa [same]
  · rw [if_neg root, List.append_assoc]
    exact not_encloses_append more

/-- What `rm` refuses is the current directory, or above it. -/
theorem encloses_of_isAbove {drive : Nat} {below : List (List Byte)}
    (directory : resolve shell.cwd = some (drive, below))
    (nonzero : ∀ byte ∈ shell.cwd, byte ≠ 0) (absolute : name.getD 0 0 = slash)
    (above : shell.IsAbove name) : Encloses name shell.cwd := by
  rcases above with ⟨⟨rest, whole⟩, next⟩
  have ends : rest = [] ∨ ∃ more, rest = slash :: more := by
    cases rest with
    | nil => exact .inl rfl
    | cons c more =>
        rw [← whole, List.getD_append_right _ _ _ _ le_rfl, Nat.sub_self] at next
        have member : c ∈ shell.cwd := by
          rw [← whole]
          exact List.mem_append_right _ List.mem_cons_self
        rcases next with separates | ends
        · exact .inr ⟨more, congrArg (· :: more) separates⟩
        · exact absurd ends (nonzero c member)
  cases name with
  | nil => exact absurd absolute (by decide)
  | cons c path =>
      have first : c = slash := absolute
      subst first
      rw [← whole] at directory ⊢
      exact encloses_of_append directory ends

/-- What is refused, but for its length, is the current directory, or above it. -/
theorem removes_none {drive : Nat} {below : List (List Byte)}
    (directory : resolve shell.cwd = some (drive, below))
    (nonzero : ∀ byte ∈ shell.cwd, byte ≠ 0) (short : name.length + 2 < pathBufSize)
    (refuses : shell.removes name = none) (makes : shell.path name = some path) :
    Encloses path shell.cwd := by
  unfold Shell.removes at refuses
  by_cases absolute : name.getD 0 0 = slash
  · rw [if_pos absolute] at refuses
    have same : shell.path name = some name := if_pos absolute
    rw [same] at makes
    cases makes
    by_cases above : shell.IsAbove name
    · exact encloses_of_isAbove directory nonzero absolute above
    · rw [if_neg above] at refuses
      cases refuses
  · rw [if_neg absolute] at refuses
    rw [path_relative absolute short] at makes
    by_cases tooLong : shell.TooLong name
    · rw [if_pos tooLong] at makes
      cases makes
    · rw [if_neg tooLong] at refuses
      cases refuses

/-- What is not refused is the path of the argument, which is not above the current directory
unless the argument is an absolute path. -/
theorem removes_some (short : name.length + 2 < pathBufSize) (more : name ≠ [])
    (removes : shell.removes name = some path) : shell.path name = some path ∧
      (Encloses path shell.cwd → name.getD 0 0 = slash ∧ path = name ∧ ¬ shell.IsAbove name) := by
  unfold Shell.removes at removes
  by_cases absolute : name.getD 0 0 = slash
  · rw [if_pos absolute] at removes
    by_cases above : shell.IsAbove name
    · rw [if_pos above] at removes
      cases removes
    · rw [if_neg above] at removes
      cases removes
      exact ⟨if_pos absolute, fun _ => ⟨absolute, rfl, above⟩⟩
  · rw [if_neg absolute] at removes
    rw [path_relative absolute short]
    by_cases tooLong : shell.TooLong name
    · rw [if_pos tooLong] at removes
      cases removes
    · rw [if_neg tooLong] at removes ⊢
      cases removes
      exact ⟨rfl, fun encloses => absurd encloses (not_encloses_base more)⟩

/-- `rm` with its argument protects the working directory if and only if the argument is
refused where FatFs resolves it to the directory or above. -/
theorem protects_iff {drive : Nat} {below : List (List Byte)} (cwd : Holds memory.cwd shell.cwd)
    (directory : resolve shell.cwd = some (drive, below)) (supplies : Supplies memory names)
    (finds : names[1]? = some name) (more : name ≠ []) :
    shell.Protects name (cmdRm memory) .start ↔
      (name.getD 0 0 = slash → Encloses name shell.cwd → shell.IsAbove name) := by
  have short := supplies.short finds
  rcases cmdRm_removes cwd supplies finds with ⟨body, reads, removes⟩
  have answered : paths.answers (.loadArgv 1) .start () (.read .start 1) := rfl
  rw [reads]
  constructor
  · intro meets absolute encloses
    by_contra notAbove
    have passes : shell.removes name = some name := by
      unfold Shell.removes
      rw [if_pos absolute, if_neg notAbove]
    rw [passes] at removes
    rcases removes with ⟨rest, rfl, _⟩
    have unlinked : paths.answers (.fUnlink name) (.read .start 1) .ok
        (.pass (.read .start 1) (.unlink name)) := rfl
    exact ((meets.of_perform answered).of_perform unlinked).now name List.mem_cons_self encloses
  · intro refused
    apply Server.Meets.perform nofun
    rintro ⟨⟩ trace rfl
    cases found : shell.removes name with
    | none =>
        rw [found] at removes
        refine .of_safe quiet_keeps removes nofun fun _ path makes outside => ?_
        exact absurd (removes_none directory cwd.nonzero short found makes) outside
    | some path =>
        rw [found] at removes
        rcases removes with ⟨rest, rfl, safe⟩
        rcases removes_some short more found with ⟨makes, above⟩
        have outside : ¬ Encloses path shell.cwd := by
          intro encloses
          rcases above encloses with ⟨absolute, rfl, notAbove⟩
          exact notAbove (refused absolute encloses)
        apply Server.Meets.perform nofun
        rintro fresult after rfl
        refine .of_safe quiet_keeps (safe fresult) (fun other member => ?_)
          fun _ other makes' _ => ?_
        · cases List.mem_singleton.mp member
          exact outside
        · rw [makes] at makes'
          cases makes'
          rfl

end Removal

/-! ## Lines -/

/-- A line for `rm` in the buffer. -/
theorem line_protects_iff {memory : Memory} {shell : Shell} {line name : List Byte} {drive : Nat}
    {below : List (List Byte)} (cwd : Holds memory.cwd shell.cwd)
    (directory : resolve shell.cwd = some (drive, below)) (holds : Holds memory.line line)
    (executes : executed line = some .rm) (finds : (words line)[1]? = some name) :
    shell.Protects name (cmdLineParse memory) .start ↔
      (name.getD 0 0 = slash → Encloses name shell.cwd → shell.IsAbove name) := by
  rcases cmdLineParseBy_eq holds executes Command.handler with ⟨parsed, cuts, supplies, parses⟩
  have cwd' : Holds parsed.cwd shell.cwd := by
    rw [cuts.others]
    exact cwd
  have more : name ≠ [] := by
    have member := List.mem_of_getElem? finds
    rw [words_eq_tokens] at member
    exact of_decide_eq_true (List.mem_filter.mp member).2
  have answers : ∀ (answer : Unit) (after : Trace),
      paths.answers (.handler .rm (words line)) .start answer after ↔ after = .start :=
    fun _ _ => Iff.rfl
  have parses : cmdLineParse memory = _ := parses
  rw [parses]
  refine (Server.Meets.perform_iff answers).trans ?_
  rw [forall_const]
  exact (and_iff_right nofun).trans (protects_iff cwd' directory supplies finds more)

/-- For every current directory, which FatFs can resolve, and every argument: the working
directory is protected if and only if the argument is no absolute path that FatFs resolves to
the directory or to one of its ancestors, but that is spelled otherwise than in `CwdBuf`. -/
theorem rm_protects_iff {memory : Memory} {cwd line name : List Byte} {drive : Nat}
    {below : List (List Byte)} (reads : text memory.cwd = some cwd)
    (directory : resolve cwd = some (drive, below)) (isLine : IsLine line)
    (executes : executed line = some .rm) (finds : (words line)[1]? = some name) :
    Shell.Protects ⟨cwd, memory.udplogflag⟩ name (cmdLineParse (memory.typed line)) .start ↔
      (name.getD 0 0 = slash → Encloses name cwd →
        Shell.IsAbove ⟨cwd, memory.udplogflag⟩ name) := by
  have holds : Holds (memory.typed line).cwd cwd := text_eq_some_iff.mp reads
  have whole : Shell.Protects ⟨cwd, memory.udplogflag⟩ _ _ _ ↔ _ :=
    line_protects_iff holds directory (isLine.holds memory) executes finds
  exact whole

/-- The line `rm /b`. -/
def lineRmAbsolute : List Byte := chars ['r', 'm', ' ', '/', 'b']

/-- The line `rm /a`. -/
def lineRmSame : List Byte := chars ['r', 'm', ' ', '/', 'a']

/-- After `cd /a`, the absolute path of another file is removed, and that of the directory is
not. -/
theorem rm_protects_below : ∃ memory log, Session Allowed memory log ∧
    text memory.cwd = some (chars ['/', 'a']) ∧
    Shell.Protects ⟨chars ['/', 'a'], false⟩ (chars ['/', 'b'])
      (cmdLineParse (memory.typed lineRmAbsolute)) .start ∧
    Shell.Protects ⟨chars ['/', 'a'], false⟩ (chars ['/', 'a'])
      (cmdLineParse (memory.typed lineRmSame)) .start := by
  rcases session_below with ⟨memory, log, session, represents⟩
  have cwd := text_holds represents.cwd
  have directory : resolve (chars ['/', 'a']) =
      some (0, [chars ['A', ' ', ' ', ' ', ' ', ' ', ' ', ' ', ' ', ' ', ' ']]) := by decide
  have other : resolve (chars ['/', 'b']) =
      some (0, [chars ['B', ' ', ' ', ' ', ' ', ' ', ' ', ' ', ' ', ' ', ' ']]) := by decide
  have apart : ¬ Encloses (chars ['/', 'b']) (chars ['/', 'a']) := by
    rintro ⟨drive, above, below, isOther, isDirectory, prefixed⟩
    rw [other] at isOther
    rw [directory] at isDirectory
    cases isOther
    cases isDirectory
    exact absurd prefixed (by decide)
  have flag : memory.udplogflag = false := represents.udplogflag
  have first : Shell.Protects ⟨chars ['/', 'a'], memory.udplogflag⟩ (chars ['/', 'b'])
      (cmdLineParse (memory.typed lineRmAbsolute)) .start :=
    (rm_protects_iff cwd directory ⟨by decide, by decide⟩ rfl rfl).mpr
      fun _ encloses => absurd encloses apart
  have same : Shell.IsAbove ⟨chars ['/', 'a'], memory.udplogflag⟩ (chars ['/', 'a']) := by
    have prefixed : chars ['/', 'a'] <+: chars ['/', 'a'] := List.prefix_rfl
    exact ⟨prefixed, .inr rfl⟩
  have second : Shell.Protects ⟨chars ['/', 'a'], memory.udplogflag⟩ (chars ['/', 'a'])
      (cmdLineParse (memory.typed lineRmSame)) .start :=
    (rm_protects_iff cwd directory ⟨by decide, by decide⟩ rfl rfl).mpr
      fun _ _ => same
  rw [flag] at first second
  exact ⟨memory, log, session, cwd, first, second⟩

/-- The console in the directory `/foo`. -/
def Memory.inFoo : Memory :=
  { Memory.initial with cwdBuf := initialised (chars ['/', 'f', 'o', 'o']) }

/-- The line `rm /FOO`. -/
def lineRmOther : List Byte := chars ['r', 'm', ' ', '/', 'F', 'O', 'O']

/-- The working directory is removed by its name in capital letters. -/
theorem not_rm_protects : ¬ ∀ (memory : Memory) (cwd line name : List Byte) (drive : Nat)
    (below : List (List Byte)), text memory.cwd = some cwd → resolve cwd = some (drive, below) →
      IsLine line → executed line = some .rm → (words line)[1]? = some name →
        Shell.Protects ⟨cwd, memory.udplogflag⟩ name (cmdLineParse (memory.typed line))
          .start := by
  intro protects
  have cwd : Holds Memory.inFoo.cwd (chars ['/', 'f', 'o', 'o']) :=
    ⟨fun _ _ => rfl, by decide, by decide⟩
  have isLine : IsLine lineRmOther := ⟨by decide, by decide⟩
  have directory : resolve (chars ['/', 'f', 'o', 'o']) =
      some (0, [chars ['F', 'O', 'O', ' ', ' ', ' ', ' ', ' ', ' ', ' ', ' ']]) := by decide
  have same : resolve (chars ['/', 'F', 'O', 'O']) =
      some (0, [chars ['F', 'O', 'O', ' ', ' ', ' ', ' ', ' ', ' ', ' ', ' ']]) := by decide
  have executes : executed lineRmOther = some .rm := rfl
  have finds : (words lineRmOther)[1]? = some (chars ['/', 'F', 'O', 'O']) := rfl
  have typed : Holds (Memory.inFoo.typed lineRmOther).cwd
      (Shell.cwd ⟨chars ['/', 'f', 'o', 'o'], false⟩) := cwd
  have meets := protects Memory.inFoo _ lineRmOther _ _ _ (text_holds cwd) directory isLine
    executes finds
  have above := (line_protects_iff typed directory (isLine.holds Memory.inFoo) executes finds).mp
    meets rfl ⟨_, _, _, same, directory, List.prefix_rfl⟩
  exact absurd above.1 (by decide)

end BbbEth.Console
