import BbbEth.Console.Paths

/-!
# The bounds of the paths

For which directories and lines the handlers keep to their buffers and pass what they should.
-/

namespace BbbEth.Console

open BbbEth.Interference Routine

/-! ## Words and their pointers -/

/-- Two words are apart: each has a character, and there is a blank between them. -/
theorem parseFrom_apart (left pcChar argc : Nat) (bFindArg : Bool) (memory : Memory)
    {count : Nat} {parsed : Memory}
    (parses : parseFrom left pcChar argc bFindArg memory = some (some count, parsed)) :
    (∀ index, index < argc → parsed.argv index = memory.argv index) ∧
      ∀ index, argc ≤ index → index < count → ∃ offset, parsed.argv index = some offset ∧
        pcChar + 2 * (index - argc) + (if bFindArg then 0 else 1) ≤ offset := by
  induction left generalizing pcChar argc bFindArg memory with
  | zero => cases parses
  | succ left inductionHypothesis =>
      rw [parseFrom] at parses
      split at parses
      · cases parses
        exact ⟨fun _ _ => rfl, fun index least more => absurd more (not_lt.mpr least)⟩
      · split at parses
        · rcases inductionHypothesis _ _ _ _ parses with ⟨earlier, apart⟩
          refine ⟨earlier, fun index least more => ?_⟩
          rcases apart index least more with ⟨offset, points, behind⟩
          rw [if_pos rfl] at behind
          exact ⟨offset, points, by split <;> omega⟩
        · split at parses
          · next starts =>
              split at parses
              · rcases inductionHypothesis _ _ _ _ parses with ⟨earlier, apart⟩
                constructor
                · intro index before
                  rw [earlier index (Nat.lt_succ_of_lt before)]
                  exact Function.update_of_ne before.ne ..
                · intro index least more
                  rw [if_pos starts]
                  rcases least.eq_or_lt with rfl | later
                  · refine ⟨pcChar, ?_, by omega⟩
                    rw [earlier argc (Nat.lt_succ_self _)]
                    exact Function.update_self ..
                  · rcases apart index later more with ⟨offset, points, behind⟩
                    rw [if_neg Bool.false_ne_true] at behind
                    exact ⟨offset, points, by omega⟩
              · cases parses
          · next inside =>
              rcases inductionHypothesis _ _ _ _ parses with ⟨earlier, apart⟩
              refine ⟨earlier, fun index least more => ?_⟩
              rcases apart index least more with ⟨offset, points, behind⟩
              rw [if_neg Bool.false_ne_true] at behind
              rw [if_neg inside]
              exact ⟨offset, points, by omega⟩

/-- The words are where `argv` points to, with room for the words before them. -/
def Supplies (memory : Memory) (names : List (List Byte)) : Prop :=
  ∀ index name, names[index]? = some name → ∃ offset, memory.argv index = some offset ∧
    Holds (memory.cmd offset) name ∧ 2 * index ≤ offset

/-- A line that executes a command, in the buffer. -/
theorem cmdLineParseBy_eq {memory : Memory} {line : List Byte} {command : Command}
    (holds : Holds memory.line line) (executes : executed line = some command)
    (handler : Nat → Command → Routine Int) : ∃ parsed,
      Cuts memory parsed ∧ Supplies parsed (words line) ∧
        cmdLineParseBy handler memory = .perform (.handler command (words line)) fun _ =>
          handler (words line).length command parsed := by
  have few : (words line).length ≤ cmdlineMaxArgs := by
    by_contra many
    rw [executed, if_pos (not_le.mp many)] at executes
    cases executes
  have found : (words line).head?.bind lookup = some command := by
    rwa [executed, if_neg (not_lt.mpr few)] at executes
  have nonzero := words_nonzero holds.nonzero
  rcases parse_line holds with ⟨parsed, parses, cuts, leaves⟩
  have leaves := leaves few
  have count : counted 0 (words line) = some (words line).length := by
    unfold counted
    rw [Nat.zero_add]
    exact if_pos few
  rw [count] at parses
  have supplies : Supplies parsed (words line) := by
    intro index name finds
    rcases leaves.holds finds (nonzero name (List.mem_of_getElem? finds)) with
      ⟨offset, points, holds⟩
    rw [Nat.zero_add] at points
    rcases (parseFrom_apart _ _ _ _ _ parses).2 index (Nat.zero_le _)
      (List.getElem?_eq_some_iff.mp finds).1 with ⟨offset', points', apart⟩
    rw [points] at points'
    cases points'
    exact ⟨offset, points, holds, by omega⟩
  have supplied := leaves.supplied nonzero
  refine ⟨parsed, cuts, supplies, ?_⟩
  unfold cmdLineParseBy
  rw [bind_memory, bind_ofOption parses]
  dsimp only
  rw [bind_change]
  cases list : words line with
  | nil =>
      rw [list] at found
      cases found
  | cons word others =>
      have more : (word :: others).length ≠ 0 := Nat.succ_ne_zero _
      rw [list] at found supplied supplies
      rcases supplies 0 word rfl with ⟨offset, points, holds, _⟩
      have looked : findCommand (parsed.cmd offset) cmdTable = some (some command) :=
        (lookup_holds holds).trans (congrArg some found)
      rw [if_pos more]
      unfold dispatchBy
      rw [bind_memory, bind_ofOption points, bind_ofOption looked]
      dsimp only
      rw [bind_ofOption supplied.mapM, bind_call]

/-! ## Steps of a handler -/

/-- A call that passes no path. -/
def Call.Quiet {reply : Type} (request : Call reply) : Prop :=
  ∀ trace, request.traced trace = trace

/-- A routine that begins with a call and passes no path afterwards. -/
def Ends {result : Type} (code : Program Call result) (request : Call FResult) : Prop :=
  ∃ rest, code = .perform request rest ∧ ∀ answer, (rest answer).Safe @Call.Quiet

section Steps

variable {result : Type} {memory : Memory} {shell : Shell} {names : List (List Byte)}
variable {command : Command} {trace : Trace}

theorem Shell.Keeps.read (keeps : shell.Keeps names command trace) {index : Nat}
    (inside : index < names.length) : shell.Keeps names command (trace.read index) := by
  refine ⟨fun other member => ?_, keeps.2⟩
  rcases List.mem_append.mp member with earlier | same
  · exact keeps.1 other earlier
  · rwa [List.mem_singleton.mp same]

/-- Whatever a call is answered. -/
theorem exact_perform_iff {reply : Type} {request : Call reply}
    {rest : reply → Program Call result} {next : Trace} (traced : request.traced trace = next) :
    shell.Exact names command (.perform request rest) trace ↔
      shell.Keeps names command trace ∧
        ∀ answer, shell.Exact names command (rest answer) next := by
  have answers : ∀ answer after, paths.answers request trace answer after ↔ after = next := by
    intro answer after
    rw [← traced]
    exact Iff.rfl
  exact Server.Meets.perform_iff answers

theorem quiet_keeps {reply : Type} (request : Call reply) (before : Trace) (answer : reply)
    (after : Trace) (quiet : request.Quiet) (answered : paths.answers request before answer after) :
    after = before :=
  Eq.trans answered (quiet before)

end Steps

section Handlers

variable {result : Type} {memory : Memory} {shell : Shell} {names : List (List Byte)}
variable {command : Command} {trace : Trace} {name path : List Byte} {argument : Str}

/-- Nothing is done yet. -/
def Trace.start : Trace := ⟨[], []⟩

theorem word_of {index : Nat} (inside : index < names.length) :
    ∃ name, names[index]? = some name ∧ names.getD index [] = name :=
  ⟨names[index], List.getElem?_eq_getElem inside, List.getD_eq_getElem _ _ inside⟩

/-- The test of the handlers is exact for the names that fit into a line. -/
theorem tooLong_iff (short : name.length + 2 < pathBufSize) :
    shell.TooLong name ↔ ¬ shell.base.length + name.length < pathBufSize := by
  have limit : pathBufSize = 512 := rfl
  unfold Shell.TooLong Shell.base
  by_cases root : shell.cwd = [slash]
  · have length : shell.cwd.length = 1 := congrArg List.length root
    rw [if_pos root]
    omega
  · have length : (shell.cwd ++ [slash]).length = shell.cwd.length + 1 := List.length_append
    rw [if_neg root]
    omega

theorem joined_base (short : name.length + 2 < pathBufSize) :
    joined shell.base name = if shell.TooLong name then none else some (shell.base ++ name) := by
  unfold joined
  by_cases fits : shell.base.length + name.length < pathBufSize
  · rw [if_pos fits, if_neg fun long => (tooLong_iff short).mp long fits]
  · rw [if_neg fits, if_pos ((tooLong_iff short).mpr fits)]

theorem path_relative (relative : name.getD 0 0 ≠ slash) (short : name.length + 2 < pathBufSize) :
    shell.path name = if shell.TooLong name then none else some (shell.base ++ name) :=
  (if_neg relative).trans (joined_base short)

/-- So it is for each word behind the first. -/
theorem Supplies.tooLong_iff (supplies : Supplies memory names) {index : Nat}
    (behind : 1 ≤ index) (inside : index < names.length) :
    shell.TooLong (names.getD index []) ↔
      ¬ shell.base.length + (names.getD index []).length < pathBufSize := by
  rcases word_of inside with ⟨name, finds, same⟩
  rcases supplies index name finds with ⟨offset, _, holds, apart⟩
  have fits : name.length < cmdBufSize - offset := holds.fits
  have limits : pathBufSize = 512 ∧ cmdBufSize = 512 := ⟨rfl, rfl⟩
  rw [same]
  exact Console.tooLong_iff (by omega)

theorem removePath_ends (cwd : Holds memory.cwd shell.cwd) (tmp : Holds memory.tmp path) :
    Ends (removePath memory) (.fUnlink path) := by
  unfold removePath
  rw [bind_memory, bind_ofOption (text_holds tmp), bind_call]
  refine ⟨_, rfl, fun fresult => ?_⟩
  by_cases fails : fresult ≠ .ok
  · rw [if_pos fails, printPath_bind cwd]
    exact .perform (fun _ => rfl) fun _ => .done
  · rw [if_neg fails]
    exact .done

theorem complain_safe (message : String) (value : result) :
    ((consolePrintf message [] >>= fun _ => pure value : Routine result) memory).Safe
      @Call.Quiet :=
  .perform (fun _ => rfl) fun _ => .done

/-- Where a path is passed, it is one that should be. -/
theorem Ends.passes {code : Program Call result} {request : Call FResult} {path : Passed}
    (ends : Ends code request) (one : request.traced trace = trace.pass path)
    (exact : shell.Exact names command code trace) :
    ∃ passed, shell.Passes names command passed ∧ (trace.pass path).passed <+: passed := by
  rcases ends with ⟨rest, rfl, _⟩
  have later := ((exact_perform_iff one).mp exact).2 .ok
  exact later.now.2

end Handlers

/-! ## Lines -/

section Lines

variable {memory : Memory} {shell : Shell} {line : List Byte} {command : Command}

end Lines

end BbbEth.Console
