import BbbEth.Console.Calls
import BbbEth.Console.Independence

/-!
# The line editor

`char_collect` edits the line in `CmdBuf`, with its length in `CmdBufIdx`, and the interrupt for
a card that is inserted clears the line, too.  The editor without a buffer says which line
there should be, and which lines are processed.
-/

namespace BbbEth.Console

open BbbEth.Interference Routine

/-! ## The editor without a buffer -/

/-- What acts on the line. -/
inductive Event where
  | key (keyStroke : Byte)
  | cardInserted
  deriving DecidableEq

/-- What an event runs. -/
def Event.code : Event → Routine Unit
  | .key keyStroke => charCollect keyStroke
  | .cardInserted => Console.cardInserted

/-- A printable character. -/
def Printable (keyStroke : Byte) : Prop :=
  blank.toNat ≤ keyStroke.toNat ∧ keyStroke.toNat ≤ tilde.toNat

instance (keyStroke : Byte) : Decidable (Printable keyStroke) :=
  inferInstanceAs (Decidable (_ ∧ _))

/-- The line, and the lines that have been processed. -/
structure Editor where
  line : List Byte
  processed : List (List Byte)

namespace Editor

/-- The editor with an empty line. -/
def empty : Editor := ⟨[], []⟩

/-- Process the line and clear it. -/
def execute (editor : Editor) (line : List Byte) : Editor := ⟨[], editor.processed ++ [line]⟩

/-- What a key does. -/
def press (editor : Editor) (keyStroke : Byte) : Editor :=
  if keyStroke = backspace then { editor with line := editor.line.dropLast }
  else if keyStroke = carriageReturn ∨ keyStroke = newline then editor.execute editor.line
  else if keyStroke = escape ∨ keyStroke = controlU then { editor with line := [] }
  else if Printable keyStroke ∧ editor.line.length < 511 then
    { editor with line := editor.line ++ [keyStroke] }
  else editor

/-- What an event does. -/
def react (editor : Editor) : Event → Editor
  | .key keyStroke => editor.press keyStroke
  | .cardInserted => editor.execute []

/-- The editor after a sequence of events. -/
def after (events : List Event) : Editor := events.foldl react empty

theorem after_append (events : List Event) (event : Event) :
    after (events ++ [event]) = (after events).react event := by
  unfold after
  rw [List.foldl_append]
  rfl

end Editor

/-! ## The invariant -/

/-- There is no NUL before the index, there is one at the index, and the buffer holds the
line. -/
structure Edited (memory : Memory) (line : List Byte) : Prop where
  noNul : ∀ index, index < memory.cmdBufIdx.toNat → memory.cmdBuf index ≠ 0
  nul : memory.cmdBuf memory.cmdBufIdx.toNat = 0
  text : text memory.line = some line

namespace Edited

variable {memory : Memory} {line : List Byte}

theorem holds (edited : Edited memory line) : Holds memory.line line :=
  text_eq_some_iff.mp edited.text

/-- The index is the length of the line. -/
theorem length (edited : Edited memory line) : memory.cmdBufIdx.toNat = line.length := by
  have holds := edited.holds
  rcases lt_trichotomy memory.cmdBufIdx.toNat line.length with before | same | behind
  · exact absurd edited.nul (holds.char_ne_zero before)
  · exact same
  · exact absurd holds.nul (edited.noNul _ behind)

theorem of_holds (holds : Holds memory.line line)
    (length : memory.cmdBufIdx.toNat = line.length) : Edited memory line where
  noNul _ before := holds.char_ne_zero (length ▸ before)
  nul := length ▸ holds.nul
  text := text_holds holds

/-- An index and a character that are zero make an empty line. -/
theorem cleared (index : memory.cmdBufIdx = 0) (first : memory.cmdBuf 0 = 0) :
    Edited memory [] := by
  apply of_holds
  · refine ⟨fun index inside => ?_, nofun, Nat.zero_lt_succ _⟩
    cases Nat.le_zero.mp inside
    exact first
  · rw [index]
    rfl

end Edited

/-! ## The code -/

/-- `CmdBuf[0]` is cleared together with the index. -/
def Memory.clear (memory : Memory) : Memory :=
  { memory with cmdBuf := Function.update memory.cmdBuf 0 0, cmdBufIdx := 0 }

theorem Memory.edited_clear (memory : Memory) : Edited memory.clear [] :=
  .cleared rfl (Function.update_self 0 0 memory.cmdBuf)

/-- The index is inside of the buffer. -/
theorem storeChar_eq (value : Byte) (memory : Memory) : storeChar value memory =
    .done ((), { memory with
      cmdBuf := Function.update memory.cmdBuf memory.cmdBufIdx.toNat value }) := by
  have inside : memory.cmdBufIdx.toNat < cmdBufSize :=
    memory.cmdBufIdx.isLt.trans_le (by decide)
  have stored : memory.line.store memory.cmdBufIdx.toNat value = some
      ⟨cmdBufSize, Function.update memory.cmdBuf memory.cmdBufIdx.toNat value⟩ := if_pos inside
  unfold storeChar
  rw [bind_memory, bind_ofOption stored]
  rfl

theorem clear_eq (memory : Memory) :
    (setIndex (fun _ => 0) >>= fun _ => storeChar 0) memory = .done ((), memory.clear) := by
  unfold setIndex
  rw [bind_change, storeChar_eq]
  rfl

section Keys

variable {keyStroke : Byte} {memory : Memory}

/-- The memory after a backspace. -/
def Memory.dropLast (memory : Memory) : Memory :=
  { memory with
    cmdBuf := Function.update memory.cmdBuf (memory.cmdBufIdx - 1).toNat 0
    cmdBufIdx := memory.cmdBufIdx - 1 }

theorem charCollect_backspace (more : memory.cmdBufIdx ≠ 0) :
    charCollect backspace memory = .perform (.consolePrintf "\x08 \x08" []) fun _ =>
      .done ((), memory.dropLast) := by
  unfold charCollect
  rw [bind_memory, if_pos ⟨rfl, more⟩]
  refine congrArg _ (funext fun _ => ?_)
  exact (bind_change ..).trans (storeChar_eq ..)

theorem charCollect_execute (ends : keyStroke = carriageReturn ∨ keyStroke = newline) :
    charCollect keyStroke memory = .perform (.consolePrintf "\n\r" []) fun _ =>
      cmdLineProcess memory >>= fun pair => .done ((), pair.2.clear) := by
  have other : ¬ (keyStroke = backspace ∧ memory.cmdBufIdx ≠ 0) := by
    rintro ⟨rfl, _⟩
    rcases ends with ends | ends
    · cases ends
    · cases ends
  unfold charCollect
  rw [bind_memory, if_neg other, if_pos ends]
  refine congrArg _ (funext fun _ => ?_)
  exact congrArg _ (funext fun pair : Unit × Memory => clear_eq pair.2)

theorem charCollect_erase (erases : keyStroke = escape ∨ keyStroke = controlU) :
    charCollect keyStroke memory =
      eraseLine memory.cmdBufIdx.toNat >>= fun _ => .done ((), memory.clear) := by
  have other : ¬ (keyStroke = backspace ∧ memory.cmdBufIdx ≠ 0) ∧
      ¬ (keyStroke = carriageReturn ∨ keyStroke = newline) := by
    rcases erases with rfl | rfl
    · exact ⟨fun both => absurd both.1 (by decide), by decide⟩
    · exact ⟨fun both => absurd both.1 (by decide), by decide⟩
  unfold charCollect
  rw [bind_memory, if_neg other.1, if_neg other.2, if_pos erases, bind_lift]
  exact congrArg _ (funext fun _ => clear_eq memory)

theorem not_control (printable : Printable keyStroke) :
    keyStroke ≠ backspace ∧ ¬ (keyStroke = carriageReturn ∨ keyStroke = newline) ∧
      ¬ (keyStroke = escape ∨ keyStroke = controlU) := by
  have bound := printable.1
  refine ⟨?_, ?_, ?_⟩
  · rintro rfl
    exact absurd bound (by decide)
  · rintro (rfl | rfl)
    · exact absurd bound (by decide)
    · exact absurd bound (by decide)
  · rintro (rfl | rfl)
    · exact absurd bound (by decide)
    · exact absurd bound (by decide)

/-- The memory after a printable character. -/
def Memory.append (memory : Memory) (keyStroke : Byte) : Memory :=
  { memory with
    cmdBuf := Function.update (Function.update memory.cmdBuf memory.cmdBufIdx.toNat keyStroke)
      (memory.cmdBufIdx + 1).toNat 0
    cmdBufIdx := memory.cmdBufIdx + 1 }

theorem charCollect_printable (printable : Printable keyStroke) :
    charCollect keyStroke memory = .perform (.consolePrintf "%c" [.text [keyStroke]]) fun _ =>
      .done ((), memory.append keyStroke) := by
  rcases not_control printable with ⟨other, goesOn, keeps⟩
  have inside : memory.cmdBufIdx.toNat < cmdBufSize - 1 :=
    memory.cmdBufIdx.isLt.trans_le (by decide)
  unfold charCollect
  rw [bind_memory, if_neg fun both => other both.1, if_neg goesOn, if_neg keeps,
    if_pos ⟨printable.1, printable.2, inside⟩, bind_of_eq_done (storeChar_eq ..)]
  unfold setIndex
  rw [bind_change, bind_of_eq_done (storeChar_eq ..)]
  rfl

theorem charCollect_other (other : keyStroke = backspace → memory.cmdBufIdx = 0)
    (goesOn : ¬ (keyStroke = carriageReturn ∨ keyStroke = newline))
    (keeps : ¬ (keyStroke = escape ∨ keyStroke = controlU)) (hidden : ¬ Printable keyStroke) :
    charCollect keyStroke memory = .done ((), memory) := by
  unfold charCollect
  rw [bind_memory, if_neg fun both => both.2 (other both.1), if_neg goesOn, if_neg keeps,
    if_neg fun all => hidden ⟨all.1, all.2.1⟩]
  rfl

end Keys

/-! ## Steps -/

namespace Edited

variable {memory : Memory} {line : List Byte} {keyStroke : Byte}

theorem dropLast (edited : Edited memory line) (more : memory.cmdBufIdx ≠ 0) :
    Edited memory.dropLast line.dropLast := by
  have holds := edited.holds
  have length := edited.length
  have positive : memory.cmdBufIdx.toNat ≠ 0 := fun zero => more (BitVec.eq_of_toNat_eq zero)
  have index : (memory.cmdBufIdx - 1).toNat = line.length - 1 := by
    bv_omega
  have shorter : line.dropLast.length = line.length - 1 := List.length_dropLast
  apply of_holds
  · constructor
    · intro position inside
      change Function.update memory.cmdBuf (memory.cmdBufIdx - 1).toNat 0 position = _
      rw [index]
      rw [shorter] at inside
      rcases inside.lt_or_eq with before | rfl
      · have same : memory.cmdBuf position = _ := holds.char position (by omega)
        rw [Function.update_of_ne before.ne, same, List.getD_eq_getElem _ _ (by omega),
          List.getD_eq_getElem _ _ (by omega), List.getElem_dropLast]
      · rw [Function.update_self, List.getD_eq_default _ _ (by omega)]
    · intro byte member
      exact holds.nonzero byte ((List.dropLast_sublist line).subset member)
    · have fits := holds.fits
      rw [shorter]
      exact lt_of_le_of_lt (Nat.sub_le _ _) fits
  · exact index.trans shorter.symm

theorem append (edited : Edited memory line) (printable : Printable keyStroke)
    (room : memory.cmdBufIdx ≠ 255) : Edited (memory.append keyStroke) (line ++ [keyStroke]) := by
  have holds := edited.holds
  have length := edited.length
  have bound := memory.cmdBufIdx.isLt
  have least : memory.cmdBufIdx.toNat ≠ 255 := fun last => room (BitVec.eq_of_toNat_eq last)
  have index : (memory.cmdBufIdx + 1).toNat = line.length + 1 := by
    bv_omega
  have longer : (line ++ [keyStroke]).length = line.length + 1 := List.length_append
  apply of_holds
  · constructor
    · intro position inside
      change Function.update (Function.update memory.cmdBuf memory.cmdBufIdx.toNat keyStroke)
        (memory.cmdBufIdx + 1).toNat 0 position = _
      rw [index, length]
      rw [longer] at inside
      rcases inside.lt_or_eq with before | rfl
      · rw [Function.update_of_ne before.ne]
        rcases (Nat.lt_succ_iff.mp before).lt_or_eq with earlier | rfl
        · have same : memory.cmdBuf position = _ := holds.char position earlier.le
          rw [Function.update_of_ne earlier.ne, same, List.getD_append _ _ _ _ earlier]
        · rw [Function.update_self, List.getD_append_right _ _ _ _ le_rfl, Nat.sub_self]
          rfl
      · rw [Function.update_self, List.getD_eq_default _ _ longer.le]
    · intro byte member
      rcases List.mem_append.mp member with member | member
      · exact holds.nonzero byte member
      · rw [List.mem_singleton.mp member]
        rintro rfl
        exact absurd printable.1 (by decide)
    · rw [longer]
      change line.length + 1 < 512
      omega
  · exact index.trans longer.symm

end Edited

/-- The lines that are processed are recorded. -/
def lines : Server Call (List (List Byte)) where
  answers request before _ after := after = before ++ request.processed.toList

/-- A run of the editor that reacts to allowed events.  An event whose line follows a null pointer or
leaves its buffer does not return, and nothing comes after it. -/
inductive Run (allowed : Memory → Event → Prop) (start : Memory) :
    List Event → Memory → List (List Byte) → Prop where
  | start : Run allowed start [] start []
  | react {events : List Event} {event : Event} {memory after : Memory}
      {log log' : List (List Byte)} :
      Run allowed start events memory log → allowed memory event →
      lines.Exec (event.code memory) log (.returns ((), after)) log' →
      Run allowed start (events ++ [event]) after log'

/-- A character fits if the index does not wrap around, and a card if the line is empty. -/
def Event.Fits (memory : Memory) : Event → Prop
  | .key keyStroke => Printable keyStroke → memory.cmdBufIdx ≠ 255
  | .cardInserted => memory.cmdBufIdx = 0

/-- Plain calls do not process lines. -/
theorem lines_ends_plain {result : Type} {code : Program Call result}
    (only : code.Only Call.Plain) (log : List (List Byte)) :
    lines.Ends (fun _ after => after = log) code log := by
  intro value after exec
  have kept : ∀ {reply : Type} (request : Call reply) before answer after, request.Plain →
      lines.answers request before answer after → before = after := by
    intro reply request before answer after plain answered
    rw [show after = before ++ request.processed.toList from answered,
      show request.processed = none from plain]
    exact (List.append_nil before).symm
  exact (exec.only Eq.refl Eq.trans kept only).symm

theorem plain_processLine : Plain (do
    let memory ← load id
    if memory.cmdBuf 0 ≠ 0 then do
      let iStatus ← cmdLineParse
      lift (reportStatus iStatus)
      promptLine
    else
      promptLine) :=
  .bind .load fun _ => .ite (.bind plain_cmdLineParse fun iStatus =>
    .bind (.lift (only_reportStatus iStatus)) fun _ => plain_promptLine) plain_promptLine

/-- `CmdLineProcess` processes the line in the buffer. -/
theorem cmdLineProcess_ends {memory : Memory} {line : List Byte} (holds : Holds memory.line line)
    (log : List (List Byte)) :
    lines.Ends (fun _ after => after = log ++ [line]) (cmdLineProcess memory) log := by
  unfold cmdLineProcess
  rw [bind_memory, bind_ofOption (text_holds holds), bind_call]
  apply Server.Ends.perform
  rintro _ _ rfl
  exact lines_ends_plain (plain_processLine memory) _

theorem erase_ends (count : Nat) (log : List (List Byte)) :
    lines.Ends (fun _ after => after = log) (eraseLine count) log := by
  induction count with
  | zero => exact .done rfl
  | succ count inductionHypothesis =>
      apply Server.Ends.perform
      rintro _ _ rfl
      exact (List.append_nil log).symm ▸ inductionHypothesis

/-- A call that does not process a line. -/
theorem ends_call {reply result : Type} {request : Call reply}
    {rest : reply → Program Call result} {post : result → List (List Byte) → Prop}
    {log : List (List Byte)} (plain : request.Plain)
    (others : ∀ answer, lines.Ends post (rest answer) log) :
    lines.Ends post (.perform request rest) log := by
  apply Server.Ends.perform
  rintro answer _ rfl
  rw [show request.processed = none from plain]
  exact (List.append_nil log).symm ▸ others answer

theorem exec_call {reply result : Type} {request : Call reply}
    {rest : reply → Program Call result} {outcome : Outcome result} {log after : List (List Byte)}
    (plain : request.Plain) (answer : reply) (exec : lines.Exec (rest answer) log outcome after) :
    lines.Exec (.perform request rest) log outcome after := by
  have answered : lines.answers request log answer log := by
    change log = log ++ request.processed.toList
    rw [show request.processed = none from plain]
    exact (List.append_nil log).symm
  exact .perform answered exec

/-- The memory and the record are those of an editor. -/
def Reacted (editor : Editor) (result : Unit × Memory) (log : List (List Byte)) : Prop :=
  Edited result.2 editor.line ∧ log = editor.processed

theorem key_reacts {editor : Editor} {memory : Memory} (edited : Edited memory editor.line)
    {keyStroke : Byte} (fits : Event.Fits memory (.key keyStroke)) :
    lines.Ends (Reacted (editor.press keyStroke)) (charCollect keyStroke memory)
      editor.processed := by
  unfold Editor.press
  by_cases back : keyStroke = backspace
  · subst back
    rw [if_pos rfl]
    by_cases more : memory.cmdBufIdx = 0
    · have nothing : editor.line = [] := by
        rw [← List.length_eq_zero_iff, ← edited.length, more]
        rfl
      rw [charCollect_other (fun _ => more) (by decide) (by decide) (by decide)]
      apply Server.Ends.done
      rw [nothing] at edited
      exact ⟨nothing.symm ▸ edited, rfl⟩
    · rw [charCollect_backspace more]
      exact ends_call rfl fun _ => .done ⟨edited.dropLast more, rfl⟩
  · rw [if_neg back]
    by_cases ends : keyStroke = carriageReturn ∨ keyStroke = newline
    · rw [if_pos ends, charCollect_execute ends]
      refine ends_call rfl fun _ => (cmdLineProcess_ends edited.holds _).bind ?_
      rintro pair _ rfl
      exact .done ⟨pair.2.edited_clear, rfl⟩
    · rw [if_neg ends]
      by_cases erases : keyStroke = escape ∨ keyStroke = controlU
      · rw [if_pos erases, charCollect_erase erases]
        refine (erase_ends _ _).bind ?_
        rintro _ _ rfl
        exact .done ⟨memory.edited_clear, rfl⟩
      · rw [if_neg erases]
        by_cases printable : Printable keyStroke
        · have short : editor.line.length < 511 := by
            rw [← edited.length]
            exact memory.cmdBufIdx.isLt.trans_le (by decide)
          rw [if_pos ⟨printable, short⟩, charCollect_printable printable]
          exact ends_call rfl fun _ => .done ⟨edited.append printable (fits printable), rfl⟩
        · rw [if_neg fun both => printable both.1,
            charCollect_other (fun same => absurd same back) ends erases printable]
          exact .done ⟨edited, rfl⟩

/-- `FATFsMount` clears the line, and leaves the other buffers to the copy. -/
theorem fatFsMount_bind {result : Type} (memory : Memory) (next : FResult → Routine result) :
    ∃ mounted : Memory, mounted.cmdBuf 0 = 0 ∧ mounted.cmdBufIdx = memory.cmdBufIdx ∧
      mounted.cwd = memory.cwd ∧
      (fatFsMount >>= next) memory = .perform (.strcpyAt memory.cwdPointer [slash]) fun _ =>
        .perform .fMount fun answer => next answer mounted := by
  have nothing : Holds (literal []) [] := ⟨fun _ _ => rfl, nofun, by decide⟩
  rcases strcpy_holds (d := memory.line) nothing (by decide : 0 < 512) with
    ⟨line, clears, empties, _, _⟩
  refine ⟨memory.setLine line, empties.char 0 le_rfl, rfl, rfl, ?_⟩
  change (fatFsMount memory >>= fun pair => next pair.1 pair.2) = _
  unfold fatFsMount
  rw [bind_memory, bind_call, Program.bind_perform]
  congr 1
  funext _
  rw [bind_ofOption clears]
  rfl

/-- The prompt does not process a line. -/
theorem promptLine_reacts {editor : Editor} {memory : Memory} (index : memory.cmdBufIdx = 0)
    (nothing : editor.line = []) :
    lines.Ends (Reacted editor) (promptLine memory) editor.processed := by
  cases reads : text memory.cwd with
  | none =>
      have missing : text memory.emptied.cwd = none := reads
      unfold promptLine
      rw [bind_change, bind_memory]
      exact bind_ofOption_none missing _ ▸ .fault
  | some cwd =>
      rw [promptLine_eq (text_eq_some_iff.mp reads)]
      refine ends_call rfl fun _ => .done ⟨?_, rfl⟩
      exact nothing ▸ .cleared index (Function.update_self 0 0 memory.cmdBuf)

/-- A card clears the line, and the index stays. -/
theorem cardInserted_reacts {editor : Editor} {memory : Memory}
    (fits : Event.Fits memory .cardInserted) :
    lines.Ends (Reacted (editor.execute [])) (Console.cardInserted memory) editor.processed := by
  rcases fatFsMount_bind memory fun _ => do
    consolePrintf "\n\r" []
    cmdLineProcess with ⟨mounted, first, index, _, mounts⟩
  have edited : Edited mounted [] := .cleared (index.trans fits) first
  unfold Console.cardInserted
  rw [mounts]
  refine ends_call rfl fun _ => ends_call rfl fun _ => ?_
  unfold consolePrintf
  rw [bind_call]
  refine ends_call rfl fun _ => ?_
  rw [cmdLineProcess_empty edited.holds]
  apply Server.Ends.perform
  rintro _ _ rfl
  exact promptLine_reacts (index.trans fits) rfl

/-! ## Runs -/

/-- A step of the editor, where the event fits. -/
theorem react_ends {editor : Editor} {memory : Memory} (edited : Edited memory editor.line)
    {event : Event} (fits : event.Fits memory) :
    lines.Ends (Reacted (editor.react event)) (event.code memory) editor.processed := by
  cases event with
  | key keyStroke => exact key_reacts edited fits
  | cardInserted => exact cardInserted_reacts fits

/-- As long as the index does not wrap around, and a card is inserted on an empty line only,
the buffer and the index hold the line of the editor, and the lines that `CmdLineProcess` is
called with are those that the editor processes. -/
theorem run_edited {start memory : Memory} {events : List Event} {log : List (List Byte)}
    (ready : Edited start []) (run : Run Event.Fits start events memory log) :
    Edited memory (Editor.after events).line ∧ log = (Editor.after events).processed := by
  induction run with
  | start => exact ⟨ready, rfl⟩
  | react _ fits exec inductionHypothesis =>
      rcases inductionHypothesis with ⟨edited, rfl⟩
      rw [Editor.after_append]
      exact react_ends edited fits _ _ exec

theorem initial_edited : Edited Memory.initial [] :=
  .cleared rfl rfl

/-! ### Keys -/

section Typing

variable {allowed : Memory → Event → Prop} {start memory : Memory} {events : List Event}
variable {log : List (List Byte)} {keyStroke : Byte}

/-- A printable character is typed. -/
theorem Run.type (run : Run allowed start events memory log)
    (allows : allowed memory (.key keyStroke)) (printable : Printable keyStroke) :
    Run allowed start (events ++ [.key keyStroke]) (memory.append keyStroke) log := by
  refine .react run allows ?_
  change lines.Exec (charCollect keyStroke memory) _ _ _
  rw [charCollect_printable printable]
  exact exec_call rfl () .done

/-- A character is taken back. -/
theorem Run.back (run : Run allowed start events memory log)
    (allows : allowed memory (.key backspace)) (more : memory.cmdBufIdx ≠ 0) :
    Run allowed start (events ++ [.key backspace]) memory.dropLast log := by
  refine .react run allows ?_
  change lines.Exec (charCollect backspace memory) _ _ _
  rw [charCollect_backspace more]
  exact exec_call rfl () .done

/-- The line `pwd` is executed. -/
theorem Run.pwd {cwd : List Byte} (run : Run allowed start events memory log)
    (allows : allowed memory (.key carriageReturn)) (represents : Represents memory ⟨cwd, false⟩)
    (holds : Holds memory.line (chars ['p', 'w', 'd'])) :
    ∃ after : Memory, after.cmdBufIdx = 0 ∧
      Run allowed start (events ++ [.key carriageReturn]) after
        (log ++ [chars ['p', 'w', 'd']]) := by
  rcases cmdLineProcess_matches represents holds with ⟨arguments, _, _, matching⟩
  have executes : Shell.execute ⟨cwd, false⟩ arguments (chars ['p', 'w', 'd']) =
      .perform (.handler .pwd [chars ['p', 'w', 'd']]) fun _ =>
        Shell.leaves ⟨cwd, false⟩ (Shell.pwd ⟨cwd, false⟩) := rfl
  have exec : lines.Exec (Shell.process ⟨cwd, false⟩ arguments (chars ['p', 'w', 'd'])) log
      (.returns ⟨cwd, false⟩) (log ++ [chars ['p', 'w', 'd']]) := by
    have processes : lines.answers (.process (chars ['p', 'w', 'd'])) log ()
        (log ++ [chars ['p', 'w', 'd']]) := rfl
    unfold Shell.process
    rw [executes]
    exact .perform processes (exec_call rfl () (exec_call rfl () (exec_call rfl () .done)))
  rcases exec.matches matching.symm with ⟨outcome, exec', relates⟩
  cases relates with
  | @returns _ result settles =>
      refine ⟨result.2.clear, rfl, .react run allows ?_⟩
      change lines.Exec (charCollect carriageReturn memory) _ _ _
      rw [charCollect_execute (.inl rfl)]
      exact exec_call rfl () (exec'.bind .done)

end Typing

def keyP : Byte := 0x70
def keyW : Byte := 0x77
def keyD : Byte := 0x64

/-- The memory after `p`, `p`, a backspace, `w` and `d`. -/
def Memory.typedPwd : Memory :=
  ((((Memory.initial.append keyP).append keyP).dropLast).append keyW).append keyD

theorem typed_run : ∃ memory : Memory, memory.cmdBufIdx = 0 ∧ Run Event.Fits Memory.initial
    [.key keyP, .key keyP, .key backspace, .key keyW, .key keyD, .key carriageReturn] memory
    [chars ['p', 'w', 'd']] := by
  have typed : Run Event.Fits Memory.initial
      [.key keyP, .key keyP, .key backspace, .key keyW, .key keyD] Memory.typedPwd [] :=
    ((((Run.start.type (fun _ => by decide) (by decide)).type (fun _ => by decide) (by decide)).back
      (fun printable => absurd printable (by decide)) (by decide)).type (fun _ => by decide)
      (by decide)).type (fun _ => by decide) (by decide)
  have edited : Edited Memory.typedPwd (chars ['p', 'w', 'd']) :=
    (run_edited initial_edited typed).1
  have represents : Represents Memory.typedPwd ⟨[slash], false⟩ := by
    have initial := initial_represents
    exact ⟨initial.cwd, initial.rooted, initial.udplogflag, initial.wr, by decide, initial.argv⟩
  exact typed.pwd (fun printable => absurd printable (by decide)) represents edited.holds

/-- The keys `p`, `p`, backspace, `w`, `d`, CR and `p`. -/
theorem typed_edited : ∃ memory : Memory,
    Edited memory (Editor.after [.key keyP, .key keyP, .key backspace, .key keyW, .key keyD,
      .key carriageReturn, .key keyP]).line ∧
    [chars ['p', 'w', 'd']] = (Editor.after [.key keyP, .key keyP, .key backspace, .key keyW,
      .key keyD, .key carriageReturn, .key keyP]).processed := by
  rcases typed_run with ⟨memory, index, run⟩
  have fits : Event.Fits memory (.key keyP) := by
    intro _
    rw [index]
    decide
  exact ⟨_, run_edited initial_edited (run.type fits (by decide))⟩

/-- A card that is inserted leaves the index, and processes a line. -/
theorem cardInserted_exec {memory : Memory} {cwd : List Byte} (holds : Holds memory.cwd cwd)
    (log : List (List Byte)) : ∃ after : Memory,
      after.cmdBufIdx = memory.cmdBufIdx ∧ after.cmdBuf 0 = 0 ∧
        lines.Exec (Console.cardInserted memory) log (.returns ((), after)) (log ++ [[]]) := by
  rcases fatFsMount_bind memory fun _ => do
    consolePrintf "\n\r" []
    cmdLineProcess with ⟨mounted, first, index, same, mounts⟩
  have nothing : Holds mounted.line [] := by
    refine ⟨fun position inside => ?_, nofun, Nat.zero_lt_succ _⟩
    cases Nat.le_zero.mp inside
    exact first
  have root : Holds mounted.cwd cwd := same ▸ holds
  refine ⟨mounted.emptied, index, Function.update_self 0 0 mounted.cmdBuf, ?_⟩
  unfold Console.cardInserted
  rw [mounts]
  refine exec_call rfl () (exec_call rfl .ok ?_)
  unfold consolePrintf
  rw [bind_call, cmdLineProcess_empty nothing, promptLine_eq root]
  have processes : lines.answers (.process []) log () (log ++ [[]]) := rfl
  exact exec_call rfl () (.perform processes (exec_call rfl () .done))

/-- A card that is inserted behind a character leaves an index that is not the end of the
line. -/
theorem not_run_edited : ¬ ∀ (start memory : Memory) (events : List Event)
    (log : List (List Byte)), Edited start [] → Run (fun _ _ => True) start events memory log →
      Edited memory (Editor.after events).line ∧ log = (Editor.after events).processed := by
  intro holds
  have root : Holds (Memory.initial.append keyP).cwd [slash] :=
    ⟨fun _ _ => rfl, by decide, by decide⟩
  rcases cardInserted_exec root [] with ⟨after, index, first, exec⟩
  have run : Run (fun _ _ => True) Memory.initial ([.key keyP] ++ [.cardInserted]) after [[]] :=
    .react (Run.start.type trivial (by decide)) trivial exec
  rcases holds _ _ _ _ initial_edited run with ⟨edited, _⟩
  apply edited.noNul 0 _ first
  rw [index]
  decide

end BbbEth.Console
