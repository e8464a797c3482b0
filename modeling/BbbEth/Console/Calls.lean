import BbbEth.Console.Line
import BbbEth.Interference.Only

/-!
# The calls of a command line

A command line calls the file system, the network and the terminal.  It does not process
another line.
-/

namespace BbbEth.Console

open BbbEth.Interference

/-- The line that is processed by a call. -/
def Call.processed : {reply : Type} → Call reply → Option (List Byte)
  | _, .process line => some line
  | _, _ => none

/-- A call that does not process a line. -/
def Call.Plain {reply : Type} (request : Call reply) : Prop := request.processed = none

/-- A routine makes plain calls only, from any memory. -/
def Plain {result : Type} (code : Routine result) : Prop :=
  ∀ memory, (code memory).Only Call.Plain

namespace Plain

variable {reply result final : Type}

theorem pure {value : result} : Plain (Pure.pure value : Routine result) :=
  fun _ => .done

theorem bind {code : Routine result} {rest : result → Routine final} (first : Plain code)
    (others : ∀ value, Plain (rest value)) : Plain (code >>= rest) :=
  fun memory => (first memory).bind fun pair => others pair.1 pair.2

theorem call {request : Call reply} (plain : request.Plain) : Plain (Routine.call request) :=
  fun _ => .perform plain fun _ => .done

theorem print {format : String} {values : List Printed} :
    Plain (Routine.consolePrintf format values) :=
  fun _ => .perform rfl fun _ => .done

theorem lift {code : Program Call result} (only : code.Only Call.Plain) :
    Plain (Routine.lift code) :=
  fun _ => only.bind fun _ => .done

theorem load {field : Memory → reply} : Plain (Routine.load field) :=
  fun _ => .done

theorem change {update : Memory → Memory} : Plain (Routine.change update) :=
  fun _ => .done

theorem fault : Plain (Routine.fault : Routine result) :=
  fun _ => .fault

theorem ofOption {option : Option result} : Plain (Routine.ofOption option) := by
  cases option with
  | some value => exact pure
  | none => exact fault

theorem argv {index : Nat} : Plain (Routine.argv index) := by
  refine bind (call rfl) fun _ => bind load fun pointer => ?_
  cases pointer with
  | some offset => exact load
  | none => exact fault

theorem ite {condition : Prop} [Decidable condition] {left right : Routine result}
    (first : Plain left) (second : Plain right) :
    Plain (if condition then left else right) := by
  split
  · exact first
  · exact second

/-- An answer that is computed from the memory. -/
theorem compute {option : Memory → Option reply} {rest : Memory → reply → Routine result}
    (others : ∀ memory value, Plain (rest memory value)) : Plain (do
      let memory ← Routine.load id
      let value ← Routine.ofOption (option memory)
      rest memory value) :=
  bind load fun memory => bind ofOption (others memory)

/-- A message that ends a command. -/
theorem complain {format : String} {value : result} :
    Plain (Routine.consolePrintf format [] >>= fun _ => Pure.pure value) :=
  bind print fun _ => pure

end Plain

theorem plain_copyCwd : Plain copyCwd :=
  .compute fun _ _ => .change

theorem plain_copyPath (argument : Str) : Plain (copyPath argument) :=
  .compute fun _ _ => .change

theorem plain_appendName (argument : Str) : Plain (appendName argument) := by
  apply Plain.compute
  intro memory length
  apply Plain.bind .ofOption
  intro more
  apply Plain.ite .pure
  apply Plain.bind .ofOption
  intro differs
  have appends : Plain (do
      let memory ← Routine.load id
      let tmp ← Routine.ofOption (strcat memory.tmp argument)
      Routine.change (·.setTmp tmp)
      Pure.pure true) := .compute fun _ _ => .bind .change fun _ => .pure
  exact .ite (.compute fun _ _ => .bind .change fun _ => appends) appends

theorem plain_printPath (format : String) (path : Memory → Str) : Plain (printPath format path) :=
  .bind .load fun _ => .bind .ofOption fun _ => .print

theorem plain_removePath : Plain removePath :=
  .compute fun _ _ => .bind (.call rfl) fun _ =>
    .ite (.bind (plain_printPath _ _) fun _ => .pure) .pure

theorem plain_aboveCwd (argument : Str) : Plain (aboveCwd argument) :=
  .compute fun _ _ => .bind .ofOption fun _ => .ite (.bind .ofOption fun _ => .pure) .pure

/-- A name that is appended to the current directory, where there is room for it. -/
theorem plain_named {argument : Str} {code : Routine Int} {format : String} {value : Int}
    (plain : Plain code) : Plain (do
      let fits ← appendName argument
      if fits then code
      else do
        Routine.consolePrintf format []
        return value) :=
  .bind (plain_appendName argument) fun _ => .ite plain .complain

theorem plain_cmdRm : Plain cmdRm := by
  apply Plain.bind .argv
  intro argument
  apply Plain.ite
  · apply Plain.bind .ofOption
    intro length
    apply Plain.ite .complain
    apply Plain.bind (plain_aboveCwd argument)
    intro above
    exact .ite .complain (.bind (plain_copyPath argument) fun _ => plain_removePath)
  · exact .bind plain_copyCwd fun _ => plain_named plain_removePath

theorem plain_makePath : Plain makePath :=
  .compute fun _ _ => .bind (.call rfl) fun _ =>
    .ite (.bind (plain_printPath _ _) fun _ => .pure) .pure

theorem plain_cmdMkdir : Plain cmdMkdir := by
  apply Plain.bind .argv
  intro argument
  apply Plain.ite
  · apply Plain.bind .ofOption
    intro length
    exact .ite .complain (.bind (plain_copyPath argument) fun _ => plain_makePath)
  · exact .bind plain_copyCwd fun _ => plain_named plain_makePath

theorem plain_cutPath : Plain cutPath :=
  .compute fun _ _ => .bind .ofOption fun _ => .bind .ofOption fun _ => .change

theorem plain_enterPath : Plain enterPath :=
  .compute fun _ _ => .bind (.call rfl) fun _ =>
    .ite (.bind (plain_printPath _ _) fun _ => .pure)
      (.compute fun _ _ => .bind .change fun _ => .pure)

theorem plain_cmdCd : Plain cmdCd := by
  apply Plain.bind plain_copyCwd
  intro _
  apply Plain.bind .argv
  intro argument
  apply Plain.ite
  · apply Plain.bind .ofOption
    intro length
    exact .ite .complain (.bind (plain_copyPath argument) fun _ => plain_enterPath)
  · apply Plain.bind .ofOption
    intro differs
    exact .ite (.bind plain_cutPath fun _ => plain_enterPath) (plain_named plain_enterPath)

theorem only_printEntry (info : FileInfo) : (printEntry info).Only Call.Plain :=
  .bind (.lift rfl) fun _ => .bind (.lift rfl) fun _ => .bind (.lift rfl) fun _ =>
    .ite (.lift rfl) (.lift rfl)

theorem plain_cmdLs : Plain cmdLs := by
  apply Plain.compute
  intro memory path
  refine .bind (.call rfl) fun fresult => ?_
  apply Plain.ite .pure
  apply Plain.lift
  apply Program.Only.iterate
  intro _
  apply Program.Only.perform rfl
  intro answer
  exact .ite .done (.ite .done (.bind (only_printEntry _) fun _ => .done))

theorem plain_cmdPwd : Plain cmdPwd :=
  .bind (plain_printPath _ _) fun _ => .pure

theorem only_catRound (flagWrite : Bool) (start : Unit) :
    (catRound flagWrite start).Only Call.Plain := by
  apply Program.Only.perform rfl
  intro answer
  apply Program.Only.ite .done
  apply Program.Only.ite
  · exact .perform rfl fun _ => .ite .done (.ite .done .done)
  · exact .perform rfl fun _ => .ite .done .done

theorem only_closeFile (object : FileObject) {next : Program Call Int}
    (only : next.Only Call.Plain) : (closeFile object next).Only Call.Plain :=
  .perform rfl fun _ => .ite (.perform rfl fun _ => .done) only

theorem only_copyBlocks (flagWrite : Bool) : (copyBlocks flagWrite).Only Call.Plain := by
  apply Program.Only.bind (.iterate (only_catRound flagWrite))
  intro fresult
  apply Program.Only.ite .done
  exact only_closeFile _ (.ite (only_closeFile _ .done) .done)

theorem plain_readFile (argument : Str) (flagWrite : Bool) :
    Plain (readFile argument flagWrite) := by
  apply Plain.compute
  intro memory tmp
  apply Plain.bind .change
  intro _
  apply Plain.bind .ofOption
  intro path
  refine .bind (.call rfl) fun fresultRead => ?_
  apply Plain.ite
  · apply Plain.bind .argv
    intro target
    apply Plain.compute
    intro memory wr
    apply Plain.bind .change
    intro _
    apply Plain.bind .ofOption
    intro path
    exact .bind (.call rfl) fun _ => .ite .pure (.ite .pure (.lift (only_copyBlocks true)))
  · exact .ite .pure (.lift (only_copyBlocks false))

theorem plain_separate : Plain separate :=
  .compute fun _ _ => .ite (.bind .ofOption fun _ => .change) .pure

theorem plain_copyTarget (argc : Nat) : Plain (copyTarget argc) :=
  .ite (.bind .argv fun _ => .compute fun _ _ => .change) .pure

theorem plain_redirect : Plain redirect :=
  .bind .load fun _ => .ite (.bind .ofOption fun _ => .bind .change fun _ => .pure) .pure

theorem plain_cmdCat (argc : Nat) : Plain (cmdCat argc) := by
  apply Plain.compute
  intro memory length
  apply Plain.bind .argv
  intro argument
  apply Plain.bind .ofOption
  intro more
  apply Plain.ite .complain
  apply Plain.bind plain_copyCwd
  intro _
  apply Plain.bind plain_separate
  intro _
  apply Plain.bind (plain_copyTarget argc)
  intro _
  apply Plain.bind plain_redirect
  intro flagWrite
  apply Plain.bind .ofOption
  intro dataBufRW
  apply Plain.bind .ofOption
  intro differs
  exact .ite (.bind .print fun _ => .bind .print fun _ => .bind .print fun _ => .pure)
    (plain_readFile argument flagWrite)

theorem plain_cmdUdptx (argc : Nat) : Plain (cmdUdptx argc) := by
  apply Plain.bind .argv
  intro argument
  apply Plain.bind .ofOption
  intro totLen
  apply Plain.ite .complain
  refine .bind (.call rfl) fun _ => ?_
  apply Plain.bind .ofOption
  intro payload
  apply Plain.bind .print
  intro _
  refine .bind (.call rfl) fun err => ?_
  have frees : Plain (do
      Routine.call .pbufFree
      return (0 : Int)) := .bind (.call rfl) fun _ => .pure
  exact .ite (.bind .print fun _ => frees) frees

theorem plain_cmdUdplog : Plain cmdUdplog := by
  apply Plain.bind .load
  intro udplogflag
  apply Plain.ite .pure
  apply Plain.bind .argv
  intro argument
  apply Plain.bind .ofOption
  intro path
  apply Plain.bind .ofOption
  intro bytes
  exact .bind (.call rfl) fun _ => .bind .change fun _ => .pure

theorem plain_cmdUdplog0 : Plain cmdUdplog0 :=
  .bind .load fun _ => .ite (.bind (.call rfl) fun _ => .bind .change fun _ => .pure) .pure

theorem only_helpEntries : ∀ entries, (helpEntries entries).Only Call.Plain
  | [] => .done
  | _ :: rest => .perform rfl fun _ => only_helpEntries rest

/-- A handler makes plain calls only. -/
theorem plain_handler (argc : Nat) : ∀ command : Command, Plain (command.handler argc)
  | .help => .lift (.bind (.lift rfl) fun _ => .bind (.lift rfl) fun _ =>
      only_helpEntries cmdTable)
  | .ls => plain_cmdLs
  | .cd => plain_cmdCd
  | .mkdir => plain_cmdMkdir
  | .pwd => plain_cmdPwd
  | .cat => plain_cmdCat argc
  | .rm => plain_cmdRm
  | .udptx => plain_cmdUdptx argc
  | .udplog => plain_cmdUdplog
  | .udplog0 => plain_cmdUdplog0

theorem plain_dispatch (argc : Nat) : Plain (dispatch argc) := by
  apply Plain.bind .load
  intro memory
  apply Plain.bind .ofOption
  intro offset
  apply Plain.bind .ofOption
  intro found
  cases found with
  | some command =>
      exact .bind .ofOption fun _ => .bind (.call rfl) fun _ => plain_handler argc command
  | none => exact .pure

theorem plain_cmdLineParse : Plain cmdLineParse := by
  apply Plain.compute
  intro memory parsed
  apply Plain.bind .change
  intro _
  rcases parsed with ⟨_ | argc, _⟩
  · exact .pure
  · exact .ite (plain_dispatch argc) .pure

theorem only_reportStatus (iStatus : Int) : (reportStatus iStatus).Only Call.Plain :=
  .ite (.lift rfl) (.ite (.lift rfl) (.ite (.lift rfl) .done))

theorem plain_promptLine : Plain promptLine :=
  .bind .change fun _ => .compute fun _ _ => .bind .ofOption fun _ => .print

end BbbEth.Console
