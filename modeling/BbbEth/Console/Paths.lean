import BbbEth.Console.Directory
import BbbEth.Interference.Safe

/-!
# The paths that the commands pass

Which paths `rm`, `mkdir`, `cd`, `cat` and `udplog` pass to FatFs, and which of the words of
the line they read for that.  Reads behind `CmdBuf` fault here, also those of `strncpy`.
-/

namespace BbbEth.Console

open BbbEth.Interference Routine

/-! ## Reads inside of `CmdBuf` -/

/-- A call of FatFs with a path. -/
inductive Passed where
  | unlink (path : List Byte)
  | mkdir (path : List Byte)
  | opendir (path : List Byte)
  | open (object : FileObject) (path : List Byte) (mode : Byte)
  deriving DecidableEq

/-- What a handler has done. -/
structure Trace where
  /-- The elements of `argv` that it has read. -/
  reads : List Nat
  passed : List Passed

def Trace.read (trace : Trace) (index : Nat) : Trace :=
  { trace with reads := trace.reads ++ [index] }

def Trace.pass (trace : Trace) (path : Passed) : Trace :=
  { trace with passed := trace.passed ++ [path] }

/-- What a call adds. -/
def Call.traced : {reply : Type} → Call reply → Trace → Trace
  | _, .loadArgv index, trace => trace.read index
  | _, .fUnlink path, trace => trace.pass (.unlink path)
  | _, .fMkdir path, trace => trace.pass (.mkdir path)
  | _, .fOpendir path, trace => trace.pass (.opendir path)
  | _, .fOpen object path mode, trace => trace.pass (.open object path mode)
  | _, _, trace => trace

/-- The calls are answered in any way. -/
def paths : Server Call Trace where
  answers request before _ after := after = request.traced before

/-! ## What should be passed -/

/-- Two parts of a path, if they fit into a buffer. -/
def joined (base name : List Byte) : Option (List Byte) :=
  if base.length + name.length < pathBufSize then some (base ++ name) else none

/-- A line that redirects the output of `cat`. -/
def Redirects (names : List (List Byte)) : Prop := 4 ≤ names.length ∧ names.getD 2 [] = [greater]

instance (names : List (List Byte)) : Decidable (Redirects names) :=
  inferInstanceAs (Decidable (_ ∧ _))

namespace Shell

variable (shell : Shell) (names : List (List Byte))

/-- The path that the handlers make of a name, if it fits: an absolute path as it is, or a name
behind the current directory as they extend it. -/
def path (name : List Byte) : Option (List Byte) :=
  if name.getD 0 0 = slash then some name else joined shell.base name

/-- A name behind the current directory and one separator, unless it is refused as too long. -/
def below (name : List Byte) : Option (List Byte) :=
  if shell.TooLong name then none else some (separated shell.cwd ++ name)

/-- An absolute path as it is, or a name behind the current directory and one separator. -/
def named (name : List Byte) : Option (List Byte) :=
  if name.getD 0 0 = slash then some name else shell.below name

/-- What `cat` opens. -/
def opened : List Passed :=
  match shell.below (names.getD 1 []), shell.below (names.getD 3 []) with
  | some source, some target =>
      if Redirects names then
        [.open .fileObject source faRead,
          .open .fileObjectWrite target (faWrite ||| faOpenAlways)]
      else [.open .fileObject source faRead]
  | some source, none => if Redirects names then [] else [.open .fileObject source faRead]
  | none, _ => []

/-- What a command passes to FatFs for its arguments.  The words that are not names have a
meaning of their own: `rm` refuses a directory above the current one, `cd ..` goes to the
parent, and `dev.UART` is not a file. -/
def Passes (command : Command) (passed : List Passed) : Prop :=
  let name := names.getD 1 []
  match command with
  | .rm => passed = if name.getD 0 0 = slash ∧ shell.IsAbove name then []
      else (shell.named name).toList.map .unlink
  | .mkdir => passed = (shell.named name).toList.map .mkdir
  | .cd => if name = dots then ∃ path, passed = [.opendir path]
      else passed = (shell.named name).toList.map .opendir
  | .cat => passed = if name = devUart then [] else shell.opened names
  | .udplog => passed = if shell.udplogflag then []
      else (joined udplogs name).toList.map (.open .udpFo · (faWrite ||| faCreateAlways))
  | .help | .ls | .pwd | .udptx | .udplog0 => True

/-- So far a command has read words of its line only, and passed what it should. -/
def Keeps (command : Command) (trace : Trace) : Prop :=
  (∀ index ∈ trace.reads, index < names.length) ∧
    ∃ passed, shell.Passes names command passed ∧ trace.passed <+: passed

/-- A handler reads words of its line only, keeps to its buffers, and passes what it should. -/
abbrev Exact {result : Type} (command : Command) (code : Program Call result) (trace : Trace) :
    Prop :=
  paths.Meets (shell.Keeps names command)
    (fun _ after => shell.Passes names command after.passed) code trace

/-- The words of a line for which a command does so: it has the words that it reads, an
absolute path is not copied, there is a directory to go back from, no name is put behind a
directory that ends in a separator, and each path that is not tested before it is appended to
fits.  Without four words, `WrBufPath` must not hold `>`. -/
def Fits (leftOver : Prop) : Command → Prop
  | .rm => 2 ≤ names.length ∧
      ((names.getD 1 []).getD 0 0 = slash → shell.IsAbove (names.getD 1 [])) ∧
      ((names.getD 1 []).getD 0 0 ≠ slash → ¬ shell.TooLong (names.getD 1 []) →
        ¬ EndsInSlash shell.cwd)
  | .mkdir => 2 ≤ names.length ∧ (names.getD 1 []).getD 0 0 ≠ slash ∧
      (¬ shell.TooLong (names.getD 1 []) → ¬ EndsInSlash shell.cwd)
  | .cd => 2 ≤ names.length ∧ (names.getD 1 []).getD 0 0 ≠ slash ∧
      (names.getD 1 [] = dots → shell.cwd ≠ []) ∧
      (names.getD 1 [] ≠ dots → ¬ shell.TooLong (names.getD 1 []) → ¬ EndsInSlash shell.cwd)
  | .cat => 2 ≤ names.length ∧ (names.getD 1 [] ≠ devUart → ¬ shell.TooLong (names.getD 1 []) →
      ¬ EndsInSlash shell.cwd ∧ (Redirects names → ¬ shell.TooLong (names.getD 3 [])) ∧
        (names.length < 4 → ¬ leftOver))
  | .udplog => shell.udplogflag = true ∨
      2 ≤ names.length ∧ udplogs.length + (names.getD 1 []).length < pathBufSize
  | .help | .ls | .pwd | .udptx | .udplog0 => True

end Shell

end BbbEth.Console
