import BbbEth.Console.Line

/-!
# The console without buffers

What a command line does, in terms of the current directory and of the words of the line.
The routines of `con_uif.c` are shown to do the same with their buffers.
-/

namespace BbbEth.Console

open BbbEth.Interference

/-- What the console keeps between two lines. -/
structure Shell where
  cwd : List Byte
  udplogflag : Bool

/-- The arguments of a handler, by their number; those that the line did not supply are
what is found in their place. -/
abbrev Arguments := Nat → Option (List Byte)

/-- Read an argument. -/
def Arguments.read {result : Type} (arguments : Arguments) (index : Nat)
    (next : List Byte → Program Call result) : Program Call result :=
  .perform (.loadArgv index) fun _ =>
    match arguments index with
    | some text => next text
    | none => .fault

/-- Print a message that ends a command. -/
def complain {result : Type} (message : String) (value : result) : Program Call result :=
  .perform (.consolePrintf message []) fun _ => .done value

namespace Shell

variable (shell : Shell) (arguments : Arguments) (argc : Nat)

/-- The current directory as the handlers put it before a name: with a separator, unless it is the
root directory. -/
def base : List Byte := if shell.cwd = [slash] then shell.cwd else shell.cwd ++ [slash]

/-- Whether a name does not fit behind the current directory. -/
def TooLong (name : List Byte) : Prop := pathBufSize < shell.cwd.length + name.length + 1 + 1

instance (name : List Byte) : Decidable (shell.TooLong name) :=
  inferInstanceAs (Decidable (pathBufSize < shell.cwd.length + name.length + 1 + 1))

/-- Whether an absolute path is above the current directory, or is the current directory. -/
def IsAbove (path : List Byte) : Prop :=
  path <+: shell.cwd ∧
    (shell.cwd.getD path.length 0 = slash ∨ shell.cwd.getD path.length 0 = 0)

instance (path : List Byte) : Decidable (shell.IsAbove path) :=
  inferInstanceAs (Decidable (path <+: shell.cwd ∧ _))

/-- The path that a name stands for. -/
def resolve {result : Type} (name : List Byte) (tooLong : Program Call result)
    (next : List Byte → Program Call result) : Program Call result :=
  if name.getD 0 0 = slash then next name
  else if shell.TooLong name then tooLong
  else next (shell.base ++ name)

/-! ## Handlers -/

def unlink (path : List Byte) : Program Call Int :=
  .perform (.fUnlink path) fun fresult =>
    if fresult ≠ .ok then
      .perform (.consolePrintf "rm: %s\n\r" [.text shell.cwd]) fun _ => .done fresult.code
    else
      .done 0

def rm : Program Call Int :=
  arguments.read 1 fun name =>
    if name.getD 0 0 = slash then
      if shell.IsAbove name then complain "Cannot delete parent directory \n\r" 0
      else shell.unlink name
    else if shell.TooLong name then complain "Resulting path name is too long\n\r" 0
    else shell.unlink (shell.base ++ name)

def create (path : List Byte) : Program Call Int :=
  .perform (.fMkdir path) fun fresult =>
    if fresult ≠ .ok then
      .perform (.consolePrintf "mkdir: %s\n\r" [.text path]) fun _ => .done fresult.code
    else
      .done 0

def mkdir : Program Call Int :=
  arguments.read 1 fun name =>
    shell.resolve name (complain "Resulting path name is too long\n\r" 0) create

/-- The index at which `cd ..` cuts a path. -/
def cutIndex (path : List Byte) : Nat → Nat
  | 0 => 0
  | index + 1 =>
      if path.getD (index + 1) 0 ≠ slash ∧ 1 < index + 1 then cutIndex path index else index + 1

/-- What `cd ..` makes of the current directory. -/
def cut (path : List Byte) : List Byte := path.take (cutIndex path (path.length - 1))

/-- Enter a directory, if it can be opened. -/
def enter (path : List Byte) : Program Call (Int × Shell) :=
  .perform (.fOpendir path) fun fresult =>
    if fresult ≠ .ok then
      .perform (.consolePrintf "cd: %s\n\r" [.text path]) fun _ => .done (fresult.code, shell)
    else
      .done (0, { shell with cwd := path })

def cd : Program Call (Int × Shell) :=
  arguments.read 1 fun name =>
    if name = chars ['.', '.'] then
      if shell.cwd = [] then .fault else shell.enter (cut shell.cwd)
    else
      shell.resolve name (complain "Resulting path name is too long\n\r" (0, shell)) shell.enter

def ls : Program Call Int :=
  .perform (.fOpendir shell.cwd) fun fresult =>
    if fresult ≠ .ok then .done fresult.code else .iterate lsRound ()

def pwd : Program Call Int :=
  .perform (.consolePrintf "%s\n\r" [.text shell.cwd]) fun _ => .done 0

/-- Read from the serial line, which is not implemented. -/
def uart : Program Call Int :=
  .perform (.consolePrintf "\n\rPlease provide text file (Max of " []) fun _ =>
    .perform (.consolePrintf "%d Kbytes):\n\r" [.number 64]) fun _ =>
      .perform (.consolePrintf "\n\rXmodem receive error\n\r" []) fun _ => .done 0

/-- Open the file to write, if there is one, and copy or print. -/
def copy (name : List Byte) (flagWrite : Bool) : Program Call Int :=
  .perform (.fOpen .fileObject (shell.base ++ name) faRead) fun fresultRead =>
    if flagWrite then
      arguments.read 3 fun target =>
        if pathBufSize ≤ shell.base.length + target.length then .fault
        else .perform (.fOpen .fileObjectWrite (shell.base ++ target) (faWrite ||| faOpenAlways))
          fun fresultWrite =>
            if fresultRead ≠ .ok then .done fresultRead.code
            else if fresultWrite ≠ .ok then .done fresultWrite.code
            else copyBlocks true
    else if fresultRead ≠ .ok then .done fresultRead.code
    else copyBlocks false

def catFile (name : List Byte) (flagWrite : Bool) : Program Call Int :=
  if name = devUart then uart else shell.copy arguments name flagWrite

def cat : Program Call Int :=
  arguments.read 1 fun name =>
    if shell.TooLong name then complain "Resulting path name is too long\n\r" 0
    else if 4 ≤ argc then
      arguments.read 2 fun redirection =>
        shell.catFile arguments name (redirection = [greater])
    else
      shell.catFile arguments name false

def udptx : Program Call Int :=
  arguments.read 1 fun name =>
    if argc < 2 ∨ name.length = 0 then complain "No data to send\r\n" 0
    else
      .perform (.pbufAlloc (min name.length maxSizeUdp)) fun _ =>
        .perform (.consolePrintf "Tx payload >%s< len=%d\r\n"
          [.text name, .number (min name.length maxSizeUdp : Nat)]) fun _ =>
          .perform (.udpSend (name.take (min name.length maxSizeUdp))) fun err =>
            if err ≠ 0 then
              .perform (.consolePrintf "udp_write error: %s\r\n" [.number err]) fun _ =>
                .perform .pbufFree fun _ => .done 0
            else
              .perform .pbufFree fun _ => .done 0

/-- The directory of the log. -/
def udplogs : List Byte := chars ['/', 'u', 'd', 'p', 'l', 'o', 'g', 's', '/']

def udplog : Program Call (Int × Shell) :=
  if shell.udplogflag then .done (0, shell)
  else arguments.read 1 fun name =>
    if pathBufSize ≤ udplogs.length + name.length then .fault
    else .perform (.fOpen .udpFo (udplogs ++ name) (faWrite ||| faCreateAlways)) fun fresult =>
      .done (0, { shell with udplogflag := fresult = .ok })

def udplog0 : Program Call (Int × Shell) :=
  if shell.udplogflag then
    .perform (.fClose .udpFo) fun _ => .done (0, { shell with udplogflag := false })
  else
    .done (0, shell)

/-- A handler that leaves the shell as it is. -/
def leaves (code : Program Call Int) : Program Call (Int × Shell) :=
  code >>= fun status => .done (status, shell)

/-- The handler of a command. -/
def handler : Command → Program Call (Int × Shell)
  | .help => shell.leaves (do
      .lift (.consolePrintf "Command list\n\r" [])
      .lift (.consolePrintf "------------\n\r" [])
      helpEntries cmdTable)
  | .ls => shell.leaves shell.ls
  | .cd => shell.cd arguments
  | .mkdir => shell.leaves (shell.mkdir arguments)
  | .pwd => shell.leaves shell.pwd
  | .cat => shell.leaves (shell.cat arguments argc)
  | .rm => shell.leaves (shell.rm arguments)
  | .udptx => shell.leaves (udptx arguments argc)
  | .udplog => shell.udplog arguments
  | .udplog0 => shell.udplog0

end Shell

/-! ## Lines -/

/-- A word, which may be empty, before other words. -/
def joinWord (parts : List Byte × List (List Byte)) : List (List Byte) :=
  if parts.1 = [] then parts.2 else parts.1 :: parts.2

/-- The characters before the first blank, and the words behind it. -/
def split : List Byte → List Byte × List (List Byte)
  | [] => ([], [])
  | char :: rest =>
      if char = blank then ([], joinWord (split rest))
      else (char :: (split rest).1, (split rest).2)

/-- The words of a line. -/
def words (line : List Byte) : List (List Byte) := joinWord (split line)

theorem split_blank (rest : List Byte) : split (blank :: rest) = ([], words rest) :=
  if_pos rfl

theorem split_other {char : Byte} (other : char ≠ blank) (rest : List Byte) :
    split (char :: rest) = (char :: (split rest).1, (split rest).2) :=
  if_neg other

/-- The command of a word. -/
def lookup (word : List Byte) : Option Command :=
  (cmdTable.find? fun entry => entry.pcCmd = word).map (·.command)

namespace Shell

variable (shell : Shell) (arguments : Arguments) (line : List Byte)

/-- Execute a line. -/
def execute : Program Call (Int × Shell) :=
  if cmdlineMaxArgs < (words line).length then .done (cmdlineTooManyArgs, shell)
  else
    match (words line).head?.bind lookup with
    | some command => .perform (.handler command (words line)) fun _ =>
        shell.handler arguments (words line).length command
    | none => .done (cmdlineBadCmd, shell)

/-- Prompt for the next line. -/
def prompt : Program Call Shell :=
  .perform (.consolePrintf "%s> %s" [.text shell.cwd, .text []]) fun _ => .done shell

/-- Process a line. -/
def process : Program Call Shell :=
  .perform (.process line) fun _ =>
    if line = [] then shell.prompt
    else do
      let outcome ← shell.execute arguments line
      reportStatus outcome.1
      outcome.2.prompt

end Shell

end BbbEth.Console
