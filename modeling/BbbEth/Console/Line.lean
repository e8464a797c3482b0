import BbbEth.Console.Commands

/-!
# The command line

`CmdLineParse` cuts a line into arguments and calls a handler, `CmdLineProcess` reports its
status, and `char_collect` edits the line.
-/

namespace BbbEth.Console

open BbbEth.Interference Routine

/-! ## The table of commands -/

/-- `tCmdLineEntry`. -/
structure CmdLineEntry where
  pcCmd : List Byte
  command : Command
  pcHelp : String

/-- `CmdTable`. -/
def cmdTable : List CmdLineEntry :=
  [⟨chars ['h', 'e', 'l', 'p'], .help, "     : Display list of commands"⟩,
    ⟨chars ['h'], .help, "        : alias for help"⟩,
    ⟨chars ['?'], .help, "        : alias for help"⟩,
    ⟨chars ['l', 's'], .ls, "       : Display list of files"⟩,
    ⟨chars ['c', 'h', 'd', 'i', 'r'], .cd, "    : Change directory"⟩,
    ⟨chars ['m', 'k', 'd', 'i', 'r'], .mkdir, "    : Create directory"⟩,
    ⟨chars ['c', 'd'], .cd, "       : alias for chdir"⟩,
    ⟨chars ['p', 'w', 'd'], .pwd, "      : Show current working directory"⟩,
    ⟨chars ['c', 'a', 't'], .cat,
      "      : Show contents of a text file : cat <FILENAME> \n\r           Write to a file : cat <INPUTFILE> > <OUTPUTFILE>"⟩,
    ⟨chars ['r', 'm'], .rm, "       : Delete a file or an empty directory"⟩,
    ⟨chars ['u', 'd', 'p', 't', 'x'], .udptx, "    : Xmit a char string by UDP"⟩,
    ⟨chars ['u', 'd', 'p', 'l', 'o', 'g'], .udplog, "   : log incoming UDP packets"⟩,
    ⟨chars ['u', 'd', 'p', 'l', 'o', 'g', '0'], .udplog0, "  : stop udplog and close file"⟩]

/-- The loop of `Cmd_help`. -/
def helpEntries : List CmdLineEntry → Program Call Int
  | [] => .done 0
  | entry :: rest => do
      .lift (.consolePrintf "%s%s\n\r" [.text entry.pcCmd, .constant entry.pcHelp])
      helpEntries rest

/-- `Cmd_help`. -/
def cmdHelp : Routine Int := lift do
  .lift (.consolePrintf "Command list\n\r" [])
  .lift (.consolePrintf "------------\n\r" [])
  helpEntries cmdTable

/-- The handler of a command. -/
def Command.handler (argc : Nat) : Command → Routine Int
  | .help => cmdHelp
  | .ls => cmdLs
  | .cd => cmdCd
  | .mkdir => cmdMkdir
  | .pwd => cmdPwd
  | .cat => cmdCat argc
  | .rm => cmdRm
  | .udptx => cmdUdptx argc
  | .udplog => cmdUdplog
  | .udplog0 => cmdUdplog0

/-! ## `CmdLineParse` -/

/-- The loop over the line, with the number of characters that may be left.  It returns
`argc`, or nothing if there are too many arguments. -/
def parseFrom : Nat → Nat → Nat → Bool → Memory → Option (Option Nat × Memory)
  | 0, _, _, _, _ => none
  | left + 1, pcChar, argc, bFindArg, memory =>
      if memory.cmdBuf pcChar = 0 then
        some (some argc, memory)
      else if memory.cmdBuf pcChar = blank then
        parseFrom left (pcChar + 1) argc true
          { memory with cmdBuf := Function.update memory.cmdBuf pcChar 0 }
      else if bFindArg then
        if argc < cmdlineMaxArgs then
          parseFrom left (pcChar + 1) (argc + 1) false
            { memory with argv := Function.update memory.argv argc (some pcChar) }
        else
          some (none, memory)
      else
        parseFrom left (pcChar + 1) argc false memory

/-- The search in the table. -/
def findCommand (word : Str) : List CmdLineEntry → Option (Option Command)
  | [] => some none
  | entry :: rest => do
      let differs ← strcmp word (literal entry.pcCmd)
      if differs = 0 then some (some entry.command) else findCommand word rest

/-- The string that an element of `argv` points to. -/
def argument (memory : Memory) (index : Nat) : Option (List Byte) :=
  (memory.argv index).bind fun offset => text (memory.cmd offset)

/-- The search for the command of a line, and the call of its handler. -/
def dispatchBy (handler : Nat → Command → Routine Int) (argc : Nat) : Routine Int := do
  let memory ← load id
  let offset ← ofOption (memory.argv 0)
  let found ← ofOption (findCommand (memory.cmd offset) cmdTable)
  match found with
  | some command => do
      let arguments ← ofOption ((List.range argc).mapM (argument memory))
      call (.handler command arguments)
      handler argc command
  | none => return cmdlineBadCmd

/-- The search in the table, with its handlers. -/
def dispatch (argc : Nat) : Routine Int := dispatchBy Command.handler argc

/-- `CmdLineParse`, with the handlers of the table. -/
def cmdLineParseBy (handler : Nat → Command → Routine Int) : Routine Int := do
  let memory ← load id
  let (argc, parsed) ← ofOption (parseFrom cmdBufSize 0 0 true memory)
  change fun _ => parsed
  match argc with
  | none => return cmdlineTooManyArgs
  | some argc => if argc ≠ 0 then dispatchBy handler argc else return cmdlineBadCmd

/-- `CmdLineParse`. -/
def cmdLineParse : Routine Int := cmdLineParseBy Command.handler

/-! ## `CmdLineProcess` -/

/-- `FResultStrings`. -/
def fresultStrings : List (FResult × String) :=
  [(.ok, "FR_OK"), (.notReady, "FR_NOT_READY"), (.noFile, "FR_NO_FILE"),
    (.noPath, "FR_NO_PATH"), (.invalidName, "FR_INVALID_NAME"),
    (.invalidDrive, "FR_INVALID_DRIVE"), (.denied, "FR_DENIED"), (.exist, "FR_EXIST"),
    (.rwError, "FR_RW_ERROR"), (.writeProtected, "FR_WRITE_PROTECTED"),
    (.notEnabled, "FR_NOT_ENABLED"), (.noFilesystem, "FR_NO_FILESYSTEM"),
    (.invalidObject, "FR_INVALID_OBJECT"), (.mkfsAborted, "FR_MKFS_ABORTED")]

/-- `StringFromFresult`. -/
def stringFromFresult (status : Int) : String :=
  match fresultStrings.find? fun entry => entry.1.code = status with
  | some entry => entry.2
  | none => "UNKNOWN ERROR CODE"

/-- The report of `CmdLineProcess`. -/
def reportStatus (iStatus : Int) : Program Call Unit :=
  if iStatus = cmdlineBadCmd then
    .lift (.consolePrintf "Unrecognized command\n\r" [])
  else if iStatus = cmdlineTooManyArgs then
    .lift (.consolePrintf "Too many arguments\n\r" [])
  else if iStatus ≠ 0 then
    .lift (.consolePrintf ("Command return error " ++ stringFromFresult iStatus ++ "\n\r") [])
  else
    .done ()

/-- The end of `CmdLineProcess`. -/
def promptLine : Routine Unit := do
  change fun memory => { memory with cmdBuf := Function.update memory.cmdBuf 0 0 }
  let memory ← load id
  let cwd ← ofOption (text memory.cwd)
  let line ← ofOption (text memory.line)
  consolePrintf "%s> %s" [.text cwd, .text line]

/-- The memory whose line is empty. -/
def Memory.emptied (memory : Memory) : Memory :=
  { memory with cmdBuf := Function.update memory.cmdBuf 0 0 }

theorem Memory.holds_emptied (memory : Memory) : Holds memory.emptied.line [] := by
  refine ⟨fun index inside => ?_, nofun, Nat.zero_lt_succ _⟩
  cases Nat.le_zero.mp inside
  exact Function.update_self 0 0 memory.cmdBuf

theorem promptLine_eq {memory : Memory} {cwd : List Byte} (holds : Holds memory.cwd cwd) :
    promptLine memory = .perform (.consolePrintf "%s> %s" [.text cwd, .text []]) fun _ =>
      .done ((), memory.emptied) := by
  have reads : text memory.emptied.cwd = some cwd := text_holds holds
  have nothing : text memory.emptied.line = some [] := text_holds memory.holds_emptied
  unfold promptLine
  rw [bind_change, bind_memory]
  exact (bind_ofOption reads _).trans (bind_ofOption nothing _)

/-- `CmdLineProcess`. -/
def cmdLineProcess : Routine Unit := do
  let memory ← load id
  let line ← ofOption (text memory.line)
  call (.process line)
  if memory.cmdBuf 0 ≠ 0 then do
    let iStatus ← cmdLineParse
    lift (reportStatus iStatus)
    promptLine
  else
    promptLine

/-- An empty line is not parsed. -/
theorem cmdLineProcess_empty {memory : Memory} (holds : Holds memory.line []) :
    cmdLineProcess memory = .perform (.process []) fun _ => promptLine memory := by
  have first : memory.cmdBuf 0 = 0 := holds.nul
  unfold cmdLineProcess
  rw [bind_memory, bind_ofOption (text_holds holds), bind_call, if_neg fun other => other first]

/-! ## `char_collect` -/

/-- `CmdBuf[CmdBufIdx] = value`. -/
def storeChar (value : Byte) : Routine Unit := do
  let memory ← load id
  let line ← ofOption (memory.line.store memory.cmdBufIdx.toNat value)
  change (·.setLine line)

/-- `CmdBufIdx = value`; the index is an `unsigned char`. -/
def setIndex (value : BitVec 8 → BitVec 8) : Routine Unit :=
  change fun memory => { memory with cmdBufIdx := value memory.cmdBufIdx }

/-- The loop of `char_collect` that erases the line on the terminal. -/
def eraseLine : Nat → Program Call Unit
  | 0 => .done ()
  | count + 1 => do
      .lift (.consolePrintf "\x08 \x08" [])
      eraseLine count

/-- `char_collect`. -/
def charCollect (keyStroke : Byte) : Routine Unit := do
  let memory ← load id
  if keyStroke = backspace ∧ memory.cmdBufIdx ≠ 0 then do
    consolePrintf "\x08 \x08" []
    setIndex (· - 1)
    storeChar 0
  else if keyStroke = carriageReturn ∨ keyStroke = newline then do
    consolePrintf "\n\r" []
    cmdLineProcess
    setIndex fun _ => 0
    storeChar 0
  else if keyStroke = escape ∨ keyStroke = controlU then do
    lift (eraseLine memory.cmdBufIdx.toNat)
    setIndex fun _ => 0
    storeChar 0
  else if blank.toNat ≤ keyStroke.toNat ∧ keyStroke.toNat ≤ tilde.toNat ∧
      memory.cmdBufIdx.toNat < cmdBufSize - 1 then do
    storeChar keyStroke
    setIndex (· + 1)
    storeChar 0
    consolePrintf "%c" [.text [keyStroke]]
  else
    pure ()

/-! ## The card -/

/-- `FATFsMount`.  To `mmc_api.c` the array `CwdBuf` is a pointer. -/
def fatFsMount : Routine FResult := do
  let memory ← load id
  call (.strcpyAt memory.cwdPointer [slash])
  let line ← ofOption (strcpy memory.line (literal []))
  change (·.setLine line)
  call .fMount

/-- The part of `mmc0_isr` for a card that is inserted. -/
def cardInserted : Routine Unit := do
  let _ ← fatFsMount
  consolePrintf "\n\r" []
  cmdLineProcess

end BbbEth.Console
