import BbbEth.Console.Memory

/-!
# The commands of the console

The handlers of `con_uif.c` and of `udp_apps.c`, statement by statement.  `DataBufRW` is
written before it is read in each use, so that it is a value of the routine that uses it.
-/

namespace BbbEth.Console

open BbbEth.Interference Routine

/-! ## Paths -/

/-- `strcpy(TmpBufPath, CwdBuf)`. -/
def copyCwd : Routine Unit := do
  let memory ← load id
  let tmp ← ofOption (strcpy memory.tmp memory.cwd)
  change (·.setTmp tmp)

/-- `strncpy(TmpBufPath, argv[1], sizeof(TmpBufPath) - 1)`. -/
def copyPath (argument : Str) : Routine Unit := do
  let memory ← load id
  let tmp ← ofOption (strncpy memory.tmp argument (pathBufSize - 1))
  change (·.setTmp tmp)

/-- The separator and the name behind `TmpBufPath`, where there is room for both. -/
def appendName (argument : Str) : Routine Bool := do
  let memory ← load id
  let length ← ofOption (strlen memory.tmp)
  let more ← ofOption (strlen argument)
  if pathBufSize < length + more + 1 + 1 then
    return false
  else do
    let differs ← ofOption (strcmp memory.tmp (literal [slash]))
    if differs ≠ 0 then do
      let memory ← load id
      let tmp ← ofOption (strcat memory.tmp (literal [slash]))
      change (·.setTmp tmp)
    else
      pure ()
    let memory ← load id
    let tmp ← ofOption (strcat memory.tmp argument)
    change (·.setTmp tmp)
    return true

/-- Print a path buffer. -/
def printPath (format : String) (path : Memory → Str) : Routine Unit := do
  let str ← load path
  let bytes ← ofOption (text str)
  consolePrintf format [.text bytes]

/-! ## `rm` -/

/-- Whether an absolute path names a directory above the current one, or the current one. -/
def aboveCwd (argument : Str) : Routine Bool := do
  let memory ← load id
  let length ← ofOption (strlen memory.cwd)
  let more ← ofOption (strlen argument)
  if more ≤ length then do
    let differs ← ofOption (strncmp memory.cwd argument more)
    return differs = 0 ∧ (memory.cwdBuf more = slash ∨ memory.cwdBuf more = 0)
  else
    return false

/-- The end of `Cmd_rm`. -/
def removePath : Routine Int := do
  let memory ← load id
  let path ← ofOption (text memory.tmp)
  let fresult ← call (.fUnlink path)
  if fresult ≠ .ok then do
    printPath "rm: %s\n\r" (·.cwd)
    return fresult.code
  else
    return 0

/-- `Cmd_rm`, with its copy of an absolute path. -/
def cmdRmBy (copy : Str → Routine Unit) : Routine Int := do
  let argument ← argv 1
  if argument.char 0 = slash then do
    let length ← ofOption (strlen argument)
    if pathBufSize < length + 1 then do
      consolePrintf "Resulting path name too long\n\r" []
      return 0
    else do
      let above ← aboveCwd argument
      if above then do
        consolePrintf "Cannot delete parent directory \n\r" []
        return 0
      else do
        copy argument
        removePath
  else do
    copyCwd
    let fits ← appendName argument
    if fits then removePath
    else do
      consolePrintf "Resulting path name is too long\n\r" []
      return 0

/-- `Cmd_rm`. -/
def cmdRm : Routine Int := cmdRmBy copyPath

/-! ## `mkdir` -/

/-- The end of `Cmd_mkdir`. -/
def makePath : Routine Int := do
  let memory ← load id
  let path ← ofOption (text memory.tmp)
  let fresult ← call (.fMkdir path)
  if fresult ≠ .ok then do
    printPath "mkdir: %s\n\r" (·.tmp)
    return fresult.code
  else
    return 0

/-- `Cmd_mkdir`, with its copy of an absolute path. -/
def cmdMkdirBy (copy : Str → Routine Unit) : Routine Int := do
  let argument ← argv 1
  if argument.char 0 = slash then do
    let length ← ofOption (strlen argument)
    if pathBufSize < length + 1 then do
      consolePrintf "Resulting path name is too long\n\r" []
      return 0
    else do
      copy argument
      makePath
  else do
    copyCwd
    let fits ← appendName argument
    if fits then makePath
    else do
      consolePrintf "Resulting path name is too long\n\r" []
      return 0

/-- `Cmd_mkdir`. -/
def cmdMkdir : Routine Int := cmdMkdirBy copyPath

/-! ## `cd` -/

/-- The loop of `Cmd_cd` that goes back to a separator.  The index is unsigned. -/
def backUp (str : Str) : Nat → Option Nat
  | 0 => if 0 < str.size then some 0 else none
  | index + 1 =>
      if str.size ≤ index + 1 then none
      else if str.char (index + 1) ≠ slash ∧ 1 < index + 1 then backUp str index
      else some (index + 1)

/-- The branch of `Cmd_cd` for `..`. -/
def cutPath : Routine Unit := do
  let memory ← load id
  let length ← ofOption (strlen memory.tmp)
  let start := (BitVec.ofNat 32 length - 1).toNat
  let index ← ofOption (backUp memory.tmp start)
  let tmp ← ofOption (memory.tmp.store index 0)
  change (·.setTmp tmp)

/-- The end of `Cmd_cd`. -/
def enterPath : Routine Int := do
  let memory ← load id
  let path ← ofOption (text memory.tmp)
  let fresult ← call (.fOpendir path)
  if fresult ≠ .ok then do
    printPath "cd: %s\n\r" (·.tmp)
    return fresult.code
  else do
    let memory ← load id
    let cwd ← ofOption (strncpy memory.cwd memory.tmp pathBufSize)
    change (·.setCwd cwd)
    return 0

/-- `Cmd_cd`, with its copy of an absolute path. -/
def cmdCdBy (copy : Str → Routine Unit) : Routine Int := do
  copyCwd
  let argument ← argv 1
  if argument.char 0 = slash then do
    let length ← ofOption (strlen argument)
    if pathBufSize < length + 1 then do
      consolePrintf "Resulting path name is too long\n\r" []
      return 0
    else do
      copy argument
      enterPath
  else do
    let differs ← ofOption (strcmp argument (literal (chars ['.', '.'])))
    if differs = 0 then do
      cutPath
      enterPath
    else do
      let fits ← appendName argument
      if fits then enterPath
      else do
        consolePrintf "Resulting path name is too long\n\r" []
        return 0

/-- `Cmd_cd`. -/
def cmdCd : Routine Int := cmdCdBy copyPath

/-! ## `ls` and `pwd` -/

/-- The blanks behind a name: the loop runs while `i <= 16 - strlen(fname)`. -/
def padding (length : Nat) : Nat := (16 - BitVec.ofNat 32 length : Word).toNat + 1

/-- Print one entry. -/
def printEntry (info : FileInfo) : Program Call Unit := do
  .lift (.consolePrintf "%s" [.text info.fname])
  .lift (.consolePrintf " " [.number (padding info.fname.length)])
  .lift (.consolePrintf "%d/%d/%d %d:%d:%d    "
    [.number ((info.fdate >>> 9).toNat + 1980), .number ((info.fdate >>> 5) &&& 15).toNat,
      .number (info.fdate &&& 31).toNat, .number (info.ftime >>> 11).toNat,
      .number ((info.ftime >>> 5) &&& 63).toNat, .number ((info.ftime &&& 31).toNat * 2)])
  if info.fattrib &&& 0x10 = 0x10 then
    .lift (.consolePrintf "dir\n\r" [])
  else
    .lift (.consolePrintf "%d bytes\n\r" [.number info.fsize.toNat])

/-- One round of the loop of `Cmd_ls`. -/
def lsRound (_ : Unit) : Program Call (Unit ⊕ Int) := do
  let (fresult, info) ← .lift .fReaddir
  if fresult ≠ .ok then
    .done (.inr fresult.code)
  else if info.fname = [] then
    .done (.inr 0)
  else do
    printEntry info
    .done (.inl ())

/-- `Cmd_ls`. -/
def cmdLs : Routine Int := do
  let memory ← load id
  let path ← ofOption (text memory.cwd)
  let fresult ← call (.fOpendir path)
  if fresult ≠ .ok then return fresult.code
  else lift (.iterate lsRound ())

/-- `Cmd_pwd`. -/
def cmdPwd : Routine Int := do
  printPath "%s\n\r" (·.cwd)
  return 0

/-! ## `cat` -/

/-- One round of the loop of `Cmd_cat` over the blocks of a file. -/
def catRound (flagWrite : Bool) (_ : Unit) : Program Call (Unit ⊕ Int) := do
  let (fresultRead, data) ← .lift (.fRead .fileObject (dataBufSize - 1))
  if fresultRead ≠ .ok then
    .done (.inr fresultRead.code)
  else if flagWrite then do
    let (fresultWrite, _) ← .lift (.fWrite .fileObjectWrite data)
    if fresultWrite ≠ .ok then
      .done (.inr fresultWrite.code)
    else if data.length = dataBufSize - 1 then
      .done (.inl ())
    else
      .done (.inr 0)
  else do
    .lift (.consolePrintf "%s" [.text (data.takeWhile (· ≠ 0))])
    if data.length = dataBufSize - 1 then
      .done (.inl ())
    else
      .done (.inr 0)

/-- Close a file, with a newline if this fails. -/
def closeFile (object : FileObject) (next : Program Call Int) : Program Call Int := do
  let fresult ← .lift (.fClose object)
  if fresult ≠ .ok then do
    .lift (.consolePrintf "\n\r" [])
    .done fresult.code
  else
    next

/-- The part of `Cmd_cat` from the loop on.  An error inside of the loop returns at once. -/
def copyBlocks (flagWrite : Bool) : Program Call Int := do
  let fresult ← .iterate (catRound flagWrite) ()
  if fresult ≠ 0 then
    .done fresult
  else
    closeFile .fileObject
      (if flagWrite then closeFile .fileObjectWrite (.done 0) else .done 0)

/-- The branch of `Cmd_cat` for `dev.UART`, up to the return; `usBytesRead` is 0, since the
receiver is not implemented. -/
def readUart : Routine Int := do
  consolePrintf "\n\rPlease provide text file (Max of " []
  consolePrintf "%d Kbytes):\n\r" [.number 64]
  consolePrintf "\n\rXmodem receive error\n\r" []
  return 0

/-- The branch of `Cmd_cat` for a file. -/
def readFile (argument : Str) (flagWrite : Bool) : Routine Int := do
  let memory ← load id
  let tmp ← ofOption (strcat memory.tmp argument)
  change (·.setTmp tmp)
  let path ← ofOption (text tmp)
  let fresultRead ← call (.fOpen .fileObject path faRead)
  if flagWrite then do
    let target ← argv 3
    let memory ← load id
    let wr ← ofOption (strcat memory.wr target)
    change (·.setWr wr)
    let path ← ofOption (text wr)
    let fresultWrite ← call (.fOpen .fileObjectWrite path (faWrite ||| faOpenAlways))
    if fresultRead ≠ .ok then return fresultRead.code
    else if fresultWrite ≠ .ok then return fresultWrite.code
    else lift (copyBlocks true)
  else if fresultRead ≠ .ok then return fresultRead.code
  else lift (copyBlocks false)

/-- The separator behind `TmpBufPath` in `Cmd_cat`. -/
def separate : Routine Unit := do
  let memory ← load id
  let differs ← ofOption (strcmp (literal [slash]) memory.cwd)
  if differs ≠ 0 then do
    let tmp ← ofOption (strcat memory.tmp (literal [slash]))
    change (·.setTmp tmp)
  else
    pure ()

/-- `if(argc >= 4) strcpy(WrBufPath, argv[2])`. -/
def copyTarget (argc : Nat) : Routine Unit :=
  if 4 ≤ argc then do
    let redirection ← argv 2
    let memory ← load id
    let wr ← ofOption (strcpy memory.wr redirection)
    change (·.setWr wr)
  else
    pure ()

/-- The test of `WrBufPath` for `>`, which sets `flagWrite`. -/
def redirect : Routine Bool := do
  let memory ← load id
  if memory.wrBufPath 0 = greater ∧ memory.wrBufPath 1 = 0 then do
    let wr ← ofOption (strcpy memory.wr memory.tmp)
    change (·.setWr wr)
    return true
  else
    return false

/-- The name of the serial line. -/
def devUart : List Byte := chars ['d', 'e', 'v', '.', 'U', 'A', 'R', 'T']

/-- `Cmd_cat`. -/
def cmdCat (argc : Nat) : Routine Int := do
  let memory ← load id
  let length ← ofOption (strlen memory.cwd)
  let argument ← argv 1
  let more ← ofOption (strlen argument)
  if pathBufSize < length + more + 1 + 1 then do
    consolePrintf "Resulting path name is too long\n\r" []
    return 0
  else do
    copyCwd
    separate
    copyTarget argc
    let flagWrite ← redirect
    let dataBufRW ← ofOption (strcpy ⟨dataBufSize, fun _ => 0⟩ argument)
    let differs ← ofOption (strcmp dataBufRW (literal devUart))
    if differs = 0 then readUart else readFile argument flagWrite

/-! ## UDP -/

/-- `Cmd_udptx`.  The copy into the heap is outside of this memory. -/
def cmdUdptx (argc : Nat) : Routine Int := do
  let argument ← argv 1
  let totLen ← ofOption (strlen argument)
  if argc < 2 ∨ totLen = 0 then do
    consolePrintf "No data to send\r\n" []
    return 0
  else do
    let sent := min totLen maxSizeUdp
    call (.pbufAlloc sent)
    let payload ← ofOption (text argument)
    consolePrintf "Tx payload >%s< len=%d\r\n" [.text payload, .number sent]
    let err ← call (.udpSend (payload.take sent))
    if err ≠ 0 then consolePrintf "udp_write error: %s\r\n" [.number err] else pure ()
    call .pbufFree
    return 0

/-- `namebuf` of `Cmd_udplog`, before the name is appended. -/
def namebuf : Str :=
  ⟨pathBufSize, initialised (chars ['/', 'u', 'd', 'p', 'l', 'o', 'g', 's', '/'])⟩

/-- `Cmd_udplog`. -/
def cmdUdplog : Routine Int := do
  let udplogflag ← load (·.udplogflag)
  if udplogflag then return 0
  else do
    let argument ← argv 1
    let path ← ofOption (strcat namebuf argument)
    let bytes ← ofOption (text path)
    let fresult ← call (.fOpen .udpFo bytes (faWrite ||| faCreateAlways))
    change fun memory => { memory with udplogflag := fresult = .ok }
    return 0

/-- `Cmd_udplog0`. -/
def cmdUdplog0 : Routine Int := do
  let udplogflag ← load (·.udplogflag)
  if udplogflag then do
    let _ ← call (.fClose .udpFo)
    change fun memory => { memory with udplogflag := false }
    return 0
  else
    return 0

end BbbEth.Console
