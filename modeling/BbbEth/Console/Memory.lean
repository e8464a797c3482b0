import BbbEth.Console.Libc
import BbbEth.Interference.Program

/-!
# The memory of the console and its calls

The buffers that `con_uif.c` keeps between two keystrokes, and the calls by which its
commands act on the file system, on the network and on the terminal.  A routine of the
console takes the memory and gives a tree of calls.
-/

namespace BbbEth.Console

open BbbEth.Interference

/-- A 32-bit word. -/
abbrev Word := BitVec 32

/-! ## Characters -/

/-- The characters of a C string. -/
def chars (text : List Char) : List Byte := text.map fun char => BitVec.ofNat 8 char.toNat

def slash : Byte := 0x2f
def greater : Byte := 0x3e
def blank : Byte := 0x20
def tilde : Byte := 0x7e
def backspace : Byte := 0x08
def carriageReturn : Byte := 0x0d
def newline : Byte := 0x0a
def escape : Byte := 0x1b
def controlU : Byte := 0x15

/-- A string constant, as an object. -/
def literal (text : List Byte) : Str where
  size := text.length + 1
  char index := text.getD index 0

/-! ## Constants -/

def cmdBufSize : Nat := 512
def pathBufSize : Nat := 512
def dataBufSize : Nat := 64 * (2 * 512)
def maxSizeUdp : Nat := 256
def cmdlineMaxArgs : Nat := 8
def cmdlineBadCmd : Int := -1
def cmdlineTooManyArgs : Int := -2

/-- `FRESULT`. -/
inductive FResult where
  | ok
  | notReady
  | noFile
  | noPath
  | invalidName
  | invalidDrive
  | denied
  | exist
  | rwError
  | writeProtected
  | notEnabled
  | noFilesystem
  | invalidObject
  | mkfsAborted
  deriving DecidableEq, Repr

/-- The number of a result. -/
def FResult.code : FResult → Int
  | .ok => 0
  | .notReady => 1
  | .noFile => 2
  | .noPath => 3
  | .invalidName => 4
  | .invalidDrive => 5
  | .denied => 6
  | .exist => 7
  | .rwError => 8
  | .writeProtected => 9
  | .notEnabled => 10
  | .noFilesystem => 11
  | .invalidObject => 12
  | .mkfsAborted => 13

/-- The modes of `f_open`. -/
def faRead : Byte := 0x01
def faWrite : Byte := 0x02
def faCreateAlways : Byte := 0x08
def faOpenAlways : Byte := 0x10

/-- `FILINFO`. -/
structure FileInfo where
  fsize : Word
  fdate : BitVec 16
  ftime : BitVec 16
  fattrib : Byte
  fname : List Byte

/-- The file objects of the console. -/
inductive FileObject where
  | fileObject
  | fileObjectWrite
  | udpFo
  deriving DecidableEq, Repr

/-! ## Calls -/

/-- The commands of the table. -/
inductive Command where
  | help
  | ls
  | cd
  | mkdir
  | pwd
  | cat
  | rm
  | udptx
  | udplog
  | udplog0
  deriving DecidableEq, Repr

/-- What is printed in place of a conversion. -/
inductive Printed where
  | text (bytes : List Byte)
  /-- A string of the table of commands. -/
  | constant (text : String)
  | number (value : Int)
  deriving DecidableEq

/-- What the console calls, and three marks: the call of `CmdLineProcess` with its line, the
call of a handler with its arguments, and the read of an element of `argv` by a handler. -/
inductive Call : Type → Type where
  | process (line : List Byte) : Call Unit
  | handler (command : Command) (arguments : List (List Byte)) : Call Unit
  | loadArgv (index : Nat) : Call Unit
  | consolePrintf (format : String) (values : List Printed) : Call Unit
  | fOpendir (path : List Byte) : Call FResult
  | fReaddir : Call (FResult × FileInfo)
  | fMkdir (path : List Byte) : Call FResult
  | fUnlink (path : List Byte) : Call FResult
  | fOpen (object : FileObject) (path : List Byte) (mode : Byte) : Call FResult
  /-- The bytes that are read. -/
  | fRead (object : FileObject) (count : Nat) : Call (FResult × List Byte)
  /-- The number of bytes that are written. -/
  | fWrite (object : FileObject) (data : List Byte) : Call (FResult × Nat)
  | fClose (object : FileObject) : Call FResult
  | fMount : Call FResult
  /-- A copy through a pointer that does not point into the buffers. -/
  | strcpyAt (pointer : Word) (text : List Byte) : Call Unit
  | pbufAlloc (length : Nat) : Call Unit
  /-- The payload, and the error number. -/
  | udpSend (payload : List Byte) : Call Int
  | pbufFree : Call Unit

/-! ## Memory -/

/-- The static variables. -/
structure Memory where
  /-- `CmdBuf`, and what is behind it. -/
  cmdBuf : Nat → Byte
  cmdBufIdx : BitVec 8
  /-- Pointers into `CmdBuf`. -/
  argv : Nat → Option Nat
  cwdBuf : Nat → Byte
  wrBufPath : Nat → Byte
  tmpBufPath : Nat → Byte
  udplogflag : Bool

namespace Memory

variable (memory : Memory)

/-- `CmdBuf`. -/
def line : Str := ⟨cmdBufSize, memory.cmdBuf⟩

/-- `CmdBuf`, from an index on. -/
def cmd (index : Nat) : Str := ⟨cmdBufSize - index, fun offset => memory.cmdBuf (index + offset)⟩

/-- `CwdBuf`. -/
def cwd : Str := ⟨pathBufSize, memory.cwdBuf⟩

/-- What `mmc_api.c` takes for the pointer `CwdBuf`: the first bytes of the array. -/
def cwdPointer : Word :=
  memory.cwdBuf 3 ++ memory.cwdBuf 2 ++ memory.cwdBuf 1 ++ memory.cwdBuf 0

/-- `WrBufPath`. -/
def wr : Str := ⟨pathBufSize, memory.wrBufPath⟩

/-- `TmpBufPath`. -/
def tmp : Str := ⟨pathBufSize, memory.tmpBufPath⟩

def setLine (str : Str) : Memory := { memory with cmdBuf := str.char }

def setCwd (str : Str) : Memory := { memory with cwdBuf := str.char }

def setWr (str : Str) : Memory := { memory with wrBufPath := str.char }

def setTmp (str : Str) : Memory := { memory with tmpBufPath := str.char }

end Memory

/-- A static string buffer after initialisation. -/
def initialised (text : List Byte) : Nat → Byte := fun index => text.getD index 0

/-- The memory before `main` runs. -/
def Memory.initial : Memory where
  cmdBuf := initialised []
  cmdBufIdx := 0
  argv _ := none
  cwdBuf := initialised [slash]
  wrBufPath := initialised [slash]
  tmpBufPath := initialised []
  udplogflag := false

/-! ## Routines -/

/-- Routines of the console. -/
abbrev Routine := StateT Memory (Program Call)

namespace Routine

variable {reply result : Type}

/-- A call. -/
def call (request : Call reply) : Routine reply := fun memory =>
  .perform request fun answer => .done (answer, memory)

/-- A routine that does not look at the memory. -/
def lift (code : Program Call result) : Routine result := fun memory =>
  code >>= fun value => .done (value, memory)

/-- An access outside of an object. -/
def fault : Routine result := fun _ => .fault

/-- The result of a string routine. -/
def ofOption : Option result → Routine result
  | some value => pure value
  | none => fault

def load (field : Memory → reply) : Routine reply := fun memory => .done (field memory, memory)

def change (update : Memory → Memory) : Routine Unit := fun memory => .done ((), update memory)

def consolePrintf (format : String) (values : List Printed) : Routine Unit :=
  call (.consolePrintf format values)

/-- The string that an element of `argv` points to. -/
def argv (index : Nat) : Routine Str := do
  call (.loadArgv index)
  let pointer ← load (·.argv index)
  match pointer with
  | some offset => load (·.cmd offset)
  | none => fault

end Routine

/-- The characters up to the end of a string, as `%s` prints them and FatFs reads them. -/
def textFrom (str : Str) : Nat → Nat → Option (List Byte)
  | 0, _ => none
  | left + 1, index =>
      if str.char index = 0 then some []
      else (textFrom str left (index + 1)).map (str.char index :: ·)

def text (str : Str) : Option (List Byte) := textFrom str str.size 0

theorem textFrom_holds {str : Str} {line : List Byte} (holds : Holds str line) (index : Nat)
    (inside : index ≤ line.length) :
    textFrom str (str.size - index) index = some (line.drop index) := by
  have fits := holds.fits
  induction distance : line.length - index generalizing index with
  | zero =>
      have last : index = line.length := by omega
      rw [show str.size - index = str.size - index - 1 + 1 by omega, textFrom,
        if_pos ((holds.char_eq_zero_iff inside).mpr last), last, List.drop_length]
  | succ distance inductionHypothesis =>
      have before : index < line.length := by omega
      rw [show str.size - index = str.size - (index + 1) + 1 by omega, textFrom,
        if_neg (holds.char_ne_zero before), inductionHypothesis (index + 1) before (by omega),
        Option.map_some, List.drop_eq_getElem_cons before, holds.char _ inside,
        List.getD_eq_getElem _ _ before]

theorem text_holds {str : Str} {line : List Byte} (holds : Holds str line) :
    text str = some line :=
  textFrom_holds holds 0 (Nat.zero_le _)

theorem holdsFrom_text {str : Str} {left index : Nat} {line : List Byte}
    (reads : textFrom str left index = some line) (fits : index + left ≤ str.size) :
    Holds ⟨str.size - index, fun offset => str.char (index + offset)⟩ line := by
  induction left generalizing index line with
  | zero => cases reads
  | succ left inductionHypothesis =>
      rw [textFrom] at reads
      by_cases ends : str.char index = 0
      · rw [if_pos ends] at reads
        cases reads
        refine ⟨fun offset inside => ?_, nofun, ?_⟩
        · cases Nat.le_zero.mp inside
          exact ends
        · change 0 < str.size - index
          omega
      · rw [if_neg ends] at reads
        rcases Option.map_eq_some_iff.mp reads with ⟨rest, readsRest, rfl⟩
        have holds := inductionHypothesis readsRest (by omega)
        refine ⟨fun offset inside => ?_, fun byte member => ?_, ?_⟩
        · cases offset with
          | zero => rfl
          | succ offset =>
              have same : str.char (index + 1 + offset) = _ :=
                holds.char offset (Nat.le_of_succ_le_succ inside)
              rw [show index + 1 + offset = index + (offset + 1) by omega] at same
              exact same
        · rcases List.mem_cons.mp member with rfl | member
          · exact ends
          · exact holds.nonzero byte member
        · have shorter := holds.fits
          change rest.length + 1 < str.size - index
          change rest.length < str.size - (index + 1) at shorter
          omega

/-- What is read from an object is what the object holds. -/
theorem text_eq_some_iff {str : Str} {line : List Byte} :
    text str = some line ↔ Holds str line := by
  constructor
  · intro reads
    have holds := holdsFrom_text reads (Nat.zero_add _).le
    exact holds.congr holds.fits fun index _ => congrArg str.char (Nat.zero_add index).symm
  · exact text_holds

/-! ## Runs -/

namespace Routine

variable {reply result final : Type} {memory memory' : Memory}

/-- A routine that ends at once is followed by the next one. -/
theorem bind_of_eq_done {code : Routine result} {value : result}
    (ends : code memory = .done (value, memory')) (next : result → Routine final) :
    (code >>= next) memory = next value memory' := by
  change code memory >>= (fun pair => next pair.1 pair.2) = _
  rw [ends]
  rfl

theorem bind_apply (code : Routine result) (next : result → Routine final) :
    (code >>= next) memory = code memory >>= fun pair => next pair.1 pair.2 := rfl

theorem bind_bind {last : Type} (code : Routine result) (next : result → Routine final)
    (rest : final → Routine last) :
    (code >>= next >>= rest) memory = (code >>= fun value => next value >>= rest) memory :=
  Program.bind_assoc (code memory) (fun pair => next pair.1 pair.2) fun pair => rest pair.1 pair.2

theorem bind_load (field : Memory → reply) (next : reply → Routine final) :
    (load field >>= next) memory = next (field memory) memory := rfl

theorem bind_memory (next : Memory → Routine final) :
    (load id >>= next) memory = next memory memory := rfl

theorem bind_change (update : Memory → Memory) (next : Unit → Routine final) :
    (change update >>= next) memory = next () (update memory) := rfl

theorem bind_call (request : Call reply) (next : reply → Routine final) :
    (call request >>= next) memory = .perform request fun answer => next answer memory := rfl

theorem bind_print (format : String) (values : List Printed) (next : Unit → Routine final) :
    (consolePrintf format values >>= next) memory =
      .perform (.consolePrintf format values) fun answer => next answer memory := rfl

theorem bind_lift (code : Program Call result) (next : result → Routine final) :
    (lift code >>= next) memory = code >>= fun value => next value memory :=
  Program.bind_assoc ..

theorem bind_ofOption {option : Option result} {value : result} (found : option = some value)
    (next : result → Routine final) : (ofOption option >>= next) memory = next value memory := by
  rw [found]
  rfl

theorem bind_ofOption_none {option : Option result} (missing : option = none)
    (next : result → Routine final) : (ofOption option >>= next) memory = .fault := by
  rw [missing]
  rfl

theorem bind_argv (index : Nat) (next : Str → Routine final) :
    (argv index >>= next) memory = .perform (.loadArgv index) fun _ =>
      match memory.argv index with
      | some offset => next (memory.cmd offset) memory
      | none => .fault := by
  change Program.perform _ _ = Program.perform _ _
  congr 1
  funext _
  change (match memory.argv index with
    | some offset => load (·.cmd offset)
    | none => fault) memory >>= (fun pair => next pair.1 pair.2) = _
  cases memory.argv index with
  | some offset => rfl
  | none => rfl

end Routine

end BbbEth.Console
