import BbbEth.Console.Shell
import BbbEth.Interference.Results
import Mathlib.Algebra.Group.Nat.Defs

/-!
# The transmission of a string

`Cmd_udptx` with the packet buffer that `pbuf_alloc` takes from the heap.  The stores of `strcpy`
are followed to the bytes of the heap that they hit.  The heap is apart from the string.
-/

namespace BbbEth.Udp

open BbbEth.Interference Server BbbEth.Console

abbrev Half := BitVec 16

/-! ## Data -/

/-- The string that `argv[1]` points to. -/
structure Argument where
  str : Str
  text : List Byte
  holds : Holds str text
  addressable : text.length < 2 ^ 32

/-- `pbuf_type`. -/
inductive PbufType where
  | ram
  | rom
  | ref
  | pool
  deriving DecidableEq

/-- `struct pbuf`, at the start of its block. -/
structure Pbuf where
  next : Option Nat
  payload : Nat
  totLen : Half
  len : Half
  type : PbufType
  flags : Byte
  ref : Half

def sizeofStructPbuf : Nat := 16
def memAlignment : Nat := 4

/-- `LWIP_MEM_ALIGN_SIZE` and `LWIP_MEM_ALIGN`. -/
def memAlign (size : Nat) : Nat := (size + memAlignment - 1) / memAlignment * memAlignment

/-- What is passed to `ConsolePrintf` behind the format. -/
inductive Value where
  | string (pointer : Nat)
  | number (value : Nat)
  /-- The string that `lwip_strerr` returns. -/
  | error (err : Int)

/-- What the routine does that can be seen from outside. -/
inductive Event where
  | loadArgv (index : Nat)
  | memMalloc (size : Nat) (block : Option Nat)
  | storePbuf (p : Nat) (pbuf : Pbuf)
  | storeChar (address : Nat) (char : Byte)
  | consolePrintf (format : String) (values : List Value)
  | udpSend (p : Nat) (datagram : List Byte)
  | pbufFree (p : Nat)

namespace Event

def allocates : Event → Option Nat
  | .memMalloc _ block => block
  | _ => none

def sends : Event → Option (Nat × List Byte)
  | .udpSend p datagram => some (p, datagram)
  | _ => none

def frees : Event → Option Nat
  | .pbufFree p => some p
  | _ => none

end Event

/-- The heap with its packet buffers, and what has happened so far. -/
structure Network where
  heap : Nat → Byte
  pbuf : Nat → Option Pbuf
  trace : List Event

namespace Network

variable (network : Network)

def log (event : Event) : Network := { network with trace := network.trace ++ [event] }

def setPbuf (p : Nat) (pbuf : Pbuf) : Network :=
  { network.log (.storePbuf p pbuf) with
    pbuf := Function.update network.pbuf p (some pbuf) }

def store (address : Nat) (char : Byte) : Network :=
  { network.log (.storeChar address char) with
    heap := Function.update network.heap address char }

/-- The data of a packet buffer without a successor. -/
def datagram (p : Nat) : List Byte :=
  match network.pbuf p with
  | none => []
  | some pbuf => (List.range pbuf.len.toNat).map fun index => network.heap (pbuf.payload + index)

/-- The packet buffers that were allocated. -/
def allocated : List Nat := network.trace.filterMap Event.allocates

/-- The packet buffers that were passed to `udp_send`, with their data. -/
def sent : List (Nat × List Byte) := network.trace.filterMap Event.sends

/-- The packet buffers that were passed to `pbuf_free`. -/
def freed : List Nat := network.trace.filterMap Event.frees

end Network

/-! ## Routines -/

/-- What the routine does with the console, the heap and the stack. -/
inductive Action : Type → Type where
  | loadArgv (index : Nat) : Action Str
  | memMalloc (size : Nat) : Action (Option Nat)
  | loadPbuf (p : Nat) : Action Pbuf
  | storePbuf (p : Nat) (pbuf : Pbuf) : Action Unit
  | storeChar (address : Nat) (char : Byte) : Action Unit
  | consolePrintf (format : String) (values : List Value) : Action Unit
  | udpSend (p : Nat) : Action Int
  | pbufFree (p : Nat) : Action Unit

abbrev Routine := Program Action

/-- `pbuf_alloc` for `PBUF_RAW` and `PBUF_RAM`. -/
def pbufAlloc (length : Half) : Routine (Option Nat) := do
  let block ← .lift (.memMalloc (memAlign sizeofStructPbuf + memAlign length.toNat))
  match block with
  | none => .done none
  | some p => do
      .lift (.storePbuf p
        { next := none
          payload := memAlign (p + sizeofStructPbuf)
          totLen := length
          len := length
          type := .ram
          flags := 0
          ref := 1 })
      .done (some p)

/-- One round of the loop of `strcpy`, and the store behind the loop. -/
def strcpyRound (d : Nat) (s : Str) (c : Nat) : Routine (Nat ⊕ Unit) :=
  if s.char c ≠ 0 then do
    .lift (.storeChar (d + c) (s.char c))
    .done (.inl (c + 1))
  else do
    .lift (.storeChar (d + c) 0)
    .done (.inr ())

/-- `strcpy`. -/
def strcpy (d : Nat) (s : Str) : Routine Unit := .iterate (strcpyRound d s) 0

/-- `strlen`; a read outside of the object is a fault. -/
def strlen (s : Str) : Routine Nat :=
  match Console.strlen s with
  | none => .fault
  | some length => .done length

/-- The test of what `udp_send` returns. -/
def reportError (err : Int) : Routine Unit :=
  if err ≠ 0 then .lift (.consolePrintf "udp_write error: %s\r\n" [.error err]) else .done ()

/-- The part of `Cmd_udptx` behind `pbuf_alloc`, with a packet buffer. -/
def transmit (p : Nat) (totLen : Word) : Routine Int := do
  let pbuf ← .lift (.loadPbuf p)
  let argument ← .lift (.loadArgv 1)
  strcpy pbuf.payload argument
  let pbuf ← .lift (.loadPbuf p)
  .lift (.storePbuf p
    { pbuf with totLen := totLen.setWidth 16, len := totLen.setWidth 16, type := .ram })
  let pbuf ← .lift (.loadPbuf p)
  .lift (.consolePrintf "Tx payload >%s< len=%d\r\n"
    [.string pbuf.payload, .number pbuf.totLen.toNat])
  let err ← .lift (.udpSend p)
  reportError err
  .lift (.pbufFree p)
  .done 0

/-- `tot_len`, after the test against `MAX_SIZE_UDP`. -/
def clampTotLen (totLen : Word) : Word :=
  if maxSizeUdp < totLen.toNat then BitVec.ofNat 32 maxSizeUdp else totLen

/-- The part of `Cmd_udptx` from `pbuf_alloc` on. -/
def sendArgument (totLen : Word) : Routine Int := do
  let block ← pbufAlloc (totLen.setWidth 16)
  match block with
  | none => .fault  -- `p->payload` of NULL
  | some p => transmit p totLen

/-- `Cmd_udptx`. -/
def cmdUdptx (argc : Int) : Routine Int := do
  let argument ← .lift (.loadArgv 1)
  let length ← strlen argument
  let totLen := BitVec.ofNat 32 length
  if argc < 2 ∨ totLen = 0 then do
    .lift (.consolePrintf "No data to send\r\n" [])
    .done 0
  else
    sendArgument (clampTotLen totLen)

/-! ## Answers -/

/-- What the heap and the stack return.  The blocks of the heap are aligned. -/
structure Outcomes where
  block : Option Nat
  err : Int
  aligned : ∀ p, block = some p → memAlignment ∣ p

/-- How the accesses are answered. -/
def Action.Answers (argument : Argument) (outcomes : Outcomes) :
    {reply : Type} → Action reply → Network → reply → Network → Prop
  | _, .loadArgv index, before, str, after =>
      str = argument.str ∧ after = before.log (.loadArgv index)
  | _, .memMalloc size, before, block, after =>
      block = outcomes.block ∧ after = before.log (.memMalloc size block)
  | _, .loadPbuf p, before, pbuf, after => before.pbuf p = some pbuf ∧ after = before
  | _, .storePbuf p pbuf, before, _, after => after = before.setPbuf p pbuf
  | _, .storeChar address char, before, _, after => after = before.store address char
  | _, .consolePrintf format values, before, _, after =>
      after = before.log (.consolePrintf format values)
  | _, .udpSend p, before, err, after =>
      err = outcomes.err ∧ after = before.log (.udpSend p (before.datagram p))
  | _, .pbufFree p, before, _, after => after = before.log (.pbufFree p)

/-- The stack around the routine. -/
def stack (argument : Argument) (outcomes : Outcomes) : Server Action Network :=
  ⟨Action.Answers argument outcomes⟩

/-- Before the call. -/
def Network.initial (heap : Nat → Byte) (pbuf : Nat → Option Pbuf) : Network := ⟨heap, pbuf, []⟩

section Answers

variable {argument : Argument} {outcomes : Outcomes} {before after : Network}

@[simp] theorem stack_loadArgv {index : Nat} {str : Str} :
    (stack argument outcomes).answers (.loadArgv index) before str after ↔
      str = argument.str ∧ after = before.log (.loadArgv index) := Iff.rfl

@[simp] theorem stack_memMalloc {size : Nat} {block : Option Nat} :
    (stack argument outcomes).answers (.memMalloc size) before block after ↔
      block = outcomes.block ∧ after = before.log (.memMalloc size block) := Iff.rfl

@[simp] theorem stack_loadPbuf {p : Nat} {pbuf : Pbuf} :
    (stack argument outcomes).answers (.loadPbuf p) before pbuf after ↔
      before.pbuf p = some pbuf ∧ after = before := Iff.rfl

@[simp] theorem stack_storePbuf {p : Nat} {pbuf : Pbuf} {value : Unit} :
    (stack argument outcomes).answers (.storePbuf p pbuf) before value after ↔
      after = before.setPbuf p pbuf := Iff.rfl

@[simp] theorem stack_storeChar {address : Nat} {char : Byte} {value : Unit} :
    (stack argument outcomes).answers (.storeChar address char) before value after ↔
      after = before.store address char := Iff.rfl

@[simp] theorem stack_consolePrintf {format : String} {values : List Value} {value : Unit} :
    (stack argument outcomes).answers (.consolePrintf format values) before value after ↔
      after = before.log (.consolePrintf format values) := Iff.rfl

@[simp] theorem stack_udpSend {p : Nat} {err : Int} :
    (stack argument outcomes).answers (.udpSend p) before err after ↔
      err = outcomes.err ∧ after = before.log (.udpSend p (before.datagram p)) := Iff.rfl

@[simp] theorem stack_pbufFree {p : Nat} {value : Unit} :
    (stack argument outcomes).answers (.pbufFree p) before value after ↔
      after = before.log (.pbufFree p) := Iff.rfl

end Answers

/-! ## The copy -/

/-- The heap behind the stores of a string and of its NUL. -/
def Network.copy (network : Network) (address : Nat) : List Byte → Network
  | [] => network.store address 0
  | char :: rest => (network.store address char).copy (address + 1) rest

section Copy

variable {argument : Argument} {outcomes : Outcomes} {network after : Network} {d : Nat}

/-- The rounds of `strcpy` that are left store the rest of the string. -/
theorem results_strcpyRounds {c : Nat} (inside : c ≤ argument.text.length) :
    (stack argument outcomes).Results (.iterate (strcpyRound d argument.str) c) network () after ↔
      after = network.copy (d + c) (argument.text.drop c) := by
  generalize remaining : argument.text.drop c = rest
  induction rest generalizing c network with
  | nil =>
      have last : argument.str.char c = 0 :=
        (argument.holds.char_eq_zero_iff inside).mpr
          (Nat.le_antisymm inside (List.drop_eq_nil_iff.mp remaining))
      rw [results_iterate]
      simp [strcpyRound, last, Network.copy]
  | cons char rest inductionHypothesis =>
      have before : c < argument.text.length := by
        by_contra beyond
        rw [List.drop_eq_nil_of_le (not_lt.mp beyond)] at remaining
        cases remaining
      have split := (List.drop_eq_getElem_cons before).symm.trans remaining
      rcases List.cons.inj split with ⟨head, tail⟩
      have value : argument.str.char c = char := by
        rw [argument.holds.char c inside, List.getD_eq_getElem _ _ before, head]
      have nonzero : ¬ char = 0#8 := value ▸ argument.holds.char_ne_zero before
      have rounds : (stack argument outcomes).Results
          (.iterate (strcpyRound d argument.str) (c + 1)) (network.store (d + c) char) () after ↔
            after = (network.store (d + c) char).copy (d + (c + 1)) rest :=
        inductionHypothesis before tail
      rw [results_iterate]
      simp [strcpyRound, value, nonzero, Network.copy, rounds, and_assoc, Nat.add_assoc]

theorem results_strcpy {value : Unit} :
    (stack argument outcomes).Results (strcpy d argument.str) network value after ↔
      after = network.copy d argument.text :=
  results_strcpyRounds (Nat.zero_le _)

@[simp] theorem copy_pbuf {text : List Byte} : (network.copy d text).pbuf = network.pbuf := by
  induction text generalizing network d with
  | nil => rfl
  | cons char rest inductionHypothesis => exact inductionHypothesis

theorem copy_heap_of_lt {text : List Byte} {address : Nat} (before : address < d) :
    (network.copy d text).heap address = network.heap address := by
  induction text generalizing network d with
  | nil => exact Function.update_of_ne (by omega) ..
  | cons char rest inductionHypothesis =>
      refine (inductionHypothesis (by omega)).trans ?_
      exact Function.update_of_ne (by omega) ..

/-- The characters of the string are in the heap. -/
theorem copy_heap {text : List Byte} {index : Nat} (inside : index < text.length) :
    (network.copy d text).heap (d + index) = text[index] := by
  induction text generalizing network d index with
  | nil => cases inside
  | cons char rest inductionHypothesis =>
      cases index with
      | zero =>
          refine (copy_heap_of_lt (Nat.lt_succ_self d)).trans ?_
          exact Function.update_self ..
      | succ index =>
          have bound : index < rest.length := Nat.lt_of_succ_lt_succ inside
          have later : ((network.store d char).copy (d + 1) rest).heap (d + 1 + index) =
              rest[index] := inductionHypothesis bound
          rw [Nat.add_right_comm, Nat.add_assoc] at later
          exact later

/-- The stores of `strcpy`. -/
def stores (address : Nat) : List Byte → List Event
  | [] => [.storeChar address 0]
  | char :: rest => .storeChar address char :: stores (address + 1) rest

theorem copy_trace {text : List Byte} :
    (network.copy d text).trace = network.trace ++ stores d text := by
  induction text generalizing network d with
  | nil => rfl
  | cons char rest inductionHypothesis =>
      refine inductionHypothesis.trans ?_
      exact List.append_assoc ..

theorem mem_stores {text : List Byte} {event : Event} :
    event ∈ stores d text ↔
      ∃ index ≤ text.length, event = .storeChar (d + index) (text.getD index 0) := by
  induction text generalizing d with
  | nil =>
      simp only [stores, List.mem_singleton, List.length_nil, Nat.le_zero_eq, exists_eq_left]
      rfl
  | cons char rest inductionHypothesis =>
      rw [stores, List.mem_cons, inductionHypothesis]
      constructor
      · rintro (rfl | ⟨index, inside, rfl⟩)
        · exact ⟨0, Nat.zero_le _, rfl⟩
        · refine ⟨index + 1, Nat.succ_le_succ inside, ?_⟩
          rw [Nat.add_right_comm, Nat.add_assoc, List.getD_cons_succ]
      · rintro ⟨index, inside, rfl⟩
        cases index with
        | zero => exact .inl rfl
        | succ index =>
            refine .inr ⟨index, Nat.le_of_succ_le_succ inside, ?_⟩
            rw [Nat.add_right_comm, Nat.add_assoc, List.getD_cons_succ]

/-- Nothing is allocated, sent or freed by stores. -/
theorem filterMap_stores {text : List Byte} {kind : Type} {select : Event → Option kind}
    (skips : ∀ address char, select (.storeChar address char) = none) :
    (stores d text).filterMap select = [] := by
  rw [List.filterMap_eq_nil_iff]
  intro event member
  rcases mem_stores.mp member with ⟨index, _, rfl⟩
  exact skips ..

end Copy

/-! ## Complete runs -/

section Runs

variable (argument : Argument) (outcomes : Outcomes) (network : Network) (p : Nat)

/-- The number of bytes that are to be sent. -/
def Argument.count : Nat := min argument.text.length maxSizeUdp

/-- The packet buffer that `pbuf_alloc` returns. -/
def Argument.pbuf (p : Nat) : Pbuf where
  next := none
  payload := memAlign (p + sizeofStructPbuf)
  totLen := BitVec.ofNat 16 argument.count
  len := BitVec.ofNat 16 argument.count
  type := .ram
  flags := 0
  ref := 1

/-- The size of the block that `pbuf_alloc` asks for. -/
def Argument.blockSize : Nat := memAlign sizeofStructPbuf + memAlign argument.count

/-- What is seen of a run before the stores of `strcpy`. -/
def Argument.opens : List Event :=
  [.loadArgv 1, .memMalloc argument.blockSize (some p), .storePbuf p (argument.pbuf p),
    .loadArgv 1]

/-- What is seen of a run behind the stores of `strcpy`. -/
def Argument.closes : List Event :=
  .storePbuf p (argument.pbuf p) :: .consolePrintf "Tx payload >%s< len=%d\r\n"
      [.string (argument.pbuf p).payload, .number (argument.pbuf p).totLen.toNat] ::
    .udpSend p (argument.text.take argument.count) ::
      if outcomes.err = 0 then [.pbufFree p]
      else [.consolePrintf "udp_write error: %s\r\n" [.error outcomes.err], .pbufFree p]

/-- Behind `pbuf_alloc`. -/
def Network.alloc : Network :=
  (network.log (.memMalloc argument.blockSize (some p))).setPbuf p (argument.pbuf p)

/-- Before `udp_send`. -/
def Network.fill : Network :=
  (((network.log (.loadArgv 1)).copy (argument.pbuf p).payload argument.text).setPbuf p
    (argument.pbuf p)).log (.consolePrintf "Tx payload >%s< len=%d\r\n"
      [.string (argument.pbuf p).payload, .number (argument.pbuf p).totLen.toNat])

def Network.report (err : Int) : Network :=
  if err = 0 then network else network.log (.consolePrintf "udp_write error: %s\r\n" [.error err])

def Network.send : Network :=
  ((network.log (.udpSend p (network.datagram p))).report outcomes.err).log (.pbufFree p)

/-- At the end. -/
def Network.transmitted : Network :=
  (((network.log (.loadArgv 1)).alloc argument p).fill argument p).send outcomes p

end Runs

section Complete

variable {argument : Argument} {outcomes : Outcomes} {network after : Network} {argc value : Int}
variable {p : Nat}

theorem strlen_argument : strlen argument.str = .done argument.text.length := by
  rw [strlen, strlen_holds argument.holds]

theorem clampTotLen_argument : clampTotLen (BitVec.ofNat 32 argument.text.length) =
    BitVec.ofNat 32 argument.count := by
  have addressable := argument.addressable
  rw [clampTotLen, BitVec.toNat_ofNat, Nat.mod_eq_of_lt addressable, Argument.count]
  split
  · rw [min_eq_right (by omega)]
  · rw [min_eq_left (by omega)]

theorem count_le : argument.count ≤ 256 := min_le_right ..

theorem toNat_count : (BitVec.ofNat 16 argument.count).toNat = argument.count := by
  have le : argument.count ≤ 256 := count_le
  rw [BitVec.toNat_ofNat, Nat.mod_eq_of_lt (by omega)]

theorem totLen_eq_zero_iff : BitVec.ofNat 32 argument.text.length = 0 ↔ argument.text = [] := by
  have addressable := argument.addressable
  rw [← BitVec.toNat_inj, BitVec.toNat_ofNat, Nat.mod_eq_of_lt addressable,
    ← List.length_eq_zero_iff]
  rfl

theorem results_cmdUdptx : (stack argument outcomes).Results (cmdUdptx argc) network value after ↔
    if argc < 2 ∨ argument.text = [] then
      value = 0 ∧ after =
        (network.log (.loadArgv 1)).log (.consolePrintf "No data to send\r\n" [])
    else
      (stack argument outcomes).Results (sendArgument (.ofNat 32 argument.count))
        (network.log (.loadArgv 1)) value after := by
  simp only [cmdUdptx, Program.bind_lift, results_perform, stack_loadArgv, and_assoc,
    exists_and_left, exists_eq_left, strlen_argument, Program.bind_done, totLen_eq_zero_iff,
    clampTotLen_argument, results_ite, stack_consolePrintf, results_done, exists_const]

/-- Without data, or with fewer arguments. -/
theorem results_nothing (nothing : argc < 2 ∨ argument.text = []) :
    (stack argument outcomes).Results (cmdUdptx argc) network value after ↔
      value = 0 ∧ after =
        (network.log (.loadArgv 1)).log (.consolePrintf "No data to send\r\n" []) := by
  rw [results_cmdUdptx, if_pos nothing]

/-- Without a block `p->payload` is read through NULL. -/
theorem not_results_refused (data : ¬ (argc < 2 ∨ argument.text = []))
    (refused : outcomes.block = none) :
    ¬ (stack argument outcomes).Results (cmdUdptx argc) network value after := by
  rw [results_cmdUdptx, if_neg data]
  simp [sendArgument, pbufAlloc, refused, and_assoc]

theorem results_pbufAlloc (block : outcomes.block = some p) {reply : Option Nat} :
    (stack argument outcomes).Results (pbufAlloc (BitVec.ofNat 16 argument.count)) network reply
      after ↔ reply = some p ∧ after = network.alloc argument p := by
  simp [pbufAlloc, block, and_assoc, Network.alloc, Argument.pbuf, Argument.blockSize,
    -BitVec.toNat_ofNat, toNat_count]

theorem results_reportError {err : Int} {reply : Unit} :
    (stack argument outcomes).Results (reportError err) network reply after ↔
      after = network.report err := by
  unfold reportError Network.report
  by_cases ok : err = 0
  · simp [ok]
  · simp [ok]

theorem results_transmit (held : network.pbuf p = some (argument.pbuf p)) :
    (stack argument outcomes).Results (transmit p (BitVec.ofNat 32 argument.count)) network value
      after ↔ value = 0 ∧ after = (network.fill argument p).send outcomes p := by
  have kept : (network.log (.loadArgv 1)).pbuf p = some (argument.pbuf p) := held
  have header : ∀ network : Network,
      (network.setPbuf p (argument.pbuf p)).pbuf p = some (argument.pbuf p) :=
    fun _ => Function.update_self ..
  have same : { argument.pbuf p with
      totLen := BitVec.ofNat 16 argument.count
      len := BitVec.ofNat 16 argument.count
      type := .ram } = argument.pbuf p := rfl
  simp [transmit, results_bind, results_strcpy, results_reportError, held, kept, same, header,
    and_assoc, Network.fill, Network.send]

/-- With a block. -/
theorem results_transmitted (data : ¬ (argc < 2 ∨ argument.text = []))
    (block : outcomes.block = some p) :
    (stack argument outcomes).Results (cmdUdptx argc) network value after ↔
      value = 0 ∧ after = network.transmitted argument outcomes p := by
  have held : ((network.log (.loadArgv 1)).alloc argument p).pbuf p = some (argument.pbuf p) :=
    Function.update_self ..
  rw [results_cmdUdptx, if_neg data]
  simp [sendArgument, results_bind, results_pbufAlloc block, results_transmit held,
    Network.transmitted, and_assoc]

/-- The data that is passed to `udp_send`. -/
theorem datagram_fill :
    (network.fill argument p).datagram p = argument.text.take argument.count := by
  have held : (network.fill argument p).pbuf p = some (argument.pbuf p) := Function.update_self ..
  have shorter : argument.count ≤ argument.text.length := min_le_left ..
  unfold Network.datagram
  rw [held]
  apply List.ext_getElem
  · simp [Argument.pbuf, -BitVec.toNat_ofNat, toNat_count, shorter]
  · intro index left right
    rw [List.length_take, Nat.lt_min] at right
    rw [List.getElem_map, List.getElem_range, List.getElem_take]
    exact copy_heap right.2

/-- What is seen of a complete run with a block. -/
theorem trace_transmitted : (network.transmitted argument outcomes p).trace = network.trace ++
    (argument.opens p ++
      (stores (argument.pbuf p).payload argument.text ++ argument.closes outcomes p)) := by
  unfold Network.transmitted Network.send Network.report Argument.closes
  rw [datagram_fill]
  split
  · simp [Network.fill, Network.alloc, Network.log, Network.setPbuf, copy_trace, Argument.opens]
  · simp [Network.fill, Network.alloc, Network.log, Network.setPbuf, copy_trace, Argument.opens]

end Complete

/-! ## What is transmitted -/

/-- What the routine leaves. -/
structure Leaves (argument : Argument) (outcomes : Outcomes) (argc : Int) (network : Network) :
    Prop where
  argv : .loadArgv 1 ∈ network.trace → 2 ≤ argc
  /-- Characters are stored behind the structure in an allocated block. -/
  stored : ∀ address char, .storeChar address char ∈ network.trace → ∃ p size,
    .memMalloc size (some p) ∈ network.trace ∧ p + sizeofStructPbuf ≤ address ∧ address < p + size
  sent : network.sent = if 2 ≤ argc ∧ argument.text ≠ [] then
      outcomes.block.toList.map fun p =>
        (p, argument.text.take (min argument.text.length maxSizeUdp))
    else []
  freed : network.freed = network.allocated
  refused : ∀ before size later,
    network.trace = before ++ .memMalloc size none :: later → later = []

/-- The routine transmits as it is to. -/
structure Transmits (argument : Argument) (outcomes : Outcomes) (argc : Int)
    (heap : Nat → Byte) (pbuf : Nat → Option Pbuf) : Prop where
  returns : ∃ value after,
    (stack argument outcomes).Results (cmdUdptx argc) (.initial heap pbuf) value after
  leaves : ∀ value after,
    (stack argument outcomes).Results (cmdUdptx argc) (.initial heap pbuf) value after →
      Leaves argument outcomes argc after

/-- There are two arguments, and the string is empty, or it is short, its NUL has room in the last
word of the block, and there is a block. -/
def Fits (argument : Argument) (outcomes : Outcomes) (argc : Int) : Prop :=
  2 ≤ argc ∧ (argument.text = [] ∨ outcomes.block ≠ none ∧
    argument.text.length ≤ maxSizeUdp ∧ ¬ memAlignment ∣ argument.text.length)

section Judged

variable {argument : Argument} {outcomes : Outcomes} {network : Network} {argc : Int} {p : Nat}

theorem payload_eq (block : outcomes.block = some p) :
    (argument.pbuf p).payload = p + sizeofStructPbuf := by
  have aligned : 4 ∣ p := outcomes.aligned p block
  simp only [Argument.pbuf, memAlign, sizeofStructPbuf, memAlignment]
  omega

/-- The NUL is stored in the block if the string is short and does not fill the block. -/
theorem room_iff (block : outcomes.block = some p) (data : argument.text ≠ []) :
    (argument.pbuf p).payload + argument.text.length < p + argument.blockSize ↔
      argument.text.length ≤ maxSizeUdp ∧ ¬ memAlignment ∣ argument.text.length := by
  have positive : 0 < argument.text.length := List.length_pos_iff.mpr data
  have limit : maxSizeUdp = 256 := rfl
  rw [payload_eq block, Argument.blockSize, Argument.count, limit]
  simp only [memAlign, sizeofStructPbuf, memAlignment]
  omega

variable {heap : Nat → Byte} {pbuf : Nat → Option Pbuf}

theorem mem_trace_memMalloc {size : Nat} {block : Option Nat} :
    .memMalloc size block ∈
        ((Network.initial heap pbuf).transmitted argument outcomes p).trace ↔
      size = argument.blockSize ∧ block = some p := by
  rw [trace_transmitted, Argument.closes]
  split
  · simp [Network.initial, Argument.opens, mem_stores]
  · simp [Network.initial, Argument.opens, mem_stores]

theorem mem_trace_storeChar {address : Nat} {char : Byte} :
    .storeChar address char ∈
        ((Network.initial heap pbuf).transmitted argument outcomes p).trace ↔
      ∃ index ≤ argument.text.length, address = (argument.pbuf p).payload + index ∧
        char = argument.text.getD index 0 := by
  rw [trace_transmitted, Argument.closes]
  split
  · simp [Network.initial, Argument.opens, mem_stores]
  · simp [Network.initial, Argument.opens, mem_stores]

/-- The stores of the string are not selected. -/
theorem filterMap_transmitted {kind : Type} (select : Event → Option kind)
    (skips : ∀ address char, select (.storeChar address char) = none) :
    ((Network.initial heap pbuf).transmitted argument outcomes p).trace.filterMap select =
      (argument.opens p ++ argument.closes outcomes p).filterMap select := by
  rw [trace_transmitted, List.filterMap_append, List.filterMap_append, List.filterMap_append,
    filterMap_stores skips, List.filterMap_append]
  rfl

/-- A short string is transmitted. -/
theorem leaves_transmitted (enough : 2 ≤ argc) (data : argument.text ≠ [])
    (block : outcomes.block = some p)
    (room : (argument.pbuf p).payload + argument.text.length < p + argument.blockSize) :
    Leaves argument outcomes argc
      ((Network.initial heap pbuf).transmitted argument outcomes p) := by
  constructor
  · exact fun _ => enough
  · intro address char stored
    rcases mem_trace_storeChar.mp stored with ⟨index, inside, rfl, _⟩
    refine ⟨p, argument.blockSize, mem_trace_memMalloc.mpr ⟨rfl, rfl⟩, ?_, ?_⟩
    · rw [payload_eq block]
      omega
    · omega
  · rw [if_pos ⟨enough, data⟩, block, Network.sent, filterMap_transmitted _ fun _ _ => rfl,
      Argument.closes]
    split <;> rfl
  · rw [Network.freed, Network.allocated, filterMap_transmitted _ fun _ _ => rfl,
      filterMap_transmitted _ fun _ _ => rfl, Argument.closes]
    split <;> rfl
  · intro before size later whole
    have member : .memMalloc size none ∈
        ((Network.initial heap pbuf).transmitted argument outcomes p).trace := by
      rw [whole]
      exact List.mem_append_right _ List.mem_cons_self
    cases (mem_trace_memMalloc.mp member).2

theorem leaves_nothing (enough : 2 ≤ argc) (nothing : argument.text = []) :
    Leaves argument outcomes argc (((Network.initial heap pbuf).log (.loadArgv 1)).log
      (.consolePrintf "No data to send\r\n" [])) := by
  constructor
  · exact fun _ => enough
  · intro address char stored
    simp [Network.log, Network.initial] at stored
  · rw [if_neg fun both => both.2 nothing]
    rfl
  · rfl
  · intro before size later whole
    have member : .memMalloc size none ∈
        (((Network.initial heap pbuf).log (.loadArgv 1)).log
          (.consolePrintf "No data to send\r\n" [])).trace := by
      rw [whole]
      exact List.mem_append_right _ List.mem_cons_self
    simp [Network.log, Network.initial] at member

end Judged

section Transmits

variable {argument : Argument} {outcomes : Outcomes} {argc : Int} {p : Nat}
variable {heap : Nat → Byte} {pbuf : Nat → Option Pbuf}

theorem Transmits.enough (transmits : Transmits argument outcomes argc heap pbuf) : 2 ≤ argc := by
  by_contra fewer
  rcases transmits.returns with ⟨value, after, run⟩
  rcases (results_nothing (.inl (Int.not_le.mp fewer))).mp run with ⟨_, same⟩
  refine fewer ((transmits.leaves value after run).argv ?_)
  rw [same]
  exact List.mem_cons_self

theorem Transmits.granted (transmits : Transmits argument outcomes argc heap pbuf)
    (data : ¬ (argc < 2 ∨ argument.text = [])) : outcomes.block ≠ none := by
  intro refused
  rcases transmits.returns with ⟨value, after, run⟩
  exact not_results_refused data refused run

/-- The NUL is stored in the block. -/
theorem Transmits.room (transmits : Transmits argument outcomes argc heap pbuf)
    (data : ¬ (argc < 2 ∨ argument.text = [])) (block : outcomes.block = some p) :
    (argument.pbuf p).payload + argument.text.length < p + argument.blockSize := by
  rcases transmits.returns with ⟨value, after, run⟩
  rcases (results_transmitted data block).mp run with ⟨_, rfl⟩
  have nul : .storeChar ((argument.pbuf p).payload + argument.text.length)
      (argument.text.getD argument.text.length 0) ∈
        ((Network.initial heap pbuf).transmitted argument outcomes p).trace :=
    mem_trace_storeChar.mpr ⟨argument.text.length, le_rfl, rfl, rfl⟩
  rcases (transmits.leaves value _ run).stored _ _ nul with ⟨q, size, malloc, _, inside⟩
  rcases mem_trace_memMalloc.mp malloc with ⟨rfl, same⟩
  cases same
  exact inside

/-- The NUL is never among the bytes that are to be sent. -/
theorem nul_not_sent (data : ¬ (argc < 2 ∨ argument.text = [])) (block : outcomes.block = some p)
    {value : Int} {after : Network}
    (run : (stack argument outcomes).Results (cmdUdptx argc) (.initial heap pbuf) value after) :
    ∃ address char, .storeChar address char ∈ after.trace ∧
      (argument.pbuf p).payload + (argument.pbuf p).len.toNat ≤ address := by
  rcases (results_transmitted data block).mp run with ⟨_, rfl⟩
  have shorter : argument.count ≤ argument.text.length := min_le_left ..
  refine ⟨_, _, mem_trace_storeChar.mpr ⟨argument.text.length, le_rfl, rfl, rfl⟩, ?_⟩
  rw [show (argument.pbuf p).len = BitVec.ofNat 16 argument.count from rfl, toNat_count]
  omega

end Transmits

/-- The routine transmits as it is to exactly if the arguments and the heap allow it. -/
theorem transmits_iff (argument : Argument) (outcomes : Outcomes) (argc : Int)
    (heap : Nat → Byte) (pbuf : Nat → Option Pbuf) :
    Transmits argument outcomes argc heap pbuf ↔ Fits argument outcomes argc := by
  constructor
  · intro transmits
    refine ⟨transmits.enough, ?_⟩
    by_cases nothing : argument.text = []
    · exact .inl nothing
    · have data : ¬ (argc < 2 ∨ argument.text = []) :=
        fun either => either.elim (Int.not_lt.mpr transmits.enough) nothing
      have granted : outcomes.block ≠ none := transmits.granted data
      rcases Option.ne_none_iff_exists'.mp granted with ⟨p, block⟩
      exact .inr ⟨granted, (room_iff block nothing).mp (transmits.room data block)⟩
  · rintro ⟨enough, fits⟩
    by_cases nothing : argument.text = []
    · constructor
      · exact ⟨_, _, (results_nothing (.inr nothing)).mpr ⟨rfl, rfl⟩⟩
      · intro value after run
        rcases (results_nothing (.inr nothing)).mp run with ⟨_, rfl⟩
        exact leaves_nothing enough nothing
    · rcases fits.resolve_left nothing with ⟨granted, fits⟩
      rcases Option.ne_none_iff_exists'.mp granted with ⟨p, block⟩
      have data : ¬ (argc < 2 ∨ argument.text = []) :=
        fun either => either.elim (Int.not_lt.mpr enough) nothing
      constructor
      · exact ⟨_, _, (results_transmitted data block).mpr ⟨rfl, rfl⟩⟩
      · intro value after run
        rcases (results_transmitted data block).mp run with ⟨_, rfl⟩
        exact leaves_transmitted enough nothing block ((room_iff block nothing).mpr fits)

/-- A string of four characters fills the payload. -/
def ping : Argument where
  str := literal (chars ['p', 'i', 'n', 'g'])
  text := chars ['p', 'i', 'n', 'g']
  holds := ⟨fun _ _ => rfl, by decide, by decide⟩
  addressable := by decide

/-- A block is there, and the datagram is sent. -/
def granted : Outcomes where
  block := some 0x1000
  err := 0
  aligned := by
    rintro _ ⟨⟩
    decide

/-- The NUL is stored behind the block. -/
theorem not_transmits : ¬ Transmits ping granted 2 (fun _ => 0) fun _ => none := by
  intro transmits
  have room : (ping.pbuf 0x1000).payload + ping.text.length < 0x1000 + ping.blockSize :=
    transmits.room (by decide) rfl
  exact absurd room (by decide)

/-! ## The command of the console -/

section Console

variable {argument : Argument} {outcomes : Outcomes} {arguments : Arguments} {argc : Nat}
variable {heap : Nat → Byte} {pbuf : Nat → Option Pbuf} {value value' : Int} {after : Network}

/-- The data that the console passes to `udp_send`, and how many packet buffers it frees. -/
structure Traffic where
  sent : List (List Byte)
  freed : Nat

/-- A network below the console. -/
def traffic (err : Int) : Server Call Traffic where
  answers
    | .udpSend payload, before, reply, after =>
        reply = err ∧ after = { before with sent := before.sent ++ [payload] }
    | .pbufFree, before, _, after => after = { before with freed := before.freed + 1 }
    | _, before, _, after => after = before

/-- What a run of the routine shows of it. -/
def Network.traffic (network : Network) : Traffic :=
  ⟨network.sent.map Prod.snd, network.freed.length⟩

section Traffic

variable {err : Int} {before after : Traffic}

@[simp] theorem traffic_udpSend {payload : List Byte} {reply : Int} :
    (traffic err).answers (.udpSend payload) before reply after ↔
      reply = err ∧ after = { before with sent := before.sent ++ [payload] } := Iff.rfl

@[simp] theorem traffic_pbufFree {reply : Unit} :
    (traffic err).answers .pbufFree before reply after ↔
      after = { before with freed := before.freed + 1 } := Iff.rfl

@[simp] theorem traffic_consolePrintf {format : String} {values : List Printed} {reply : Unit} :
    (traffic err).answers (.consolePrintf format values) before reply after ↔ after = before :=
  Iff.rfl

@[simp] theorem traffic_pbufAlloc {length : Nat} {reply : Unit} :
    (traffic err).answers (.pbufAlloc length) before reply after ↔ after = before := Iff.rfl

@[simp] theorem traffic_loadArgv {index : Nat} {reply : Unit} :
    (traffic err).answers (.loadArgv index) before reply after ↔ after = before := Iff.rfl

/-- The command of the console sends one datagram, or prints that there is none. -/
theorem results_udptx {text : List Byte} (found : arguments 1 = some text) :
    (traffic err).Results (Shell.udptx arguments argc) before value after ↔
      value = 0 ∧ after = if argc < 2 ∨ text.length = 0 then before else
        ⟨before.sent ++ [text.take (min text.length maxSizeUdp)], before.freed + 1⟩ := by
  unfold Shell.udptx Arguments.read
  rw [found]
  by_cases nothing : argc < 2 ∨ text.length = 0
  · simp only [if_pos nothing, complain, results_perform, results_done, traffic_loadArgv,
      traffic_consolePrintf, exists_const, exists_eq_left]
  · simp only [if_neg nothing, results_perform, results_ite, results_done, traffic_loadArgv,
      traffic_pbufAlloc, traffic_consolePrintf, traffic_udpSend, traffic_pbufFree, and_assoc,
      exists_const, exists_and_left, exists_eq_left, ite_self]

end Traffic

/-- Where a block is there, the command of the console does the same. -/
theorem udptx_traffic {traffic' : Traffic} (found : arguments 1 = some argument.text)
    (granted : outcomes.block ≠ none)
    (run : (stack argument outcomes).Results (cmdUdptx argc) (.initial heap pbuf) value after)
    (run' : (traffic outcomes.err).Results (Shell.udptx arguments argc) ⟨[], 0⟩ value' traffic') :
    value' = value ∧ traffic' = after.traffic := by
  rcases (results_udptx found).mp run' with ⟨rfl, rfl⟩
  rcases Option.ne_none_iff_exists'.mp granted with ⟨p, block⟩
  by_cases nothing : argc < 2 ∨ argument.text.length = 0
  · have nothing' : (argc : Int) < 2 ∨ argument.text = [] :=
      nothing.imp Int.ofNat_lt.mpr List.length_eq_zero_iff.mp
    rcases (results_nothing nothing').mp run with ⟨rfl, rfl⟩
    rw [if_pos nothing]
    exact ⟨rfl, rfl⟩
  · have data : ¬ ((argc : Int) < 2 ∨ argument.text = []) :=
      fun either => nothing (either.imp Int.ofNat_lt.mp List.length_eq_zero_iff.mpr)
    rcases (results_transmitted data block).mp run with ⟨rfl, rfl⟩
    rw [if_neg nothing]
    refine ⟨rfl, ?_⟩
    rw [Network.traffic, Network.sent, Network.freed, filterMap_transmitted _ fun _ _ => rfl,
      filterMap_transmitted _ fun _ _ => rfl, Argument.closes]
    split <;> rfl

end Console

end BbbEth.Udp
