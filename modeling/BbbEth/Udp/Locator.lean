import Mathlib.Data.BitVec
import Mathlib.Data.List.GetD
import Mathlib.Data.List.Nodup
import Mathlib.Tactic.IntervalCases

/-!
# The locator service

`locator.c` answers requests with one array, the last byte of which is the checksum of the others.
-/

namespace BbbEth.Udp.Locator

abbrev Byte := BitVec 8
abbrev Half := BitVec 16

/-- `locatorData`, which has 84 bytes. -/
abbrev Data := Nat → Byte

def sizeofData : Nat := 84

def tagCmd : Byte := 0xFF
def tagStatus : Byte := 0xFE
def cmdDiscoverTarget : Byte := 0x02

/-- A loop that stores `count` bytes from `base` on. -/
def fill (base count : Nat) (value : Nat → Byte) (data : Data) : Data :=
  (List.range count).foldl (fun data idx => Function.update data (base + idx) (value idx)) data

/-- The loop over the title, with the index behind it. -/
def copyTitle : List Byte → Nat → Data → Nat × Data
  | [], idx, locatorData => (idx, locatorData)
  | char :: appTitle, idx, locatorData =>
      if idx < 64 ∧ char ≠ 0 then
        copyTitle appTitle (idx + 1) (Function.update locatorData (19 + idx) char)
      else
        (idx, locatorData)

/-- The part of `LocatorConfig` in front of the title. -/
def clearAndFill (macArray : Vector Byte 6) (locatorData : Data) : Data :=
  let locatorData := fill 0 sizeofData (fun _ => 0) locatorData
  let locatorData := Function.update locatorData 0 tagStatus
  let locatorData := Function.update locatorData 1 (BitVec.ofNat 8 sizeofData)
  let locatorData := Function.update locatorData 2 cmdDiscoverTarget
  let locatorData := Function.update locatorData 9 macArray[0]
  let locatorData := Function.update locatorData 10 macArray[1]
  let locatorData := Function.update locatorData 11 macArray[2]
  let locatorData := Function.update locatorData 12 macArray[3]
  let locatorData := Function.update locatorData 13 macArray[4]
  Function.update locatorData 14 macArray[5]

/-- `LocatorConfig`, with a title that is followed by a zero. -/
def locatorConfig (macArray : Vector Byte 6) (appTitle : List Byte) (locatorData : Data) : Data :=
  let copied := copyTitle appTitle 0 (clearAndFill macArray locatorData)
  fill (19 + copied.1) (64 - copied.1) (fun _ => 0) copied.2

/-- The packet buffers of the service: a datagram, and the response to it. -/
inductive Pbuf where
  | datagram (index : Nat)
  | response (index : Nat)
  deriving DecidableEq

inductive Event where
  | pbufFree (p : Pbuf)
  | pbufAlloc (p : Option Pbuf)
  | udpSendto (p : Pbuf) (payload : List Byte) (addr : Nat) (port : Half)

/-- A datagram, with the bytes that are in the packet buffer that `pbuf_alloc` gives, if it gives
one. -/
structure Arrival where
  payload : List Byte
  addr : Nat
  port : Half
  room : Option (Nat → Byte)

/-- The datagram is not a request. -/
def invalid (payload : List Byte) : Bool :=
  payload.length != 4 || payload.getD 0 0 != tagCmd || payload.getD 1 0 != 4 ||
    payload.getD 2 0 != cmdDiscoverTarget ||
    payload.getD 3 0 != (0 - tagCmd - 4 - cmdDiscoverTarget) &&& 0xFF

/-- The loop of the checksum. -/
def checksum (locatorData : Data) : Data :=
  (List.range (sizeofData - 1)).foldl
    (fun locatorData ulIdx => Function.update locatorData (sizeofData - 1)
      (locatorData (sizeofData - 1) - locatorData ulIdx))
    (Function.update locatorData (sizeofData - 1) 0)

/-- `LocatorReceive`. -/
def locatorReceive (index : Nat) (arrival : Arrival) (locatorData : Data) : Data × List Event :=
  if invalid arrival.payload then
    (locatorData, [.pbufFree (.datagram index)])
  else
    match arrival.room with
    | none => (locatorData, [.pbufFree (.datagram index), .pbufAlloc none])
    | some pucData =>
        let locatorData := checksum locatorData
        let pucData := fill 0 sizeofData locatorData pucData
        (locatorData,
          [.pbufFree (.datagram index), .pbufAlloc (some (.response index)),
            .udpSendto (.response index) ((List.range sizeofData).map pucData) arrival.addr
              arrival.port,
            .pbufFree (.response index)])

/-- The service receives datagrams, the first of which has a given index. -/
def receiveAll : Nat → List Arrival → Data → List Event
  | _, [], _ => []
  | index, arrival :: arrivals, locatorData =>
      (locatorReceive index arrival locatorData).2 ++
        receiveAll (index + 1) arrivals (locatorReceive index arrival locatorData).1

/-! ## The service -/

namespace Event

def frees : Event → Option Pbuf
  | .pbufFree p => some p
  | _ => none

def allocates : Event → Option Pbuf
  | .pbufAlloc p => p
  | _ => none

/-- The receiver of an answer, and the answer. -/
def answers : Event → Option ((Nat × Half) × List Byte)
  | .udpSendto _ payload addr port => some ((addr, port), payload)
  | _ => none

end Event

/-- The sender of a datagram. -/
def Arrival.sender (arrival : Arrival) : Nat × Half := (arrival.addr, arrival.port)

/-- The datagram is the request. -/
def Arrival.IsRequest (arrival : Arrival) : Prop := arrival.payload = [0xFF, 0x04, 0x02, 0xFB]

instance (arrival : Arrival) : Decidable arrival.IsRequest :=
  inferInstanceAs (Decidable (arrival.payload = _))

/-- The bytes of a title in front of its zero. -/
def text (appTitle : List Byte) : List Byte := appTitle.takeWhile (· ≠ 0)

/-- An answer has the header, the MAC address and the title, and its bytes sum to zero. -/
structure IsAnswer (macArray : Vector Byte 6) (appTitle : List Byte) (bytes : List Byte) :
    Prop where
  length : bytes.length = 84
  header : bytes.take 9 = [0xFE, 84, 0x02, 0, 0, 0, 0, 0, 0]
  mac : (bytes.drop 9).take 6 = macArray.toList
  title : (bytes.drop 19).take 64 =
    (text appTitle).take 64 ++ List.replicate (64 - (text appTitle).length) 0
  sum : (bytes.map BitVec.toNat).sum % 256 = 0

/-- Some datagrams are answered, each one once, and every packet buffer is freed once. -/
structure Serves (answered : Arrival → Bool) (macArray : Vector Byte 6) (appTitle : List Byte)
    (arrivals : List Arrival) (trace : List Event) : Prop where
  answers : (trace.filterMap Event.answers).map Prod.fst =
    (arrivals.filter answered).map Arrival.sender
  isAnswer : ∀ answer ∈ trace.filterMap Event.answers, IsAnswer macArray appTitle answer.2
  freed : ∀ p, p ∈ trace.filterMap Event.frees ↔
    (∃ index < arrivals.length, p = .datagram index) ∨ p ∈ trace.filterMap Event.allocates
  once : (trace.filterMap Event.frees).Nodup

/-! ## The array -/

section Array

variable {data : Data} {base count index : Nat} {value : Nat → Byte}

theorem fill_succ : fill base (count + 1) value data =
    Function.update (fill base count value data) (base + count) (value count) := by
  unfold fill
  rw [List.range_succ, List.foldl_append, List.foldl_cons, List.foldl_nil]

/-- What a loop leaves in the array. -/
theorem fill_apply : fill base count value data index =
    if base ≤ index ∧ index < base + count then value (index - base) else data index := by
  induction count with
  | zero =>
      rw [if_neg (by omega)]
      rfl
  | succ count inductionHypothesis =>
      rw [fill_succ]
      rcases eq_or_ne index (base + count) with rfl | different
      · rw [Function.update_self, if_pos (by omega), Nat.add_sub_cancel_left]
      · rw [Function.update_of_ne different, inductionHypothesis]
        exact if_congr (by omega) rfl rfl

theorem text_cons {char : Byte} {appTitle : List Byte} (nonzero : char ≠ 0) :
    text (char :: appTitle) = char :: text appTitle :=
  List.takeWhile_cons_of_pos (decide_eq_true nonzero)

theorem text_zero {appTitle : List Byte} : text (0 :: appTitle) = [] :=
  List.takeWhile_cons_of_neg (by decide)

/-- The loop over the title ends at its zero, or with the field. -/
theorem copyTitle_fst {appTitle : List Byte} {idx : Nat} (inside : idx ≤ 64) :
    (copyTitle appTitle idx data).1 = min 64 (idx + (text appTitle).length) := by
  induction appTitle generalizing idx data with
  | nil => exact (min_eq_right inside).symm
  | cons char appTitle inductionHypothesis =>
      unfold copyTitle
      split
      · rename_i goes
        rw [inductionHypothesis goes.1, text_cons goes.2, List.length_cons]
        congr 1
        omega
      · rename_i stops
        rcases not_and_or.mp stops with full | zero
        · exact (by omega : idx = 64).trans (min_eq_left (by omega)).symm
        · rw [not_not.mp zero, text_zero]
          exact (min_eq_right inside).symm

/-- It copies the title up to there. -/
theorem copyTitle_snd {appTitle : List Byte} {idx : Nat} (inside : idx ≤ 64) :
    (copyTitle appTitle idx data).2 index =
      if 19 + idx ≤ index ∧ index < 19 + min 64 (idx + (text appTitle).length) then
        (text appTitle).getD (index - (19 + idx)) 0
      else data index := by
  induction appTitle generalizing idx data with
  | nil => exact (if_neg (show ¬ (19 + idx ≤ index ∧ index < 19 + min 64 idx) by omega)).symm
  | cons char appTitle inductionHypothesis =>
      unfold copyTitle
      split
      · rename_i goes
        rw [inductionHypothesis goes.1, text_cons goes.2, List.length_cons]
        rcases eq_or_ne index (19 + idx) with rfl | different
        · rw [if_neg (by omega), Function.update_self, if_pos (by omega), Nat.sub_self,
            List.getD_cons_zero]
        · rw [Function.update_of_ne different]
          by_cases within : 19 + (idx + 1) ≤ index ∧
              index < 19 + min 64 (idx + 1 + (text appTitle).length)
          · rw [if_pos within, if_pos (by omega),
              show index - (19 + idx) = index - (19 + (idx + 1)) + 1 by omega, List.getD_cons_succ]
          · rw [if_neg within, if_neg (by omega)]
      · rename_i stops
        rcases not_and_or.mp stops with full | zero
        · rw [if_neg (by omega)]
        · rw [not_not.mp zero, text_zero, List.length_nil, if_neg (by omega)]

/-- A part of the array. -/
theorem slice {size : Nat} (fits : base + count ≤ size) :
    (((List.range size).map data).drop base).take count =
      (List.range count).map fun index => data (base + index) := by
  apply List.ext_getElem
  · simp only [List.length_take, List.length_drop, List.length_map, List.length_range]
    omega
  · intro index _ _
    simp only [List.getElem_take, List.getElem_drop, List.getElem_map, List.getElem_range]

end Array

/-! ## The answer -/

section Answer

variable {macArray : Vector Byte 6} {appTitle : List Byte} {locatorData : Data}

/-- The array holds what `LocatorConfig` has set, but for the checksum. -/
structure Configured (macArray : Vector Byte 6) (appTitle : List Byte) (locatorData : Data) :
    Prop where
  front : (List.range 19).map locatorData =
    [0xFE, 84, 0x02, 0, 0, 0, 0, 0, 0] ++ macArray.toList ++ [0, 0, 0, 0]
  title : (List.range 64).map (fun index => locatorData (19 + index)) =
    (text appTitle).take 64 ++ List.replicate (64 - (text appTitle).length) 0

theorem toList_mac (macArray : Vector Byte 6) : macArray.toList =
    [macArray[0], macArray[1], macArray[2], macArray[3], macArray[4], macArray[5]] := by
  apply List.ext_getElem
  · exact macArray.length_toList
  · intro index inside _
    rw [Vector.length_toList] at inside
    interval_cases index <;> rfl

/-- The bytes behind the title are zero. -/
theorem locatorConfig_apply (index : Nat) : locatorConfig macArray appTitle locatorData index =
    if 19 ≤ index ∧ index < 83 then (text appTitle).getD (index - 19) 0
    else clearAndFill macArray locatorData index := by
  rw [locatorConfig, fill_apply, copyTitle_fst (Nat.zero_le 64), copyTitle_snd (Nat.zero_le 64)]
  by_cases title : 19 ≤ index ∧ index < 83
  · rw [if_pos title]
    split
    · exact (List.getD_eq_default _ _ (by omega)).symm
    · rw [if_pos (by omega)]
  · rw [if_neg title, if_neg (by omega), if_neg (by omega)]

/-- The field of the title, with the bytes behind the title. -/
theorem range_getD (bytes : List Byte) (size : Nat) :
    (List.range size).map (fun index => bytes.getD index 0) =
      bytes.take size ++ List.replicate (size - bytes.length) 0 := by
  apply List.ext_getElem
  · simp only [List.length_map, List.length_range, List.length_append, List.length_take,
      List.length_replicate]
    omega
  · intro index inside _
    rw [List.length_map, List.length_range] at inside
    rw [List.getElem_map, List.getElem_range, List.getElem_append]
    split
    · rename_i within
      rw [List.length_take] at within
      rw [List.getElem_take, List.getD_eq_getElem _ _ (by omega)]
    · rename_i behind
      rw [List.length_take] at behind
      rw [List.getElem_replicate, List.getD_eq_default _ _ (by omega)]

theorem configured_locatorConfig (macArray : Vector Byte 6) (appTitle : List Byte)
    (locatorData : Data) :
    Configured macArray appTitle (locatorConfig macArray appTitle locatorData) := by
  constructor
  · have front : (List.range 19).map (locatorConfig macArray appTitle locatorData) =
        (List.range 19).map (clearAndFill macArray locatorData) := by
      apply List.map_congr_left
      intro index member
      have inside := List.mem_range.mp member
      rw [locatorConfig_apply, if_neg (by omega)]
    rw [front, toList_mac]
    rfl
  · rw [← range_getD]
    apply List.map_congr_left
    intro index member
    have inside := List.mem_range.mp member
    rw [locatorConfig_apply, if_pos (by omega), Nat.add_sub_cancel_left]

/-- The loop of the checksum subtracts all other bytes. -/
theorem checksum_eq (locatorData : Data) : checksum locatorData =
    Function.update locatorData 83 (-((List.range 83).map locatorData).sum) := by
  have rounds : ∀ count ≤ 83, (List.range count).foldl
      (fun locatorData ulIdx => Function.update locatorData 83
        (locatorData 83 - locatorData ulIdx)) (Function.update locatorData 83 0) =
      Function.update locatorData 83 (-((List.range count).map locatorData).sum) := by
    intro count inside
    induction count with
    | zero =>
        rw [List.range_zero, List.map_nil, List.sum_nil, neg_zero]
        rfl
    | succ count inductionHypothesis =>
        rw [List.range_succ, List.foldl_append, inductionHypothesis (by omega), List.foldl_cons,
          List.foldl_nil, Function.update_self, Function.update_of_ne (by omega),
          Function.update_idem, List.map_append, List.sum_append, List.map_singleton,
          List.sum_singleton, neg_add, sub_eq_add_neg]
  exact rounds 83 le_rfl

theorem Configured.checksum (configured : Configured macArray appTitle locatorData) :
    Configured macArray appTitle (checksum locatorData) := by
  rw [checksum_eq]
  constructor
  · rw [← configured.front]
    apply List.map_congr_left
    intro index member
    have inside := List.mem_range.mp member
    rw [Function.update_of_ne (by omega)]
  · rw [← configured.title]
    apply List.map_congr_left
    intro index member
    have inside := List.mem_range.mp member
    rw [Function.update_of_ne (by omega)]

/-- A sum of bytes is taken modulo 256. -/
theorem toNat_sum (bytes : List Byte) : (bytes.map BitVec.toNat).sum % 256 = bytes.sum.toNat := by
  induction bytes with
  | nil => rfl
  | cons byte bytes inductionHypothesis =>
      rw [List.map_cons, List.sum_cons, List.sum_cons, BitVec.toNat_add, ← inductionHypothesis]
      omega

/-- What is sent of a configured array is an answer. -/
theorem Configured.isAnswer (configured : Configured macArray appTitle locatorData) :
    IsAnswer macArray appTitle ((List.range 84).map (Locator.checksum locatorData)) := by
  have kept := configured.checksum
  have front : ((List.range 84).map (Locator.checksum locatorData)).take 19 =
      [0xFE, 84, 0x02, 0, 0, 0, 0, 0, 0] ++ (macArray.toList ++ [0, 0, 0, 0]) := by
    rw [← List.append_assoc, ← kept.front, ← List.map_take, List.take_range]
    rfl
  constructor
  · rw [List.length_map, List.length_range]
  · have header := congrArg (List.take 9) front
    rw [List.take_take] at header
    exact header
  · have mac := congrArg (List.take 6) (congrArg (List.drop 9) front)
    rw [List.drop_take, List.take_take] at mac
    exact mac.trans (List.take_left' macArray.length_toList)
  · rw [slice (by decide), kept.title]
  · have others : (List.range 83).map (Locator.checksum locatorData) =
        (List.range 83).map locatorData := by
      apply List.map_congr_left
      intro index member
      have inside := List.mem_range.mp member
      rw [checksum_eq, Function.update_of_ne (by omega)]
    rw [toNat_sum, List.range_succ, List.map_append, List.sum_append, others, checksum_eq,
      List.map_singleton, List.sum_singleton, Function.update_self, add_neg_cancel]
    rfl

end Answer

/-! ## Runs -/

section Runs

def Pbuf.index : Pbuf → Nat
  | .datagram index | .response index => index

/-- The datagrams that are answered: the requests, where there is room for the response. -/
def Arrival.answered (arrival : Arrival) : Bool := arrival.IsRequest && arrival.room.isSome

theorem invalid_eq (payload : List Byte) :
    invalid payload = !decide (payload = [0xFF, 0x04, 0x02, 0xFB]) := by
  rcases eq_or_ne payload.length 4 with four | other
  · rcases List.length_eq_four.mp four with ⟨first, second, third, fourth, rfl⟩
    rw [Bool.eq_iff_iff]
    simp [invalid, tagCmd, cmdDiscoverTarget, or_assoc]
  · have different : payload ≠ [0xFF, 0x04, 0x02, 0xFB] := fun same => other (same ▸ rfl)
    rw [decide_eq_false different, invalid, bne_iff_ne.mpr other]
    rfl

/-- What is done with one datagram. -/
inductive Received (index : Nat) (arrival : Arrival) (locatorData : Data) :
    Data × List Event → Prop where
  | dropped {events : List Event} : arrival.answered = false →
      events.filterMap Event.frees = [.datagram index] →
      events.filterMap Event.allocates = [] → events.filterMap Event.answers = [] →
      Received index arrival locatorData (locatorData, events)
  | answered {events : List Event} : arrival.answered = true →
      events.filterMap Event.frees = [.datagram index, .response index] →
      events.filterMap Event.allocates = [.response index] →
      events.filterMap Event.answers =
        [(arrival.sender, (List.range 84).map (checksum locatorData))] →
      Received index arrival locatorData (checksum locatorData, events)

theorem received (index : Nat) (arrival : Arrival) (locatorData : Data) :
    Received index arrival locatorData (locatorReceive index arrival locatorData) := by
  have test : invalid arrival.payload = !decide arrival.IsRequest := invalid_eq arrival.payload
  unfold locatorReceive
  by_cases request : arrival.IsRequest
  · rw [decide_eq_true request] at test
    rw [if_neg (by rw [test]; decide)]
    split
    · rename_i none
      refine .dropped ?_ rfl rfl rfl
      rw [Arrival.answered, none, Option.isSome_none, Bool.and_false]
    · rename_i pucData some
      refine .answered ?_ rfl rfl ?_
      · rw [Arrival.answered, some, decide_eq_true request]
        rfl
      · have copied : (List.range 84).map (fill 0 84 (checksum locatorData) pucData) =
            (List.range 84).map (checksum locatorData) := by
          apply List.map_congr_left
          intro index member
          have inside := List.mem_range.mp member
          rw [fill_apply, if_pos (by omega), Nat.sub_zero]
        exact congrArg (fun bytes => [(arrival.sender, bytes)]) copied
  · rw [decide_eq_false request, Bool.not_false] at test
    rw [if_pos test]
    refine .dropped ?_ rfl rfl rfl
    rw [Arrival.answered, decide_eq_false request, Bool.false_and]

variable {macArray : Vector Byte 6} {appTitle : List Byte} {locatorData : Data}
variable {index : Nat} {arrival : Arrival}

/-- The answers of a run. -/
theorem answers_receiveAll (arrivals : List Arrival) (index : Nat) (locatorData : Data) :
    ((receiveAll index arrivals locatorData).filterMap Event.answers).map Prod.fst =
      (arrivals.filter Arrival.answered).map Arrival.sender := by
  induction arrivals generalizing index locatorData with
  | nil => rfl
  | cons arrival arrivals inductionHypothesis =>
      have step := received index arrival locatorData
      rw [receiveAll, List.filterMap_append, List.map_append, inductionHypothesis]
      generalize locatorReceive index arrival locatorData = outcome at step ⊢
      cases step with
      | dropped dropped _ _ answers =>
          rw [answers, List.filter_cons_of_neg (by rw [dropped]; decide)]
          rfl
      | answered answered _ _ answers =>
          rw [answers, List.filter_cons_of_pos answered]
          rfl

/-- Every answer of a run is one to be expected. -/
theorem isAnswer_receiveAll (arrivals : List Arrival) (index : Nat) {locatorData : Data}
    (configured : Configured macArray appTitle locatorData) :
    ∀ answer ∈ (receiveAll index arrivals locatorData).filterMap Event.answers,
      IsAnswer macArray appTitle answer.2 := by
  induction arrivals generalizing index locatorData with
  | nil => exact fun _ member => absurd member List.not_mem_nil
  | cons arrival arrivals inductionHypothesis =>
      have step := received index arrival locatorData
      rw [receiveAll, List.filterMap_append]
      generalize locatorReceive index arrival locatorData = outcome at step ⊢
      cases step with
      | dropped _ _ _ answers =>
          rw [answers]
          exact inductionHypothesis _ configured
      | answered _ _ _ answers =>
          rw [answers, List.forall_mem_append]
          exact ⟨List.forall_mem_singleton.mpr configured.isAnswer,
            inductionHypothesis _ configured.checksum⟩

/-- The packet buffers that are freed in a run are the datagrams, and what was allocated. -/
theorem mem_frees_receiveAll (arrivals : List Arrival) (index : Nat) (locatorData : Data)
    (p : Pbuf) : p ∈ (receiveAll index arrivals locatorData).filterMap Event.frees ↔
      (∃ count < arrivals.length, p = .datagram (index + count)) ∨
        p ∈ (receiveAll index arrivals locatorData).filterMap Event.allocates := by
  induction arrivals generalizing index locatorData with
  | nil => simp [receiveAll]
  | cons arrival arrivals inductionHypothesis =>
      have datagrams : (∃ count < (arrival :: arrivals).length, p = .datagram (index + count)) ↔
          p = .datagram index ∨ ∃ count < arrivals.length, p = .datagram (index + 1 + count) := by
        rw [List.length_cons, Nat.exists_lt_succ_left]
        simp only [Nat.add_zero, Nat.add_assoc, Nat.add_comm 1]
      have step := received index arrival locatorData
      rw [receiveAll, List.filterMap_append, List.filterMap_append, List.mem_append,
        List.mem_append, inductionHypothesis, datagrams]
      generalize locatorReceive index arrival locatorData = outcome at step ⊢
      cases step with
      | dropped _ frees allocates _ =>
          rw [frees, allocates, List.mem_singleton]
          simp only [List.not_mem_nil, false_or, or_assoc]
      | answered _ frees allocates _ =>
          rw [frees, allocates, List.mem_pair, List.mem_singleton, or_or_or_comm]

/-- What is freed behind a datagram has its index. -/
theorem Received.index_eq {outcome : Data × List Event} {p : Pbuf}
    (received : Received index arrival locatorData outcome)
    (member : p ∈ outcome.2.filterMap Event.frees) : p.index = index := by
  cases received with
  | dropped _ frees _ _ =>
      rw [frees, List.mem_singleton] at member
      exact member ▸ rfl
  | answered _ frees _ _ =>
      rw [frees, List.mem_pair] at member
      rcases member with rfl | rfl
      · rfl
      · rfl

theorem index_le_of_mem_frees {p : Pbuf} (arrivals : List Arrival) (index : Nat)
    (locatorData : Data)
    (member : p ∈ (receiveAll index arrivals locatorData).filterMap Event.frees) :
    index ≤ p.index := by
  induction arrivals generalizing index locatorData with
  | nil => exact absurd member List.not_mem_nil
  | cons arrival arrivals inductionHypothesis =>
      rw [receiveAll, List.filterMap_append, List.mem_append] at member
      rcases member with now | later
      · exact ((received index arrival locatorData).index_eq now).ge
      · exact Nat.le_of_succ_le (inductionHypothesis _ _ later)

/-- No packet buffer is freed twice in a run. -/
theorem nodup_frees_receiveAll (arrivals : List Arrival) (index : Nat) (locatorData : Data) :
    ((receiveAll index arrivals locatorData).filterMap Event.frees).Nodup := by
  induction arrivals generalizing index locatorData with
  | nil => exact List.nodup_nil
  | cons arrival arrivals inductionHypothesis =>
      have step := received index arrival locatorData
      rw [receiveAll, List.filterMap_append]
      refine List.nodup_append.mpr ⟨?_, inductionHypothesis _ _, ?_⟩
      · generalize locatorReceive index arrival locatorData = outcome at step
        cases step with
        | dropped _ frees _ _ => exact frees ▸ List.nodup_singleton _
        | answered _ frees _ _ =>
            rw [frees]
            simp
      · intro p now _ later same
        have bound := index_le_of_mem_frees _ _ _ later
        rw [← same, step.index_eq now] at bound
        exact absurd bound (Nat.not_succ_le_self index)

/-- The requests are answered where there is room for the response. -/
theorem locator_serves (macArray : Vector Byte 6) (appTitle : List Byte) (locatorData : Data)
    (arrivals : List Arrival) :
    Serves (fun arrival => arrival.IsRequest && arrival.room.isSome) macArray appTitle arrivals
      (receiveAll 0 arrivals (locatorConfig macArray appTitle locatorData)) where
  answers := answers_receiveAll arrivals 0 _
  isAnswer :=
    isAnswer_receiveAll arrivals 0 (configured_locatorConfig macArray appTitle locatorData)
  freed p := by
    rw [mem_frees_receiveAll]
    simp only [Nat.zero_add]
  once := nodup_frees_receiveAll arrivals 0 _

/-- A request is not answered where there is no room for the response. -/
theorem not_locator_serves : ¬ ∀ (macArray : Vector Byte 6) (appTitle : List Byte)
    (locatorData : Data) (arrivals : List Arrival),
    Serves (fun arrival => arrival.IsRequest) macArray appTitle arrivals
      (receiveAll 0 arrivals (locatorConfig macArray appTitle locatorData)) := by
  intro claim
  have answers :=
    (claim (.replicate 6 0) [] (fun _ => 0) [⟨[0xFF, 0x04, 0x02, 0xFB], 0, 0, none⟩]).answers
  exact absurd answers (by decide)

end Runs

end BbbEth.Udp.Locator
