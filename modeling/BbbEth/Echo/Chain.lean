import BbbEth.Echo.Echod

/-!
# Chains of packet buffers

What the loops of the echo server and of `pbuf_free` leave of a chain.
-/

namespace BbbEth.Echo

open BbbEth.Interference BbbEth.Linked

/-! ## Bytes in `mydata` -/

namespace Stack

/-- Store bytes one after the other. -/
def storeAll (stack : Stack) (cnt : Nat) : List Byte → Stack
  | [] => stack
  | byte :: data => (stack.store cnt byte).storeAll (cnt + 1) data

variable {stack : Stack}

theorem storeAll_append (cnt : Nat) (data more : List Byte) :
    stack.storeAll cnt (data ++ more) =
      (stack.storeAll cnt data).storeAll (cnt + data.length) more := by
  induction data generalizing stack cnt with
  | nil => rfl
  | cons byte data inductionHypothesis =>
      rw [List.length_cons, Nat.add_comm data.length, ← Nat.add_assoc]
      exact inductionHypothesis (cnt + 1)

theorem storeAll_eq (cnt : Nat) (data : List Byte) : stack.storeAll cnt data =
    { stack with
      mydata := (stack.storeAll cnt data).mydata
      copied := stack.copied + data.length } := by
  induction data generalizing stack cnt with
  | nil => rfl
  | cons byte data inductionHypothesis =>
      change (stack.store cnt byte).storeAll (cnt + 1) data = _
      rw [inductionHypothesis, List.length_cons, Nat.add_comm data.length, ← Nat.add_assoc]
      rfl

theorem storeAll_pbuf (cnt : Nat) (data : List Byte) :
    (stack.storeAll cnt data).pbuf = stack.pbuf := by
  rw [storeAll_eq]

theorem storeAll_mydata_of_lt {cnt index : Nat} (before : index < cnt) (data : List Byte) :
    (stack.storeAll cnt data).mydata index = stack.mydata index := by
  induction data generalizing stack cnt with
  | nil => rfl
  | cons byte data inductionHypothesis =>
      change ((stack.store cnt byte).storeAll (cnt + 1) data).mydata index = _
      rw [inductionHypothesis (Nat.lt_succ_of_lt before), store_mydata,
        Function.update_of_ne before.ne]

theorem storeAll_mydata {cnt index : Nat} {data : List Byte} {byte : Byte}
    (found : data[index]? = some byte) :
    (stack.storeAll cnt data).mydata (cnt + index) = byte := by
  induction data generalizing stack cnt index with
  | nil => cases found
  | cons first data inductionHypothesis =>
      change ((stack.store cnt first).storeAll (cnt + 1) data).mydata (cnt + index) = byte
      cases index with
      | zero =>
          cases found
          have before : cnt < cnt + 1 := Nat.lt_succ_self cnt
          apply (storeAll_mydata_of_lt before data).trans
          rw [store_mydata, Function.update_self]
      | succ index =>
          rw [show cnt + (index + 1) = cnt + 1 + index by omega]
          exact inductionHypothesis found

/-- The bytes that were stored are the data. -/
theorem data_storeAll (data : List Byte) : (stack.storeAll 0 data).data data.length = data := by
  apply List.ext_getElem?
  intro index
  unfold Stack.data
  rw [List.getElem?_map]
  by_cases inside : index < data.length
  · rw [List.getElem?_range inside, Option.map_some]
    have found := List.getElem?_eq_getElem inside
    have stored : (stack.storeAll 0 data).mydata (0 + index) = _ := storeAll_mydata found
    rw [Nat.zero_add] at stored
    rw [found, stored]
  · rw [List.getElem?_eq_none (by simpa using inside), List.getElem?_eq_none (not_lt.mp inside)]
    rfl

/-! ## Chains -/

/-- The packet buffer behind another one. -/
def next (stack : Stack) (p : Nat) : Option Nat := (stack.pbuf p).bind (·.next)

def payload (stack : Stack) (p : Nat) : List Byte := ((stack.pbuf p).map (·.payload)).getD []

/-- The bytes of a chain. -/
def bytes (stack : Stack) (cells : List Nat) : List Byte := cells.flatMap stack.payload

/-- Free packet buffers one after the other. -/
def freeAll (stack : Stack) (cells : List Nat) : Stack := cells.foldl dealloc stack

theorem freeAll_eq (cells : List Nat) : stack.freeAll cells =
    { stack with
      pbuf := (stack.freeAll cells).pbuf
      freed := (stack.freeAll cells).freed } := by
  induction cells generalizing stack with
  | nil => rfl
  | cons cell cells inductionHypothesis =>
      change (stack.dealloc cell).freeAll cells = _
      rw [inductionHypothesis]
      rfl

/-- A packet buffer that is not freed stays. -/
theorem freeAll_other {cells : List Nat} {p : Nat} (other : p ∉ cells) :
    (stack.freeAll cells).pbuf p = stack.pbuf p ∧
      (stack.freeAll cells).freed p = stack.freed p := by
  induction cells generalizing stack with
  | nil => exact ⟨rfl, rfl⟩
  | cons cell cells inductionHypothesis =>
      have distinct : p ≠ cell := fun same => other (same ▸ List.mem_cons_self)
      have rest : ((stack.dealloc cell).freeAll cells).pbuf p = (stack.dealloc cell).pbuf p ∧
          ((stack.dealloc cell).freeAll cells).freed p = (stack.dealloc cell).freed p :=
        inductionHypothesis fun member => other (List.mem_cons_of_mem _ member)
      rcases rest with ⟨pbuf, freed⟩
      refine ⟨pbuf.trans ?_, freed.trans ?_⟩
      · rw [dealloc_pbuf, Function.update_of_ne distinct]
      · rw [dealloc_freed, Function.update_of_ne distinct]

/-- A packet buffer is freed once. -/
theorem freeAll_member {cells : List Nat} (distinct : cells.Nodup) {p : Nat}
    (member : p ∈ cells) : (stack.freeAll cells).pbuf p = none ∧
      (stack.freeAll cells).freed p = stack.freed p + 1 := by
  induction cells generalizing stack with
  | nil => cases member
  | cons cell cells inductionHypothesis =>
      rcases List.nodup_cons.mp distinct with ⟨notMember, distinct⟩
      change ((stack.dealloc cell).freeAll cells).pbuf p = none ∧
        ((stack.dealloc cell).freeAll cells).freed p = stack.freed p + 1
      rcases List.mem_cons.mp member with rfl | later
      · have rest : ((stack.dealloc p).freeAll cells).pbuf p = (stack.dealloc p).pbuf p ∧
            ((stack.dealloc p).freeAll cells).freed p = (stack.dealloc p).freed p :=
          freeAll_other notMember
        rcases rest with ⟨pbuf, freed⟩
        rw [pbuf, freed, dealloc_pbuf, dealloc_freed, Function.update_self, Function.update_self]
        exact ⟨rfl, rfl⟩
      · have other : p ≠ cell := fun same => notMember (same ▸ later)
        have rest : ((stack.dealloc cell).freeAll cells).pbuf p = none ∧
            ((stack.dealloc cell).freeAll cells).freed p = (stack.dealloc cell).freed p + 1 :=
          inductionHypothesis distinct later
        rcases rest with ⟨pbuf, freed⟩
        rw [pbuf, freed, dealloc_freed, Function.update_of_ne other]
        exact ⟨rfl, rfl⟩

end Stack

/-- The packet buffers are allocated, and have one reference. -/
def Held (stack : Stack) (cells : List Nat) : Prop :=
  ∀ cell ∈ cells, ∃ pbuf, stack.pbuf cell = some pbuf ∧ pbuf.ref = 1

theorem Stack.next_eq {stack : Stack} {p : Nat} {pbuf : Pbuf} (found : stack.pbuf p = some pbuf) :
    stack.next p = pbuf.next := by
  unfold Stack.next
  rw [found]
  rfl

theorem Stack.payload_eq {stack : Stack} {p : Nat} {pbuf : Pbuf}
    (found : stack.pbuf p = some pbuf) :
    stack.payload p = pbuf.payload := by
  unfold Stack.payload
  rw [found]
  rfl

section Congr

variable {stack after : Stack}

theorem Stack.next_congr (kept : after.pbuf = stack.pbuf) : after.next = stack.next := by
  funext p
  unfold Stack.next
  rw [kept]

theorem Stack.bytes_congr (kept : after.pbuf = stack.pbuf) {cells : List Nat} :
    after.bytes cells = stack.bytes cells := by
  unfold Stack.bytes Stack.payload
  rw [kept]

end Congr

/-- A chain of packet buffers, with the sum of their lengths in the first one. -/
structure Chain (stack : Stack) (p : Nat) (cells : List Nat) : Prop where
  path : Path stack.next (some p) cells none
  held : Held stack cells
  totLen : ∀ pbuf, stack.pbuf p = some pbuf → pbuf.totLen.toNat = (stack.bytes cells).length

/-! ## New chains -/

/-- A stack before anything has arrived. -/
def Stack.initial : Stack where
  pbuf _ := none
  freed _ := 0
  mydata _ := 0
  copied := 0
  recved := 0
  writes := []
  listens := true

/-- A chain with payloads, at the addresses from one on. -/
def Stack.place (stack : Stack) (first : Nat) : List (List Byte) → Stack
  | [] => stack
  | payload :: payloads => (stack.place (first + 1) payloads).setPbuf first (some {
      next := if payloads = [] then none else some (first + 1)
      payload
      totLen := BitVec.ofNat 16 (payload :: payloads).flatten.length
      ref := 1 })

/-- The addresses of a chain. -/
def places (first : Nat) (payloads : List (List Byte)) : List Nat :=
  List.range' first payloads.length

section Place

variable {stack : Stack} {first p : Nat} {payload : List Byte} {payloads : List (List Byte)}

theorem places_cons :
    places first (payload :: payloads) = first :: places (first + 1) payloads :=
  List.range'_succ ..

theorem notMem_places (before : p < first) : p ∉ places first payloads := by
  intro member
  have above := (List.mem_range'_1.mp member).1
  omega

theorem place_eq : stack.place first payloads =
    { stack with pbuf := (stack.place first payloads).pbuf } := by
  induction payloads generalizing first with
  | nil => rfl
  | cons payload payloads inductionHypothesis =>
      unfold Stack.place
      rw [inductionHypothesis]
      rfl

theorem place_other (other : p ∉ places first payloads) :
    (stack.place first payloads).pbuf p = stack.pbuf p := by
  induction payloads generalizing first with
  | nil => rfl
  | cons payload payloads inductionHypothesis =>
      rw [places_cons, List.mem_cons, not_or] at other
      exact (Function.update_of_ne other.1 ..).trans (inductionHypothesis other.2)

theorem place_self : (stack.place first (payload :: payloads)).pbuf first = some {
    next := if payloads = [] then none else some (first + 1)
    payload
    totLen := BitVec.ofNat 16 (payload :: payloads).flatten.length
    ref := 1 } := Function.update_self ..

/-- The packet buffers behind the first one. -/
theorem place_behind (member : p ∈ places (first + 1) payloads) :
    (stack.place first (payload :: payloads)).pbuf p =
      (stack.place (first + 1) payloads).pbuf p := by
  refine Function.update_of_ne ?_ ..
  rintro rfl
  exact notMem_places (Nat.lt_succ_self p) member

theorem place_path : Path (stack.place first payloads).next
    (if payloads = [] then none else some first) (places first payloads) none := by
  induction payloads generalizing first with
  | nil => rfl
  | cons payload payloads inductionHypothesis =>
      rw [places_cons, if_neg (List.cons_ne_nil payload payloads)]
      refine ⟨rfl, ?_⟩
      rw [Stack.next_eq place_self]
      refine Path.congr inductionHypothesis fun cell member => ?_
      unfold Stack.next
      rw [place_behind member]

theorem place_held : Held (stack.place first payloads) (places first payloads) := by
  induction payloads generalizing first with
  | nil => exact nofun
  | cons payload payloads inductionHypothesis =>
      rw [places_cons]
      rintro cell (_ | ⟨_, member⟩)
      · exact ⟨_, place_self, rfl⟩
      · rw [place_behind member]
        exact inductionHypothesis cell member

theorem place_bytes :
    (stack.place first payloads).bytes (places first payloads) = payloads.flatten := by
  induction payloads generalizing first with
  | nil => rfl
  | cons payload payloads inductionHypothesis =>
      rw [places_cons, List.flatten_cons, ← inductionHypothesis]
      unfold Stack.bytes
      rw [List.flatMap_cons, Stack.payload_eq place_self]
      refine congrArg (payload ++ ·) (List.flatMap_congr fun cell member => ?_)
      unfold Stack.payload
      rw [place_behind member]

/-- A chain whose length fits into `tot_len`. -/
theorem place_chain (some : payloads ≠ []) (fits : payloads.flatten.length < 65536) :
    Chain (stack.place first payloads) first (places first payloads) := by
  cases payloads with
  | nil => exact absurd rfl some
  | cons payload payloads =>
      refine ⟨place_path, place_held, fun pbuf found => ?_⟩
      obtain rfl := Option.some.inj (place_self.symm.trans found)
      rw [place_bytes]
      exact (BitVec.toNat_ofNat ..).trans (Nat.mod_eq_of_lt fits)

end Place

end BbbEth.Echo
