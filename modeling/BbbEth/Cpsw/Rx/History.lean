import BbbEth.Cpsw.Boot
import BbbEth.Cpsw.Rx.Ring

/-!
# The receive side between its calls

A pbuf goes into a receive descriptor, is filled by the engine, and is passed to `ethernet_input`.
It is first in, first out: the calls follow the order of the fillings, and these that of the pbufs.
-/

namespace BbbEth.Cpsw

open BbbEth.Interference BbbEth.Linked Routine

/-! ## The history -/

/-- The calls of `ethernet_input`, in order. -/
def inputs (trace : List Event) : List Event :=
  (trace.filter fun event =>
    match event with
    | .input .. => true
    | _ => false).reverse

/-- The pbufs that were put into receive descriptors, in order.  The `struct pbuf` of each is
cleaned. -/
def armings (trace : List Event) : List Word :=
  (trace.filterMap fun event =>
    match event with
    | .clean address length => if length = sizeofStructPbuf then some address else none
    | _ => none).reverse

/-- The address of a pbuf as a word. -/
def addressOf (p : Ptr) : Word := BitVec.ofNat 32 (p.getD 0)

/-- The pbuf of a descriptor with the flags that the engine has stored. -/
def frameAt (state : State) (d : Nat) : Ptr × Word :=
  ((state.bd .rx d).pbuf, (state.bd .rx d).flagsPktlen)

/-- The frames in `delivered` were passed on, those in the first `filled` descriptors were not. -/
structure RxHistory (state : State) (start count filled : Nat) (delivered : List (Ptr × Word)) :
    Prop where
  received : state.received = delivered ++ (arc numBd start filled).map (frameAt state)
  inputs : inputs state.trace = delivered.map inputOf
  armings : armings state.trace = delivered.map (fun frame => addressOf frame.1) ++
    (arc numBd start count).map fun d => addressOf (state.bd .rx d).pbuf

/-- The receive side between two calls. -/
structure Receiving (state : State) (start count filled : Nat) (delivered : List (Ptr × Word)) :
    Prop where
  ring : RxRing state start count
  level : RxFilled state start count filled
  history : RxHistory state start count filled delivered

section Operations

variable {state other : State} {start count filled : Nat} {delivered : List (Ptr × Word)}

theorem inputOf_isInput (frame : Ptr × Word) (trace : List Event) :
    inputs (inputOf frame :: trace) = inputs trace ++ [inputOf frame] := by
  simp [inputs, inputOf]

/-- What changes neither the armed descriptors nor these entries of the trace keeps the history. -/
theorem RxHistory.congr (history : RxHistory state start count filled delivered)
    (within : filled ≤ count) (received : other.received = state.received)
    (cells : ∀ offset < count, frameAt other (place numBd start offset) =
      frameAt state (place numBd start offset))
    (sameInputs : Cpsw.inputs other.trace = Cpsw.inputs state.trace)
    (sameArmings : Cpsw.armings other.trace = Cpsw.armings state.trace) :
    RxHistory other start count filled delivered where
  received := by
    rw [received, history.received]
    congr 1
    apply List.map_congr_left
    intro d member
    rcases mem_arc.mp member with ⟨offset, inside, rfl⟩
    exact (cells offset (by omega)).symm
  inputs := by rw [sameInputs, history.inputs]
  armings := by
    rw [sameArmings, history.armings]
    congr 1
    apply List.map_congr_left
    intro d member
    rcases mem_arc.mp member with ⟨offset, inside, rfl⟩
    exact congrArg (fun frame => addressOf frame.1) (cells offset inside).symm

/-- An event of another kind. -/
theorem Receiving.record (receiving : Receiving state start count filled delivered)
    {event : Event} (notInput : inputs (event :: state.trace) = inputs state.trace)
    (notArming : armings (event :: state.trace) = armings state.trace) :
    Receiving (state.record event) start count filled delivered where
  ring := receiving.ring.congr rfl (fun _ => ⟨rfl, rfl⟩) fun _ _ _ => ⟨rfl, rfl⟩
  level := receiving.level.congr fun _ _ => ⟨rfl, rfl⟩
  history := receiving.history.congr receiving.level.within rfl (fun _ _ => rfl) notInput notArming

theorem Receiving.writeHdp (receiving : Receiving state start count filled delivered) (bd : Ptr) :
    Receiving (state.writeHdp .rx bd) start count filled delivered where
  ring := receiving.ring.writeHdp bd
  level := receiving.level.congr fun _ _ => by
    rw [State.writeHdp_bd, State.writeHdp_fresh]
    exact ⟨rfl, rfl⟩
  history := by
    apply receiving.history.congr receiving.level.within (State.writeHdp_received _ _ _)
    · intro offset _
      rw [frameAt, State.writeHdp_bd, frameAt]
    · rw [State.writeHdp_trace]
      rfl
    · rw [State.writeHdp_trace]
      rfl

/-- The first filled descriptor is passed on. -/
theorem Receiving.take (receiving : Receiving state start (count + 1) (filled + 1) delivered)
    {p : Nat} (pbuf : (state.bd .rx start).pbuf = some p) :
    Receiving (state.takeCell start p) (place numBd start 1) count filled
      (delivered ++ [frameAt state start]) := by
  have ring := receiving.ring
  have small := ring.small
  have within := receiving.level.within
  have taken := (receiving.level.done 0 (by omega)).2
  rw [place_zero ring.bound] at taken
  have kept : ∀ d ∈ arc numBd (place numBd start 1) count,
      frameAt (state.takeCell start p) d = frameAt state d := by
    intro d member
    rcases mem_arc.mp member with ⟨offset, inside, rfl⟩
    rw [frameAt, State.takeCell_rx, frameAt, if_neg]
    intro first
    rw [place_place] at first
    have := place_injective (by omega) (by omega) (first.trans (place_zero ring.bound).symm)
    omega
  refine ⟨ring.take taken p, receiving.level.take (by omega) ring.bound p, ?_, ?_, ?_⟩
  · rw [State.takeCell_received, receiving.history.received, arc_succ ring.bound, List.map_cons,
      List.append_assoc]
    congr 2
    apply List.map_congr_left
    intro d member
    rcases mem_arc.mp member with ⟨offset, inside, rfl⟩
    exact (kept _ (mem_arc.mpr ⟨offset, by omega, rfl⟩)).symm
  · rw [State.takeCell_trace]
    change inputs (inputOf (some p, (state.bd .rx start).flagsPktlen) :: state.trace) = _
    rw [inputOf_isInput, receiving.history.inputs, List.map_append, ← pbuf]
    rfl
  · rw [State.takeCell_trace]
    change armings state.trace = _
    rw [receiving.history.armings, arc_succ ring.bound, List.map_cons, List.map_append,
      List.append_assoc]
    congr 2
    apply List.map_congr_left
    intro d member
    exact congrArg (fun frame => addressOf frame.1) (kept d member).symm

theorem armings_clean (pbufs : List Nat) (trace : List Event) :
    armings ((pbufs.map fun p => Event.clean (BitVec.ofNat 32 p) sizeofStructPbuf).reverse ++
      trace) = armings trace ++ pbufs.map (BitVec.ofNat 32) := by
  rw [armings, List.filterMap_append, List.filterMap_reverse, List.reverse_append,
    List.reverse_reverse, List.filterMap_map]
  congr 1
  simp [List.map_eq_flatMap]

theorem inputs_clean (pbufs : List Nat) (trace : List Event) :
    inputs ((pbufs.map fun p => Event.clean (BitVec.ofNat 32 p) sizeofStructPbuf).reverse ++
      trace) = inputs trace := by
  rw [inputs, List.filter_append, List.reverse_append, inputs]
  simp

/-- Free descriptors get pbufs and join the chain. -/
theorem Receiving.arm (receiving : Receiving state start count filled delivered)
    {pbufs : List Nat} {tail : Nat} (more : 0 < pbufs.length)
    (enough : count + pbufs.length ≤ numBd) (isTail : state.rxch.recvTail = some tail) :
    Receiving (((State.armCells pbufs (place numBd start count) state).advanceFree
        (some (place numBd start count))
        (state.bd .rx (place numBd (place numBd start count) (pbufs.length - 1))).next
        (place numBd (place numBd start count) (pbufs.length - 1))).relink
      (some (place numBd start count)) tail
      (place numBd (place numBd start count) (pbufs.length - 1)))
      start (count + pbufs.length) filled delivered := by
  have bound : place numBd start count < numBd := place_lt (by decide)
  have within := receiving.level.within
  have relinked : ∀ (model : State) (recvHead : Ptr) (first last : Nat),
      (model.relink recvHead first last).trace = model.trace ∧
        (model.relink recvHead first last).received = model.received :=
    fun _ _ _ _ => ⟨rfl, rfl⟩
  have trace : ∀ (model : State) (recvHead currBd : Ptr) (last : Nat),
      inputs (model.advanceFree recvHead currBd last).trace = inputs model.trace ∧
        armings (model.advanceFree recvHead currBd last).trace = armings model.trace := by
    intro model recvHead currBd last
    cases currBd with
    | none => exact ⟨by simp [State.advanceFree, inputs], by simp [State.advanceFree, armings]⟩
    | some next => exact ⟨rfl, rfl⟩
  have cells : ∀ offset < count, ∀ (recvHead currBd : Ptr) (last : Nat),
      frameAt (((State.armCells pbufs (place numBd start count) state).advanceFree recvHead
        currBd last).relink recvHead tail last) (place numBd start offset) =
        frameAt state (place numBd start offset) := by
    intro offset inside recvHead currBd last
    have outside := @notMem_arc_place _ start _ _ _ enough (by omega) (.inl inside)
    rw [frameAt, State.relink_rx, State.advanceFree_bd, armCells_bd_of_notMem bound outside,
      frameAt]
  refine ⟨receiving.ring.arm more enough isTail, receiving.level.arm enough _ _ _ _, ?_, ?_, ?_⟩
  · rw [(relinked _ _ _ _).2, State.advanceFree_received, armCells_received,
      receiving.history.received]
    congr 1
    apply List.map_congr_left
    intro d member
    rcases mem_arc.mp member with ⟨offset, inside, rfl⟩
    exact (cells offset (by omega) _ _ _).symm
  · rw [(relinked _ _ _ _).1, (trace _ _ _ _).1, armCells_trace, inputs_clean,
      receiving.history.inputs]
  · rw [(relinked _ _ _ _).1, (trace _ _ _ _).2, armCells_trace, armings_clean,
      receiving.history.armings, List.append_assoc, arc_append, List.map_append]
    congr 2
    · apply List.map_congr_left
      intro d member
      rcases mem_arc.mp member with ⟨offset, inside, rfl⟩
      exact congrArg (fun frame => addressOf frame.1) (cells offset inside _ _ _).symm
    · apply List.ext_getElem
      · simp
      · intro offset left right
        simp only [List.length_map] at left
        simp only [List.getElem_map, arc, List.getElem_range, State.relink_rx,
          State.advanceFree_bd]
        rw [armCells_bd_place bound (by omega) left]
        rfl

end Operations

end BbbEth.Cpsw
