import BbbEth.Cpsw.Rx.Alloc

/-!
# The receive ring

The armed descriptors lie one behind the other from `recv_head` on, and the free ones follow them
from `free_head` on.  Where no descriptor is armed, both pointers name the same descriptor.
-/

namespace BbbEth.Cpsw

open BbbEth.Interference BbbEth.Linked Routine

/-- `struct rxch` and its descriptors, with the `count` armed ones from `start` on. -/
structure RxRing (state : State) (start count : Nat) : Prop where
  bound : start < numBd
  small : count ≤ numBd
  freeNum : state.rxch.freeNum = numBd - count
  freeHead : state.rxch.freeHead = some (place numBd start count)
  recvHead : state.rxch.recvHead = some start
  recvTail : state.rxch.recvTail = some (place numBd start (count + (numBd - 1)))
  links : ∀ d < numBd, (state.bd .rx d).next =
    if state.rxch.recvTail = some d then none else some (place numBd d 1)
  pbufs : ∀ offset < count, ∃ p, (state.bd .rx (place numBd start offset)).pbuf = some p
  free : ∀ offset, count ≤ offset → offset < numBd →
    (state.bd .rx (place numBd start offset)).flagsPktlen = cpdmaBufDescOwner ∧
      state.fresh (place numBd start offset) = false

/-- The engine has filled the first `filled` of the armed descriptors. -/
structure RxFilled (state : State) (start count filled : Nat) : Prop where
  within : filled ≤ count
  done : ∀ offset < filled, (state.bd .rx (place numBd start offset)).owner = false ∧
    state.fresh (place numBd start offset) = false
  waiting : ∀ offset, filled ≤ offset → offset < count →
    (state.bd .rx (place numBd start offset)).flagsPktlen = cpdmaBufDescOwner ∧
      state.fresh (place numBd start offset) = true

/-- The call of `ethernet_input` for a pbuf that the engine filled with the given flags. -/
def inputOf (frame : Ptr × Word) : Event :=
  .input frame.1 ((frame.2 &&& cpdmaBdPktlenMask).setWidth 16)
    (((frame.2 &&& cpdmaBufDescFromPort) >>> 16) - 1)

/-- A round of the loop of `eth0_rx_isr`, once the descriptor has been polled. -/
def takeBd (bd : Nat) : Routine (Ptr ⊕ Unit) := do
  deliverBd bd
  let next ← .lift (.loadNext .rx bd)
  setRxch fun rxch => { rxch with freeNum := incU32 rxch.freeNum }
  advanceRecvHead next

theorem receiveRound_eq (bd : Nat) : receiveRound (some bd) = (do
    let flags ← .lift (.loadFlags .rx bd .owner)
    if flags &&& cpdmaBufDescOwner = cpdmaBufDescOwner then
      .done (.inr ())
    else
      takeBd bd) := rfl

namespace State

/-- What `eth0_rx_isr` does with the filled descriptor `d` and its pbuf `p`. -/
def deliverCell (state : State) (d p : Nat) : State :=
  let flags := (state.bd .rx d).flagsPktlen
  let totLen := (flags &&& cpdmaBdPktlenMask).setWidth 16
  let flushed := state.record (.flush (BitVec.ofNat 32 p) (pbufLenMax + sizeofStructPbuf))
  let sized := (flushed.modifyPbuf p fun cell => { cell with len := totLen }).modifyPbuf p
    fun cell => { cell with totLen := totLen }
  let returned := sized.modifyBd .rx d fun cell => { cell with flagsPktlen := cpdmaBufDescOwner }
  let fromPort := (flags &&& cpdmaBufDescFromPort) >>> 16
  (returned.record (.input (some p) (returned.pbuf p).totLen (fromPort - 1))).record (.cp .rx d)

/-- The effect of `takeBd`. -/
def takeCell (state : State) (d p : Nat) : State :=
  let delivered := state.deliverCell d p
  { delivered with rxch :=
    { delivered.rxch with
      freeNum := incU32 delivered.rxch.freeNum
      recvHead := (state.bd .rx d).next.orElse fun _ => delivered.rxch.freeHead } }

section takeCell

variable (state : State) (d p other : Nat)

@[simp] theorem takeCell_txch : (state.takeCell d p).txch = state.txch := rfl

@[simp] theorem takeCell_fresh : (state.takeCell d p).fresh = state.fresh := rfl

@[simp] theorem takeCell_pool : (state.takeCell d p).pool = state.pool := rfl

@[simp] theorem takeCell_received : (state.takeCell d p).received = state.received := rfl

@[simp] theorem takeCell_engine : (state.takeCell d p).engine = state.engine := rfl

theorem takeCell_rxch : (state.takeCell d p).rxch =
    { state.rxch with
      freeNum := incU32 state.rxch.freeNum
      recvHead := (state.bd .rx d).next.orElse fun _ => state.rxch.freeHead } := rfl

theorem takeCell_trace : (state.takeCell d p).trace =
    .cp .rx d :: inputOf (some p, (state.bd .rx d).flagsPktlen) ::
      .flush (BitVec.ofNat 32 p) (pbufLenMax + sizeofStructPbuf) :: state.trace := by
  simp [takeCell, deliverCell, record, inputOf]

@[simp] theorem takeCell_tx : (state.takeCell d p).bd .tx other = state.bd .tx other := by
  simp [takeCell, deliverCell, record]

theorem takeCell_rx : (state.takeCell d p).bd .rx other =
    { state.bd .rx other with
      flagsPktlen := if other = d then cpdmaBufDescOwner
        else (state.bd .rx other).flagsPktlen } := by
  by_cases same : other = d
  · subst same
    simp [takeCell, deliverCell, record]
  · simp [takeCell, deliverCell, record, same]

end takeCell

end State

/-- The engine fills the descriptor `d` and hands it back with the given flags. -/
def State.completeRx (state : State) (d : Nat) (flags : Word) : State :=
  { state.modifyBd .rx d fun cell => { cell with flagsPktlen := flags } with
    fresh := fun query => !decide (query = d) && state.fresh query
    received := state.received ++ [((state.bd .rx d).pbuf, flags)] }

section completeRx

variable (state : State) (d other : Nat) (flags : Word)

theorem State.completeRx_rx : (state.completeRx d flags).bd .rx other =
    { state.bd .rx other with
      flagsPktlen := if other = d then flags else (state.bd .rx other).flagsPktlen } := by
  by_cases same : other = d
  · subst same
    simp [completeRx]
  · simp [completeRx, same]

@[simp] theorem State.completeRx_tx :
    (state.completeRx d flags).bd .tx other = state.bd .tx other := by
  simp [completeRx]

theorem State.completeRx_fresh : (state.completeRx d flags).fresh other =
    (!decide (other = d) && state.fresh other) := rfl

end completeRx

/-- The accesses of the calls, which load the flags and store the contents of `cells` only. -/
def Receives (cells : Nat → Prop) : {reply : Type} → Access reply → Prop
  | _, .txch _ => True
  | _, .loadFlags .tx _ .plain => True
  | _, .rxch _ => True
  | _, .pbuf _ _ => True
  | _, .alloc => True
  | _, .loadNext .rx _ => True
  | _, .loadPbuf .rx _ => True
  | _, .loadFlags .rx d .plain => cells d
  | _, .storeBufptr .rx d _ => cells d
  | _, .storeBufoffLen .rx d _ => cells d
  | _, .storeFlags .rx d _ => cells d
  | _, .storePbuf .rx d _ => cells d
  | _, .input _ _ => True
  | _, .emit _ => True
  | _, _ => False

theorem Arms.receives {cells : Nat → Prop} {reply : Type} {request : Access reply}
    (arms : Arms cells request) : Receives cells request := by
  cases request with
  | loadNext chan d => cases chan with | tx => exact arms.elim | rx => trivial
  | storeBufptr chan d value => cases chan with | tx => exact arms.elim | rx => exact arms
  | storeBufoffLen chan d value => cases chan with | tx => exact arms.elim | rx => exact arms
  | storeFlags chan d value => cases chan with | tx => exact arms.elim | rx => exact arms
  | storePbuf chan d value => cases chan with | tx => exact arms.elim | rx => exact arms
  | rxch => trivial
  | pbuf => trivial
  | alloc => trivial
  | emit => trivial
  | _ => exact arms.elim

section Take

variable {exact cells : Nat → Prop} {permits : {reply : Type} → Access reply → State → Prop}
variable {state after : State} {d p : Nat} {result : Type} {value : result}

/-- A load of the flags of a receive descriptor. -/
theorem runs_loadFlags {rest : Word → Routine result}
    (permitted : permits (.loadFlags .rx d .plain) state)
    (later : (outline exact permits).Runs (rest (state.bd .rx d).flagsPktlen) state value after) :
    (outline exact permits).Runs (.lift (.loadFlags .rx d .plain) >>= rest) state value after :=
  runs_step permitted trivial later

/-- A load of its pbuf. -/
theorem runs_loadPbuf {rest : Ptr → Routine result} {pbuf : Ptr}
    (permitted : permits (.loadPbuf .rx d) state) (held : (state.bd .rx d).pbuf = pbuf)
    (later : (outline exact permits).Runs (rest pbuf) state value after) :
    (outline exact permits).Runs (.lift (.loadPbuf .rx d) >>= rest) state value after := by
  subst held
  exact runs_step permitted trivial later

theorem deliverBd_runs
    (receives : ∀ {reply : Type} (request : Access reply) model,
      Receives cells request → permits request model)
    (own : cells d) (pbuf : (state.bd .rx d).pbuf = some p) :
    (outline exact permits).Runs (deliverBd d) state () (state.deliverCell d p) := by
  unfold deliverBd
  apply runs_loadFlags (receives _ _ (by exact own))
  apply runs_loadFlags (receives _ _ (by exact own))
  apply runs_loadPbuf (receives _ _ (by trivial)) pbuf
  apply runs_emit (receives _ _ (by trivial))
  change (outline exact permits).Runs (deref (some p) >>= _) _ _ _
  apply runs_setPbuf (receives _ _ (by trivial))
  apply runs_setPbuf (receives _ _ (by trivial))
  apply runs_lift (receives _ _ (by exact own)) (by trivial)
  apply runs_lift (receives _ _ (by trivial)) (by trivial)
  exact runs_step (receives _ _ (by trivial)) (by trivial) .done

/-- A round of the loop with a filled descriptor. -/
theorem takeBd_runs
    (receives : ∀ {reply : Type} (request : Access reply) model,
      Receives cells request → permits request model)
    (own : cells d) (pbuf : (state.bd .rx d).pbuf = some p) :
    (outline exact permits).Runs (takeBd d) state
      (match (state.bd .rx d).next with
        | none => .inr ()
        | some next => .inl (some next))
      (state.takeCell d p) := by
  unfold takeBd
  apply Outline.Runs.bind (deliverBd_runs receives own pbuf)
  apply runs_lift (receives _ _ (by trivial)) (by trivial)
  apply runs_setRxch (receives _ _ (by trivial))
  have next : ((state.deliverCell d p).bd .rx d).next = (state.bd .rx d).next := by
    simp [State.deliverCell, State.record]
  change (outline exact permits).Runs
    (advanceRecvHead ((state.deliverCell d p).bd .rx d).next) _ _ _
  rw [next, State.takeCell]
  cases (state.bd .rx d).next with
  | none =>
      apply runs_getRxch (receives _ _ (by trivial))
      apply runs_setRxch (receives _ _ (by trivial))
      exact .done
  | some next =>
      apply runs_setRxch (receives _ _ (by trivial))
      exact .done

end Take

/-! ## What the operations do to the ring -/

section Ring

variable {state other : State} {start count filled : Nat}

theorem owner_of_flags (bd : Bd) (flags : bd.flagsPktlen = cpdmaBufDescOwner) :
    bd.owner = true := by
  rw [Bd.owner, flags]
  decide

/-- A ring depends on the structure, the links and pbufs, and the free descriptors only. -/
theorem RxRing.congr (ring : RxRing state start count) (rxch : other.rxch = state.rxch)
    (cells : ∀ d, (other.bd .rx d).next = (state.bd .rx d).next ∧
      (other.bd .rx d).pbuf = (state.bd .rx d).pbuf)
    (free : ∀ offset, count ≤ offset → offset < numBd →
      (other.bd .rx (place numBd start offset)).flagsPktlen =
          (state.bd .rx (place numBd start offset)).flagsPktlen ∧
        other.fresh (place numBd start offset) = state.fresh (place numBd start offset)) :
    RxRing other start count where
  bound := ring.bound
  small := ring.small
  freeNum := by rw [rxch, ring.freeNum]
  freeHead := by rw [rxch, ring.freeHead]
  recvHead := by rw [rxch, ring.recvHead]
  recvTail := by rw [rxch, ring.recvTail]
  links d small := by rw [(cells d).1, rxch, ring.links d small]
  pbufs offset inside := by
    rw [(cells _).2]
    exact ring.pbufs offset inside
  free offset behind inside := by
    rw [(free offset behind inside).1, (free offset behind inside).2]
    exact ring.free offset behind inside

namespace RxRing

/-- The tail is the last armed descriptor. -/
theorem tail_eq (ring : RxRing state start (count + 1)) :
    state.rxch.recvTail = some (place numBd start count) := by
  have size := numBd_eq
  rw [ring.recvTail, show count + 1 + (numBd - 1) = count + numBd by omega, place_size]

/-- The descriptor at an offset is the tail if the offset is the last of the armed ones. -/
theorem next_eq (ring : RxRing state start (count + 1)) {offset : Nat} (inside : offset < numBd) :
    (state.bd .rx (place numBd start offset)).next =
      if offset = count then none else some (place numBd start (offset + 1)) := by
  have small := ring.small
  rw [ring.links _ (place_lt (by decide)), ring.tail_eq, place_place]
  by_cases last : offset = count
  · rw [if_pos last, if_pos (by rw [last])]
  · rw [if_neg last, if_neg]
    intro same
    exact last (place_injective inside (by omega) (Option.some.inj same).symm)

/-- `eth0_rx_isr` takes the first armed descriptor. -/
theorem take (ring : RxRing state start (count + 1)) (taken : state.fresh start = false)
    (p : Nat) : RxRing (state.takeCell start p) (place numBd start 1) count := by
  have size := numBd_eq
  have small := ring.small
  have ahead : ∀ offset, place numBd (place numBd start 1) offset =
      place numBd start (offset + 1) := by
    intro offset
    rw [place_place, Nat.add_comm]
  refine ⟨place_lt (by decide), by omega, ?_, ?_, ?_, ?_, ?_, ?_, ?_⟩
  · rw [State.takeCell_rxch, ring.freeNum, incU32_of_lt (by omega)]
    change numBd - (count + 1) + 1 = numBd - count
    omega
  · rw [State.takeCell_rxch, ring.freeHead, ahead]
  · have next := ring.next_eq (by omega : 0 < numBd)
    rw [place_zero ring.bound, Nat.zero_add] at next
    rw [State.takeCell_rxch, next, ring.freeHead]
    by_cases last : 0 = count
    · rw [if_pos last, ← last]
      rfl
    · rw [if_neg last]
      rfl
  · rw [State.takeCell_rxch, ring.recvTail, ahead]
    exact congrArg (fun offset => some (place numBd start offset)) (by omega)
  · intro d bound
    rw [State.takeCell_rx, State.takeCell_rxch]
    exact ring.links d bound
  · intro offset inside
    rw [State.takeCell_rx, ahead]
    exact ring.pbufs (offset + 1) (by omega)
  · intro offset behind inside
    rw [State.takeCell_rx, ahead, State.takeCell_fresh]
    by_cases wraps : offset + 1 = numBd
    · have first : place numBd start (offset + 1) = start := by
        rw [wraps, place_around ring.bound]
      rw [first, if_pos rfl]
      exact ⟨rfl, taken⟩
    · have free := ring.free (offset + 1) (by omega) (by omega)
      exact ⟨ite_eq_left_iff.mpr fun _ => free.1, free.2⟩

/-- The first free descriptor, `free_head`, follows the tail. -/
theorem free_eq (ring : RxRing state start count) {tail : Nat}
    (isTail : state.rxch.recvTail = some tail) : place numBd tail 1 = place numBd start count := by
  have size := numBd_eq
  obtain rfl := Option.some.inj (ring.recvTail.symm.trans isTail)
  rw [place_place, show count + (numBd - 1) + 1 = count + numBd by omega, place_size]

/-- The links of the ring, from the last of `added` free descriptors on. -/
theorem next_added (ring : RxRing state start count) {added : Nat} (more : 0 < added)
    (enough : count + added ≤ numBd) :
    (state.bd .rx (place numBd (place numBd start count) (added - 1))).next =
      if added = numBd then none else some (place numBd start (count + added)) := by
  have size := numBd_eq
  rw [ring.links _ (place_lt (by decide)), ring.recvTail, place_place, place_place,
    show count + (added - 1) + 1 = count + added by omega]
  by_cases around : added = numBd
  · rw [if_pos around, if_pos (by rw [around])]
  · rw [if_neg around, if_neg]
    intro same
    have tail : place numBd start (count + (numBd - 1)) = place numBd start (count + (added - 1)) :=
      Option.some.inj same
    rw [← place_place, ← place_place] at tail
    have := place_injective (by omega) (by omega) tail
    omega

/-- `cpswif_rxbd_alloc` puts pbufs into the free descriptors behind the tail. -/
theorem arm (ring : RxRing state start count) {pbufs : List Nat} {tail : Nat}
    (more : 0 < pbufs.length) (enough : count + pbufs.length ≤ numBd)
    (isTail : state.rxch.recvTail = some tail) :
    RxRing (((State.armCells pbufs (place numBd start count) state).advanceFree
        (some (place numBd start count))
        (state.bd .rx (place numBd (place numBd start count) (pbufs.length - 1))).next
        (place numBd (place numBd start count) (pbufs.length - 1))).relink
      (some (place numBd start count)) tail
      (place numBd (place numBd start count) (pbufs.length - 1)))
      start (count + pbufs.length) := by
  have size := numBd_eq
  have bound : place numBd start count < numBd := place_lt (by decide)
  have fits : pbufs.length ≤ state.rxch.freeNum := by
    rw [ring.freeNum]
    omega
  have lastEq : place numBd (place numBd start count) (pbufs.length - 1) =
      place numBd start (count + pbufs.length + (numBd - 1)) := by
    rw [place_place, ← place_size]
    congr 1
    omega
  have rxch : ∀ (model : State) (recvHead : Ptr) (first last : Nat),
      (model.relink recvHead first last).rxch = model.rxch := fun _ _ _ _ => rfl
  have fresh : ∀ (model : State) (recvHead : Ptr) (first last : Nat),
      (model.relink recvHead first last).fresh = model.fresh := fun _ _ _ _ => rfl
  refine ⟨ring.bound, enough, ?_, ?_, ?_, ?_, ?_, ?_, ?_⟩
  · rw [rxch, State.advanceFree_rxch, armCells_rxch fits]
    change state.rxch.freeNum - pbufs.length = _
    rw [ring.freeNum]
    omega
  · rw [rxch, State.advanceFree_rxch, armCells_rxch fits, ring.next_added more enough]
    by_cases around : pbufs.length = numBd
    · rw [if_pos around]
      change state.rxch.freeHead = _
      rw [ring.freeHead, around, place_size]
    · rw [if_neg around]
      rfl
  · rw [rxch, State.advanceFree_rxch, armCells_rxch fits]
    exact ring.recvHead
  · rw [rxch, State.advanceFree_rxch, ← lastEq]
  · intro d small
    rw [State.relink_rx, rxch, State.advanceFree_rxch, State.advanceFree_bd]
    simp only [Option.some.injEq, armCells_next]
    by_cases isLast : d = place numBd (place numBd start count) (pbufs.length - 1)
    · rw [if_pos isLast, if_pos isLast.symm]
    · rw [if_neg isLast, if_neg (Ne.symm isLast)]
      by_cases wasTail : d = tail
      · rw [if_pos wasTail, wasTail, ring.free_eq isTail]
      · rw [if_neg wasTail, ring.links d small, isTail, if_neg]
        exact fun same => wasTail (Option.some.inj same).symm
  · intro offset inside
    rw [State.relink_rx, State.advanceFree_bd]
    by_cases old : offset < count
    · rw [armCells_bd_of_notMem bound (notMem_arc_place enough (by omega) (.inl old))]
      exact ring.pbufs offset old
    · have position : place numBd start offset =
          place numBd (place numBd start count) (offset - count) := by
        rw [place_place, Nat.add_sub_cancel' (Nat.le_of_not_lt old)]
      rw [position, armCells_bd_place bound (by omega) (by omega)]
      exact ⟨_, rfl⟩
  · intro offset behind inside
    have outside := @notMem_arc_place _ start _ _ _ enough inside (.inr behind)
    rw [State.relink_rx, State.advanceFree_bd, fresh, State.advanceFree_fresh,
      armCells_bd_of_notMem bound outside, armCells_fresh bound]
    rcases ring.free offset (by omega) inside with ⟨flags, unfilled⟩
    refine ⟨flags, ?_⟩
    change (decide _ || state.fresh _) = false
    rw [decide_eq_false outside, unfilled]
    rfl

/-- A write of the RX HDP is no part of the ring. -/
theorem writeHdp (ring : RxRing state start count) (bd : Ptr) :
    RxRing (state.writeHdp .rx bd) start count :=
  ring.congr (State.writeHdp_rxch _ _ _) (fun d => by rw [State.writeHdp_bd]; exact ⟨rfl, rfl⟩)
    fun offset _ _ => by rw [State.writeHdp_bd, State.writeHdp_fresh]; exact ⟨rfl, rfl⟩

end RxRing

namespace RxFilled

/-- What the engine has filled depends on the flags of the armed descriptors. -/
theorem congr (holds : RxFilled state start count filled)
    (cells : ∀ offset < count, (other.bd .rx (place numBd start offset)).flagsPktlen =
        (state.bd .rx (place numBd start offset)).flagsPktlen ∧
      other.fresh (place numBd start offset) = state.fresh (place numBd start offset)) :
    RxFilled other start count filled where
  within := holds.within
  done offset inside := by
    have cell := cells offset (Nat.lt_of_lt_of_le inside holds.within)
    rw [Bd.owner, cell.1, cell.2]
    exact holds.done offset inside
  waiting offset behind inside := by
    rw [(cells offset inside).1, (cells offset inside).2]
    exact holds.waiting offset behind inside

/-- `eth0_rx_isr` takes the first filled descriptor. -/
theorem take (holds : RxFilled state start (count + 1) (filled + 1)) (small : count < numBd)
    (bound : start < numBd) (p : Nat) :
    RxFilled (state.takeCell start p) (place numBd start 1) count filled := by
  have ahead : ∀ offset, place numBd (place numBd start 1) offset =
      place numBd start (offset + 1) := by
    intro offset
    rw [place_place, Nat.add_comm]
  have kept : ∀ offset < count,
      ((state.takeCell start p).bd .rx (place numBd start (offset + 1))).flagsPktlen =
        (state.bd .rx (place numBd start (offset + 1))).flagsPktlen := by
    intro offset inside
    rw [State.takeCell_rx]
    apply if_neg
    intro first
    rw [← place_zero bound, place_place, Nat.zero_add] at first
    have := place_injective (by omega) (by omega) first
    omega
  have within := holds.within
  refine ⟨by omega, fun offset inside => ?_, fun offset behind inside => ?_⟩
  · rw [ahead, State.takeCell_fresh, Bd.owner, kept offset (by omega)]
    exact holds.done (offset + 1) (by omega)
  · rw [ahead, State.takeCell_fresh, kept offset inside]
    exact holds.waiting (offset + 1) (by omega) (by omega)

/-- `cpswif_rxbd_alloc` adds descriptors that wait for the engine. -/
theorem arm (holds : RxFilled state start count filled) {pbufs : List Nat}
    (enough : count + pbufs.length ≤ numBd) (recvHead currBd : Ptr) (tail last : Nat) :
    RxFilled (((State.armCells pbufs (place numBd start count) state).advanceFree
      recvHead currBd last).relink recvHead tail last) start (count + pbufs.length) filled := by
  have bound : place numBd start count < numBd := place_lt (by decide)
  have fresh : ∀ (model : State) (recvHead : Ptr) (first last : Nat),
      (model.relink recvHead first last).fresh = model.fresh := fun _ _ _ _ => rfl
  have old : ∀ offset < count,
      (((State.armCells pbufs (place numBd start count) state).advanceFree
        recvHead currBd last).relink recvHead tail last).fresh (place numBd start offset) =
          state.fresh (place numBd start offset) ∧
        ((((State.armCells pbufs (place numBd start count) state).advanceFree
          recvHead currBd last).relink recvHead tail last).bd .rx
            (place numBd start offset)).flagsPktlen =
          (state.bd .rx (place numBd start offset)).flagsPktlen := by
    intro offset inside
    have outside := @notMem_arc_place _ start _ _ _ enough (by omega) (.inl inside)
    rw [State.relink_rx, State.advanceFree_bd, fresh, State.advanceFree_fresh,
      armCells_bd_of_notMem bound outside, armCells_fresh bound]
    refine ⟨?_, rfl⟩
    change (decide _ || state.fresh _) = _
    rw [decide_eq_false outside, Bool.false_or]
  have within := holds.within
  refine ⟨by omega, fun offset inside => ?_, fun offset behind inside => ?_⟩
  · rw [Bd.owner, (old offset (by omega)).1, (old offset (by omega)).2]
    exact holds.done offset inside
  · by_cases early : offset < count
    · rw [(old offset early).1, (old offset early).2]
      exact holds.waiting offset behind early
    · have position : place numBd start offset =
          place numBd (place numBd start count) (offset - count) := by
        rw [place_place, Nat.add_sub_cancel' (Nat.le_of_not_lt early)]
      have member : place numBd start offset ∈
          arc numBd (place numBd start count) pbufs.length :=
        mem_arc.mpr ⟨offset - count, by omega, position.symm⟩
      rw [State.relink_rx, State.advanceFree_bd, fresh, State.advanceFree_fresh,
        armCells_fresh bound]
      refine ⟨?_, ?_⟩
      · rw [position, armCells_bd_place bound (by omega) (by omega)]
      · change (decide _ || _) = true
        rw [decide_eq_true member, Bool.true_or]

end RxFilled

end Ring

end BbbEth.Cpsw
