import BbbEth.Cpsw.Rx.History

/-!
# The receive side over whole runs

The engine completes descriptors between the calls, and the pool holds any pbufs when a call starts.
-/

namespace BbbEth.Cpsw

open BbbEth.Interference BbbEth.Linked Routine

/-! ## The system -/

/-- The engine completes the first descriptor of the receive chain that it has not completed
yet. -/
inductive RxCompletion (current : State) : State → Prop where
  | complete {taken : List Nat} {d : Nat} {flags : Word} :
      Path (fun d => (current.bd .rx d).next) current.rxch.recvHead taken (some d) →
      (∀ other ∈ taken, (current.bd .rx other).owner = false) →
      current.fresh d = true → flags.getLsbD 29 = false →
      RxCompletion current (current.completeRx d flags)

/-- Between two calls the rest of the program may take pbufs and give them back. -/
def PoolChange (current next : State) : Prop :=
  ∃ heap pool, next = { current with pbuf := heap, pool := pool }

/-- The receive side, with the engine at work between the calls. -/
def receiveSystem : System Access State where
  perform := State.perform
  rely _ _ _ := False
  admits _ _ := True
  initial := Booted
  calls _ code := code = eth0RxIsr ∨ code = eth0TxIsr
  outside current next := RxCompletion current next ∨ PoolChange current next

/-! ## Its invariant -/

/-- Nothing is to be sent. -/
def TxEmpty (state : State) : Prop :=
  ∃ head, state.txch.sendHead = some head ∧ (state.bd .tx head).sop = false

theorem TxEmpty.congr {state other : State} (empty : TxEmpty state)
    (txch : other.txch = state.txch) (bd : ∀ d, other.bd .tx d = state.bd .tx d) :
    TxEmpty other := by
  rcases empty with ⟨head, isHead, sop⟩
  exact ⟨head, txch ▸ isHead, by rw [bd, sop]⟩

/-- The states between two calls. -/
def RxIdle (state : State) : Prop :=
  TxEmpty state ∧ ∃ start count filled delivered, Receiving state start count filled delivered

section Completion

variable {state next : State} {start count filled : Nat} {delivered : List (Ptr × Word)}

/-- A walk over completed descriptors that ends at one with a fresh pbuf ends behind the filled
ones. -/
theorem RxRing.walk (ring : RxRing state start (count + 1))
    (level : RxFilled state start (count + 1) filled)
    {taken : List Nat} {d offset : Nat} (early : offset ≤ filled) (inside : offset < count + 1)
    (path : Path (fun d => (state.bd .rx d).next) (some (place numBd start offset)) taken (some d))
    (completed : ∀ other ∈ taken, (state.bd .rx other).owner = false)
    (fresh : state.fresh d = true) : filled < count + 1 ∧ d = place numBd start filled := by
  have small := ring.small
  induction taken generalizing offset with
  | nil =>
      obtain rfl := Option.some.inj path
      by_cases reached : offset = filled
      · exact ⟨by omega, by rw [reached]⟩
      · rw [(level.done offset (by omega)).2] at fresh
        cases fresh
  | cons first others inductionHypothesis =>
      rcases path with ⟨isFirst, rest⟩
      obtain rfl := Option.some.inj isFirst
      have before : offset < filled := by
        by_contra behind
        have owner := completed (place numBd start offset) (by simp)
        rw [owner_of_flags _ (level.waiting offset (by omega) inside).1] at owner
        cases owner
      have next := ring.next_eq (by omega : offset < numBd)
      change Path _ (state.bd .rx (place numBd start offset)).next others (some d) at rest
      rw [next] at rest
      by_cases isLast : offset = count
      · rw [if_pos isLast] at rest
        cases others with
        | nil => cases rest
        | cons other others => cases rest.1
      · rw [if_neg isLast] at rest
        exact @inductionHypothesis (offset + 1) (by omega) (by omega) rest
          fun other member => completed other (by simp [member])

/-- The first descriptor that is not completed follows the filled ones. -/
theorem RxRing.front (ring : RxRing state start count) (level : RxFilled state start count filled)
    {taken : List Nat} {d : Nat}
    (path : Path (fun d => (state.bd .rx d).next) state.rxch.recvHead taken (some d))
    (completed : ∀ other ∈ taken, (state.bd .rx other).owner = false)
    (fresh : state.fresh d = true) : filled < count ∧ d = place numBd start filled := by
  rw [ring.recvHead, ← place_zero ring.bound] at path
  cases count with
  | succ count => exact ring.walk level (Nat.zero_le _) (by omega) path completed fresh
  | zero =>
      have free := ring.free 0 (Nat.le_refl _) (by decide)
      cases taken with
      | nil =>
          obtain rfl := Option.some.inj path
          rw [free.2] at fresh
          cases fresh
      | cons first others =>
          obtain rfl := Option.some.inj path.1
          have owner := completed (place numBd start 0) (by simp)
          rw [owner_of_flags _ free.1] at owner
          cases owner

/-- The engine fills the next descriptor. -/
theorem Receiving.complete (receiving : Receiving state start count filled delivered)
    (waiting : filled < count) {flags : Word} (owner : flags.getLsbD 29 = false) :
    Receiving (state.completeRx (place numBd start filled) flags) start count (filled + 1)
      delivered := by
  have small := receiving.ring.small
  have kept : ∀ offset < numBd, offset ≠ filled →
      ((state.completeRx (place numBd start filled) flags).bd .rx (place numBd start offset) =
        state.bd .rx (place numBd start offset) ∧
      (state.completeRx (place numBd start filled) flags).fresh (place numBd start offset) =
        state.fresh (place numBd start offset)) := by
    intro offset inside other
    have different : place numBd start offset ≠ place numBd start filled := fun same =>
      other (place_injective inside (by omega) same)
    rw [State.completeRx_rx, State.completeRx_fresh, if_neg different, decide_eq_false different]
    exact ⟨rfl, rfl⟩
  have here : ((state.completeRx (place numBd start filled) flags).bd .rx
      (place numBd start filled)).flagsPktlen = flags := by
    rw [State.completeRx_rx]
    exact if_pos rfl
  refine ⟨receiving.ring.congr rfl (fun d => by rw [State.completeRx_rx]; exact ⟨rfl, rfl⟩) ?_,
    ⟨waiting, fun offset inside => ?_, fun offset behind inside => ?_⟩, ⟨?_, ?_, ?_⟩⟩
  · intro offset behind inside
    rw [(kept offset inside (by omega)).1, (kept offset inside (by omega)).2]
    exact ⟨rfl, rfl⟩
  · by_cases last : offset = filled
    · subst last
      rw [Bd.owner, here, State.completeRx_fresh, decide_eq_true rfl]
      exact ⟨owner, rfl⟩
    · rw [(kept offset (by omega) last).1, (kept offset (by omega) last).2]
      exact receiving.level.done offset (by omega)
  · rw [(kept offset (by omega) (by omega)).1, (kept offset (by omega) (by omega)).2]
    exact receiving.level.waiting offset (by omega) inside
  · change state.received ++ [((state.bd .rx (place numBd start filled)).pbuf, flags)] = _
    rw [receiving.history.received, arc_append, List.map_append, List.append_assoc]
    congr 2
    · apply List.map_congr_left
      intro d member
      rcases mem_arc.mp member with ⟨offset, inside, rfl⟩
      rw [frameAt, frameAt, (kept offset (by omega) (by omega)).1]
    · rw [arc, List.range_one, List.map_singleton, List.map_singleton,
        place_zero (place_lt (by decide)), frameAt, here, State.completeRx_rx]
  · exact receiving.history.inputs
  · change armings state.trace = _
    rw [receiving.history.armings]
    congr 1
    apply List.map_congr_left
    intro d _
    rw [State.completeRx_rx]

end Completion

/-! ## The calls -/

section Calls

variable {state : State} {start count filled : Nat} {delivered : List (Ptr × Word)}

/-- What the calls leave alone: the transmit side, and what the engine has done. -/
structure Apart (state after : State) : Prop where
  txch : after.txch = state.txch
  bd : ∀ d, after.bd .tx d = state.bd .tx d
  received : after.received = state.received

theorem Apart.trans {first second third : State} (left : Apart first second)
    (right : Apart second third) : Apart first third where
  txch := right.txch.trans left.txch
  bd d := (right.bd d).trans (left.bd d)
  received := right.received.trans left.received

/-- A descriptor that the engine still owns ends the loop of `eth0_rx_isr`. -/
theorem receiveRound_owned (owner : (state.bd .rx start).owner = true) :
    still.Runs (receiveRound (some start)) state (.inr ())
      (state.record (.poll .rx start (state.bd .rx start).flagsPktlen)) := by
  rw [receiveRound_eq]
  apply runs_lift trivial (by trivial)
  change still.Runs (if (state.bd .rx start).flagsPktlen &&& _ = _ then _ else _) _ _ _
  rw [if_pos ((and_owner_eq_iff _).mpr owner)]
  exact .done

/-- A descriptor that the engine has filled is taken. -/
theorem receiveRound_filled {p : Nat} (owner : (state.bd .rx start).owner = false)
    (pbuf : (state.bd .rx start).pbuf = some p) :
    still.Runs (receiveRound (some start)) state
      (match (state.bd .rx start).next with
        | none => .inr ()
        | some next => .inl (some next))
      ((state.record (.poll .rx start (state.bd .rx start).flagsPktlen)).takeCell start p) := by
  rw [receiveRound_eq]
  apply runs_lift trivial (by trivial)
  change still.Runs (if (state.bd .rx start).flagsPktlen &&& _ = _ then _ else _) _ _ _
  rw [if_neg (by rw [and_owner_eq_iff]; exact ne_true_of_eq_false owner)]
  have taken : still.Runs (takeBd start)
      (state.record (.poll .rx start (state.bd .rx start).flagsPktlen)) _ _ :=
    @takeBd_runs _ (fun _ => True) _ _ _ p (fun _ _ _ => trivial) trivial pbuf
  exact taken

/-- The loop of `eth0_rx_isr` passes on every frame that the engine has completed. -/
theorem receive_runs (receiving : Receiving state start count filled delivered) :
    ∃ after, still.Runs (.iterate receiveRound (some start)) state () after ∧
      Receiving after (place numBd start filled) (count - filled) 0 state.received ∧
      after.pool = state.pool ∧ Apart state after := by
  induction filled generalizing state start count delivered with
  | zero =>
      have received : state.received = delivered := by
        rw [receiving.history.received, arc_zero, List.map_nil, List.append_nil]
      have owner : (state.bd .rx (place numBd start 0)).owner = true := by
        by_cases armed : 0 < count
        · exact owner_of_flags _ (receiving.level.waiting 0 (Nat.le_refl _) armed).1
        · exact owner_of_flags _ (receiving.ring.free 0 (by omega) (by decide)).1
      rw [place_zero receiving.ring.bound] at owner
      refine ⟨_, .leave (receiveRound_owned owner) .done, ?_, rfl, ⟨rfl, fun _ => rfl, rfl⟩⟩
      rw [place_zero receiving.ring.bound, Nat.sub_zero, received]
      exact receiving.record rfl rfl
  | succ filled inductionHypothesis =>
      have within := receiving.level.within
      obtain ⟨count, rfl⟩ : ∃ others, count = others + 1 := ⟨count - 1, by omega⟩
      have owner := (receiving.level.done 0 (by omega)).1
      rcases receiving.ring.pbufs 0 (by omega) with ⟨p, pbuf⟩
      have next := receiving.ring.next_eq (by decide : 0 < numBd)
      rw [place_zero receiving.ring.bound] at owner pbuf next
      have round := receiveRound_filled owner pbuf
      have polled : Receiving (state.record (.poll .rx start (state.bd .rx start).flagsPktlen))
          start (count + 1) (filled + 1) delivered := receiving.record rfl rfl
      have taken := polled.take pbuf
      rw [next] at round
      by_cases last : 0 = count
      · obtain rfl : filled = 0 := by omega
        rw [if_pos last] at round
        refine ⟨_, .leave round .done, ?_, rfl, ⟨rfl, fun _ => State.takeCell_tx _ _ _ _, rfl⟩⟩
        have received : state.received = delivered ++ [frameAt state start] := by
          rw [receiving.history.received, arc, List.range_one, List.map_singleton,
            List.map_singleton, place_zero receiving.ring.bound]
        rw [received]
        exact taken
      · rw [if_neg last, Nat.zero_add] at round
        rcases inductionHypothesis taken with ⟨after, others, rest, pool, apart⟩
        rw [place_place, Nat.add_comm 1 filled] at rest
        refine ⟨after, .next round others, ?_, pool, ?_⟩
        · rw [Nat.add_sub_add_right]
          exact rest
        · have first : Apart state ((state.record
              (.poll .rx start (state.bd .rx start).flagsPktlen)).takeCell start p) :=
            ⟨rfl, fun _ => State.takeCell_tx _ _ _ _, rfl⟩
          exact first.trans apart

/-- `cpswif_rxbd_alloc` arms free descriptors while there are pbufs. -/
theorem alloc_runs (receiving : Receiving state start count filled delivered) :
    ∃ after, still.Runs cpswifRxbdAlloc state () after ∧
      Receiving after start (count + min (numBd - count) state.pool.length) filled delivered ∧
      Apart state after := by
  have size := numBd_eq
  have ring := receiving.ring
  have small := ring.small
  have bound : place numBd start count < numBd := place_lt (by decide)
  have length := List.length_take_le (numBd - count) state.pool
  have linked : ∀ offset, offset + 1 < (state.pool.take (numBd - count)).length →
      (state.bd .rx (place numBd (place numBd start count) offset)).next =
        some (place numBd (place numBd start count) (offset + 1)) := by
    intro offset inside
    have next := @RxRing.next_added _ _ _ ring (offset + 1) (by omega) (by omega)
    rw [Nat.add_sub_cancel, if_neg (by omega)] at next
    rw [next, place_place]
  have runs := cpswifRxbdAlloc_runs bound ring.freeHead ring.recvTail
    (List.take_append_drop (numBd - count) state.pool).symm
    (by rw [ring.freeNum]; exact length)
    (by
      rw [ring.freeNum, List.length_take, List.drop_eq_nil_iff]
      omega)
    linked
  by_cases dry : state.pool.take (numBd - count) = []
  · rw [if_pos dry] at runs
    rw [← List.length_take, dry]
    exact ⟨state, runs, receiving, ⟨rfl, fun _ => rfl, rfl⟩⟩
  · rw [if_neg dry] at runs
    have armed := receiving.arm (List.length_pos_of_ne_nil dry) (by omega) ring.recvTail
    refine ⟨_, runs, ?_, ?_, ?_, ?_⟩
    · rw [← List.length_take]
      rcases State.publish_cases (State.armCells (state.pool.take (numBd - count))
        (place numBd start count) state) _ _ _ _ with same | same
      · rw [same]
        exact armed
      · rw [same]
        exact armed.writeHdp _
    · rw [State.publish_txch, armCells_txch]
    · intro d
      rw [State.publish_tx, armCells_tx]
    · rw [State.publish_received, armCells_received]

/-- A whole call of `eth0_rx_isr`. -/
theorem eth0RxIsr_runs (receiving : Receiving state start count filled delivered) :
    ∃ after, still.Runs eth0RxIsr state () after ∧
      Receiving after (place numBd start filled)
        (count - filled + min (numBd - (count - filled)) state.pool.length) 0 state.received ∧
      Apart state after := by
  have begun : Receiving (state.record (.gpioOn .usr3)) start count filled delivered :=
    receiving.record rfl rfl
  rcases receive_runs begun with ⟨taken, loop, received, pool, first⟩
  have ended : Receiving (taken.record (.eoi .rx)) (place numBd start filled) (count - filled) 0
      state.received := received.record rfl rfl
  rcases alloc_runs ended with ⟨refilled, alloc, armed, second⟩
  have samePool : (taken.record (.eoi .rx)).pool = state.pool := pool
  rw [samePool] at armed
  refine ⟨refilled.record (.gpioOff .usr3), ?_, armed.record rfl rfl, ?_⟩
  · unfold eth0RxIsr
    apply runs_emit trivial
    apply runs_getRxch trivial
    have head : (state.record (.gpioOn .usr3)).rxch.recvHead = some start := begun.ring.recvHead
    rw [head]
    apply Outline.Runs.bind loop
    apply runs_emit trivial
    apply Outline.Runs.bind alloc
    exact runs_step trivial trivial .done
  · exact Apart.trans (Apart.trans ⟨first.txch, first.bd, first.received⟩
      ⟨second.txch, second.bd, second.received⟩) ⟨rfl, fun _ => rfl, rfl⟩

/-- A whole call of `eth0_tx_isr`, when nothing is to be reclaimed. -/
theorem eth0TxIsr_runs (empty : TxEmpty state)
    (receiving : Receiving state start count filled delivered) :
    ∃ after, still.Runs eth0TxIsr state () after ∧
      Receiving after start (count + min (numBd - count) state.pool.length) filled delivered ∧
      Apart state after := by
  rcases empty with ⟨head, isHead, sop⟩
  have begun : Receiving ((state.record (.gpioOn .usr4)).record (.eoi .tx)) start count filled
      delivered := (receiving.record rfl rfl).record rfl rfl
  rcases alloc_runs begun with ⟨refilled, alloc, armed, second⟩
  refine ⟨refilled.record (.gpioOff .usr4), ?_, armed.record rfl rfl,
    ⟨second.txch, second.bd, second.received⟩⟩
  unfold eth0TxIsr
  apply runs_emit trivial
  apply runs_getTxch trivial
  have round : still.Runs (completeRound (state.txch.sendHead, 0xFFFF))
      (state.record (.gpioOn .usr4)) (.inr ()) (state.record (.gpioOn .usr4)) := by
    have clear : (state.bd .tx head).flagsPktlen &&& cpdmaBufDescSop = 0 :=
      (and_sop_eq_zero_iff _).mpr sop
    rw [isHead]
    apply runs_test trivial
    · intro answer same
      have agrees : answer &&& cpdmaBufDescSop = 0 := by
        rw [and_sop_eq_zero_iff, same 31 (by decide) (by decide)]
        exact sop
      change (if answer &&& cpdmaBufDescSop = 0 then _ else _) =
        if (state.bd .tx head).flagsPktlen &&& cpdmaBufDescSop = 0 then _ else _
      rw [if_pos clear, if_pos agrees]
    · change still.Runs (if (state.bd .tx head).flagsPktlen &&& cpdmaBufDescSop = 0 then _ else _)
        _ _ _
      rw [if_pos clear]
      exact .done
  apply Outline.Runs.leave round
  apply runs_emit trivial
  apply Outline.Runs.bind alloc
  exact runs_step trivial trivial .done

end Calls

end BbbEth.Cpsw
