import BbbEth.Cpsw.Rx.Arm
import BbbEth.Cpsw.Quiet

/-!
# `cpswif_rxbd_alloc` on its own
-/

namespace BbbEth.Cpsw

open BbbEth.Interference BbbEth.Linked Routine

namespace State

/-- Set `recv_tail`, and either move `free_head` or write the RX HDP. -/
def advanceFree (state : State) (recvHead currBd : Ptr) (last : Nat) : State :=
  let moved := { state with rxch := { state.rxch with recvTail := some last } }
  match currBd with
  | some next => { moved with rxch := { moved.rxch with freeHead := some next } }
  | none => moved.writeHdp .rx recvHead

/-- Link the armed descriptors behind `tail` and close the chain at `last`. -/
def relink (state : State) (recvHead : Ptr) (tail last : Nat) : State :=
  (state.modifyBd .rx tail fun cell => { cell with next := recvHead }).modifyBd .rx last
    fun cell => { cell with next := none }

/-- The effect of `publishBds`. -/
def publish (state : State) (recvHead : Ptr) (tail : Nat) (currBd : Ptr) (last : Nat) :
    State :=
  let closed := (state.advanceFree recvHead currBd last).relink recvHead tail last
  if (closed.bd .rx tail).flagsPktlen &&& cpdmaBufDescEoq ≠ 0 then
    closed.writeHdp .rx recvHead
  else
    closed

section

variable (state : State) (recvHead currBd : Ptr) (tail last d : Nat)

@[simp] theorem advanceFree_bd :
    (state.advanceFree recvHead currBd last).bd = state.bd := by
  cases currBd <;> simp [advanceFree]

@[simp] theorem advanceFree_txch :
    (state.advanceFree recvHead currBd last).txch = state.txch := by
  cases currBd <;> simp [advanceFree]

@[simp] theorem advanceFree_pbuf :
    (state.advanceFree recvHead currBd last).pbuf = state.pbuf := by
  cases currBd <;> simp [advanceFree]

@[simp] theorem advanceFree_pool :
    (state.advanceFree recvHead currBd last).pool = state.pool := by
  cases currBd <;> simp [advanceFree]

@[simp] theorem advanceFree_fresh :
    (state.advanceFree recvHead currBd last).fresh = state.fresh := by
  cases currBd <;> simp [advanceFree]

@[simp] theorem advanceFree_received :
    (state.advanceFree recvHead currBd last).received = state.received := by
  cases currBd <;> simp [advanceFree]

theorem advanceFree_rxch : (state.advanceFree recvHead currBd last).rxch =
    { state.rxch with
      recvTail := some last
      freeHead := currBd.orElse fun _ => state.rxch.freeHead } := by
  cases currBd <;> simp [advanceFree]

theorem relink_rx : (state.relink recvHead tail last).bd .rx d =
    { state.bd .rx d with
      next := if d = last then none else if d = tail then recvHead
        else (state.bd .rx d).next } := by
  by_cases isLast : d = last
  · subst isLast
    by_cases isTail : d = tail
    · subst isTail
      simp [relink]
    · simp [relink, isTail]
  · by_cases isTail : d = tail
    · subst isTail
      simp [relink, isLast]
    · simp [relink, isLast, isTail]

@[simp] theorem relink_tx : (state.relink recvHead tail last).bd .tx d = state.bd .tx d := by
  simp [relink]

theorem publish_cases :
    state.publish recvHead tail currBd last =
        (state.advanceFree recvHead currBd last).relink recvHead tail last ∨
      state.publish recvHead tail currBd last =
        ((state.advanceFree recvHead currBd last).relink recvHead tail last).writeHdp .rx
          recvHead := by
  unfold publish
  simp only
  split
  · exact .inr rfl
  · exact .inl rfl

theorem publish_rx : (state.publish recvHead tail currBd last).bd .rx d =
    { state.bd .rx d with
      next := if d = last then none else if d = tail then recvHead
        else (state.bd .rx d).next } := by
  rcases publish_cases state recvHead currBd tail last with same | same <;>
    simp [same, relink_rx]

@[simp] theorem publish_tx :
    (state.publish recvHead tail currBd last).bd .tx d = state.bd .tx d := by
  rcases publish_cases state recvHead currBd tail last with same | same <;> simp [same]

@[simp] theorem publish_txch :
    (state.publish recvHead tail currBd last).txch = state.txch := by
  rcases publish_cases state recvHead currBd tail last with same | same <;>
    simp [same, relink]

@[simp] theorem publish_pbuf :
    (state.publish recvHead tail currBd last).pbuf = state.pbuf := by
  rcases publish_cases state recvHead currBd tail last with same | same <;>
    simp [same, relink]

@[simp] theorem publish_pool :
    (state.publish recvHead tail currBd last).pool = state.pool := by
  rcases publish_cases state recvHead currBd tail last with same | same <;>
    simp [same, relink]

@[simp] theorem publish_fresh :
    (state.publish recvHead tail currBd last).fresh = state.fresh := by
  rcases publish_cases state recvHead currBd tail last with same | same <;>
    simp [same, relink]

@[simp] theorem publish_received :
    (state.publish recvHead tail currBd last).received = state.received := by
  rcases publish_cases state recvHead currBd tail last with same | same <;>
    simp [same, relink]

theorem publish_rxch : (state.publish recvHead tail currBd last).rxch =
    { state.rxch with
      recvTail := some last
      freeHead := currBd.orElse fun _ => state.rxch.freeHead } := by
  rcases publish_cases state recvHead currBd tail last with same | same <;>
    simp [same, relink, advanceFree_rxch]

end

end State

section Runs

variable {state : State}

theorem advanceFreeHead_runs (recvHead currBd : Ptr) (last : Nat) :
    still.Runs (advanceFreeHead recvHead currBd)
      { state with rxch := { state.rxch with recvTail := some last } } ()
      (state.advanceFree recvHead currBd last) := by
  cases currBd with
  | none => exact runs_step trivial trivial .done
  | some next => exact runs_step trivial trivial .done

theorem publishBds_runs (recvHead currBd : Ptr) (tail last : Nat) :
    still.Runs (publishBds recvHead (some tail) currBd (some last)) state ()
      (state.publish recvHead tail currBd last) := by
  unfold publishBds
  apply runs_setRxch trivial
  apply Outline.Runs.bind (advanceFreeHead_runs recvHead currBd last)
  apply runs_lift trivial (by trivial)
  apply runs_lift trivial (by trivial)
  unfold restartRx
  apply runs_lift trivial (by trivial)
  unfold State.publish
  simp only
  change still.Runs (if _ &&& cpdmaBufDescEoq ≠ 0 then _ else _) _ _ _
  by_cases eoq : ((((state.advanceFree recvHead currBd last).relink recvHead tail last).bd
      .rx tail).flagsPktlen &&& cpdmaBufDescEoq ≠ 0)
  · rw [if_pos eoq, if_pos (by exact eoq)]
    exact runs_step trivial trivial .done
  · rw [if_neg eoq, if_neg (by exact eoq)]
    exact .done

/-- The whole of `cpswif_rxbd_alloc`: it arms as many descriptors as there are
free ones and pbufs, and publishes them if there are any. -/
theorem cpswifRxbdAlloc_runs {d tail : Nat} {pbufs rest : List Nat}
    (bound : d < numBd) (freeHead : state.rxch.freeHead = some d)
    (recvTail : state.rxch.recvTail = some tail)
    (pool : state.pool = pbufs ++ rest)
    (enough : pbufs.length ≤ state.rxch.freeNum)
    (stops : pbufs.length = state.rxch.freeNum ∨ rest = [])
    (linked : ∀ offset, offset + 1 < pbufs.length →
      (state.bd .rx (place numBd d offset)).next = some (place numBd d (offset + 1))) :
    still.Runs cpswifRxbdAlloc state ()
      (if pbufs = [] then state
        else (State.armCells pbufs d state).publish (some d) tail
          (state.bd .rx (place numBd d (pbufs.length - 1))).next
          (place numBd d (pbufs.length - 1))) := by
  unfold cpswifRxbdAlloc
  apply runs_getRxch trivial
  apply runs_getRxch trivial
  apply runs_getRxch trivial
  apply runs_getRxch trivial
  apply runs_getRxch trivial
  rw [freeHead, recvTail]
  have arms : ∀ {reply : Type} (request : Access reply) (model : State),
      Arms (fun _ => True) request → True := fun _ _ _ => trivial
  have arming : still.Runs (armBds (some d) (some tail)) state _ _ :=
    armBds_runs arms bound (fun _ => rfl) pool enough stops (fun _ _ => trivial) linked
  apply Outline.Runs.bind arming
  apply runs_getRxch trivial
  rw [armCells_rxch enough]
  by_cases none : pbufs = []
  · subst none
    simp only [List.length_nil, Nat.sub_zero, if_true]
    exact .done
  · have some := List.length_pos_of_ne_nil none
    simp only [if_neg none]
    rw [if_neg (by omega)]
    exact publishBds_runs _ _ _ _

end Runs

end BbbEth.Cpsw
