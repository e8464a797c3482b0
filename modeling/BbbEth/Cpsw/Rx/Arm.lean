import BbbEth.Cpsw.Outline

/-!
# Arming receive descriptors

The loop of `cpswif_rxbd_alloc` takes pbufs from the pool and puts them into free
descriptors, until there is no free descriptor or no pbuf left.
-/

namespace BbbEth.Cpsw

open BbbEth.Interference BbbEth.Linked Routine

/-- The accesses of the loop, which stores into `cells` only. -/
def Arms (cells : Nat → Prop) : {reply : Type} → Access reply → Prop
  | _, .rxch _ => True
  | _, .pbuf _ _ => True
  | _, .alloc => True
  | _, .loadNext .rx _ => True
  | _, .storeBufptr .rx d _ => cells d
  | _, .storeBufoffLen .rx d _ => cells d
  | _, .storeFlags .rx d _ => cells d
  | _, .storePbuf .rx d _ => cells d
  | _, .emit (.clean _ _) => True
  | _, _ => False

namespace State

/-- The effect of one round of the loop. -/
def armCell (state : State) (p d : Nat) : State :=
  let taken := { state with pool := state.pool.tail }
  let cleaned := taken.record (.clean (BitVec.ofNat 32 p) sizeofStructPbuf)
  let stored := ((((cleaned.modifyBd .rx d fun cell =>
      { cell with bufptr := (state.pbuf p).payload }).modifyBd .rx d fun cell =>
      { cell with bufoffLen := (state.pbuf p).len.setWidth 32 }).modifyBd .rx d fun cell =>
      { cell with flagsPktlen := cpdmaBufDescOwner }).modifyBd .rx d fun cell =>
      { cell with pbuf := some p }).arm .rx d
  { stored with rxch := { stored.rxch with freeNum := decU32 stored.rxch.freeNum } }

/-- The effect of the loop that arms one descriptor after the other, from `d` on. -/
def armCells : List Nat → Nat → State → State
  | [], _, state => state
  | p :: pbufs, d, state => armCells pbufs (place numBd d 1) (state.armCell p d)

end State

section armCell

variable (state : State) (p d other : Nat)

@[simp] theorem armCell_txch : (state.armCell p d).txch = state.txch := by
  simp [State.armCell, State.record, State.arm]

@[simp] theorem armCell_pbuf : (state.armCell p d).pbuf = state.pbuf := by
  simp [State.armCell, State.record, State.arm]

@[simp] theorem armCell_engine : (state.armCell p d).engine = state.engine := by
  simp [State.armCell, State.record, State.arm]

@[simp] theorem armCell_received : (state.armCell p d).received = state.received := by
  simp [State.armCell, State.record, State.arm]

@[simp] theorem armCell_pool : (state.armCell p d).pool = state.pool.tail := rfl

@[simp] theorem armCell_rxch : (state.armCell p d).rxch =
    { state.rxch with freeNum := decU32 state.rxch.freeNum } := rfl

@[simp] theorem armCell_fresh : (state.armCell p d).fresh =
    fun query => query = d || state.fresh query := rfl

@[simp] theorem armCell_trace : (state.armCell p d).trace =
    .clean (BitVec.ofNat 32 p) sizeofStructPbuf :: state.trace := rfl

@[simp] theorem armCell_tx : (state.armCell p d).bd .tx other = state.bd .tx other := by
  simp [State.armCell, State.record, State.arm]

theorem armCell_bd_self : (state.armCell p d).bd .rx d =
    { next := (state.bd .rx d).next
      bufptr := (state.pbuf p).payload
      bufoffLen := (state.pbuf p).len.setWidth 32
      flagsPktlen := cpdmaBufDescOwner
      pbuf := some p } := by
  simp [State.armCell, State.record, State.arm]

theorem armCell_bd_ne (different : other ≠ d) :
    (state.armCell p d).bd .rx other = state.bd .rx other := by
  simp [State.armCell, State.record, State.arm, different]

@[simp] theorem armCell_next : ((state.armCell p d).bd .rx other).next =
    (state.bd .rx other).next := by
  by_cases same : other = d
  · rw [same, armCell_bd_self]
  · rw [armCell_bd_ne _ _ _ _ same]

end armCell

section armCells

variable {pbufs : List Nat} {d other : Nat} {state : State}

@[simp] theorem armCells_txch : (State.armCells pbufs d state).txch = state.txch := by
  induction pbufs generalizing d state with
  | nil => rfl
  | cons p pbufs inductionHypothesis =>
      rw [State.armCells, inductionHypothesis, armCell_txch]

@[simp] theorem armCells_pbuf : (State.armCells pbufs d state).pbuf = state.pbuf := by
  induction pbufs generalizing d state with
  | nil => rfl
  | cons p pbufs inductionHypothesis =>
      rw [State.armCells, inductionHypothesis, armCell_pbuf]

@[simp] theorem armCells_engine : (State.armCells pbufs d state).engine = state.engine := by
  induction pbufs generalizing d state with
  | nil => rfl
  | cons p pbufs inductionHypothesis =>
      rw [State.armCells, inductionHypothesis, armCell_engine]

@[simp] theorem armCells_received :
    (State.armCells pbufs d state).received = state.received := by
  induction pbufs generalizing d state with
  | nil => rfl
  | cons p pbufs inductionHypothesis =>
      rw [State.armCells, inductionHypothesis, armCell_received]

@[simp] theorem armCells_tx :
    (State.armCells pbufs d state).bd .tx other = state.bd .tx other := by
  induction pbufs generalizing d state with
  | nil => rfl
  | cons p pbufs inductionHypothesis =>
      rw [State.armCells, inductionHypothesis, armCell_tx]

@[simp] theorem armCells_next :
    ((State.armCells pbufs d state).bd .rx other).next = (state.bd .rx other).next := by
  induction pbufs generalizing d state with
  | nil => rfl
  | cons p pbufs inductionHypothesis =>
      rw [State.armCells, inductionHypothesis, armCell_next]

theorem armCells_pool :
    (State.armCells pbufs d state).pool = state.pool.drop pbufs.length := by
  induction pbufs generalizing d state with
  | nil => rfl
  | cons p pbufs inductionHypothesis =>
      rw [State.armCells, inductionHypothesis, armCell_pool, List.drop_tail, List.length_cons]

theorem armCells_rxch (enough : pbufs.length ≤ state.rxch.freeNum) :
    (State.armCells pbufs d state).rxch =
      { state.rxch with freeNum := state.rxch.freeNum - pbufs.length } := by
  induction pbufs generalizing d state with
  | nil => rfl
  | cons p pbufs inductionHypothesis =>
      simp only [List.length_cons] at enough ⊢
      have fewer := decU32_of_pos state.rxch.freeNum (by omega)
      have enoughLeft : pbufs.length ≤ (state.armCell p d).rxch.freeNum := by
        simp only [armCell_rxch, fewer]
        omega
      rw [State.armCells, inductionHypothesis enoughLeft]
      simp only [armCell_rxch, fewer]
      congr 1
      omega

theorem armCells_fresh (bound : d < numBd) : (State.armCells pbufs d state).fresh =
    fun query => decide (query ∈ arc numBd d pbufs.length) || state.fresh query := by
  induction pbufs generalizing d state with
  | nil => simp [State.armCells]
  | cons p pbufs inductionHypothesis =>
      rw [State.armCells, inductionHypothesis (place_lt (by decide))]
      funext query
      rw [List.length_cons, arc_succ bound]
      simp only [armCell_fresh, List.mem_cons, Bool.decide_or]
      rw [Bool.or_left_comm, Bool.or_assoc]

theorem armCells_trace : (State.armCells pbufs d state).trace =
    (pbufs.map fun p => Event.clean (BitVec.ofNat 32 p) sizeofStructPbuf).reverse ++
      state.trace := by
  induction pbufs generalizing d state with
  | nil => rfl
  | cons p pbufs inductionHypothesis =>
      rw [State.armCells, inductionHypothesis]
      simp

theorem armCells_bd_of_notMem (bound : d < numBd)
    (outside : other ∉ arc numBd d pbufs.length) :
    (State.armCells pbufs d state).bd .rx other = state.bd .rx other := by
  induction pbufs generalizing d state with
  | nil => rfl
  | cons p pbufs inductionHypothesis =>
      rw [List.length_cons, arc_succ bound, List.mem_cons, not_or] at outside
      rw [State.armCells, inductionHypothesis (place_lt (by decide)) outside.2,
        armCell_bd_ne _ _ _ _ outside.1]

/-- The descriptor `offset` places on gets the pbuf at `offset`. -/
theorem armCells_bd_place (bound : d < numBd) (small : pbufs.length ≤ numBd)
    {offset : Nat} (inside : offset < pbufs.length) :
    (State.armCells pbufs d state).bd .rx (place numBd d offset) =
      { next := (state.bd .rx (place numBd d offset)).next
        bufptr := (state.pbuf pbufs[offset]).payload
        bufoffLen := (state.pbuf pbufs[offset]).len.setWidth 32
        flagsPktlen := cpdmaBufDescOwner
        pbuf := some pbufs[offset] } := by
  induction pbufs generalizing d state offset with
  | nil => simp at inside
  | cons p pbufs inductionHypothesis =>
      have distinct : (arc numBd d (pbufs.length + 1)).Nodup := nodup_arc small
      rw [arc_succ bound, List.nodup_cons] at distinct
      cases offset with
      | zero =>
          rw [place_zero bound, State.armCells,
            armCells_bd_of_notMem (place_lt (by decide)) distinct.1, armCell_bd_self]
          rfl
      | succ offset =>
          simp only [List.length_cons, Nat.add_lt_add_iff_right] at inside small
          have position : place numBd d (offset + 1) = place numBd (place numBd d 1) offset := by
            rw [place_place, Nat.add_comm 1 offset]
          rw [position, State.armCells,
            inductionHypothesis (place_lt (by decide)) (by omega) inside, armCell_next]
          simp

end armCells

section Runs

variable {exact : Nat → Prop} {permits : {reply : Type} → Access reply → State → Prop}
variable {cells : Nat → Prop} {state : State} {currBd lastBd : Ptr}

theorem armRound_full
    (arms : ∀ {reply : Type} (request : Access reply) model,
      Arms cells request → permits request model)
    (full : state.rxch.freeNum = 0) :
    (outline exact permits).Runs (armRound (currBd, lastBd)) state
      (.inr (currBd, lastBd)) state := by
  unfold armRound
  apply runs_getRxch (arms _ _ (by trivial))
  rw [if_pos full]
  exact .done

theorem armRound_dry
    (arms : ∀ {reply : Type} (request : Access reply) model,
      Arms cells request → permits request model)
    (free : state.rxch.freeNum ≠ 0) (dry : state.pool = []) :
    (outline exact permits).Runs (armRound (currBd, lastBd)) state
      (.inr (currBd, lastBd)) state := by
  unfold armRound
  apply runs_getRxch (arms _ _ (by trivial))
  rw [if_neg free]
  apply runs_lift (arms _ _ (by trivial)) (by trivial)
  have same : { state with pool := state.pool.tail } = state := by
    cases state
    simp only at dry
    simp [dry]
  have none : (state.perform .alloc).1 = none := by
    simp [State.perform, dry]
  rw [none]
  change (outline exact permits).Runs _ { state with pool := state.pool.tail } _ _
  rw [same]
  exact .done

theorem armRound_runs
    (arms : ∀ {reply : Type} (request : Access reply) model,
      Arms cells request → permits request model)
    (free : state.rxch.freeNum ≠ 0) {p d : Nat} {pool : List Nat}
    (pbuf : state.pool = p :: pool) (own : cells d) :
    (outline exact permits).Runs (armRound (some d, lastBd)) state
      (.inl ((state.armCell p d).bd .rx d |>.next, some d)) (state.armCell p d) := by
  unfold armRound
  apply runs_getRxch (arms _ _ (by trivial))
  rw [if_neg free]
  apply runs_lift (arms _ _ (by trivial)) (by trivial)
  have head : (state.perform .alloc).1 = some p := by
    simp [State.perform, pbuf]
  rw [head]
  apply runs_emit (arms _ _ (by trivial))
  apply runs_getPbuf (arms _ _ (by trivial))
  change (outline exact permits).Runs (armBd d p _ >>= _) _ _ _
  apply Outline.Runs.bind
  · unfold armBd
    apply runs_lift (arms _ _ (by exact own)) (by trivial)
    apply runs_getPbuf (arms _ _ (by trivial))
    apply runs_lift (arms _ _ (by exact own)) (by trivial)
    apply runs_lift (arms _ _ (by exact own)) (by trivial)
    apply runs_lift (arms _ _ (by exact own)) (by trivial)
    apply runs_lift (arms _ _ (by trivial)) (by trivial)
    apply runs_setRxch (arms _ _ (by trivial))
    exact .done
  · exact .done

/-- The loop, which ends when the descriptors or the pbufs do. -/
theorem armBds_runs
    (arms : ∀ {reply : Type} (request : Access reply) model,
      Arms cells request → permits request model)
    {d : Nat} {pbufs rest : List Nat} (bound : d < numBd)
    (currentIs : pbufs ≠ [] → currBd = some d)
    (pool : state.pool = pbufs ++ rest)
    (enough : pbufs.length ≤ state.rxch.freeNum)
    (stops : pbufs.length = state.rxch.freeNum ∨ rest = [])
    (own : ∀ offset < pbufs.length, cells (place numBd d offset))
    (linked : ∀ offset, offset + 1 < pbufs.length →
      (state.bd .rx (place numBd d offset)).next = some (place numBd d (offset + 1))) :
    (outline exact permits).Runs (armBds currBd lastBd) state
      (if pbufs = [] then currBd
        else (state.bd .rx (place numBd d (pbufs.length - 1))).next,
        if pbufs = [] then lastBd else some (place numBd d (pbufs.length - 1)))
      (State.armCells pbufs d state) := by
  induction pbufs generalizing d currBd lastBd state with
  | nil =>
      simp only [if_true]
      by_cases full : state.rxch.freeNum = 0
      · exact .leave (armRound_full arms full) .done
      · have dry : rest = [] := by
          rcases stops with length | dry
          · exact (full length.symm).elim
          · exact dry
        exact .leave (armRound_dry arms full (by simpa [dry] using pool)) .done
  | cons p pbufs inductionHypothesis =>
      have current := currentIs (by simp)
      subst current
      simp only [List.length_cons] at enough stops own linked
      have ownFirst := own 0 (by omega)
      rw [place_zero bound] at ownFirst
      apply Outline.Runs.next (armRound_runs arms (by omega) pool ownFirst)
      rw [armCell_next]
      have fewer := decU32_of_pos state.rxch.freeNum (by omega)
      have currentNext : pbufs ≠ [] → (state.bd .rx d).next = some (place numBd d 1) := by
        intro more
        have link := linked 0 (by
          have := List.length_pos_of_ne_nil more
          omega)
        simpa [place_zero bound] using link
      have others := @inductionHypothesis (state.armCell p d) _ (some d) (place numBd d 1)
        (place_lt (by decide)) currentNext
        (by rw [armCell_pool, pool]; rfl)
        (by simp only [armCell_rxch, fewer]; omega)
        (by
          simp only [armCell_rxch, fewer]
          rcases stops with length | dry
          · left
            omega
          · exact .inr dry)
        (by
          intro offset small
          simpa [Nat.add_comm] using own (offset + 1) (by omega))
        (by
          intro offset small
          simpa [Nat.add_comm, Nat.add_left_comm] using linked (offset + 1) (by omega))
      cases pbufs with
      | nil => simpa [place_zero bound, Program.iterate, armBds, State.armCells] using others
      | cons next pbufs =>
          simpa [Nat.add_comm, Program.iterate, armBds, State.armCells] using others

/-- With no free descriptor `cpswif_rxbd_alloc` does nothing. -/
theorem cpswifRxbdAlloc_full
    (reads : ∀ {reply : Type} (use : Rxch → reply × Rxch),
      (∀ rxch, (use rxch).2 = rxch) → permits (.rxch use) state)
    (full : state.rxch.freeNum = 0) :
    (outline exact permits).Runs cpswifRxbdAlloc state () state := by
  unfold cpswifRxbdAlloc
  apply runs_getRxch (reads _ fun _ => rfl)
  apply runs_getRxch (reads _ fun _ => rfl)
  apply runs_getRxch (reads _ fun _ => rfl)
  apply runs_getRxch (reads _ fun _ => rfl)
  apply runs_getRxch (reads _ fun _ => rfl)
  have round : (outline exact permits).Runs
      (armRound (state.rxch.freeHead, state.rxch.recvTail)) state
      (.inr (state.rxch.freeHead, state.rxch.recvTail)) state := by
    unfold armRound
    apply runs_getRxch (reads _ fun _ => rfl)
    rw [if_pos full]
    exact .done
  apply Outline.Runs.leave round
  apply runs_getRxch (reads _ fun _ => rfl)
  rw [if_pos rfl]
  exact .done

end Runs

end BbbEth.Cpsw
