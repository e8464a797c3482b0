import BbbEth.Cpsw.Tx.Runs

/-!
# Polls before reclaims

`eth0_tx_isr` waits for the OWNER bit with a counter that it shares among all the
packets of a call.
-/

namespace BbbEth.Cpsw

open BbbEth.Interference BbbEth.Linked Routine

/-- In every run, `eth0_tx_isr` reclaims a packet only once it has found OWNER clear. -/
def ReclaimsPolled (system : System Access State) : Prop :=
  ∀ {reply : Type} (request : Access reply) (rest : reply → Routine Unit) (current : State),
    system.Reachable ⟨current, .perform request rest⟩ → system.admits request current →
    inTxIsr current.trace = true → PolledFirst current (system.perform request current).2

/-- It does so in every run in which fewer than `0xFFFF` polls of one call find OWNER
set, and in which every chain that is accepted leaves a descriptor free. -/
theorem eth0TxIsr_reclaimsPolled {admits : {reply : Type} → Access reply → State → Prop}
    {fits : State → Nat → Prop}
    (bounded : ∀ {reply : Type} (request : Access reply) current,
      admits request current → WithinBudget request current)
    (room : ∀ current clen, fits current clen → LeavesRoom current clen) :
    ReclaimsPolled (flipSystemOf admits fits) := by
  intro reply request rest current reachable admitted inside
  have timely : True → ∀ {reply : Type} (request : Access reply) current,
      admits request current → WithinBudget request current := fun _ => bounded
  exact (flip_invariant timely room).of_access reachable admitted trivial inside

/-! ## The first packet -/

/-- Accesses that test neither OWNER nor EOQ. -/
def Unwatched : {reply : Type} → Access reply → Prop
  | _, .loadFlags .tx _ .owner => False
  | _, .loadFlags .tx _ .eoq => False
  | _, _ => True

theorem Fills.unwatched {cells : Nat → Prop} {reply : Type} {request : Access reply}
    (fills : Fills cells request) : Unwatched request := by
  cases request with
  | loadFlags chan d use =>
      cases chan with
      | tx =>
          cases use with
          | plain => trivial
          | owner => exact fills.elim
          | eoq => exact fills.elim
      | rx => trivial
  | _ => trivial

theorem Unwatched.withinBudget {reply : Type} {request : Access reply}
    (unwatched : Unwatched request) (state : State) : WithinBudget request state := by
  cases request with
  | loadFlags chan d use =>
      cases chan with
      | tx =>
          cases use with
          | plain => trivial
          | owner => exact unwatched.elim
          | eoq => trivial
      | rx => trivial
  | _ => trivial

/-- The effect of the first `cpswif_transmit`, of a chain of `clen` pbufs. -/
def State.transmitFirst (state : State) (portNum : Word) (p : Nat) (chain : List Nat)
    (first : Nat) : State :=
  let sent := (state.fillPacket portNum p chain first).writeHdp .tx (some first)
  { sent with txch :=
    { sent.txch with sendTail := some (place numBd first (chain.length - 1)) } }

/-- The call, with the way in which the packet is handed over. -/
theorem transmitCall_sends {permits : {reply : Type} → Access reply → State → Prop}
    (calm : ∀ {reply : Type} (request : Access reply) model, Unwatched request →
      permits request model)
    {state sent : State} {first p : Nat} {portNum : Word}
    {chain : List Nat} (bound : first < numBd) (head : state.txch.freeHead = some first)
    (path : PbufChain state (some p) chain) (short : chain.length < 2 ^ 8)
    (enough : chain.length ≤ state.txch.freeNum)
    (linked : ∀ offset, offset + 1 < chain.length →
      (state.bd .tx (place numBd first offset)).next =
        some (place numBd first (offset + 1)))
    (sends : (outline (fun _ => True) permits).Runs (sendBds (some first) state.txch.sendTail)
      (state.fillPacket portNum p chain first) () sent) :
    (outline (fun _ => True) permits).Runs (transmitCall portNum p chain.length) state ()
      (State.record { sent with txch := { sent.txch with
        sendTail := some (place numBd first (chain.length - 1)) } } (.accepted p chain.length)) := by
  have fills : ∀ {reply : Type} (request : Access reply) model,
      Fills (fun _ => True) request → permits request model :=
    fun request model fills => calm request model fills.unwatched
  have clen : (outline (fun _ => True) permits).Runs (pbufClen (some p)) state
      ((0 + chain.length) % 2 ^ 8) state :=
    runs_clen (fun _ _ => fills _ _ (by trivial)) path (by decide)
  rw [Nat.zero_add, Nat.mod_eq_of_lt short] at clen
  have filling : (outline (fun _ => True) permits).Runs (fillPacket portNum p) state _ _ :=
    fillPacket_runs fills head bound path (fun _ _ => trivial) linked
  have sendTail : (state.fillPacket portNum p chain first).txch.sendTail = state.txch.sendTail :=
    fillCells_sendTail
  simp only [transmitCall, cpswifTransmit, Program.bind_assoc]
  apply Outline.Runs.bind clen
  apply runs_getTxch (fills _ _ (by trivial))
  rw [if_neg (Nat.not_lt.mpr enough)]
  simp only [Program.bind_assoc]
  apply Outline.Runs.bind filling
  apply runs_getTxch (fills _ _ (by trivial))
  rw [sendTail]
  apply Outline.Runs.bind sends
  apply runs_setTxch (fills _ _ (by trivial))
  rw [Program.bind_done, if_pos rfl]
  exact runs_step (calm _ _ (by trivial)) (by trivial) .done

theorem transmitCall_runs {permits : {reply : Type} → Access reply → State → Prop}
    (calm : ∀ {reply : Type} (request : Access reply) model, Unwatched request →
      permits request model)
    {state : State} {first p : Nat} {portNum : Word} {chain : List Nat}
    (bound : first < numBd) (head : state.txch.freeHead = some first)
    (unsent : state.txch.sendTail = none) (path : PbufChain state (some p) chain)
    (short : chain.length < 2 ^ 8) (enough : chain.length ≤ state.txch.freeNum)
    (linked : ∀ offset, offset + 1 < chain.length →
      (state.bd .tx (place numBd first offset)).next =
        some (place numBd first (offset + 1))) :
    (outline (fun _ => True) permits).Runs (transmitCall portNum p chain.length) state ()
      ((state.transmitFirst portNum p chain first).record (.accepted p chain.length)) := by
  apply transmitCall_sends calm bound head path short enough linked
  rw [unsent]
  exact runs_step (calm _ _ (by trivial)) (by trivial) .done

@[simp] theorem transmitFirst_txch (state : State) (portNum : Word) (p : Nat)
    (chain : List Nat) (first : Nat) : (state.transmitFirst portNum p chain first).txch =
      { (state.fillPacket portNum p chain first).txch with
        sendTail := some (place numBd first (chain.length - 1)) } := by
  simp [State.transmitFirst]

@[simp] theorem transmitFirst_bd (state : State) (portNum : Word) (p : Nat)
    (chain : List Nat) (first : Nat) : (state.transmitFirst portNum p chain first).bd =
      (state.fillPacket portNum p chain first).bd := by
  simp [State.transmitFirst]

/-- The state after the first packet, which is one pbuf. -/
def sentOne : State := ((powerOn singleHeap).boot.transmitFirst 1 0 [0] 0).record (.accepted 0 1)

theorem sentOne_shape : sentOne.txch.sendHead = some 0 ∧ sentOne.txch.freeNum = 203 ∧
    (sentOne.bd .tx 0).sop = true ∧ (sentOne.bd .tx 0).owner = true := by
  have shape := boot_shape (powerOn_powerOn singleHeap)
  have fill : Filled 1 0 [0] 0 (powerOn singleHeap).boot _ :=
    fillPacket_filled (by decide) (by decide) (by decide) (by rw [shape.txch]; decide)
      (by intro offset inside; simp at inside)
  have first := fill.cells 0 (by decide)
  rw [place_zero (by decide)] at first
  simp only [sentOne, State.record, transmitFirst_txch, transmitFirst_bd, fill.txch, shape.txch,
    Bd.sop, Bd.owner, first]
  refine ⟨trivial, by decide, ?_, ?_⟩
  · rw [packetFlags_high (.inl rfl) _ _ _ _ (by decide)]
    simp
  · rw [packetFlags_high (.inl rfl) _ _ _ _ (by decide)]
    simp

theorem sentOne_reachable {system : System Access State}
    (effects : ∀ {reply : Type} (request : Access reply) state,
      system.perform request state = state.perform request)
    (calm : ∀ {reply : Type} (request : Access reply) state, Unwatched request →
      system.admits request state)
    (idle : system.Idle (powerOn singleHeap).boot)
    (allowed : ∀ {state}, PbufChain state (some 0) [0] → system.calls state (transmitCall 1 0 1)) :
    system.Reachable ⟨sentOne, .done ()⟩ := by
  have shape := boot_shape (powerOn_powerOn singleHeap)
  have path : PbufChain (powerOn singleHeap).boot (some 0) [0] := by
    unfold PbufChain
    rw [boot_pbuf]
    exact ⟨rfl, rfl⟩
  have calling : system.Reachable
      ⟨(powerOn singleHeap).boot, transmitCall 1 0 [0].length >>= fun _ => .done ()⟩ := by
    rw [Program.bind_pure]
    exact .step idle (.call (allowed path))
  have sending : (outline (fun _ => True) system.admits).Runs (transmitCall 1 0 [0].length)
      (powerOn singleHeap).boot () sentOne :=
    transmitCall_runs calm (by decide) (by rw [shape.txch]) (by rw [shape.txch]) path (by decide)
      (by rw [shape.txch]; decide) (by intro offset inside; simp at inside)
  exact reachable_of_runs effects (fun _ _ admitted => admitted) calling sending

section Schedules

variable {admits : {reply : Type} → Access reply → State → Prop} {fits : State → Nat → Prop}

theorem sentOne_flips
    (calm : ∀ {reply : Type} (request : Access reply) state, Unwatched request →
      admits request state)
    (short : ∀ state, fits state 1) : (flipSystemOf admits fits).Reachable ⟨sentOne, .done ()⟩ :=
  sentOne_reachable (fun _ _ => rfl) calm
    (.initial ⟨powerOn_booted singleHeap, singleHeap_grounded⟩)
    fun path => .inl ⟨1, 0, [0], .inl rfl, path, short _, rfl⟩

/-- The end of `eth0_tx_isr`. -/
def leaveTxIsr : Routine Unit := do
  emit (.eoi .tx)
  cpswifRxbdAlloc
  emit (.gpioOff .usr4)

/-- From a state with a packet, `eth0_tx_isr` comes to wait for it. -/
theorem awaits
    (calm : ∀ {reply : Type} (request : Access reply) state, Unwatched request →
      admits request state)
    {state : State} {head : Nat}
    (reachable : (flipSystemOf admits fits).Reachable ⟨state, .done ()⟩)
    (sendHead : state.txch.sendHead = some head) (sop : (state.bd .tx head).sop = true) :
    ∃ rest : Nat → Unit → Routine Unit, (flipSystemOf admits fits).Reachable
      ⟨state.record (.gpioOn .usr4),
        awaitOwner head 0xFFFF >>= fun cnt => reclaimBds head >>= rest cnt⟩ := by
  let entered := state.record (.gpioOn .usr4)
  have along : ∀ {result : Type} {code : Routine result} {before after : State} {value : result}
      {rest : result → Routine Unit}, (flipSystemOf admits fits).Reachable ⟨before, code >>= rest⟩ →
      (outline (fun _ => True) admits).Runs code before value after →
      (flipSystemOf admits fits).Reachable ⟨after, rest value⟩ :=
    reachable_of_runs (fun _ _ => rfl) fun _ _ admitted => admitted
  have entering : (flipSystemOf admits fits).Reachable
      ⟨state, emit (.gpioOn .usr4) >>= fun _ => getTxch (·.sendHead) >>= fun sendHead =>
        .iterate completeRound (sendHead, 0xFFFF) >>= fun _ => leaveTxIsr⟩ :=
    reachable.step (.call (.inr rfl))
  have lit : (outline (fun _ => True) admits).Runs (emit (.gpioOn .usr4)) state () entered :=
    runs_step (calm _ _ (by trivial)) (by trivial) .done
  have inside := along entering lit
  have reading : (outline (fun _ => True) admits).Runs (getTxch (·.sendHead)) entered (some head)
      entered := by
    rw [← sendHead]
    exact runs_step (calm _ _ (by trivial)) (by trivial) .done
  have looping := along inside reading
  have unrolled : ∃ outcome, (flipSystemOf admits fits).Reachable
      ⟨entered, completeRound (some head, 0xFFFF) >>= outcome⟩ :=
    ⟨_, looping.step (.code .unroll)⟩
  rcases unrolled with ⟨outcome, round⟩
  have testing : (flipSystemOf admits fits).Reachable
      ⟨entered, .lift (.loadFlags .tx head .plain) >>= fun flags =>
        (if flags &&& cpdmaBufDescSop = 0 then .done (.inr ()) else
          awaitOwner head 0xFFFF >>= fun cnt => reclaimBds head >>= fun _ =>
            getTxch (·.sendHead) >>= fun sendHead => .done (.inl (sendHead, cnt))) >>=
          outcome⟩ := round
  have tested : (outline (fun _ => True) admits).Runs (.lift (.loadFlags .tx head .plain)) entered
      (state.bd .tx head).flagsPktlen entered := by
    apply Outline.Runs.perform fun _ => entered
    · exact calm _ _ (by trivial)
    · intro answer _
      rfl
    · intro answer reads
      rw [reads.2 trivial]
      exact .done
  have awaiting := along testing tested
  have isFirst : ¬ (state.bd .tx head).flagsPktlen &&& cpdmaBufDescSop = 0 := by
    rw [and_sop_eq_zero_iff]
    simpa [Bd.sop] using sop
  rw [if_neg isFirst, Program.bind_assoc] at awaiting
  simp only [Program.bind_assoc] at awaiting
  exact ⟨_, awaiting⟩

end Schedules

/-! ## Polls -/

/-- The first access of `eth0_tx_isr` for a packet that it has waited for: it counts the first
descriptor as free. -/
def countsFirst : Access Unit :=
  .txch fun txch => ((), { txch with freeNum := incU32 txch.freeNum })

/-- The round of a poll that finds OWNER set. -/
theorem awaitRound_owned {permits : {reply : Type} → Access reply → State → Prop} {state : State}
    {head cnt : Nat} (owner : (state.bd .tx head).owner = true)
    (permitted : permits (.loadFlags .tx head .owner) state) (positive : 0 < cnt) :
    (outline (fun _ => True) permits).Runs (awaitRound head cnt) state
      (if cnt - 1 = 0 then .inr 0 else .inl (cnt - 1))
      (state.record (.poll .tx head (state.bd .tx head).flagsPktlen)) := by
  have isOwner := (and_owner_eq_iff (state.bd .tx head).flagsPktlen).mpr owner
  unfold awaitRound
  apply runs_lift permitted (by trivial)
  change (outline _ permits).Runs (if (state.bd .tx head).flagsPktlen &&& cpdmaBufDescOwner =
    cpdmaBufDescOwner then _ else _) _ _ _
  rw [if_pos isOwner, decU32_of_pos _ positive]
  by_cases last : cnt - 1 = 0
  · rw [if_pos last, if_pos last]
    exact .done
  · rw [if_neg last, if_neg last]
    exact .done

/-- The round of a poll that finds OWNER clear. -/
theorem awaitRound_released {permits : {reply : Type} → Access reply → State → Prop} {state : State}
    {head cnt : Nat} (released : (state.bd .tx head).owner = false)
    (permitted : permits (.loadFlags .tx head .owner) state) :
    (outline (fun _ => True) permits).Runs (awaitRound head cnt) state (.inr cnt)
      (state.record (.poll .tx head (state.bd .tx head).flagsPktlen)) := by
  have notOwner : ¬ (state.bd .tx head).flagsPktlen &&& cpdmaBufDescOwner = cpdmaBufDescOwner := by
    rw [and_owner_eq_iff]
    intro set
    exact absurd (set.symm.trans released) (by decide)
  unfold awaitRound
  apply runs_lift permitted (by trivial)
  change (outline _ permits).Runs (if (state.bd .tx head).flagsPktlen &&& cpdmaBufDescOwner =
    cpdmaBufDescOwner then _ else _) _ _ _
  rw [if_neg notOwner]
  exact .done

/-- The engine clears OWNER. -/
def State.disown (state : State) (head : Nat) : State :=
  state.modifyBd .tx head fun cell =>
    { cell with flagsPktlen := cell.flagsPktlen &&& ~~~cpdmaBufDescOwner }

namespace State

variable (state : State) (head : Nat)

theorem disown_flags (other : Nat) : ((state.disown head).bd .tx other).flagsPktlen =
    if other = head then (state.bd .tx other).flagsPktlen &&& ~~~cpdmaBufDescOwner
    else (state.bd .tx other).flagsPktlen := by
  unfold disown
  rw [State.modifyBd_bd]
  split <;> rfl

theorem disown_flips : EngineFlips state (state.disown head) where
  txch := rfl
  rxch := rfl
  pbuf := rfl
  trace := rfl
  bd d := by
    have same : (state.disown head).bd .tx d =
        { state.bd .tx d with flagsPktlen := ((state.disown head).bd .tx d).flagsPktlen } := by
      unfold disown
      rw [State.modifyBd_bd]
      split <;> rfl
    rw [same]
    refine ⟨rfl, rfl, rfl, rfl, ?_, False.elim⟩
    rw [disown_flags]
    intro bit _ notOwner
    split
    · rw [getLsbD_and_not_owner, decide_eq_false notOwner, Bool.not_false, Bool.and_true]
    · rfl

theorem disown_owner : ((state.disown head).bd .tx head).owner = false := by
  rw [Bd.owner, disown_flags, if_pos rfl, getLsbD_and_not_owner]
  simp

end State

/-- From a state with a packet that the engine still has, `eth0_tx_isr` comes to count it, after a
poll that finds OWNER set and one that finds it clear. -/
theorem counts_reachable {state : State} {head : Nat}
    (reachable : (flipSystemOf WithinBudget LeavesRoom).Reachable ⟨state, .done ()⟩)
    (sendHead : state.txch.sendHead = some head) (sop : (state.bd .tx head).sop = true)
    (owner : (state.bd .tx head).owner = true) : ∃ current rest,
    (flipSystemOf WithinBudget LeavesRoom).Reachable ⟨current, .perform countsFirst rest⟩ ∧
      current.txch = state.txch ∧ inTxIsr current.trace = true := by
  have calm : ∀ {reply : Type} (request : Access reply) state, Unwatched request →
      WithinBudget request state := fun _ state unwatched => unwatched.withinBudget state
  rcases awaits calm reachable sendHead sop with ⟨rest, awaiting⟩
  let entered := state.record (.gpioOn .usr4)
  let polled := entered.record (.poll .tx head (state.bd .tx head).flagsPktlen)
  let done := polled.disown head
  let released := done.record (.poll .tx head (done.bd .tx head).flagsPktlen)
  have within : WithinBudget (.loadFlags .tx head .owner) entered := by
    intro _
    change 0 + 1 < 0xFFFF
    decide
  have first : (outline (fun _ => True) WithinBudget).Runs (awaitRound head 0xFFFF) entered
      (.inl 0xFFFE) polled :=
    awaitRound_owned owner within (by decide)
  have second : (outline (fun _ => True) WithinBudget).Runs (awaitOwner head 0xFFFE) done 0xFFFE
      released :=
    .leave (awaitRound_released (State.disown_owner polled head) fun set =>
      absurd (set.symm.trans (State.disown_owner polled head)) (by decide)) .done
  have looping : (flipSystemOf WithinBudget LeavesRoom).Reachable
      ⟨entered, .loop (awaitRound head) 0xFFFF fun cnt => reclaimBds head >>= rest cnt⟩ := awaiting
  have again := reachable_of_runs (fun _ _ => rfl) (fun _ _ admitted => admitted)
    (by exact looping.step (.code .unroll)) first
  have flipped : (flipSystemOf WithinBudget LeavesRoom).Reachable
      ⟨done, awaitOwner head 0xFFFE >>= fun cnt => reclaimBds head >>= rest cnt⟩ :=
    again.step (.interfere (State.disown_flips polled head))
  have counting := reachable_of_runs (fun _ _ => rfl) (fun _ _ admitted => admitted) flipped second
  exact ⟨released, _, counting, rfl, rfl⟩

/-- A packet is sent, polled once while the engine has it and once when it is done, and counted. -/
theorem reclaimsPolled_withinBudget : ∃ current rest,
    (flipSystemOf WithinBudget LeavesRoom).Reachable ⟨current, .perform countsFirst rest⟩ ∧
      current.txch.freeNum = 203 ∧ inTxIsr current.trace = true ∧
      PolledFirst current (current.perform countsFirst).2 := by
  rcases sentOne_shape with ⟨sendHead, freeNum, sop, owner⟩
  have sent : (flipSystemOf WithinBudget LeavesRoom).Reachable ⟨sentOne, .done ()⟩ :=
    sentOne_flips (fun _ state unwatched => unwatched.withinBudget state) fun _ _ => by decide
  rcases counts_reachable sent sendHead sop owner with ⟨current, rest, counting, txch, inside⟩
  refine ⟨current, rest, counting, by rw [txch, freeNum], inside, ?_⟩
  exact eth0TxIsr_reclaimsPolled (fun _ _ within => within) (fun _ _ room => room) countsFirst _ _
    counting trivial inside

/-! ## A packet that is never sent -/

namespace State

/-- Polls of the descriptor `head` that find the same flags each time. -/
def pollTimes (head : Nat) : Nat → State → State
  | 0, state => state
  | count + 1, state =>
      pollTimes head count (state.record (.poll .tx head (state.bd .tx head).flagsPktlen))

variable (head count : Nat) (state : State)

theorem pollTimes_eq : ∃ polls, pollTimes head count state =
    { state with trace := polls ++ state.trace } := by
  induction count generalizing state with
  | zero => exact ⟨[], rfl⟩
  | succ count inductionHypothesis =>
      rcases inductionHypothesis (state.record (.poll .tx head (state.bd .tx head).flagsPktlen))
        with ⟨polls, same⟩
      refine ⟨polls ++ [.poll .tx head (state.bd .tx head).flagsPktlen], ?_⟩
      rw [pollTimes, same, List.append_assoc]
      rfl

theorem pollTimes_lastPoll (polled : 0 < count) : lastPoll (pollTimes head count state).trace =
    some (head, (state.bd .tx head).flagsPktlen) := by
  induction count generalizing state with
  | zero => exact absurd polled (Nat.lt_irrefl 0)
  | succ count inductionHypothesis =>
      cases count with
      | zero => rfl
      | succ count => exact inductionHypothesis _ (Nat.succ_pos count)

theorem pollTimes_inTxIsr : inTxIsr (pollTimes head count state).trace =
    inTxIsr state.trace := by
  induction count generalizing state with
  | zero => rfl
  | succ count inductionHypothesis => exact inductionHypothesis _

end State

/-- The wait for a packet that stays with the engine ends when the counter is used
up. -/
theorem awaitOwner_exhausted {state : State} {head cnt : Nat} (positive : 0 < cnt)
    (owner : (state.bd .tx head).owner = true) :
    still.Runs (awaitOwner head cnt) state 0 (State.pollTimes head cnt state) := by
  induction cnt generalizing state with
  | zero => exact absurd positive (Nat.lt_irrefl 0)
  | succ cnt inductionHypothesis =>
      have round : still.Runs (awaitRound head (cnt + 1)) state
          (if cnt = 0 then .inr 0 else .inl cnt)
          (state.record (.poll .tx head (state.bd .tx head).flagsPktlen)) :=
        awaitRound_owned owner trivial positive
      by_cases last : cnt = 0
      · subst last
        exact .leave round .done
      · rw [if_neg last] at round
        exact .next round (inductionHypothesis (Nat.pos_of_ne_zero last) owner)

/-- Counting the descriptors of a packet that the engine keeps comes after a poll that found OWNER
set. -/
theorem not_reclaimsPolled {state : State} {head : Nat}
    (reachable : (flipSystemOf (fun _ _ => True) fun _ _ => True).Reachable ⟨state, .done ()⟩)
    (sendHead : state.txch.sendHead = some head) (small : state.txch.freeNum < numBd)
    (sop : (state.bd .tx head).sop = true) (owner : (state.bd .tx head).owner = true) :
    ¬ ReclaimsPolled (flipSystemOf (fun _ _ => True) fun _ _ => True) := by
  intro claim
  have size := numBd_eq
  rcases awaits (fun _ _ _ => trivial) reachable sendHead sop with ⟨rest, awaiting⟩
  have waited : still.Runs (awaitOwner head 0xFFFF) (state.record (.gpioOn .usr4)) 0 _ :=
    awaitOwner_exhausted (by decide) owner
  have counting := reachable_of_still (fun _ _ => rfl) (fun _ _ => trivial) awaiting waited
  rcases State.pollTimes_eq head 0xFFFF (state.record (.gpioOn .usr4)) with ⟨polls, same⟩
  have counts := claim countsFirst _ _ (by exact counting) trivial (State.pollTimes_inTxIsr ..)
  have txch : (State.pollTimes head 0xFFFF (state.record (.gpioOn .usr4))).txch =
      state.txch := by
    rw [same]
    rfl
  have more : (State.pollTimes head 0xFFFF (state.record (.gpioOn .usr4))).txch.freeNum <
      incU32 (State.pollTimes head 0xFFFF (state.record (.gpioOn .usr4))).txch.freeNum := by
    rw [txch, incU32_of_lt (by omega)]
    omega
  rcases counts.count more with ⟨first, _, _, _, ⟨flags, polled, clear⟩, isFirst, _⟩
  rw [txch, sendHead] at isFirst
  cases isFirst
  rw [State.pollTimes_lastPoll _ _ _ (by decide)] at polled
  have read : (state.bd .tx head).flagsPktlen = flags := (Prod.mk.inj (Option.some.inj polled)).2
  rw [← read] at clear
  exact absurd (owner.symm.trans clear) (by decide)

/-- A packet whose OWNER bit stays set is reclaimed all the same, once the counter is
used up. -/
theorem eth0TxIsr_not_reclaimsPolled :
    ¬ ReclaimsPolled (flipSystemOf (fun _ _ => True) fun _ _ => True) := by
  rcases sentOne_shape with ⟨sendHead, freeNum, sop, owner⟩
  have small : sentOne.txch.freeNum < numBd := by
    rw [freeNum]
    decide
  have reachable : (flipSystemOf (fun _ _ => True) fun _ _ => True).Reachable ⟨sentOne, .done ()⟩ :=
    sentOne_flips (fun _ _ _ => trivial) fun _ => trivial
  exact not_reclaimsPolled reachable sendHead small sop owner

end BbbEth.Cpsw
