import BbbEth.Cpsw.Tx.Beside
import BbbEth.Cpsw.Tx.Polled

/-!
# No packet is left behind

A packet that `cpswif_transmit` appends is started, unless the engine has loaded the NULL pointer of
the old tail and has not completed its packet yet when the driver tests EOQ.
-/

namespace BbbEth.Cpsw

open BbbEth.Interference BbbEth.Linked Routine

section Runs

variable {admits : {reply : Type} → Access reply → State → Prop}
variable {fits : State → Nat → Prop}

/-- `cpswif_cpdma_init` leaves a stopped engine with nothing to send. -/
theorem Booted.txAwake {state : State} (booted : Booted state) (grounded : Grounded state) :
    TxAwake state := by
  rcases booted.shape with ⟨start, _, shape⟩
  have owner : ∀ d < numBd, (state.bd .tx d).owner = false := by
    intro d small
    rw [Bd.owner, (shape.tx d small).2]
    exact BitVec.getLsbD_zero
  refine ⟨shape.txHistory.1, 0, [], [], ⟨⟨shape.txRing, shape.txHistory.2, grounded, ?_⟩, ?_, ?_⟩⟩
  · rw [shape.rxch]
  · refine ⟨by decide, by decide, trivial, ?_, fun some => (some rfl).elim, [], [], rfl, ?_, ?_, ?_⟩
    · intro offset inside
      exact absurd inside (Nat.not_lt_zero _)
    · intro offset inside
      exact absurd inside (Nat.not_lt_zero _)
    · intro offset _ inside
      exact absurd inside (Nat.not_lt_zero _)
    · refine ⟨shape.engineTx, ?_⟩
      rw [shape.txch]
      intro d isTail
      cases isTail
  · intro offset _ _
    exact owner _ (place_lt (by decide))

/-- Every step of the system keeps the engine serving the queue. -/
theorem engine_invariant
    (unraced : ∀ {reply : Type} (request : Access reply) current,
      admits request current → Unraced request current)
    (room : ∀ current clen, fits current clen → LeavesRoom current clen) :
    (engineSystem admits fits).Invariant (engineContract admits fits).safe
      (engineContract admits fits).guarantee TxAwake where
  initial start initial := initial.1.txAwake initial.2
  outside current next awake change := by
    rcases awake with ⟨outside, start, reclaimed, packets, serving⟩
    rcases change with ⟨⟨heap, rfl⟩, grounded⟩
    have invariant := serving.invariant
    exact ⟨outside, start, reclaimed, packets,
      ⟨invariant.ring.congr rfl fun _ => ⟨rfl, rfl, rfl, rfl⟩, invariant.history, grounded,
        invariant.armed⟩,
      serving.served.congr rfl (fun _ _ => rfl) fun _ _ => rfl, serving.rested⟩
  rely current next awake step := by
    rcases awake with ⟨outside, start, reclaimed, packets, serving⟩
    refine ⟨?_, start, reclaimed, packets, serving.step step⟩
    rw [(TxStep.frame step).trace]
    exact outside
  safely _ _ := trivial
  calls current code awake call := by
    rcases awake with ⟨outside, start, reclaimed, packets, serving⟩
    rcases call with ⟨portNum, p, chain, port, path, short, rfl⟩ | rfl
    · exact transmit_serving unraced serving outside port path (room _ _ short)
    · exact eth0TxIsr_serving unraced serving outside

/-- An engine that serves the queue stops only when it has sent everything. -/
theorem TxServing.allStarted {state : State} {start : Nat} {reclaimed packets : List Packet}
    (serving : TxServing state start reclaimed packets) : AllStarted state := by
  intro idle d linked
  have ring := serving.invariant.ring
  rcases serving.served.progress with ⟨finished, pending, split, progress⟩
  have nothing : pending = [] := by
    by_contra more
    rcases List.exists_cons_of_ne_nil more with ⟨packet, later, rfl⟩
    rcases progress.engine.1 with ⟨offset, _, fetch | loaded⟩
    · rw [idle] at fetch
      cases fetch
    · rw [idle] at loaded
      cases loaded
  rw [nothing, List.append_nil] at split
  subst split
  rcases linked with ⟨chain, finish, path, member⟩
  have small : ∀ d ∈ chain, d < numBd := by
    apply Path.forall_mem (· < numBd) path
    · intro head isHead
      rw [ring.sendHead] at isHead
      exact Option.some.inj isHead ▸ ring.bound
    · intro cell other bound next
      rw [ring.links cell bound] at next
      split at next
      · cases next
      · exact Option.some.inj next ▸ place_lt (by decide)
  rcases exists_place start (small d member) with ⟨offset, inside, rfl⟩
  by_cases queued : offset < slots packets
  · exact progress.done offset queued
  · exact serving.rested offset (Nat.le_of_not_lt queued) inside

/-- No packet is left behind in the runs where no EOQ test of `cpswif_transmit` meets an engine that
works with the NULL pointer of the old tail, no poll of `eth0_tx_isr` gives up, and a chain that is
accepted leaves a descriptor free. -/
theorem noLostWakeUp_of_unraced
    (unraced : ∀ {reply : Type} (request : Access reply) current,
      admits request current → Unraced request current)
    (room : ∀ current clen, fits current clen → LeavesRoom current clen) :
    NoLostWakeUp (engineSystem admits fits) := by
  intro state idle
  rcases (engine_invariant unraced room).of_idle idle with ⟨_, start, reclaimed, packets, serving⟩
  exact serving.allStarted

end Runs

/-! ## Two packets -/

theorem link_engine (state : State) (first last : Nat) :
    (state.link first last).engine = state.engine := by
  cases tail : state.txch.sendTail <;> simp [State.link, State.linkTail, tail]

/-- A state in which the first packet, of one pbuf, is with the engine. -/
structure SentOne (state : State) : Prop where
  txch : state.txch = ⟨some 1, some 0, some 0, 203⟩
  pbuf : state.pbuf = singleHeap
  next : (state.bd .tx 0).next = none
  eop : (state.bd .tx 0).eop = true
  eoq : (state.bd .tx 0).eoq = false

theorem sentOne_sent : SentOne sentOne ∧ sentOne.engine .tx = .fetch 0 0 := by
  have shape := boot_shape (powerOn_powerOn singleHeap)
  have fill : Filled 1 0 [0] 0 (powerOn singleHeap).boot _ :=
    fillPacket_filled (by decide) (by decide) (by decide) (by rw [shape.txch]; decide)
      (by intro offset inside; simp at inside)
  have first := fill.cells 0 (by decide)
  rw [place_zero (by decide)] at first
  refine ⟨⟨?_, ?_, ?_, ?_, ?_⟩, ?_⟩
  · simp only [sentOne, State.record, transmitFirst_txch, fill.txch, shape.txch,
      (shape.tx _ (place_lt (by decide))).1]
    decide
  · simp only [sentOne, State.record, State.transmitFirst, State.writeHdp_pbuf, fill.pbufs,
      boot_pbuf]
  · simp only [sentOne, State.record, transmitFirst_bd, first]
    rfl
  · simp only [sentOne, State.record, transmitFirst_bd, Bd.eop, first]
    rw [packetFlags_high (.inl rfl) _ _ _ _ (by decide)]
    simp
  · simp only [sentOne, State.record, transmitFirst_bd, Bd.eoq, first]
    rw [packetFlags_high (.inl rfl) _ _ _ _ (by decide)]
    simp
  · simp only [sentOne, State.record, State.transmitFirst]
    apply writeHdp_engine
    rw [fill.engine]
    exact shape.engineTx

theorem sentOne_accepted : accepted sentOne.trace = [⟨0, 1⟩] := by
  have shape := boot_shape (powerOn_powerOn singleHeap)
  have fill : Filled 1 0 [0] 0 (powerOn singleHeap).boot _ :=
    fillPacket_filled (by decide) (by decide) (by decide) (by rw [shape.txch]; decide)
      (by intro offset inside; simp at inside)
  have nothing : accepted (powerOn singleHeap).boot.trace = [] := shape.txHistory.2.accepted
  have trace : sentOne.trace = .accepted 0 1 :: .hdp .tx (some 0) ::
      ((powerOn singleHeap).boot.fillPacket 1 0 [0] 0).trace := by
    simp only [sentOne, State.record, State.transmitFirst, State.writeHdp_trace]
  rw [trace, fill.trace]
  generalize (powerOn singleHeap).boot = state at nothing
  exact List.reverse_cons.trans (congrArg (· ++ [(⟨0, 1⟩ : Packet)]) nothing)

theorem Unwatched.unraced {reply : Type} {request : Access reply} (unwatched : Unwatched request)
    (state : State) : Unraced request state := by
  cases request with
  | loadFlags chan d use =>
      cases chan with
      | tx => cases use with | plain => trivial | _ => exact unwatched.elim
      | rx => trivial
  | _ => trivial

/-- The second packet, of one pbuf, linked behind the first one. -/
def State.sendSecond (state : State) : State :=
  ((state.fillPacket 1 1 [1] 1).link 1 1).record (.accepted 1 1)

namespace SentOne

variable {state : State}

theorem setEngine (sent : SentOne state) (position : Engine) :
    SentOne (state.setEngine .tx position) :=
  ⟨sent.txch, sent.pbuf, sent.next, sent.eop, sent.eoq⟩

theorem filled (sent : SentOne state) : Filled 1 1 [1] 1 state (state.fillPacket 1 1 [1] 1) := by
  apply fillPacket_filled (by decide) (by decide) (by decide)
  · simp [sent.txch]
  · intro offset inside
    simp at inside

theorem first (sent : SentOne state) :
    (state.fillPacket 1 1 [1] 1).bd .tx 0 = state.bd .tx 0 :=
  sent.filled.others 0 (by simp [arc, place, numBd_eq])

theorem path (sent : SentOne state) : PbufChain state (some 1) [1] := by
  unfold PbufChain
  rw [sent.pbuf]
  exact ⟨rfl, rfl⟩

/-- The second call finds EOQ clear. -/
theorem sends {permits : {reply : Type} → Access reply → State → Prop}
    (calm : ∀ {reply : Type} (request : Access reply) model, Unwatched request →
      permits request model)
    (sent : SentOne state)
    (tested : ∀ model, model.engine = state.engine → permits (.loadFlags .tx 0 .eoq) model) :
    (outline (fun _ => True) permits).Runs (transmitCall 1 1 [1].length) state ()
      state.sendSecond := by
  have tail : (state.fillPacket 1 1 [1] 1).txch.sendTail = some 0 := by
    rw [sent.filled.txch, sent.txch]
  have clear : ¬ (state.bd .tx 0).flagsPktlen &&& cpdmaBufDescEoq ≠ 0 := by
    rw [and_eoq_ne_zero_iff]
    intro set
    exact absurd (set.symm.trans sent.eoq) (by decide)
  have sends : (outline (fun _ => True) permits).Runs (sendBds (some 1) state.txch.sendTail)
      (state.fillPacket 1 1 [1] 1) () ((state.fillPacket 1 1 [1] 1).linkTail 1) := by
    rw [State.linkTail, tail, sent.txch]
    unfold sendBds restartTx
    apply runs_lift (calm _ _ (by trivial)) (by trivial)
    apply runs_lift (tested _ (by exact sent.filled.engine)) (by trivial)
    simp only [State.perform, State.modifyBd_bd_self, sent.first, if_neg clear]
    exact .done
  exact transmitCall_sends calm (by decide) (by rw [sent.txch]) sent.path (by decide)
    (by simp [sent.txch]) (by intro offset inside; simp at inside) sends

theorem second_next (sent : SentOne state) :
    (state.sendSecond.bd .tx 0).next = some 1 ∧ (state.sendSecond.bd .tx 1).next = none := by
  have tail : (state.fillPacket 1 1 [1] 1).txch.sendTail = some 0 := by
    rw [sent.filled.txch, sent.txch]
  have second := sent.filled.cells 0 (by decide)
  rw [place_zero (by decide)] at second
  constructor
  · simp only [State.sendSecond, State.record, link_bd, tail, if_true]
  · simp only [State.sendSecond, State.record, link_bd, tail, second]
    rfl

theorem second_eop (sent : SentOne state) :
    (state.sendSecond.bd .tx 0).eop = true ∧ (state.sendSecond.bd .tx 1).eop = true := by
  have second := sent.filled.cells 0 (by decide)
  rw [place_zero (by decide)] at second
  constructor
  · simp only [State.sendSecond, State.record, link_bd, sent.first]
    exact sent.eop
  · simp only [State.sendSecond, State.record, link_bd, Bd.eop, second]
    rw [packetFlags_high (.inl rfl) _ _ _ _ (by decide)]
    simp

theorem second_engine (sent : SentOne state) : state.sendSecond.engine = state.engine := by
  simp only [State.sendSecond, State.record, link_engine, sent.filled.engine]

/-- An engine that has not loaded the pointer of the first packet yet goes on with the second one,
and stops behind it. -/
theorem completesBoth (sent : SentOne state) (engine : state.engine .tx = .fetch 0 0) :
    ∃ after, Relation.ReflTransGen TxStep state.sendSecond after ∧ after.engine .tx = .idle := by
  let loaded := state.sendSecond.setEngine .tx (.loaded 0 0 (some 1))
  let first := loaded.completeTx 0 0 (some 1)
  let waiting := first.setEngine .tx (.loaded 1 1 none)
  have load : TxStep state.sendSecond loaded := by
    have step : TxStep state.sendSecond _ := .load (by rw [sent.second_engine]; exact engine)
    rwa [sent.second_next.1] at step
  have complete : TxStep loaded first :=
    .complete (by simp only [loaded, State.setEngine, if_true]) sent.second_eop.1
  have next : (first.bd .tx 1).next = none := by
    rcases completeTx_bd loaded 0 0 1 (some 1) with ⟨flags, same, _⟩
    rw [same]
    exact sent.second_next.2
  have again : TxStep first waiting := by
    have step : TxStep first _ := .load (completeTx_engine loaded 0 0 (some 1))
    rwa [next] at step
  have eop : (waiting.bd .tx 1).eop = true := by
    rw [← sent.second_eop.2]
    exact (complete.frame.bd 1).sameShape.eop
  have stop : TxStep waiting (waiting.completeTx 1 1 none) :=
    .complete (by simp only [waiting, State.setEngine, if_true]) eop
  exact ⟨_, .tail (.tail (.tail (.single load) complete) again) stop, completeTx_engine ..⟩

/-! ### The engine has loaded the NULL pointer -/

/-- The engine does not find the second packet: it completes the first one with the pointer that it
had loaded. -/
theorem completes (sent : SentOne state) (engine : state.engine .tx = .loaded 0 0 none) :
    TxStep state.sendSecond (state.sendSecond.completeTx 0 0 none) := by
  apply TxStep.complete
  · simp only [State.sendSecond, State.record, link_engine, sent.filled.engine, engine]
  · simp only [State.sendSecond, State.record, link_bd, sent.first]
    exact sent.eop

/-- The second packet is left behind. -/
theorem notStarted (sent : SentOne state) :
    ¬ AllStarted (state.sendSecond.completeTx 0 0 none) := by
  intro claim
  have tail : (state.fillPacket 1 1 [1] 1).txch.sendTail = some 0 := by
    rw [sent.filled.txch, sent.txch]
  have second := sent.filled.cells 0 (by decide)
  rw [place_zero (by decide)] at second
  have next : ∀ d, ((state.sendSecond.completeTx 0 0 none).bd .tx d).next =
      (state.sendSecond.bd .tx d).next := by
    intro d
    rcases completeTx_bd state.sendSecond 0 0 d none with ⟨flags, same, _⟩
    rw [same]
  have linked : InSendChain (state.sendSecond.completeTx 0 0 none) 1 := by
    refine ⟨[0, 1], none, ⟨?_, ?_, ?_⟩, by simp⟩
    · change (state.sendSecond.txch).sendHead = some 0
      simp only [State.sendSecond, State.record, link_txch, sent.filled.txch, sent.txch]
    · refine (next 0).trans ?_
      simp only [State.sendSecond, State.record, link_bd, tail, if_true]
    · refine (next 1).trans ?_
      simp only [State.sendSecond, State.record, link_bd, tail, second]
      rfl
  have started := claim (completeTx_engine ..) 1 linked
  have owner : (state.sendSecond.bd .tx 1).owner = true := by
    simp only [State.sendSecond, State.record, link_bd, Bd.owner, second]
    rw [packetFlags_high (.inl rfl) _ _ _ _ (by decide)]
    simp
  rw [completeTx_owner, owner] at started
  cases started

/-- What has been accepted. -/
theorem second_accepted (sent : SentOne state) :
    accepted state.sendSecond.trace = accepted state.trace ++ [⟨1, 1⟩] := by
  simp only [State.sendSecond, State.record, link_trace, sent.filled.trace]
  exact List.reverse_cons

end SentOne

section Schedules

variable {admits : {reply : Type} → Access reply → State → Prop} {fits : State → Nat → Prop}

theorem sentOne_engine
    (calm : ∀ {reply : Type} (request : Access reply) state, Unwatched request →
      admits request state)
    (short : ∀ state, fits state 1) :
    (engineSystem admits fits).Reachable ⟨sentOne, .done ()⟩ :=
  sentOne_reachable (fun _ _ => rfl) calm
    (.initial ⟨powerOn_booted singleHeap, singleHeap_grounded⟩)
    fun path => .inl ⟨1, 0, [0], .inl rfl, path, short _, rfl⟩

/-- The second call, from a state with the first packet. -/
theorem SentOne.reachable {state : State} (sent : SentOne state)
    (calm : ∀ {reply : Type} (request : Access reply) state, Unwatched request →
      admits request state)
    (tested : ∀ model, model.engine = state.engine → admits (.loadFlags .tx 0 .eoq) model)
    (short : ∀ state, fits state 1)
    (idle : (engineSystem admits fits).Reachable ⟨state, .done ()⟩) :
    (engineSystem admits fits).Reachable ⟨state.sendSecond, .done ()⟩ := by
  have calling : (engineSystem admits fits).Reachable
      ⟨state, transmitCall 1 1 [1].length >>= fun _ => .done ()⟩ := by
    rw [Program.bind_pure]
    exact .step idle (.call (.inl ⟨1, 1, [1], .inl rfl, sent.path, short _, rfl⟩))
  exact reachable_of_runs (fun _ _ => rfl) (fun _ _ admitted => admitted) calling
    (sent.sends calm tested)

end Schedules

/-- Two packets are sent: the second one is linked before the engine loads the pointer of the
first. -/
theorem noLostWakeUp_unraced : ∃ state, (engineSystem Unraced LeavesRoom).Idle state ∧
    state.engine .tx = .idle ∧ accepted state.trace = [⟨0, 1⟩, ⟨1, 1⟩] ∧ AllStarted state := by
  rcases sentOne_sent with ⟨sent, engine⟩
  have calm : ∀ {reply : Type} (request : Access reply) state, Unwatched request →
      Unraced request state := fun _ state unwatched => unwatched.unraced state
  have short : ∀ state, LeavesRoom state 1 := fun _ _ => by decide
  have tested : ∀ model, model.engine = sentOne.engine →
      Unraced (.loadFlags .tx 0 .eoq) model := by
    intro model same first loaded
    rw [same, engine] at loaded
    cases loaded
  have second := sent.reachable calm tested short (sentOne_engine calm short)
  rcases sent.completesBoth engine with ⟨after, steps, stopped⟩
  have idle : (engineSystem Unraced LeavesRoom).Idle after :=
    System.Idle.interferes second steps
  refine ⟨after, idle, stopped, ?_, ?_⟩
  · have trace : after.trace = sentOne.sendSecond.trace := by
      clear idle stopped
      induction steps with
      | refl => rfl
      | tail _ step same => exact step.frame.trace.trans same
    rw [trace, sent.second_accepted, sentOne_accepted]
    rfl
  · exact noLostWakeUp_of_unraced (fun _ _ unraced => unraced) (fun _ _ room => room) _ idle

/-! ## A packet that is left behind -/

/-- A packet that is appended while the engine works with the NULL pointer of the one before it is
left behind. -/
theorem not_noLostWakeUp : ¬ NoLostWakeUp (engineSystem (fun _ _ => True) fun _ _ => True) := by
  intro claim
  rcases sentOne_sent with ⟨sent, engine⟩
  have first : (engineSystem (fun _ _ => True) fun _ _ => True).Reachable ⟨sentOne, .done ()⟩ :=
    sentOne_engine (fun _ _ _ => trivial) fun _ => trivial
  -- The engine loads the next pointer of the first packet before the second one is linked.
  have step : TxStep sentOne (sentOne.setEngine .tx (.loaded 0 0 none)) := by
    have load := TxStep.load engine
    rwa [sent.next] at load
  have waiting := first.step (.interfere step)
  have loaded := sent.setEngine (.loaded 0 0 none)
  have position : (sentOne.setEngine .tx (.loaded 0 0 none)).engine .tx = .loaded 0 0 none := by
    simp only [State.setEngine, if_true]
  have second := loaded.reachable (fun _ _ _ => trivial) (fun _ _ => trivial) (fun _ => trivial)
    waiting
  have left := second.step (.interfere (loaded.completes position))
  exact loaded.notStarted (claim _ left)

end BbbEth.Cpsw
