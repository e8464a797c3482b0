import BbbEth.Cpsw.Tx.Append

/-!
# The calls beside the engine

`cpswif_transmit` and `eth0_tx_isr` keep the engine serving the queue.
-/

namespace BbbEth.Cpsw

open BbbEth.Interference BbbEth.Linked Routine

/-- The transmit invariant, with an engine that serves the queue. -/
structure TxServing (state : State) (start : Nat) (reclaimed packets : List Packet) : Prop where
  invariant : TxInvariant state start reclaimed packets
  served : Served state start packets state.txch.sendTail
  rested : Rested state start packets

/-- The states between two calls. -/
def TxAwake (state : State) : Prop :=
  inTxIsr state.trace = false ∧ ∃ start reclaimed packets, TxServing state start reclaimed packets

section Serving

variable {state next : State} {start : Nat} {reclaimed packets : List Packet}

theorem TxStep.like (step : TxStep state next) : TxLike (fun _ => False) state next :=
  (TxLike.refl _ state).frame step.frame fun _ => False.elim

theorem TxServing.step (serving : TxServing state start reclaimed packets)
    (step : TxStep state next) : TxServing next start reclaimed packets where
  invariant := serving.invariant.like step.like
  served := by
    rw [step.frame.txch]
    exact serving.served.step step
  rested offset low high := by
    have outside : Unqueued start packets (place numBd start offset) :=
      unqueued_place low high
    rw [serving.served.untouched step outside]
    exact serving.rested offset low high

/-- A model that is exact outside the queue. -/
theorem TxServing.of_serves {model : State} {keeps : List Event → Prop} {tail : Ptr}
    (invariant : TxInvariant model start reclaimed packets) (rested : Rested model start packets)
    (serves : Serves (Unqueued start packets) start packets tail keeps model state)
    (isTail : tail = model.txch.sendTail) : TxServing state start reclaimed packets where
  invariant := invariant.like serves.like
  served := by
    rw [serves.like.txch, ← isTail]
    exact serves.served
  rested offset low high := by
    have outside : Unqueued start packets (place numBd start offset) :=
      unqueued_place low high
    rw [serves.like.bd_eq outside]
    exact rested offset low high

end Serving

/-! ## `cpswif_transmit` -/

section Transmit

variable {admits : {reply : Type} → Access reply → State → Prop}
variable {fits : State → Nat → Prop} {result : Type} {post : result → State → Prop}
variable {state filled actual : State} {start p : Nat} {reclaimed packets : List Packet}
variable {portNum : Word} {chain : List Nat}

/-- The filled descriptors are ready to be appended. -/
theorem TxRing.appendable (ring : TxRing state start packets) (rested : Rested state start packets)
    (port : SlavePort portNum) (nonempty : 0 < chain.length)
    (enough : chain.length ≤ state.txch.freeNum)
    (fill : Filled portNum p chain (place numBd start (slots packets)) state filled) :
    Appendable filled (place numBd start (slots packets)) ⟨p, chain.length⟩ where
  marked := ring.append_marked port nonempty enough fill
  linked offset inside := by
    change offset + 1 < chain.length at inside
    rw [fill.cells offset (by omega)]
    exact if_neg (by omega)
  closed := by
    change ((filled.bd .tx (place numBd _ (chain.length - 1))).next) = none
    rw [fill.cells _ (by omega)]
    exact if_pos (by omega)
  owner offset inside := by
    change offset < chain.length at inside
    have count := ring.count
    have old : BitVec.getLsbD _ 29 = false := rested (slots packets + offset) (by omega) (by omega)
    have free : BitVec.getLsbD _ 31 = false :=
      (ring.free (slots packets + offset) (by omega) (by omega)).1
    rw [← place_place] at old free
    rw [fill.cells offset inside]
    change (packetFlags _ _ _ _ _).getLsbD 29 = (packetFlags _ _ _ _ _).getLsbD 31
    rw [packetFlags_high port _ _ _ _ (by decide), packetFlags_high port _ _ _ _ (by decide), old,
      free]
    simp
  eoq := by
    change (filled.bd .tx (place numBd _ (chain.length - 1))).eoq = false
    rw [fill.cells _ (by omega)]
    change (packetFlags _ _ _ _ _).getLsbD 28 = false
    rw [packetFlags_high port _ _ _ _ (by decide), Nat.sub_add_cancel nonempty]
    simp

/-- Filling descriptors behind the queue spares it. -/
theorem Fills.spares {tail : Ptr} {cells : Nat → Prop} {model : State} {reply : Type}
    {request : Access reply} (outside : ∀ d, cells d → Unqueued start packets d)
    (apart : ∀ d, cells d → tail ≠ some d) (fills : Fills cells request) :
    Spares (Unqueued start packets) start packets tail request model := by
  cases request with
  | storeNext chan d value => cases chan with | tx => exact outside d fills | rx => trivial
  | storeBufptr chan d value => cases chan with | tx => exact outside d fills | rx => trivial
  | storeBufoffLen chan d value => cases chan with | tx => exact outside d fills | rx => trivial
  | storePbuf chan d value => cases chan with | tx => exact outside d fills | rx => trivial
  | storeFlags chan d value =>
      cases chan with
      | tx => exact ⟨outside d fills, fun isTail => (apart d fills isTail).elim⟩
      | rx => trivial
  | _ => trivial

/-- The last accesses of a call that transmits. -/
def Closes : {reply : Type} → Access reply → Prop
  | _, .txch _ => True
  | _, .emit (.accepted _ _) => True
  | _, _ => False

theorem closes_describes {tail : Ptr} :
    (outline (Unqueued start packets) fun request _ => Closes request).Describes
      (engineContract admits fits) (Beside (Unqueued start packets) start packets tail) := by
  apply serves_describes fun _ inside => inside
  · intro reply request model closes
    cases request with
    | txch use => trivial
    | emit event => cases event with | accepted => rfl | _ => exact closes.elim
    | _ => exact closes.elim
  · intro reply request model closes
    cases request with
    | txch use => trivial
    | emit event => trivial
    | _ => exact closes.elim
  · intro reply request model trace closes outside
    cases request with
    | emit event => cases event with | accepted => exact outside | _ => exact closes.elim
    | _ => exact outside

theorem fills_describes {tail : Ptr} {cells : Nat → Prop}
    (outside : ∀ d, cells d → Unqueued start packets d) (apart : ∀ d, cells d → tail ≠ some d) :
    (outline (Unqueued start packets) fun request _ => Fills cells request).Describes
      (engineContract admits fits) (Beside (Unqueued start packets) start packets tail) := by
  apply serves_describes fun _ inside => inside
  · intro reply request model fills
    exact fills.calm.isLocal
  · intro reply request model fills
    exact fills.spares outside apart
  · intro reply request model trace fills
    exact fills.calm.outside

/-- OWNER stays clear behind the packet. -/
theorem Rested.queue (rested : Rested state start packets) (ring : TxRing state start packets)
    (enough : chain.length ≤ state.txch.freeNum)
    (fill : Filled portNum p chain (place numBd start (slots packets)) state filled)
    (last : Nat) : Rested (filled.link (place numBd start (slots packets)) last) start
      (packets ++ [⟨p, chain.length⟩]) := by
  intro offset low high
  simp only [slots_append, slots_cons, slots_nil, Nat.add_zero] at low
  rw [link_bd, fill.others _ (ring.notMem_filled enough high (.inr low))]
  exact rested offset (by omega) high

theorem transmit_serving
    (unraced : ∀ {reply : Type} (request : Access reply) current,
      admits request current → Unraced request current)
    (serving : TxServing state start reclaimed packets) (outside : inTxIsr state.trace = false)
    (port : SlavePort portNum) (path : PbufChain state (some p) chain)
    (room : LeavesRoom state chain.length) :
    (engineContract admits fits).Ensures (fun _ after => TxAwake after)
      (transmitCall portNum p chain.length) state := by
  have ring := serving.invariant.ring
  have count := ring.count
  have size := numBd_eq
  have beside : Beside (Unqueued start packets) start packets state.txch.sendTail state state :=
    ⟨.refl _ _, serving.served, outside⟩
  by_cases full : state.txch.freeNum < chain.length % 2 ^ 8
  · have describes : (outline (Unqueued start packets) fun request _ =>
        Fills (fun _ => False) request).Describes (engineContract admits fits)
        (Beside (Unqueued start packets) start packets state.txch.sendTail) :=
      fills_describes (fun _ => False.elim) fun _ => False.elim
    apply cpswifTransmit_full describes beside path (fun _ _ fills => fills) full
    intro later kept
    apply describes.done kept
    intro after still
    exact ⟨still.trace, start, reclaimed, packets,
      TxServing.of_serves serving.invariant serving.rested still rfl⟩
  · have short : chain.length < numBd := room (Nat.le_of_not_lt full)
    have enough : chain.length ≤ state.txch.freeNum := by omega
    have nonempty := path.nonempty
    have apart : ∀ offset < chain.length, state.txch.sendTail ≠
        some (place numBd (place numBd start (slots packets)) offset) :=
      fun offset inside => ring.free_ne_tail (by omega)
    have describes : (outline (Unqueued start packets) fun request _ =>
        Fills (· ∈ arc numBd (place numBd start (slots packets)) chain.length) request).Describes
        (engineContract admits fits)
        (Beside (Unqueued start packets) start packets state.txch.sendTail) := by
      apply fills_describes
      · intro d inside
        rcases mem_arc.mp inside with ⟨offset, less, rfl⟩
        exact unqueued_behind (by omega)
      · intro d inside
        rcases mem_arc.mp inside with ⟨offset, less, rfl⟩
        exact apart offset less
    apply cpswifTransmit_ensures describes ring beside path (fun _ => enough)
      (fun _ _ fills => fills) (fun isFull => (full isFull).elim)
    intro filled later _ fill kept
    have sendTail : filled.txch.sendTail = state.txch.sendTail := by rw [fill.txch]
    have ready := ring.appendable serving.rested port nonempty enough fill
    rw [← sendTail] at kept apart
    refine sendBds_serves unraced kept ?_ ?_ ?_ ?_ ready ?_
    · intro unsent
      exact ring.unsent (sendTail.symm.trans unsent)
    · intro tail isTail
      have isOld := sendTail.symm.trans isTail
      have bound := (ring.sendTail tail isOld).1
      have notFilled : tail ∉ arc numBd (place numBd start (slots packets)) chain.length := by
        intro member
        rcases mem_arc.mp member with ⟨offset, inside, rfl⟩
        exact apart offset inside isTail
      rw [fill.others tail notFilled, ring.links tail bound, if_pos isOld]
    · rintro tail isTail offset inside rfl
      exact apart offset inside isTail
    · change slots packets + chain.length ≤ numBd
      omega
    · intro later kept
      apply describes_setTxch closes_describes (by trivial) kept
      intro later kept
      rw [if_pos rfl, ← Program.bind_pure (emit _)]
      apply describes_emit closes_describes (by trivial) kept
      intro later kept
      apply closes_describes.done kept
      intro after still
      refine ⟨still.trace, start, reclaimed, packets ++ [⟨p, chain.length⟩], ?_⟩
      have rested := serving.rested.queue ring enough fill
        (place numBd (place numBd start (slots packets)) (chain.length - 1))
      refine TxServing.of_serves (serving.invariant.queue port nonempty short enough fill) rested
        still ?_
      · exact (congrArg Txch.sendTail (link_txch ..)).symm

end Transmit

/-! ## `eth0_tx_isr` -/

section Isr

variable {admits : {reply : Type} → Access reply → State → Prop}
variable {fits : State → Nat → Prop} {result : Type} {post : result → State → Prop}
variable {state model actual : State} {start cnt : Nat} {packet : Packet}
variable {reclaimed packets : List Packet} {tail : Ptr}

/-- The engine has completed the first packet: what is left of the queue. -/
theorem Served.drop (served : Served state start (packet :: packets) tail)
    (clear : (state.bd .tx start).owner = false) :
    Served state (place numBd start packet.clen) packets tail ∧
      ∀ offset < packet.clen, (state.bd .tx (place numBd start offset)).owner = false := by
  have marked := served.queued.1
  have size := served.size
  have closed := served.closed (List.cons_ne_nil packet packets)
  rcases served.progress with ⟨finished, pending, split, progress⟩
  simp only [slots_cons] at size closed
  cases finished with
  | nil =>
      have nonempty := marked.nonempty
      rw [List.nil_append] at split
      subst split
      have owner := progress.queued 0 (Nat.zero_le _) (by simp; omega)
      rw [marked.sop 0 nonempty, place_zero served.bound, clear] at owner
      cases owner
  | cons first finished =>
      rw [List.cons_append] at split
      injection split with isFirst split
      subst isFirst
      refine ⟨⟨by omega, place_lt (by decide), served.queued.2, ?_, ?_, finished, pending, split,
        ?_, ?_, ?_⟩, ?_⟩
      · intro offset inside
        rw [place_place, place_place]
        exact served.linked (packet.clen + offset) (by rw [slots_cons]; omega)
      · intro others
        have more := served.queued.2.slots_pos others
        rw [place_place, ← Nat.add_sub_assoc more]
        exact closed
      · intro offset inside
        rw [place_place]
        exact progress.done (packet.clen + offset) (by rw [slots_cons]; omega)
      · intro offset low high
        rw [place_place]
        exact progress.queued (packet.clen + offset) (by rw [slots_cons]; omega)
          (by rw [List.cons_append, slots_cons]; omega)
      · have engine := progress.engine
        rwa [slots_cons, ← place_place] at engine
      · intro offset inside
        exact progress.done offset (by rw [slots_cons]; omega)

/-- A note that the model does not count. -/
theorem TxServing.note (serving : TxServing state start reclaimed packets) {event : Event}
    (inessential : event.essential = false) :
    TxServing (state.record event) start reclaimed packets where
  invariant := by
    have like : TxLike (fun _ => False) state (state.record event) := by
      refine { TxLike.refl _ state with trace := ?_ }
      simp [State.record, essential, inessential]
    exact serving.invariant.like like
  served := serving.served.congr rfl (fun _ _ => rfl) fun _ _ => rfl
  rested := serving.rested

/-- The invariant and assertions on the trace are stable. -/
theorem serving_stable (keeps : List Event → Prop) (pending : Option (Pending Access)) :
    (engineContract admits fits).Stable pending fun actual =>
      TxServing actual start reclaimed packets ∧ keeps actual.trace := by
  intro current next kept step
  refine ⟨kept.1.step step, ?_⟩
  rw [(TxStep.frame step).trace]
  exact kept.2

/-- The wait beside the engine. -/
theorem engine_waits
    (unraced : ∀ {reply : Type} (request : Access reply) current,
      admits request current → Unraced request current) :
    Waits (engineContract admits fits) start
      (fun cnt actual => TxServing actual start reclaimed (packet :: packets) ∧
        Budget True cnt actual.trace)
      fun cnt actual => TxServing actual start reclaimed (packet :: packets) ∧
        Budget True cnt actual.trace ∧ (actual.bd .tx start).owner = false where
  performs _ _ := rfl
  stable cnt pending := serving_stable (Budget True cnt) pending
  safe _ := trivial
  guarantee _ := trivial
  again kept admitted owned :=
    ⟨kept.1.note rfl, kept.2.again (fun _ => unraced _ _ admitted) owned⟩
  spent kept := absurd (kept.2.2 trivial).1 (Nat.lt_irrefl 0)
  ended kept clear := ⟨kept.1.note rfl, kept.2.ended clear, clear⟩

theorem looks_serves :
    (outline (Unqueued start packets) fun request _ => Looks request).Describes
      (engineContract admits fits)
      (Serves (Unqueued start packets) start packets tail (Budget True cnt)) := by
  apply serves_describes fun _ inside => inside
  · intro reply request model looks
    exact looks.isLocal
  · intro reply request model looks
    cases request with
    | txch | rxch | emit | loadFlags => trivial
    | _ => exact looks.elim
  · intro reply request model trace looks budget
    cases request with
    | emit event => cases event with | eoi => exact budget | _ => exact looks.elim
    | _ => exact budget

/-- The accesses of `reclaimBds` for a packet in front of the queue that is left, from the state
`origin` on. -/
def ReclaimsBefore (start : Nat) (packets : List Packet) (origin : State) (packet : Packet)
    {reply : Type} (request : Access reply) (model : State) : Prop :=
  Reclaims (Unqueued start packets) (Unqueued start packets) origin.txch.freeNum packet.clen model
      request ∨
    Releases origin packet.pbuf model request

/-- Stripping SOP or EOP keeps EOQ. -/
theorem Reclaims.spares {base clen : Nat} {reply : Type} {request : Access reply}
    (reclaims : Reclaims (Unqueued start packets) (Unqueued start packets) base clen model
      request) :
    Spares (Unqueued start packets) start packets tail request model := by
  cases request with
  | storeFlags chan d value =>
      cases chan with
      | tx =>
          rcases reclaims with ⟨outside, word, reads, stored⟩
          refine ⟨outside, fun _ => ?_⟩
          rw [reads.2 outside] at stored
          rcases stored with rfl | rfl
          · rw [show cpdmaBufDescSop = BitVec.twoPow 32 31 from rfl, getLsbD_and_not_twoPow]
            exact Bool.and_true _
          · rw [show cpdmaBufDescEop = BitVec.twoPow 32 30 from rfl, getLsbD_and_not_twoPow]
            exact Bool.and_true _
      | rx => exact reclaims.elim
  | txch => trivial
  | loadNext => trivial
  | loadFlags => trivial
  | _ => exact reclaims.elim

theorem Releases.spares {exact : Nat → Prop} {origin : State} {p : Nat} {reply : Type}
    {request : Access reply} (releases : Releases origin p model request) :
    Spares exact start packets tail request model := by
  cases request with
  | loadPbuf | pbuf | emit => trivial
  | _ => exact releases.elim

theorem reclaims_serves {origin : State} :
    (outline (Unqueued start packets) fun request model =>
      ReclaimsBefore start packets origin packet request model).Describes
        (engineContract admits fits)
      (Serves (Unqueued start packets) start packets tail (Budget True cnt)) := by
  apply serves_describes fun _ inside => inside
  · rintro reply request model (reclaims | releases)
    · exact reclaims.isLocal
    · exact releases.isLocal
  · rintro reply request model (reclaims | releases)
    · exact reclaims.spares
    · exact releases.spares
  · rintro reply request model trace (reclaims | releases) budget
    · cases request with
      | emit event => exact reclaims.elim
      | _ => exact budget
    · cases request with
      | emit event =>
          cases event with
          | cp | freed | released => exact budget
          | _ => exact releases.elim
      | _ => exact budget

theorem Reclaimed.owner {before after : State} (reclaimed : Reclaimed packet start before after)
    (d : Nat) : (after.bd .tx d).owner = (before.bd .tx d).owner := by
  rcases reclaimed.cells d with ⟨flags, equal, bits⟩
  rw [equal]
  change flags.getLsbD 29 = _
  rw [bits 29]
  simp [Bd.owner]

/-- OWNER stays clear when the first packet is reclaimed. -/
theorem Rested.reclaim {before after : State} (rested : Rested before start (packet :: packets))
    (clear : ∀ offset < packet.clen, (before.bd .tx (place numBd start offset)).owner = false)
    (reclaimed : Reclaimed packet start before after) :
    Rested after (place numBd start packet.clen) packets := by
  intro offset low high
  rw [reclaimed.owner, place_place]
  by_cases inside : packet.clen + offset < numBd
  · exact rested _ (by rw [slots_cons]; omega) inside
  · -- A descriptor of the packet itself, one lap on.
    rw [show packet.clen + offset = packet.clen + offset - numBd + numBd by omega, place_size]
    exact clear _ (by omega)

/-- One round of the loop, with a packet at `send_head`. -/
theorem completeRound_serving
    (unraced : ∀ {reply : Type} (request : Access reply) current,
      admits request current → Unraced request current)
    {rest : (Ptr × Nat) ⊕ Unit → Routine result}
    (serving : TxServing actual start reclaimed (packet :: packets))
    (budget : Budget True cnt actual.trace)
    (next : ∀ left later,
      TxServing later (place numBd start packet.clen) (reclaimed ++ [packet]) packets →
      Budget True left later.trace →
      (engineContract admits fits).Ensures post
        (rest (.inl (some (place numBd start packet.clen), left))) later) :
    (engineContract admits fits).Ensures post
      (completeRound (some start, cnt) >>= rest) actual := by
  have sop : (actual.bd .tx start).sop = true := by
    have first := serving.served.queued.1.sop 0 serving.served.queued.1.nonempty
    rwa [place_zero serving.served.bound, decide_eq_true rfl] at first
  simp only [completeRound, deref, Program.bind_done, Program.bind_assoc]
  apply describes_flags looks_serves (by trivial) ⟨.refl _ _, serving.served, budget⟩
  intro flags before reads holds
  have isFirst : ¬ flags &&& cpdmaBufDescSop = 0 := by
    rw [and_sop_eq_zero_iff, reads.1 31 (by decide) (by decide)]
    simpa [Bd.sop] using sop
  rw [if_neg isFirst]
  simp only [Program.bind_assoc]
  have awaiting : TxServing before start reclaimed (packet :: packets) :=
    .of_serves serving.invariant serving.rested holds rfl
  apply (engine_waits unraced).ensures ⟨awaiting, holds.trace⟩
  rintro left later ⟨waited, budget, clear⟩
  -- The engine has completed the packet, and does not touch its descriptors any more.
  rcases waited.served.drop clear with ⟨served, done⟩
  have invariant := waited.invariant
  have ring := invariant.ring
  have marked := ring.queued.1
  have nonempty := marked.nonempty
  have count := ring.count
  simp only [slots_cons] at count
  have own : ∀ offset < packet.clen,
      Unqueued (place numBd start packet.clen) packets (place numBd start offset) := by
    intro offset inside other queued same
    rw [place_place] at same
    have equal := place_injective (by omega) (by omega) same
    omega
  have ownFirst := own 0 nonempty
  rw [place_zero ring.bound] at ownFirst
  rcases invariant.grounded (some packet.pbuf) with ⟨chain, path⟩
  have reclaiming : ∃ after, (outline (Unqueued (place numBd start packet.clen) packets)
      fun request model => ReclaimsBefore (place numBd start packet.clen) packets later packet
        request model).Runs (reclaimBds start) later () after ∧
        Reclaimed packet start later after :=
    reclaimBds_runs (fun _ _ _ reclaims => .inl reclaims)
      (fun _ _ releases => .inr releases) ring.bound marked
      (fun offset inside => ring.linked (by simp; omega))
      ring.following (by omega) ownFirst (own _ (by omega)) path
  rcases reclaiming with ⟨after, reclaiming, step⟩
  apply reclaims_serves.ensures reclaiming ⟨.refl _ _, served, budget⟩
  intro swept holds
  have kept := invariant.reclaim step
  apply describes_getTxch looks_serves (by intro txch; rfl) holds
  intro final holds
  rw [kept.ring.sendHead]
  refine next left final (.of_serves kept ?_ holds ?_) holds.trace
  · exact waited.rested.reclaim done step
  · rw [step.txch]

/-- The loop reclaims every packet. -/
theorem completeLoop_serving
    (unraced : ∀ {reply : Type} (request : Access reply) current,
      admits request current → Unraced request current)
    {rest : Unit → Routine result} (serving : TxServing actual start reclaimed packets)
    (budget : Budget True cnt actual.trace)
    (empty : ∀ left finish later, TxServing later finish (reclaimed ++ packets) [] →
      Budget True left later.trace → (engineContract admits fits).Ensures post (rest ()) later) :
    (engineContract admits fits).Ensures post
      (.loop completeRound (some start, cnt) rest) actual := by
  induction packets generalizing actual cnt start reclaimed with
  | nil =>
      apply Contract.Ensures.of_loop (serving_stable (Budget True cnt) none) ⟨serving, budget⟩
      · intro before _
        trivial
      · rintro before ⟨serving, budget⟩
        have free := (serving.invariant.ring.free 0 (by simp) (by decide)).1
        rw [place_zero serving.served.bound] at free
        change (engineContract admits fits).Ensures post
          (.lift (.loadFlags .tx start .plain) >>= _) before
        apply describes_flags looks_serves (by trivial) ⟨.refl _ _, serving.served, budget⟩
        intro flags later reads holds
        have notFirst : flags &&& cpdmaBufDescSop = 0 := by
          rw [and_sop_eq_zero_iff, reads.1 31 (by decide) (by decide)]
          exact free
        change (engineContract admits fits).Ensures post
          ((if flags &&& cpdmaBufDescSop = 0 then _ else _) >>= _) later
        rw [if_pos notFirst]
        have nothing := empty cnt start later
        rw [List.append_nil] at nothing
        exact nothing (.of_serves serving.invariant serving.rested holds rfl) holds.trace
  | cons packet packets inductionHypothesis =>
      apply Contract.Ensures.of_loop (serving_stable (Budget True cnt) none) ⟨serving, budget⟩
      · intro before _
        trivial
      · rintro before ⟨serving, budget⟩
        apply completeRound_serving unraced serving budget
        intro left later kept budget
        apply inductionHypothesis kept budget
        intro left finish later done budget
        rw [List.append_assoc] at done
        exact empty left finish later done budget

/-- An event that no part of the history counts. -/
theorem TxServing.record (serving : TxServing state start reclaimed packets) {event : Event}
    (history : TxHistory (event :: state.trace) start reclaimed packets) :
    TxServing (state.record event) start reclaimed packets where
  invariant := serving.invariant.record history
  served := serving.served.congr rfl (fun _ _ => rfl) fun _ _ => rfl
  rested := serving.rested

theorem eth0TxIsr_serving
    (unraced : ∀ {reply : Type} (request : Access reply) current,
      admits request current → Unraced request current)
    (serving : TxServing state start reclaimed packets) (outside : inTxIsr state.trace = false) :
    (engineContract admits fits).Ensures (fun _ after => TxAwake after) eth0TxIsr state := by
  unfold eth0TxIsr
  apply Contract.Ensures.of_perform (serving_stable (inTxIsr · = false) _) ⟨serving, outside⟩
  · intro before _
    trivial
  · intro before _ _
    trivial
  rintro before ⟨serving, _⟩ _
  have history := serving.invariant.history
  have entered : TxServing (before.record (.gpioOn .usr4)) start reclaimed packets :=
    serving.record ⟨history.accepted, history.freed, history.acknowledged, history.start⟩
  have budget : Budget True 0xFFFF (before.record (.gpioOn .usr4)).trace :=
    ⟨rfl, fun _ => ⟨by decide, rfl⟩⟩
  apply describes_getTxch looks_serves (by intro txch; rfl) ⟨.refl _ _, entered.served, budget⟩
  intro later holds
  rw [entered.invariant.ring.sendHead]
  apply completeLoop_serving unraced (.of_serves entered.invariant entered.rested holds rfl)
    holds.trace
  intro left finish final drained budget
  apply describes_emit looks_serves (by trivial) ⟨.refl _ _, drained.served, budget⟩
  intro later holds
  apply looks_serves.ensures
    (cpswifRxbdAlloc_full (fun _ keeps => keeps) (by exact drained.invariant.armed)) holds
  intro later holds
  have history := drained.invariant.history
  have ended : TxServing (final.record (.eoi .tx)) finish (reclaimed ++ packets) [] :=
    drained.record ⟨history.accepted, history.freed, history.acknowledged, history.start⟩
  have noted : TxServing later finish (reclaimed ++ packets) [] :=
    .of_serves ended.invariant ended.rested holds rfl
  apply Contract.Ensures.of_perform (serving_stable (Budget True left) _) ⟨noted, holds.trace⟩
  · intro before _
    trivial
  · intro before _ _
    trivial
  rintro before ⟨serving, _⟩ _
  have history := serving.invariant.history
  have left : TxServing (before.record (.gpioOff .usr4)) finish (reclaimed ++ packets) [] :=
    serving.record ⟨history.accepted, history.freed, history.acknowledged, history.start⟩
  apply Contract.Ensures.of_done (serving_stable (inTxIsr · = false) none) ⟨left, rfl⟩
  · intro after _
    trivial
  · rintro after ⟨serving, outside⟩
    exact ⟨outside, finish, reclaimed ++ packets, [], serving⟩

end Isr

end BbbEth.Cpsw
