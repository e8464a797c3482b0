import BbbEth.Cpsw.Tx.Flips

/-!
# The transmit invariant

Every call of the transmit side keeps the ring, whatever the OWNER and EOQ bits
do meanwhile.
-/

namespace BbbEth.Cpsw

open BbbEth.Interference BbbEth.Linked Routine

/-- The invariant of the transmit side. -/
structure TxInvariant (state : State) (start : Nat) (reclaimed packets : List Packet) :
    Prop where
  ring : TxRing state start packets
  history : TxHistory state.trace start reclaimed packets
  grounded : Grounded state
  armed : state.rxch.freeNum = 0

theorem TxInvariant.like {exact : Nat → Prop} {state other : State} {start : Nat}
    {reclaimed packets : List Packet} (invariant : TxInvariant state start reclaimed packets)
    (like : TxLike exact state other) : TxInvariant other start reclaimed packets where
  ring := invariant.ring.like like
  history := invariant.history.congr like.trace
  grounded p := by
    rcases invariant.grounded p with ⟨chain, path⟩
    exact ⟨chain, path.congr fun q => by rw [like.pbuf]⟩
  armed := by rw [like.rxch]; exact invariant.armed

/-- The states between two calls. -/
def TxIdle (state : State) : Prop :=
  inTxIsr state.trace = false ∧
    ∃ start reclaimed packets, TxInvariant state start reclaimed packets

/-! ## `cpswif_transmit` -/

/-- The accesses of `cpswif_transmit` outside `sendBds`. -/
def Calm : {reply : Type} → Access reply → Prop
  | _, .emit (.clean _ _) => True
  | _, .emit (.accepted _ _) => True
  | _, .emit _ => False
  | _, request => TxLocal request

theorem Fills.calm {cells : Nat → Prop} {reply : Type} {request : Access reply}
    (fills : Fills cells request) : Calm request := by
  cases request with
  | loadFlags chan d use =>
      cases chan with
      | tx =>
          cases use with
          | plain => trivial
          | owner => exact fills.elim
          | eoq => exact fills.elim
      | rx => exact fills.elim
  | loadNext chan d => cases chan with | tx => trivial | rx => exact fills.elim
  | storeNext chan d value => cases chan with | tx => trivial | rx => exact fills.elim
  | storeBufptr chan d value => cases chan with | tx => trivial | rx => exact fills.elim
  | storeBufoffLen chan d value => cases chan with | tx => trivial | rx => exact fills.elim
  | storeFlags chan d value => cases chan with | tx => trivial | rx => exact fills.elim
  | storePbuf chan d value => cases chan with | tx => trivial | rx => exact fills.elim
  | emit event => cases event with | clean => trivial | _ => exact fills.elim
  | txch => trivial
  | pbuf => trivial
  | _ => exact fills.elim

theorem Calm.isLocal {reply : Type} {request : Access reply} (calm : Calm request) :
    TxLocal request := by
  cases request with
  | emit event => cases event <;> first | rfl | exact calm.elim
  | _ => exact calm

theorem Calm.outside {reply : Type} {request : Access reply} (calm : Calm request)
    {trace : List Event} (outside : inTxIsr trace = false) :
    inTxIsr (noted request trace) = false := by
  cases request with
  | emit event => cases event <;> first | exact outside | exact calm.elim
  | _ => exact outside

section Transmit

variable {admits : {reply : Type} → Access reply → State → Prop} {timely faulty : Prop}
variable {result reply : Type} {post : result → State → Prop}

/-- The assertion about `cpswif_transmit`: a model, and no `eth0_tx_isr`. -/
def Sends (model actual : State) : Prop :=
  TxLike (fun _ => False) model actual ∧ inTxIsr actual.trace = false

theorem sends_describes :
    (outline (fun _ => False) fun request _ => Calm request).Describes
      (flipContract admits timely faulty) Sends := by
  apply flips_describes fun trace => inTxIsr trace = false
  · intro reply request model calm
    exact calm.isLocal
  · intro reply request model trace calm outside
    exact calm.outside outside
  · intro reply request model actual like outside calm isTimely inside
    rw [outside] at inside
    cases inside

/-- A write of the TX HDP is no part of the model. -/
theorem sends_hdp {model actual : State} {bd : Ptr} {rest : Unit → Routine result}
    (holds : Sends model actual)
    (continues : ∀ later, Sends model later →
      (flipContract admits timely faulty).Ensures post (rest ()) later) :
    (flipContract admits timely faulty).Ensures post (.lift (.hdp .tx bd) >>= rest) actual := by
  apply Contract.Ensures.of_perform (sends_describes.stable model _) holds
  · intro before _
    trivial
  · intro before kept _ _ inside
    rw [kept.2] at inside
    cases inside
  · intro before kept _
    apply continues
    refine ⟨⟨?_, ?_, ?_, ?_, ?_⟩, ?_⟩
    · exact (State.writeHdp_txch _ _ _).trans kept.1.txch
    · exact (State.writeHdp_rxch _ _ _).trans kept.1.rxch
    · exact (State.writeHdp_pbuf _ _ _).trans kept.1.pbuf
    · intro d
      change BdLike _ d _ ((before.writeHdp .tx bd).bd .tx d)
      rw [State.writeHdp_bd]
      exact kept.1.bd d
    · change essential (before.writeHdp .tx bd).trace = _
      rw [State.writeHdp_trace, essential_hdp]
      exact kept.1.trace
    · change inTxIsr (before.writeHdp .tx bd).trace = _
      rw [State.writeHdp_trace]
      exact kept.2

/-- Both outcomes of the EOQ test lead on from the same model. -/
theorem sends_restartTx {model actual : State} {tail : Nat} {bdToSend : Ptr}
    {rest : Unit → Routine result} (holds : Sends model actual)
    (continues : ∀ later, Sends model later →
      (flipContract admits timely faulty).Ensures post (rest ()) later) :
    (flipContract admits timely faulty).Ensures post (restartTx tail bdToSend >>= rest) actual := by
  apply Contract.Ensures.of_perform (sends_describes.stable model _) holds
  · intro before _
    trivial
  · intro before kept _ _ inside
    rw [kept.2] at inside
    cases inside
  · intro before kept _
    change (flipContract admits timely faulty).Ensures post
      ((if _ &&& cpdmaBufDescEoq ≠ 0 then _ else _) >>= rest) before
    rw [Program.bind_ite]
    split
    · exact sends_hdp kept continues
    · exact continues before kept

theorem sends_sendBds {model actual : State} {first : Nat} {rest : Unit → Routine result}
    (holds : Sends model actual)
    (continues : ∀ later, Sends (model.linkTail first) later →
      (flipContract admits timely faulty).Ensures post (rest ()) later) :
    (flipContract admits timely faulty).Ensures post
      (sendBds (some first) model.txch.sendTail >>= rest) actual := by
  unfold State.linkTail at continues
  cases isTail : model.txch.sendTail with
  | none =>
      rw [isTail] at continues
      exact sends_hdp holds continues
  | some tail =>
      rw [isTail] at continues
      unfold sendBds
      rw [Program.bind_assoc]
      have linking : (outline (fun _ => False) fun request _ => Calm request).Runs
          (.lift (.storeNext .tx tail (some first))) model ()
          (model.modifyBd .tx tail fun cell => { cell with next := some first }) :=
        runs_step trivial trivial .done
      apply sends_describes.ensures linking holds
      intro later kept
      exact sends_restartTx kept continues

/-- Queueing a packet keeps the invariant. -/
theorem TxInvariant.queue {state filled : State} {start : Nat}
    {reclaimed packets : List Packet} {portNum : Word} {p : Nat} {chain : List Nat}
    (invariant : TxInvariant state start reclaimed packets) (port : SlavePort portNum)
    (nonempty : 0 < chain.length) (short : chain.length < numBd)
    (enough : chain.length ≤ state.txch.freeNum)
    (fill : Filled portNum p chain (place numBd start (slots packets)) state filled) :
    TxInvariant
      ((filled.link (place numBd start (slots packets))
        (place numBd (place numBd start (slots packets)) (chain.length - 1))).record
        (.accepted p chain.length))
      start reclaimed (packets ++ [⟨p, chain.length⟩]) where
  ring := by
    have appended := invariant.ring.append port nonempty short enough fill
    rw [place_place, ← Nat.add_sub_assoc nonempty]
    exact appended.congr rfl fun d => ⟨rfl, rfl, rfl, rfl⟩
  history := by
    have cleaned := invariant.history.clean
      (chain.map fun q => ((state.pbuf q).payload, (state.pbuf q).len.toNat)).reverse
    rw [← List.map_reverse, List.map_map, List.map_reverse] at cleaned
    have accepted := cleaned.accept ⟨p, chain.length⟩
    change TxHistory (.accepted p chain.length :: State.trace _) _ _ _
    rw [link_trace, fill.trace]
    exact accepted
  grounded q := by
    rcases invariant.grounded q with ⟨others, path⟩
    refine ⟨others, path.congr fun address => ?_⟩
    simp only [State.record, link_pbuf, fill.pbufs]
  armed := by
    simp only [State.record, link_rxch, fill.rxch]
    exact invariant.armed

/-- `cpswif_transmit` refuses a packet whose pbufs, counted modulo 256, are more than the free
descriptors. -/
theorem cpswifTransmit_full {contract : Contract Access State} {exact cells : Nat → Prop}
    {permits : {reply : Type} → Access reply → State → Prop} {related : State → State → Prop}
    (describes : (outline exact permits).Describes contract related)
    {state actual : State} (holds : related state actual)
    {portNum : Word} {p : Nat} {chain : List Nat} (path : PbufChain state (some p) chain)
    (fills : ∀ {reply : Type} (request : Access reply) model,
      Fills cells request → permits request model)
    (isFull : state.txch.freeNum < chain.length % 2 ^ 8) {rest : Err → Routine result}
    (full : ∀ later, related state later → contract.Ensures post (rest .mem) later) :
    contract.Ensures post (cpswifTransmit portNum p >>= rest) actual := by
  simp only [cpswifTransmit, Program.bind_assoc]
  have clen : (outline exact permits).Runs (pbufClen (some p)) state
      ((0 + chain.length) % 2 ^ 8) state :=
    runs_clen (fun _ _ => fills _ _ (by trivial)) path (by decide)
  apply describes.ensures clen holds
  intro later kept
  apply describes_getTxch describes (fills _ _ (by trivial)) kept
  intro later kept
  rw [Nat.zero_add, if_pos isFull]
  exact full later kept

/-- `cpswif_transmit` takes the packet if its pbufs, counted modulo 256, fit into
the free descriptors.  It stores into these only, up to the point at which it hands
them to the engine. -/
theorem cpswifTransmit_ensures {contract : Contract Access State} {exact : Nat → Prop}
    {permits : {reply : Type} → Access reply → State → Prop} {related : State → State → Prop}
    (describes : (outline exact permits).Describes contract related)
    {state actual : State} {start : Nat} {packets : List Packet}
    (ring : TxRing state start packets) (holds : related state actual)
    {portNum : Word} {p : Nat} {chain : List Nat} (path : PbufChain state (some p) chain)
    (counted : chain.length % 2 ^ 8 ≤ state.txch.freeNum →
      chain.length ≤ state.txch.freeNum)
    (fills : ∀ {reply : Type} (request : Access reply) model,
      Fills (· ∈ arc numBd (place numBd start (slots packets)) chain.length) request →
      permits request model)
    {rest : Err → Routine result}
    (full : state.txch.freeNum < chain.length % 2 ^ 8 → ∀ later, related state later →
      contract.Ensures post (rest .mem) later)
    (send : ∀ filled later, chain.length ≤ state.txch.freeNum →
      Filled portNum p chain (place numBd start (slots packets)) state filled →
      related filled later →
      contract.Ensures post
        (sendBds (some (place numBd start (slots packets))) filled.txch.sendTail >>= fun _ =>
          setTxch (fun txch =>
            { txch with
              sendTail :=
                some (place numBd (place numBd start (slots packets)) (chain.length - 1)) }) >>=
          fun _ => rest .ok) later) :
    contract.Ensures post (cpswifTransmit portNum p >>= rest) actual := by
  by_cases isFull : state.txch.freeNum < chain.length % 2 ^ 8
  · exact cpswifTransmit_full describes holds path fills isFull (full isFull)
  · simp only [cpswifTransmit, Program.bind_assoc]
    have clen : (outline exact permits).Runs (pbufClen (some p)) state
        ((0 + chain.length) % 2 ^ 8) state :=
      runs_clen (fun _ _ => fills _ _ (by trivial)) path (by decide)
    apply describes.ensures clen holds
    intro later kept
    apply describes_getTxch describes (fills _ _ (by trivial)) kept
    intro later kept
    rw [Nat.zero_add, if_neg isFull]
    have enough := counted (Nat.le_of_not_lt isFull)
    have count := ring.count
    have bound : place numBd start (slots packets) < numBd := place_lt (by decide)
    have linked : ∀ offset, offset + 1 < chain.length →
        (state.bd .tx (place numBd (place numBd start (slots packets)) offset)).next =
          some (place numBd (place numBd start (slots packets)) (offset + 1)) :=
      fun offset inside => ring.freeLinked (by omega)
    have filling : (outline exact permits).Runs (fillPacket portNum p) state _ _ :=
      fillPacket_runs fills ring.freeHead bound path
        (fun offset inside => mem_arc.mpr ⟨offset, inside, rfl⟩) linked
    have filled : Filled portNum p chain _ state _ :=
      fillPacket_filled bound path.nonempty (by omega) enough linked
    simp only [Program.bind_assoc]
    apply describes.ensures filling kept
    intro later kept
    apply describes_getTxch describes (fills _ _ (by trivial)) kept
    intro later kept
    exact send _ later enough filled kept

/-- The same under any OWNER and EOQ bits, with the packet in the ring. -/
theorem sends_cpswifTransmit {state actual : State} {start : Nat} {packets : List Packet}
    (ring : TxRing state start packets) (holds : Sends state actual)
    {portNum : Word} {p : Nat} {chain : List Nat} (path : PbufChain state (some p) chain)
    (counted : chain.length % 2 ^ 8 ≤ state.txch.freeNum →
      chain.length ≤ state.txch.freeNum)
    {rest : Err → Routine result}
    (full : state.txch.freeNum < chain.length % 2 ^ 8 → ∀ later, Sends state later →
      (flipContract admits timely faulty).Ensures post (rest .mem) later)
    (queued : ∀ filled later, chain.length ≤ state.txch.freeNum →
      Filled portNum p chain (place numBd start (slots packets)) state filled →
      Sends (filled.link (place numBd start (slots packets))
        (place numBd (place numBd start (slots packets)) (chain.length - 1))) later →
      (flipContract admits timely faulty).Ensures post (rest .ok) later) :
    (flipContract admits timely faulty).Ensures post (cpswifTransmit portNum p >>= rest)
      actual := by
  apply cpswifTransmit_ensures sends_describes ring holds path counted
    (fun _ _ fills => fills.calm) full
  intro filled later enough fill kept
  apply sends_sendBds kept
  intro later kept
  apply describes_setTxch sends_describes (by trivial) kept
  intro later kept
  exact queued filled later enough fill kept

/-- The packets behind a call of `cpswif_transmit`. -/
def State.queue (state : State) (packets : List Packet) (packet : Packet) : List Packet :=
  if packet.clen % 2 ^ 8 ≤ state.txch.freeNum then packets ++ [packet] else packets

theorem transmit_ensures {state : State} {start : Nat} {reclaimed packets : List Packet}
    (invariant : TxInvariant state start reclaimed packets)
    (outside : inTxIsr state.trace = false) {portNum : Word} (port : SlavePort portNum)
    {p : Nat} {chain : List Nat} (path : PbufChain state (some p) chain)
    (room : LeavesRoom state chain.length) :
    (flipContract admits timely faulty).Ensures
      (fun _ after => inTxIsr after.trace = false ∧
        TxInvariant after start reclaimed (state.queue packets ⟨p, chain.length⟩))
      (transmitCall portNum p chain.length) state := by
  have size := numBd_eq
  have count := invariant.ring.count
  apply sends_cpswifTransmit invariant.ring ⟨.refl _ _, outside⟩ path
  · intro fits
    have short := room fits
    omega
  · intro full later kept
    have refused : state.queue packets ⟨p, chain.length⟩ = packets := if_neg (Nat.not_le.mpr full)
    apply sends_describes.done kept
    intro after still
    rw [refused]
    exact ⟨still.2, invariant.like still.1⟩
  · intro filled later enough fill kept
    have fits : chain.length % 2 ^ 8 ≤ state.txch.freeNum := (Nat.mod_le ..).trans enough
    have queued : state.queue packets ⟨p, chain.length⟩ = packets ++ [⟨p, chain.length⟩] :=
      if_pos fits
    rw [if_pos rfl, ← Program.bind_pure (emit _)]
    apply describes_emit sends_describes (by trivial) kept
    intro later kept
    apply sends_describes.done kept
    intro after still
    rw [queued]
    exact ⟨still.2, (invariant.queue port path.nonempty (room fits) enough fill).like still.1⟩

end Transmit

end BbbEth.Cpsw
