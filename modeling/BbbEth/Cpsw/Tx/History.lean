import BbbEth.Cpsw.Tx.Steps

/-!
# The transmit history

What the trace says about the packets: which were accepted, which descriptors
were acknowledged, which pbufs were given back, and how `eth0_tx_isr` has polled
the OWNER bits since it was entered.
-/

namespace BbbEth.Cpsw

open BbbEth.Interference BbbEth.Linked

/-- The packets accepted so far, in order. -/
def accepted (trace : List Event) : List Packet :=
  (trace.filterMap fun event =>
    match event with
    | .accepted pbuf clen => some ⟨pbuf, clen⟩
    | _ => none).reverse

/-- The pbufs passed to `pbuf_free`, in order. -/
def freed (trace : List Event) : List Nat :=
  (trace.filterMap fun event =>
    match event with
    | .freed pbuf => some pbuf
    | _ => none).reverse

/-- The packets accepted so far whose head pbufs were not passed to `pbuf_free` yet, in order. -/
def waiting (trace : List Event) : List Packet := (accepted trace).drop (freed trace).length

/-- The descriptors acknowledged through the TX completion pointer, in order. -/
def acknowledged (trace : List Event) : List Nat :=
  (trace.filterMap fun event =>
    match event with
    | .cp .tx d => some d
    | _ => none).reverse

/-- Whether `eth0_tx_isr` is running. -/
def inTxIsr : List Event → Bool
  | [] => false
  | .gpioOn .usr4 :: _ => true
  | .gpioOff .usr4 :: _ => false
  | _ :: trace => inTxIsr trace

/-- The last poll of an OWNER bit: the descriptor and the flags that were read. -/
def lastPoll : List Event → Option (Nat × Word)
  | [] => none
  | .poll .tx d flags :: _ => some (d, flags)
  | _ :: trace => lastPoll trace

/-- How many polls found OWNER set since `eth0_tx_isr` was entered. -/
def ownedPolls : List Event → Nat
  | [] => 0
  | .gpioOn .usr4 :: _ => 0
  | .poll .tx _ flags :: trace =>
      ownedPolls trace + if flags.getLsbD 29 then 1 else 0
  | _ :: trace => ownedPolls trace

/-- The last descriptors of packets that lie one behind the other. -/
def lastBds : Nat → List Packet → List Nat
  | _, [] => []
  | start, packet :: packets =>
      place numBd start (packet.clen - 1) :: lastBds (place numBd start packet.clen) packets

section Essential

variable {trace other : List Event}

theorem accepted_essential : accepted (essential trace) = accepted trace := by
  unfold accepted essential
  rw [List.filterMap_filter]
  congr 2
  funext event
  cases event <;> rfl

theorem freed_essential : freed (essential trace) = freed trace := by
  unfold freed essential
  rw [List.filterMap_filter]
  congr 2
  funext event
  cases event <;> rfl

theorem acknowledged_essential : acknowledged (essential trace) = acknowledged trace := by
  unfold acknowledged essential
  rw [List.filterMap_filter]
  congr 2
  funext event
  cases event with
  | cp chan d => cases chan <;> rfl
  | _ => rfl

theorem inTxIsr_essential : inTxIsr (essential trace) = inTxIsr trace := by
  induction trace with
  | nil => rfl
  | cons event trace inductionHypothesis =>
      cases event with
      | gpioOn led => cases led <;> first | rfl | exact inductionHypothesis
      | gpioOff led => cases led <;> first | rfl | exact inductionHypothesis
      | _ => exact inductionHypothesis

theorem waiting_congr (same : essential trace = essential other) :
    waiting trace = waiting other := by
  unfold waiting
  rw [← accepted_essential, ← freed_essential, same, accepted_essential, freed_essential]

/-- Traces with the same essential events agree on the history. -/
theorem history_congr (same : essential trace = essential other) :
    accepted trace = accepted other ∧ freed trace = freed other ∧
      acknowledged trace = acknowledged other ∧ inTxIsr trace = inTxIsr other := by
  rw [← accepted_essential, ← freed_essential, ← acknowledged_essential,
    ← inTxIsr_essential, same, accepted_essential, freed_essential,
    acknowledged_essential, inTxIsr_essential]
  exact ⟨rfl, rfl, rfl, rfl⟩

end Essential

section LastBds

variable {start : Nat} {left right : List Packet}

theorem lastBds_append (bound : start < numBd) : lastBds start (left ++ right) =
    lastBds start left ++ lastBds (place numBd start (slots left)) right := by
  induction left generalizing start with
  | nil => simp [lastBds, place_zero bound]
  | cons packet left inductionHypothesis =>
      have rest := @inductionHypothesis (place numBd start packet.clen) (place_lt (by decide))
      rw [place_place] at rest
      simp only [List.cons_append, lastBds, slots_cons, rest]

end LastBds

/-- The bookkeeping of the driver, in terms of what has been accepted: the packets
are reclaimed first in, first out, each is acknowledged at its last descriptor,
and its head pbuf is given back once. -/
structure TxHistory (trace : List Event) (start : Nat) (reclaimed packets : List Packet) :
    Prop where
  accepted : accepted trace = reclaimed ++ packets
  freed : freed trace = reclaimed.map Packet.pbuf
  acknowledged : acknowledged trace = lastBds 0 reclaimed
  start : start = place numBd 0 (slots reclaimed)

namespace TxHistory

variable {trace other : List Event} {start : Nat} {reclaimed packets : List Packet}
variable {packet : Packet}

theorem waiting_eq (history : TxHistory trace start reclaimed packets) :
    waiting trace = packets := by
  unfold waiting
  rw [history.accepted, history.freed, List.length_map, List.drop_left]

theorem congr (history : TxHistory trace start reclaimed packets)
    (same : essential other = essential trace) :
    TxHistory other start reclaimed packets := by
  rcases history_congr same with ⟨accepted, freed, acknowledged, _⟩
  exact ⟨accepted.trans history.accepted, freed.trans history.freed,
    acknowledged.trans history.acknowledged, history.start⟩

/-- Cache operations leave no mark in the history. -/
theorem clean (history : TxHistory trace start reclaimed packets)
    (cleans : List (Word × Nat)) :
    TxHistory (cleans.map (fun clean => Event.clean clean.1 clean.2) ++ trace) start
      reclaimed packets := by
  induction cleans with
  | nil => exact history
  | cons clean cleans inductionHypothesis =>
      exact ⟨inductionHypothesis.accepted, inductionHypothesis.freed,
        inductionHypothesis.acknowledged, inductionHypothesis.start⟩

/-- Accepting a packet. -/
theorem accept (history : TxHistory trace start reclaimed packets) (packet : Packet) :
    TxHistory (.accepted packet.pbuf packet.clen :: trace) start reclaimed
      (packets ++ [packet]) where
  accepted := by
    change (List.reverse (packet :: _)) = _
    rw [List.reverse_cons, ← List.append_assoc]
    exact congrArg (· ++ [packet]) history.accepted
  freed := history.freed
  acknowledged := history.acknowledged
  start := history.start

/-- Reclaiming the first packet. -/
theorem reclaim (history : TxHistory trace start reclaimed (packet :: packets))
    (released : List Nat) :
    TxHistory
      (released.map Event.released ++ .freed packet.pbuf ::
        .cp .tx (place numBd start (packet.clen - 1)) :: trace)
      (place numBd start packet.clen) (reclaimed ++ [packet]) packets := by
  induction released with
  | nil =>
      have bound : 0 < numBd := by decide
      refine ⟨?_, ?_, ?_, ?_⟩
      · rw [List.append_assoc]
        exact history.accepted
      · change (List.reverse (packet.pbuf :: _)) = _
        rw [List.reverse_cons, List.map_append]
        exact congrArg (· ++ [packet.pbuf]) history.freed
      · change (List.reverse (place numBd start (packet.clen - 1) :: _)) = _
        rw [List.reverse_cons, lastBds_append bound, ← history.start]
        exact congrArg (· ++ [place numBd start (packet.clen - 1)]) history.acknowledged
      · rw [history.start]
        simp
  | cons name released inductionHypothesis =>
      exact ⟨inductionHypothesis.accepted, inductionHypothesis.freed,
        inductionHypothesis.acknowledged, inductionHypothesis.start⟩

end TxHistory

end BbbEth.Cpsw
