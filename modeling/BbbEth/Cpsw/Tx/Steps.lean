import BbbEth.Cpsw.Tx.Reclaim

/-!
# The two steps of the transmit ring

Queueing a packet appends it to the list of packets, reclaiming takes the first
packet away.
-/

namespace BbbEth.Cpsw

open BbbEth.Interference BbbEth.Linked

/-! ## The flags of a queued packet -/

private theorem toPort_high {portNum : Word} (port : SlavePort portNum) {bit : Nat}
    (high : 28 ≤ bit) : (cpdmaBufDescToPort portNum).getLsbD bit = false := by
  by_cases inside : bit < 32
  · have cases : bit = 28 ∨ bit = 29 ∨ bit = 30 ∨ bit = 31 := by omega
    rcases port with rfl | rfl <;> rcases cases with rfl | rfl | rfl | rfl <;> decide
  · exact BitVec.getLsbD_of_ge _ _ (by omega)

theorem headerFlags_high {portNum : Word} (port : SlavePort portNum) (totLen : Half)
    {bit : Nat} (high : 28 ≤ bit) :
    (headerFlags portNum totLen).getLsbD bit = (decide (bit = 31) || decide (bit = 29)) := by
  have short : (totLen.setWidth 32).getLsbD bit = false := by
    rw [BitVec.getLsbD_setWidth, BitVec.getLsbD_of_ge _ _ (by omega), Bool.and_false]
  rw [headerFlags, BitVec.getLsbD_or, getLsbD_or_sop_owner, short, toPort_high port high]
  simp

/-- The bits above the port number: SOP and OWNER first, EOP last and EOQ clear
there, the others as they were. -/
theorem packetFlags_high {portNum : Word} (port : SlavePort portNum) (totLen : Half)
    (clen offset : Nat) (old : Word) {bit : Nat} (high : 28 ≤ bit) :
    (packetFlags portNum totLen clen offset old).getLsbD bit =
      (((if offset = 0 then decide (bit = 31) || decide (bit = 29) else old.getLsbD bit) ||
        (decide (offset + 1 = clen) && decide (bit = 30))) &&
        !(decide (offset + 1 = clen) && decide (bit = 28))) := by
  have base : (if offset = 0 then headerFlags portNum totLen else old).getLsbD bit =
      (if offset = 0 then decide (bit = 31) || decide (bit = 29) else old.getLsbD bit) := by
    split
    · exact headerFlags_high port totLen high
    · rfl
  simp only [packetFlags]
  by_cases last : offset + 1 = clen
  · rw [if_pos last, getLsbD_and_not_eoq, getLsbD_or_eop, base]
    simp [last]
  · rw [if_neg last, base]
    simp [last]

/-! ## Queueing a packet -/

/-- Link the descriptor `first` behind the old tail. -/
def State.linkTail (state : State) (first : Nat) : State :=
  match state.txch.sendTail with
  | none => state
  | some tail => state.modifyBd .tx tail fun cell => { cell with next := some first }

/-- Link the descriptors from `first` to `last` behind the old tail. -/
def State.link (state : State) (first last : Nat) : State :=
  let linked := state.linkTail first
  { linked with txch := { linked.txch with sendTail := some last } }

section Link

variable (state : State) (first last d : Nat)

theorem link_txch : (state.link first last).txch =
    { state.txch with sendTail := some last } := by
  cases tail : state.txch.sendTail <;> simp [State.link, State.linkTail, tail]

theorem link_rxch : (state.link first last).rxch = state.rxch := by
  cases tail : state.txch.sendTail <;> simp [State.link, State.linkTail, tail]

theorem link_pbuf : (state.link first last).pbuf = state.pbuf := by
  cases tail : state.txch.sendTail <;> simp [State.link, State.linkTail, tail]

theorem link_trace : (state.link first last).trace = state.trace := by
  cases tail : state.txch.sendTail <;> simp [State.link, State.linkTail, tail]

theorem link_bd : (state.link first last).bd .tx d =
    { state.bd .tx d with
      next := if state.txch.sendTail = some d then some first else (state.bd .tx d).next } := by
  cases tail : state.txch.sendTail with
  | none => simp [State.link, State.linkTail, tail]
  | some tail' =>
      by_cases same : tail' = d
      · subst same
        simp [State.link, State.linkTail, tail]
      · simp [State.link, State.linkTail, tail, same, Ne.symm same]

end Link

section Append

variable {before filled : State} {portNum : Word} {p start : Nat} {chain : List Nat}
variable {packets : List Packet}

/-- The filled descriptors start where the queue ends. -/
theorem TxRing.notMem_filled (ring : TxRing before start packets)
    (enough : chain.length ≤ before.txch.freeNum) {offset : Nat} (bound : offset < numBd)
    (outside : offset < slots packets ∨ slots packets + chain.length ≤ offset) :
    place numBd start offset ∉
      arc numBd (place numBd start (slots packets)) chain.length := by
  intro member
  rcases mem_arc.mp member with ⟨inner, small, same⟩
  have count := ring.count
  rw [place_place] at same
  have equal := place_injective (by omega) bound same
  omega

/-- The links of the ring once the packet is linked behind the old tail. -/
theorem TxRing.append_links (ring : TxRing before start packets)
    (nonempty : 0 < chain.length) (short : chain.length < numBd)
    (enough : chain.length ≤ before.txch.freeNum)
    (fill : Filled portNum p chain (place numBd start (slots packets)) before filled)
    {d : Nat} (small : d < numBd) :
    ((filled.link (place numBd start (slots packets))
        (place numBd start (slots packets + chain.length - 1))).bd .tx d).next =
      if some (place numBd start (slots packets + chain.length - 1)) = some d then none
      else some (place numBd d 1) := by
  have count := ring.count
  rw [link_bd]
  simp only [fill.txch]
  rcases exists_place start small with ⟨offset, bound, rfl⟩
  by_cases outside : offset < slots packets ∨ slots packets + chain.length ≤ offset
  · -- A descriptor outside the packet: the old tail is linked, the others stay.
    have notLast : ¬ some (place numBd start (slots packets + chain.length - 1)) =
        some (place numBd start offset) := by
      intro same
      have equal := place_injective (by omega) bound (Option.some.inj same)
      omega
    rw [fill.others _ (ring.notMem_filled enough bound outside), if_neg notLast]
    by_cases isTail : before.txch.sendTail = some (place numBd start offset)
    · rw [if_pos isTail, (ring.sendTail _ isTail).2]
    · rw [if_neg isTail, ring.links _ small, if_neg isTail]
  · -- A descriptor of the packet, which cannot be the old tail.
    have notTail := ring.ne_tail bound (by omega) (by omega)
    have cell := fill.cells (offset - slots packets) (by omega)
    rw [place_place, Nat.add_sub_of_le (by omega)] at cell
    rw [if_neg notTail, cell]
    by_cases isLast : offset - slots packets + 1 = chain.length
    · rw [if_pos isLast, if_pos]
      rw [show slots packets + chain.length - 1 = offset by omega]
    · rw [if_neg isLast, if_neg]
      · simp only [place_place]
        rw [show slots packets + (offset - slots packets + 1) = offset + 1 by omega]
      · intro same
        have equal := place_injective (by omega) bound (Option.some.inj same)
        omega

/-- The filled descriptors carry the marks of the new packet. -/
theorem TxRing.append_marked (ring : TxRing before start packets) (port : SlavePort portNum)
    (nonempty : 0 < chain.length) (enough : chain.length ≤ before.txch.freeNum)
    (fill : Filled portNum p chain (place numBd start (slots packets)) before filled) :
    Marked filled (place numBd start (slots packets)) ⟨p, chain.length⟩ := by
  have count := ring.count
  have free : ∀ offset < chain.length, _ := fun offset small =>
    ring.free (slots packets + offset) (by omega) (by omega)
  simp only [← place_place] at free
  refine ⟨nonempty, ?_, ?_, ?_⟩
  · intro offset small
    have old : BitVec.getLsbD _ 31 = false := (free offset small).1
    rw [fill.cells offset small]
    change (packetFlags _ _ _ _ _).getLsbD 31 = _
    rw [packetFlags_high port _ _ _ _ (by decide), old]
    simp
  · intro offset small
    have old : BitVec.getLsbD _ 30 = false := (free offset small).2
    rw [fill.cells offset small]
    change (packetFlags _ _ _ _ _).getLsbD 30 = _
    rw [packetFlags_high port _ _ _ _ (by decide), old]
    simp
  · intro offset small
    rw [fill.cells offset small]

theorem link_shape (state : State) (first last d : Nat) :
    ((state.link first last).bd .tx d).sop = (state.bd .tx d).sop ∧
      ((state.link first last).bd .tx d).eop = (state.bd .tx d).eop ∧
      ((state.link first last).bd .tx d).pbuf = (state.bd .tx d).pbuf := by
  rw [link_bd]
  exact ⟨rfl, rfl, rfl⟩

/-- Queueing a packet. -/
theorem TxRing.append (ring : TxRing before start packets) (port : SlavePort portNum)
    (nonempty : 0 < chain.length) (short : chain.length < numBd)
    (enough : chain.length ≤ before.txch.freeNum)
    (fill : Filled portNum p chain (place numBd start (slots packets)) before filled) :
    TxRing
      (filled.link (place numBd start (slots packets))
        (place numBd start (slots packets + chain.length - 1)))
      start (packets ++ [⟨p, chain.length⟩]) := by
  have count := ring.count
  have txch := link_txch filled (place numBd start (slots packets))
    (place numBd start (slots packets + chain.length - 1))
  rw [fill.txch] at txch
  have same : ∀ {offset : Nat}, offset < numBd →
      offset < slots packets ∨ slots packets + chain.length ≤ offset →
      filled.bd .tx (place numBd start offset) = before.bd .tx (place numBd start offset) :=
    fun bound outside => fill.others _ (ring.notMem_filled enough bound outside)
  refine ⟨ring.bound, ?_, ?_, ?_, ?_, ?_, ?_, ?_, ?_⟩
  · rw [txch]
    simp only [slots_append, slots_cons, slots_nil]
    omega
  · rw [txch]
    exact ring.sendHead
  · rw [txch]
    have behind := ring.freeLinked (show chain.length - 1 + 1 < numBd by omega)
    simp only [slots_append, slots_cons, slots_nil, Nat.add_zero]
    rw [behind, Nat.sub_add_cancel nonempty, place_place]
  · intro tail isTail
    rw [txch] at isTail
    obtain rfl := Option.some.inj isTail
    refine ⟨place_lt (by decide), ?_⟩
    simp only [slots_append, slots_cons, slots_nil, place_place, Nat.add_zero]
    rw [Nat.sub_add_cancel (by omega)]
  · intro isNone
    rw [txch] at isNone
    simp at isNone
  · intro d small
    rw [txch]
    exact ring.append_links nonempty short enough fill small
  · rw [queued_append ring.bound]
    have shape := link_shape filled (place numBd start (slots packets))
      (place numBd start (slots packets + chain.length - 1))
    refine ⟨?_, ?_, trivial⟩
    · apply ring.queued.congr
      · intro offset small
        rw [(shape _).1, same (by omega) (.inl small)]
      · intro offset small
        rw [(shape _).2.1, same (by omega) (.inl small)]
      · intro offset small
        rw [(shape _).2.2, same (by omega) (.inl small)]
    · exact (ring.append_marked port nonempty enough fill).congr (fun _ _ => (shape _).1)
        (fun _ _ => (shape _).2.1) (fun _ _ => (shape _).2.2)
  · intro offset low high
    simp only [slots_append, slots_cons, slots_nil, Nat.add_zero] at low
    have old := ring.free offset (by omega) high
    rw [link_bd, same high (.inr low)]
    exact old

end Append

/-! ## Reclaiming a packet -/

section Reclaim

variable {before after : State} {start : Nat} {packet : Packet} {packets : List Packet}

theorem Reclaimed.shape (reclaimed : Reclaimed packet start before after) (d : Nat) :
    (after.bd .tx d).next = (before.bd .tx d).next ∧
      (after.bd .tx d).pbuf = (before.bd .tx d).pbuf := by
  rcases reclaimed.cells d with ⟨flags, equal, _⟩
  rw [equal]
  exact ⟨rfl, rfl⟩

theorem Reclaimed.sop (reclaimed : Reclaimed packet start before after) (d : Nat) :
    (after.bd .tx d).sop = ((before.bd .tx d).sop && !decide (d = start)) := by
  rcases reclaimed.cells d with ⟨flags, equal, bits⟩
  rw [equal]
  change flags.getLsbD 31 = _
  rw [bits 31]
  simp [Bd.sop]

theorem Reclaimed.eop (reclaimed : Reclaimed packet start before after) (d : Nat) :
    (after.bd .tx d).eop =
      ((before.bd .tx d).eop && !decide (d = place numBd start (packet.clen - 1))) := by
  rcases reclaimed.cells d with ⟨flags, equal, bits⟩
  rw [equal]
  change flags.getLsbD 30 = _
  rw [bits 30]
  simp [Bd.eop]

/-- Reclaiming the first packet. -/
theorem TxRing.reclaim (ring : TxRing before start (packet :: packets))
    (reclaimed : Reclaimed packet start before after) :
    TxRing after (place numBd start packet.clen) packets := by
  have count := ring.count
  have nonempty := ring.queued.1.nonempty
  simp only [slots_cons] at count
  have marked := ring.queued.1
  have apart : ∀ {offset : Nat}, packet.clen ≤ offset → offset < numBd →
      after.bd .tx (place numBd start offset) = before.bd .tx (place numBd start offset) := by
    intro offset low high
    apply reclaimed.others
    · intro same
      have equal := place_injective high (by omega) (same.trans (place_zero ring.bound).symm)
      omega
    · intro same
      have equal := place_injective high (by omega) same
      omega
  refine ⟨place_lt (by decide), ?_, ?_, ?_, ?_, ?_, ?_, ?_, ?_⟩
  · rw [reclaimed.txch]
    simp only
    omega
  · rw [reclaimed.txch]
  · rw [reclaimed.txch, place_place]
    simpa using ring.freeHead
  · intro tail isTail
    rw [reclaimed.txch] at isTail
    simpa using ring.sendTail tail isTail
  · intro isNone
    rw [reclaimed.txch] at isNone
    simpa using ring.unsent isNone
  · intro d small
    rw [reclaimed.txch, (reclaimed.shape d).1]
    exact ring.links d small
  · apply ring.queued.2.congr
    · intro offset small
      rw [place_place, apart (by omega) (by omega)]
    · intro offset small
      rw [place_place, apart (by omega) (by omega)]
    · intro offset small
      rw [place_place, apart (by omega) (by omega)]
  · intro offset low high
    rw [place_place]
    by_cases free : packet.clen + offset < numBd
    · rw [apart (by omega) free]
      exact ring.free _ (by simp only [slots_cons]; omega) free
    · -- A descriptor of the packet itself, one lap on.
      have inside : packet.clen + offset - numBd < packet.clen := by omega
      rw [show packet.clen + offset = packet.clen + offset - numBd + numBd by omega,
        place_size, reclaimed.sop, reclaimed.eop, marked.sop _ inside, marked.eop _ inside]
      constructor
      · by_cases first : packet.clen + offset - numBd = 0
        · simp [first, place_zero ring.bound]
        · simp [first]
      · by_cases last : packet.clen + offset - numBd + 1 = packet.clen
        · rw [show packet.clen - 1 = packet.clen + offset - numBd by omega]
          simp
        · simp [last]

end Reclaim

end BbbEth.Cpsw
