import BbbEth.Cpsw.Tx.Pad
import BbbEth.Cpsw.Tx.Runs

/-!
# The frames of `cpswif_output`

What a call of `cpswif_output` puts into the descriptors, compared with the bytes of
the pbuf chain that it was given.
-/

namespace BbbEth.Cpsw

open BbbEth.Interference BbbEth.Linked Routine

/-! ## The call -/

/-- The effect of `pbuf_ref`. -/
def State.addRef (state : State) (address : Nat) : State :=
  state.modifyPbuf address fun pbuf => { pbuf with ref := pbuf.ref + 1 }

theorem addRef_same (state : State) (address q : Nat) :
    ((state.addRef address).pbuf q).next = (state.pbuf q).next ∧
      ((state.addRef address).pbuf q).payload = (state.pbuf q).payload ∧
      ((state.addRef address).pbuf q).len = (state.pbuf q).len ∧
      ((state.addRef address).pbuf q).totLen = (state.pbuf q).totLen := by
  by_cases same : q = address
  · subst same
    simp [State.addRef]
  · simp [State.addRef, same]

section Output

variable {admits : {reply : Type} → Access reply → State → Prop} {timely faulty : Prop}
variable {post : Err → State → Prop}

/-- The padding leads on to `cpswif_transmit`, with a reference taken. -/
theorem output_ensures {state adjusted actual : State} {portNum : Word} {p q : Nat}
    (holds : Sends state actual)
    (pads : (outline (fun _ => False) fun request _ => Calm request).Runs (padShort p)
      state q adjusted)
    (continues : ∀ later, Sends (adjusted.addRef q) later →
      (flipContract admits timely faulty).Ensures post (cpswifTransmit portNum q) later) :
    (flipContract admits timely faulty).Ensures post (cpswifOutput portNum p) actual := by
  unfold cpswifOutput
  apply sends_describes.ensures pads holds
  intro later kept
  have referencing : (outline (fun _ => False) fun request _ => Calm request).Runs
      (pbufRef (some q)) adjusted () (adjusted.addRef q) :=
    runs_step (by trivial) (by trivial) .done
  exact sends_describes.ensures referencing kept continues

end Output

/-! ## What has been queued -/

/-- The descriptors from `first` on hold the chain of the pbuf `p`, which the state
before the fill describes. -/
structure Sent (p : Nat) (chain : List Nat) (first : Nat) (before after : State) : Prop where
  path : Path (fun d => (after.bd .tx d).next) (some first)
    (arc numBd first chain.length) none
  marked : Marked after first ⟨p, chain.length⟩
  buffers : ∀ offset, (inside : offset < chain.length) →
    (after.bd .tx (place numBd first offset)).bufptr = (before.pbuf chain[offset]).payload ∧
      (after.bd .tx (place numBd first offset)).bufoffLen.toNat =
        (before.pbuf chain[offset]).len.toNat
  header : (after.bd .tx first).flagsPktlen &&& cpdmaBdPktlenMask =
    (before.pbuf p).totLen.setWidth 32
  cleans : essential after.trace =
    (chain.map fun q => Event.clean (before.pbuf q).payload (before.pbuf q).len.toNat).reverse ++
      essential before.trace

private theorem getLsbD_lenMask (bit : Nat) :
    cpdmaBdLenMask.getLsbD bit = decide (bit < 16) := by
  rw [show cpdmaBdLenMask = BitVec.setWidth 32 (BitVec.allOnes 16) from rfl,
    BitVec.getLsbD_setWidth, BitVec.getLsbD_allOnes]
  by_cases low : bit < 16
  · simp [low, show bit < 32 by omega]
  · simp [low]

/-- `CPDMA_BD_LEN_MASK` keeps a 16-bit length. -/
theorem setWidth_and_lenMask (value : Half) :
    (value.setWidth 32 &&& cpdmaBdLenMask) = value.setWidth 32 := by
  apply BitVec.eq_of_getLsbD_eq
  intro bit _
  rw [BitVec.getLsbD_and, getLsbD_lenMask, BitVec.getLsbD_setWidth]
  by_cases low : bit < 16
  · simp [low]
  · simp [low, BitVec.getLsbD_of_ge value bit (by omega)]

/-- The packet length field of the SOP descriptor is the total length. -/
theorem packetFlags_pktlen {portNum : Word} (port : SlavePort portNum) (totLen : Half)
    (clen : Nat) (old actual : Word)
    (same : SameMarks actual (packetFlags portNum totLen clen 0 old)) :
    actual &&& cpdmaBdPktlenMask = totLen.setWidth 32 := by
  have toPort : ∀ bit, bit < 16 → (cpdmaBufDescToPort portNum).getLsbD bit = false := by
    intro bit low
    rcases port with rfl | rfl
    · exact (by decide : ∀ bit < 16, (cpdmaBufDescToPort 1).getLsbD bit = false) bit low
    · exact (by decide : ∀ bit < 16, (cpdmaBufDescToPort 2).getLsbD bit = false) bit low
  apply BitVec.eq_of_getLsbD_eq
  intro bit _
  rw [BitVec.getLsbD_and, show cpdmaBdPktlenMask = cpdmaBdLenMask from rfl, getLsbD_lenMask,
    BitVec.getLsbD_setWidth]
  by_cases low : bit < 16
  · rw [same bit (by omega) (by omega)]
    simp only [packetFlags, if_true, headerFlags]
    split
    · rw [getLsbD_and_not_eoq, getLsbD_or_eop, BitVec.getLsbD_or, getLsbD_or_sop_owner,
        toPort bit low, BitVec.getLsbD_setWidth]
      simp [low, show bit < 32 by omega, show bit ≠ 28 by omega, show bit ≠ 29 by omega,
        show bit ≠ 30 by omega, show bit ≠ 31 by omega]
    · rw [BitVec.getLsbD_or, getLsbD_or_sop_owner, toPort bit low, BitVec.getLsbD_setWidth]
      simp [low, show bit < 32 by omega, show bit ≠ 29 by omega, show bit ≠ 31 by omega]
  · simp [low, BitVec.getLsbD_of_ge totLen bit (by omega)]

/-- A packet that has been filled and linked has been queued. -/
theorem sent_of_filled {before filled after : State} {portNum : Word} {p start : Nat}
    {chain : List Nat} {packets : List Packet} (ring : TxRing before start packets)
    (port : SlavePort portNum) (nonempty : 0 < chain.length) (short : chain.length < numBd)
    (enough : chain.length ≤ before.txch.freeNum)
    (fill : Filled portNum p chain (place numBd start (slots packets)) before filled)
    (sends : Sends (filled.link (place numBd start (slots packets))
      (place numBd (place numBd start (slots packets)) (chain.length - 1))) after) :
    Sent p chain (place numBd start (slots packets)) before after := by
  have bound : place numBd start (slots packets) < numBd := place_lt (by decide)
  have like := fun d => sends.1.bd d
  simp only [link_bd] at like
  have next : ∀ offset, (inside : offset < chain.length) →
      (after.bd .tx (place numBd (place numBd start (slots packets)) offset)).next =
        if offset + 1 = chain.length then none
        else some (place numBd (place numBd start (slots packets)) (offset + 1)) := by
    intro offset inside
    have notTail := ring.free_ne_tail (show offset + 1 < numBd by omega)
    rw [(like _).next]
    simp only [fill.txch, if_neg notTail, fill.cells offset inside]
  refine ⟨?_, ?_, ?_, ?_, ?_⟩
  · have linked : ∀ offset < chain.length - 1,
        (after.bd .tx (place numBd (place numBd start (slots packets)) offset)).next =
          some (place numBd (place numBd start (slots packets)) (offset + 1)) := by
      intro offset inside
      rw [next offset (by omega), if_neg (by omega)]
    have closed : (after.bd .tx (place numBd (place numBd start (slots packets))
        (chain.length - 1))).next = none := by
      rw [next _ (by omega), if_pos (by omega)]
    have path : Path (fun d => (after.bd .tx d).next) _ _ none :=
      path_arc_closed bound linked closed
    rwa [Nat.sub_add_cancel nonempty] at path
  · have marked := ring.append_marked port nonempty enough fill
    exact marked.congr (fun _ _ => (like _).sameShape.sop) (fun _ _ => (like _).sameShape.eop)
      (fun _ _ => (like _).pbuf)
  · intro offset inside
    rw [(like _).bufptr, (like _).bufoffLen, fill.cells offset inside, setWidth_and_lenMask]
    exact ⟨rfl, BitVec.toNat_setWidth_of_le (by decide)⟩
  · have first := fill.cells 0 nonempty
    rw [place_zero bound] at first
    apply packetFlags_pktlen port _ chain.length
    have flags := (like (place numBd start (slots packets))).flags.1
    simp only [first] at flags
    exact flags
  · rw [sends.1.trace, link_trace, fill.trace]
    unfold essential
    rw [List.filter_append]
    congr 1
    rw [List.filter_eq_self]
    intro event member
    simp only [List.mem_reverse, List.mem_map] at member
    rcases member with ⟨q, _, rfl⟩
    rfl

/-! ## Frames -/

section Bytes

variable (memory : Word → BitVec 8)

/-- The bytes in memory from an address on. -/
def payloadBytes (address : Word) (length : Nat) : List (BitVec 8) :=
  (List.range length).map fun offset => memory (address + BitVec.ofNat 32 offset)

/-- The bytes of a pbuf chain. -/
def chainBytes (state : State) (chain : List Nat) : List (BitVec 8) :=
  (chain.map fun q => payloadBytes memory (state.pbuf q).payload (state.pbuf q).len.toNat).flatten

/-- The bytes that descriptors name. -/
def queuedBytes (state : State) (bds : List Nat) : List (BitVec 8) :=
  (bds.map fun d => payloadBytes memory (state.bd .tx d).bufptr
    (state.bd .tx d).bufoffLen.toNat).flatten

variable {memory} {state : State} {chain left right : List Nat} {address : Word}

@[simp] theorem length_payloadBytes (length : Nat) :
    (payloadBytes memory address length).length = length := by
  simp [payloadBytes]

theorem payloadBytes_prefix {short long : Nat} (shorter : short ≤ long) :
    payloadBytes memory address short <+: payloadBytes memory address long := by
  refine ⟨(List.range (long - short)).map fun offset =>
    memory (address + BitVec.ofNat 32 (short + offset)), ?_⟩
  unfold payloadBytes
  rw [show long = short + (long - short) by omega, List.range_add, List.map_append,
    List.map_map, Nat.add_sub_cancel_left]
  rfl

theorem length_chainBytes : (chainBytes memory state chain).length =
    (chain.map fun q => (state.pbuf q).len.toNat).sum := by
  simp [chainBytes, List.length_flatten, Function.comp_def]

theorem chainBytes_append : chainBytes memory state (left ++ right) =
    chainBytes memory state left ++ chainBytes memory state right := by
  simp [chainBytes]

end Bytes

/-- The length of a frame on the wire. -/
def frameLength (totLen : Half) : Nat := max totLen.toNat minPktLen.toNat

/-- The descriptors `bds` that a call has queued hold the frame of the chain from
`p` on, padded to the minimum length, with the whole of it cleaned from the cache. -/
structure QueuedFrame (memory : Word → BitVec 8) (before : State) (p : Nat)
    (chain : List Nat) (after : State) (bds : List Nat) : Prop where
  path : Path (fun d => (after.bd .tx d).next) before.txch.freeHead bds none
  sop : ∀ d, bds.head? = some d → (after.bd .tx d).sop = true
  eop : ∀ d, bds.getLast? = some d → (after.bd .tx d).eop = true
  content : chainBytes memory before chain <+: queuedBytes memory after bds
  total : (queuedBytes memory after bds).length = frameLength (before.pbuf p).totLen
  header : ∀ d, bds.head? = some d →
    ((after.bd .tx d).flagsPktlen &&& cpdmaBdPktlenMask).toNat =
      frameLength (before.pbuf p).totLen
  cleaned : ∃ recent, essential after.trace = recent ++ essential before.trace ∧
    ∀ d ∈ bds, .clean (after.bd .tx d).bufptr (after.bd .tx d).bufoffLen.toNat ∈ recent

section Frame

variable {memory : Word → BitVec 8} {before handed after : State} {p q first : Nat}
variable {chain pbufs bds : List Nat}

theorem Sent.nonempty (sent : Sent q pbufs first handed after) : 0 < pbufs.length :=
  sent.marked.nonempty

/-- The descriptors name the bytes of the chain. -/
theorem Sent.bytes (sent : Sent q pbufs first handed after) :
    queuedBytes memory after (arc numBd first pbufs.length) =
      chainBytes memory handed pbufs := by
  unfold queuedBytes chainBytes
  congr 1
  apply List.ext_getElem (by simp)
  intro offset inside _
  simp only [List.length_map, length_arc] at inside
  simp only [List.getElem_map, arc, List.getElem_range]
  rw [(sent.buffers offset inside).1, (sent.buffers offset inside).2]

theorem Sent.frame (sent : Sent q pbufs first handed after) (bound : first < numBd)
    (freeHead : before.txch.freeHead = some first) (trace : handed.trace = before.trace)
    (content : chainBytes memory before chain <+: chainBytes memory handed pbufs)
    (total : (chainBytes memory handed pbufs).length = frameLength (before.pbuf p).totLen)
    (header : (handed.pbuf q).totLen.toNat = frameLength (before.pbuf p).totLen) :
    QueuedFrame memory before p chain after (arc numBd first pbufs.length) := by
  have nonempty := sent.nonempty
  have headArc : (arc numBd first pbufs.length).head? = some first := by
    rw [← Nat.sub_add_cancel nonempty, arc_succ bound]
    rfl
  refine ⟨?_, ?_, ?_, ?_, ?_, ?_, ?_⟩
  · rw [freeHead]
    exact sent.path
  · intro d isHead
    rw [headArc] at isHead
    obtain rfl := Option.some.inj isHead
    have sop := sent.marked.sop 0 nonempty
    rwa [place_zero bound, decide_eq_true rfl] at sop
  · intro d isLast
    rw [getLast?_arc nonempty] at isLast
    obtain rfl := Option.some.inj isLast
    rw [sent.marked.eop _ (by exact Nat.sub_lt nonempty Nat.one_pos)]
    exact decide_eq_true (Nat.sub_add_cancel nonempty)
  · rw [sent.bytes]
    exact content
  · rw [sent.bytes]
    exact total
  · intro d isHead
    rw [headArc] at isHead
    obtain rfl := Option.some.inj isHead
    rw [sent.header, BitVec.toNat_setWidth_of_le (by decide)]
    exact header
  · refine ⟨_, sent.cleans.trans (by rw [trace]), ?_⟩
    intro d member
    rcases mem_arc.mp member with ⟨offset, inside, rfl⟩
    rw [(sent.buffers offset inside).1, (sent.buffers offset inside).2, List.mem_reverse,
      List.mem_map]
    exact ⟨_, List.getElem_mem inside, rfl⟩

/-- The packet that a call queues is the only frame to be found. -/
theorem Sent.unique (sent : Sent q pbufs first handed after)
    (freeHead : before.txch.freeHead = some first)
    (frame : QueuedFrame memory before p chain after bds) :
    bds = arc numBd first pbufs.length := by
  have path := frame.path
  rw [freeHead] at path
  exact path.unique sent.path

end Frame

/-- What `cpswif_output` passes on to `cpswif_transmit` when the packet is short: its
last pbuf, which gets what the others leave of the minimum length. -/
theorem pad_frame {memory : Word → BitVec 8} {state after : State} {p last first : Nat}
    {rest : List Nat} (bound : first < numBd) (freeHead : state.txch.freeHead = some first)
    (distinct : (p :: rest).Nodup) (isLast : last = (p :: rest).getLast (by simp))
    (total : (state.pbuf p).totLen.toNat =
      ((p :: rest).map fun q => (state.pbuf q).len.toNat).sum)
    (isShort : (state.pbuf p).totLen < minPktLen)
    (sent : Sent last [last] first ((state.pad p rest last).addRef last) after) :
    (∃ bds, QueuedFrame memory state p (p :: rest) after bds) ↔
      ((p :: rest).dropLast.map fun q => (state.pbuf q).len.toNat).sum = 0 := by
  have split : p :: rest = (p :: rest).dropLast ++ [last] := by
    rw [isLast, List.dropLast_append_getLast]
  have lens : (state.pbuf p).totLen.toNat =
      ((p :: rest).dropLast.map fun q => (state.pbuf q).len.toNat).sum +
        (state.pbuf last).len.toNat := by
    rw [total]
    conv_lhs => rw [split]
    simp
  have small : (state.pbuf p).totLen.toNat < minPktLen.toNat := isShort
  have padded : ((state.pad p rest last).pbuf last).totLen = _ ∧ _ :=
    pad_last distinct isLast
  have same : ((state.pad p rest last).pbuf last).next = _ ∧ _ ∧ _ := pad_same last last
  have referenced := addRef_same (state.pad p rest last) last last
  have left := @remaining_toNat state minPktLen (p :: rest).dropLast (by omega)
  have bytes : chainBytes memory ((state.pad p rest last).addRef last) [last] =
      payloadBytes memory (state.pbuf last).payload
        (minPktLen.toNat -
          ((p :: rest).dropLast.map fun q => (state.pbuf q).len.toNat).sum) := by
    simp only [chainBytes, List.map_cons, List.map_nil, List.flatten_cons, List.flatten_nil,
      List.append_nil]
    rw [referenced.2.1, referenced.2.2.1, same.2.1, padded.2, left]
  have wire : frameLength (state.pbuf p).totLen = minPktLen.toNat :=
    Nat.max_eq_right (Nat.le_of_lt small)
  constructor
  · intro frames
    rcases frames with ⟨bds, frame⟩
    have length := frame.total
    rw [sent.unique freeHead frame, sent.bytes, bytes, length_payloadBytes, wire] at length
    omega
  · intro none
    have empty : chainBytes memory state (p :: rest).dropLast = [] := by
      apply List.eq_nil_of_length_eq_zero
      rw [length_chainBytes]
      exact none
    refine ⟨_, sent.frame bound freeHead ?_ ?_ ?_ ?_⟩
    · exact pad_trace last
    · rw [bytes, none, Nat.sub_zero]
      conv_lhs => rw [split, chainBytes_append, empty]
      simp only [chainBytes, List.map_cons, List.map_nil, List.flatten_cons,
        List.flatten_nil, List.append_nil, List.nil_append]
      exact payloadBytes_prefix (by omega)
    · rw [bytes, none, length_payloadBytes, wire, Nat.sub_zero]
    · rw [referenced.2.2.2, padded.1, left, none, wire, Nat.sub_zero]

/-- The ring does not depend on the pbufs. -/
theorem TxRing.heap {state : State} {start : Nat} {packets : List Packet}
    (ring : TxRing state start packets) (heap : Nat → Pbuf) :
    TxRing { state with pbuf := heap } start packets :=
  ring.congr rfl fun _ => ⟨rfl, rfl, rfl, rfl⟩

theorem TxRing.addRef {state : State} {start : Nat} {packets : List Packet}
    (ring : TxRing state start packets) (q : Nat) : TxRing (state.addRef q) start packets :=
  ring.heap _

theorem TxRing.pad {state : State} {start : Nat} {packets : List Packet}
    (ring : TxRing state start packets) (p : Nat) (rest : List Nat) (last : Nat) :
    TxRing (state.pad p rest last) start packets := by
  have heap : ∃ heap, state.pad p rest last = _ := pad_eq last
  rcases heap with ⟨heap, equal⟩
  rw [equal]
  exact ring.heap heap

section Output

variable {admits : {reply : Type} → Access reply → State → Prop} {timely faulty : Prop}
variable {post : Err → State → Prop} {state actual : State} {start : Nat}
variable {packets : List Packet} {portNum : Word} {p : Nat} {rest chain : List Nat}

/-- The call for a packet that is long enough. -/
theorem output_ensures_long (ring : TxRing state start packets) (holds : Sends state actual)
    (path : PbufChain state (some p) chain)
    (counted : chain.length % 2 ^ 8 ≤ state.txch.freeNum →
      chain.length ≤ state.txch.freeNum)
    (isLong : ¬ (state.pbuf p).totLen < minPktLen)
    (full : state.txch.freeNum < chain.length % 2 ^ 8 → ∀ later,
      Sends (state.addRef p) later → post .mem later)
    (queued : ∀ filled later, chain.length ≤ state.txch.freeNum →
      Filled portNum p chain (place numBd start (slots packets)) (state.addRef p) filled →
      Sends (filled.link (place numBd start (slots packets))
        (place numBd (place numBd start (slots packets)) (chain.length - 1))) later →
      post .ok later) :
    (flipContract admits timely faulty).Ensures post (cpswifOutput portNum p) actual := by
  apply output_ensures holds (padShort_runs_long (fun _ _ _ => trivial) isLong)
  intro later kept
  have ringHanded : TxRing (state.addRef p) start packets := ring.heap _
  have pathHanded : PbufChain (state.addRef p) (some p) chain :=
    path.congr fun q => (addRef_same state p q).1
  rw [← Program.bind_pure (cpswifTransmit ..)]
  apply sends_cpswifTransmit ringHanded kept pathHanded counted
  · intro isFull later kept
    exact sends_describes.done kept (full isFull)
  · intro filled later enough fill kept
    exact sends_describes.done kept fun after still => queued filled after enough fill still

/-- The call for a short packet queues its last pbuf. -/
theorem output_ensures_short (ring : TxRing state start packets) (holds : Sends state actual)
    (path : PbufChain state (some p) (p :: rest))
    (isShort : (state.pbuf p).totLen < minPktLen) {last : Nat}
    (isLast : last = (p :: rest).getLast (by simp))
    (full : state.txch.freeNum = 0 → ∀ later,
      Sends ((state.pad p rest last).addRef last) later → post .mem later)
    (queued : ∀ filled later,
      [last].length ≤ ((state.pad p rest last).addRef last).txch.freeNum →
      Filled portNum last [last] (place numBd start (slots packets))
        ((state.pad p rest last).addRef last) filled →
      Sends (filled.link (place numBd start (slots packets))
        (place numBd (place numBd start (slots packets)) ([last].length - 1))) later →
      post .ok later) :
    (flipContract admits timely faulty).Ensures post (cpswifOutput portNum p) actual := by
  have pads : (outline (fun _ => False) fun request _ => Calm request).Runs (padShort p)
      state last (state.pad p rest last) := by
    rw [isLast]
    exact padShort_runs_short (fun _ _ _ => trivial) path isShort
  apply output_ensures holds pads
  intro later kept
  have ringHanded := (ring.pad p rest last).addRef last
  have free : ((state.pad p rest last).addRef last).txch.freeNum = state.txch.freeNum :=
    congrArg Txch.freeNum (pad_txch last)
  have pathHanded : PbufChain ((state.pad p rest last).addRef last) (some last) [last] := by
    refine ⟨rfl, ?_⟩
    have ended : (state.pbuf last).next = none := by
      rw [isLast]
      exact path.next_getLast (by simp)
    change (((state.pad p rest last).addRef last).pbuf last).next = none
    rw [(addRef_same _ _ _).1, (pad_same last last).1]
    exact ended
  rw [← Program.bind_pure (cpswifTransmit ..)]
  apply sends_cpswifTransmit ringHanded kept pathHanded
  · rw [free]
    exact id
  · intro isFull later kept
    rw [free] at isFull
    exact sends_describes.done kept (full (Nat.lt_one_iff.mp isFull))
  · intro filled later enough fill kept
    exact sends_describes.done kept fun after still => queued filled after enough fill still

end Output

/-- Where the call returns `ERR_OK`, the queued descriptors hold the frame if and only
if the packet is long enough or its bytes are all in the last pbuf. -/
theorem output_ensures_frame {memory : Word → BitVec 8} {state : State} {start : Nat}
    {packets : List Packet} (ring : TxRing state start packets)
    (outside : inTxIsr state.trace = false) {portNum : Word} (port : SlavePort portNum)
    {p : Nat} {chain : List Nat} (path : PbufChain state (some p) chain)
    (short : chain.length < numBd)
    (total : (state.pbuf p).totLen.toNat =
      (chain.map fun q => (state.pbuf q).len.toNat).sum) :
    (flipContract (fun _ _ => True) False False).Ensures
      (fun err later => err = .ok → ((∃ bds, QueuedFrame memory state p chain later bds) ↔
        minPktLen ≤ (state.pbuf p).totLen ∨
          (chain.dropLast.map fun q => (state.pbuf q).len.toNat).sum = 0))
      (cpswifOutput portNum p) state := by
  have bound : place numBd start (slots packets) < numBd := place_lt (by decide)
  rcases path.of_some with ⟨rest, rfl, _⟩
  by_cases isShort : (state.pbuf p).totLen < minPktLen
  · apply output_ensures_short ring ⟨.refl _ _, outside⟩ path isShort rfl
    · intro _ later _ isOk
      cases isOk
    · intro filled later enough fill sends _
      have single : 1 < numBd := by decide
      have sent := sent_of_filled ((ring.pad p rest _).addRef _) port (by simp) (by exact single)
        enough fill sends
      rw [pad_frame bound ring.freeHead path.nodup rfl total isShort sent]
      constructor
      · exact .inr
      · intro either
        rcases either with isLong | none
        · exact absurd isShort (BitVec.not_lt.mpr isLong)
        · exact none
  · have size := numBd_eq
    apply output_ensures_long ring ⟨.refl _ _, outside⟩ path (by omega) isShort
    · intro _ later _ isOk
      cases isOk
    · intro filled later enough fill sends _
      have sent := sent_of_filled (ring.addRef p) port (by simp) short enough fill sends
      have bytes : chainBytes memory (state.addRef p) (p :: rest) =
          chainBytes memory state (p :: rest) := by
        apply congrArg List.flatten
        apply List.map_congr_left
        intro q _
        rw [(addRef_same state p q).2.1, (addRef_same state p q).2.2.1]
      have wire : frameLength (state.pbuf p).totLen = (state.pbuf p).totLen.toNat :=
        Nat.max_eq_left (BitVec.le_def.mp (BitVec.not_lt.mp isShort))
      constructor
      · intro _
        exact .inl (BitVec.not_lt.mp isShort)
      · intro _
        refine ⟨_, sent.frame bound ring.freeHead rfl ?_ ?_ ?_⟩
        · exact bytes ▸ List.prefix_refl _
        · rw [bytes, length_chainBytes, wire, total]
        · rw [(addRef_same state p p).2.2.2, wire]

/-- With enough free descriptors the call can return `ERR_OK`. -/
theorem output_returns {state : State} {start : Nat} {packets : List Packet}
    (ring : TxRing state start packets) (outside : inTxIsr state.trace = false)
    {portNum : Word} {p : Nat} {chain : List Nat} (path : PbufChain state (some p) chain)
    (enough : chain.length ≤ state.txch.freeNum) :
    ∃ after, (flipSystem fun _ _ => True).Returns (cpswifOutput portNum p) state .ok after := by
  have nonempty := path.nonempty
  have count := ring.count
  have size := numBd_eq
  rcases path.of_some with ⟨rest, rfl, _⟩
  have ensures : (flipContract (fun _ _ => True) False False).Ensures
      (fun err _ => err = .ok) (cpswifOutput portNum p) state := by
    by_cases isShort : (state.pbuf p).totLen < minPktLen
    · apply output_ensures_short ring ⟨.refl _ _, outside⟩ path isShort rfl
      · intro none
        omega
      · intro filled later _ _ _
        rfl
    · apply output_ensures_long ring ⟨.refl _ _, outside⟩ path (fun _ => enough) isShort
      · intro full
        omega
      · intro filled later _ _ _
        rfl
  rcases ensures.exists_returns not_false (fun _ _ => trivial) with ⟨err, after, returns, isOk⟩
  subst isOk
  exact ⟨after, returns⟩

/-- In every run of `cpswif_output` that returns `ERR_OK`, the queued descriptors hold
the frame if and only if the packet is long enough or its bytes are all in the last
pbuf. -/
theorem cpswifOutput_frame {memory : Word → BitVec 8} {state after : State} {start : Nat}
    {packets : List Packet} (ring : TxRing state start packets)
    (outside : inTxIsr state.trace = false) {portNum : Word} (port : SlavePort portNum)
    {p : Nat} {chain : List Nat} (path : PbufChain state (some p) chain)
    (short : chain.length < numBd)
    (total : (state.pbuf p).totLen.toNat = (chain.map fun q => (state.pbuf q).len.toNat).sum)
    (returns : (flipSystem fun _ _ => True).Returns (cpswifOutput portNum p) state .ok after) :
    (∃ bds, QueuedFrame memory state p chain after bds) ↔
      minPktLen ≤ (state.pbuf p).totLen ∨
        (chain.dropLast.map fun q => (state.pbuf q).len.toNat).sum = 0 :=
  (output_ensures_frame ring outside port path short total).post_of_returns returns rfl

/-- A packet of 42 bytes of headers in one pbuf and 10 bytes of data in another. -/
def splitHeap (q : Nat) : Pbuf :=
  if q = 0 then ⟨some 1, 0x1000#32, 52#16, 42#16, 1⟩ else ⟨none, 0x2000#32, 10#16, 10#16, 1⟩

/-- The same headers with 100 bytes of data. -/
def longHeap (q : Nat) : Pbuf :=
  if q = 0 then ⟨some 1, 0x1000#32, 142#16, 42#16, 1⟩ else ⟨none, 0x2000#32, 100#16, 100#16, 1⟩

theorem boot_chain {heap : Nat → Pbuf} (first : (heap 0).next = some 1)
    (second : (heap 1).next = none) : PbufChain (powerOn heap).boot (some 0) [0, 1] := by
  unfold PbufChain
  rw [boot_pbuf]
  exact ⟨rfl, first, second⟩

/-- The frame of the longer packet is queued. -/
theorem cpswifOutput_frame_longHeap : ∃ after,
    (flipSystem fun _ _ => True).Returns (cpswifOutput 1 0) (powerOn longHeap).boot .ok after ∧
      ∃ bds, QueuedFrame (fun _ => 0) (powerOn longHeap).boot 0 [0, 1] after bds := by
  have shape := boot_shape (powerOn_powerOn longHeap)
  have path : PbufChain (powerOn longHeap).boot (some 0) [0, 1] := boot_chain rfl rfl
  have returns : ∃ after, (flipSystem fun _ _ => True).Returns (cpswifOutput 1 0) _ .ok after :=
    output_returns shape.txRing shape.txHistory.1 path (by rw [shape.txch]; decide)
  rcases returns with ⟨after, returns⟩
  refine ⟨after, returns, ?_⟩
  apply (cpswifOutput_frame shape.txRing shape.txHistory.1 (.inl rfl) path (by decide)
    (by rw [boot_pbuf]; decide) returns).mpr
  left
  rw [boot_pbuf]
  decide

/-- The frame of the short packet is not queued, although the call returns `ERR_OK`. -/
theorem cpswifOutput_splitHeap :
    PbufChain (powerOn splitHeap).boot (some 0) [0, 1] ∧
      (((powerOn splitHeap).boot.pbuf 0).totLen.toNat =
        ([0, 1].map fun q => ((powerOn splitHeap).boot.pbuf q).len.toNat).sum) ∧
      ¬ ∀ after, (flipSystem fun _ _ => True).Returns (cpswifOutput 1 0)
          (powerOn splitHeap).boot .ok after →
        ∃ bds, QueuedFrame (fun _ => 0) (powerOn splitHeap).boot 0 [0, 1] after bds := by
  have shape := boot_shape (powerOn_powerOn splitHeap)
  have path : PbufChain (powerOn splitHeap).boot (some 0) [0, 1] := boot_chain rfl rfl
  have total : ((powerOn splitHeap).boot.pbuf 0).totLen.toNat =
      ([0, 1].map fun q => ((powerOn splitHeap).boot.pbuf q).len.toNat).sum := by
    rw [boot_pbuf]
    decide
  refine ⟨path, total, ?_⟩
  intro always
  have returns : ∃ after, (flipSystem fun _ _ => True).Returns (cpswifOutput 1 0) _ .ok after :=
    output_returns shape.txRing shape.txHistory.1 path (by rw [shape.txch]; decide)
  rcases returns with ⟨after, returns⟩
  have either := ((output_ensures_frame shape.txRing shape.txHistory.1 (.inl rfl) path
    (by decide) total).post_of_returns returns rfl).mp (always after returns)
  rw [boot_pbuf] at either
  revert either
  decide

end BbbEth.Cpsw
