import BbbEth.Cpsw.Tx.Fill

/-!
# Reclaiming a packet

The body of the loop of `eth0_tx_isr` behind the wait for the OWNER bit.
-/

namespace BbbEth.Cpsw

open BbbEth.Interference BbbEth.Linked Routine

/-- The count of free descriptors stays, or goes up by one of the `clen` that are counted from
`base` on. -/
def Counts (base clen : Nat) {reply : Type} (use : Txch → reply × Txch) (txch : Txch) : Prop :=
  (use txch).2.freeNum = txch.freeNum ∨
    ∃ counted < clen, txch.freeNum = base + counted ∧ (use txch).2.freeNum = txch.freeNum + 1

/-- The accesses of `reclaimBds` up to the move of `send_head`, for a packet of `clen` descriptors
with `base` free ones before it.  The only stores into CPPI RAM strip the SOP or the EOP bit from
a flags word. -/
def Reclaims (exact cells : Nat → Prop) (base clen : Nat) (model : State) :
    {reply : Type} → Access reply → Prop
  | _, .txch use => Counts base clen use model.txch
  | _, .loadNext .tx _ => True
  | _, .loadFlags .tx _ .plain => True
  | _, .storeFlags .tx d value => cells d ∧
      ∃ word, Reads exact d word (model.bd .tx d).flagsPktlen ∧
        (value = word &&& ~~~cpdmaBufDescSop ∨ value = word &&& ~~~cpdmaBufDescEop)
  | _, _ => False

/-- A model before the completion pointer write of `reclaimBds`. -/
structure Counting (origin model : State) : Prop where
  sendHead : model.txch.sendHead = origin.txch.sendHead
  pbuf : ∀ d, (model.bd .tx d).pbuf = (origin.bd .tx d).pbuf
  trace : model.trace = origin.trace

/-- A model between this write and `pbuf_free`. -/
structure Freeing (origin model : State) : Prop where
  pbuf : ∀ d, (model.bd .tx d).pbuf = (origin.bd .tx d).pbuf
  trace : ∃ d, model.trace = .cp .tx d :: origin.trace

/-- The accesses of the loop of `pbuf_free`. -/
def Drops : {reply : Type} → Access reply → Prop
  | _, .pbuf _ _ => True
  | _, .emit (.released _) => True
  | _, _ => False

/-- The accesses of `reclaimBds` from the completion pointer write on, for a
packet whose head pbuf is `p`. -/
def Releases (origin : State) (p : Nat) (model : State) : {reply : Type} → Access reply → Prop
  | _, .loadPbuf .tx _ => True
  | _, .pbuf _ _ => True
  | _, .emit (.cp .tx _) => True
  | _, .emit (.freed q) => q = p ∧ Freeing origin model
  | _, .emit (.released _) => True
  | _, _ => False

theorem Drops.releases {origin model : State} {p : Nat} {reply : Type} {request : Access reply}
    (drops : Drops request) : Releases origin p model request := by
  cases request with
  | pbuf => trivial
  | emit event => cases event with | released => trivial | _ => exact drops.elim
  | _ => exact drops.elim

/-- A state with another number of free descriptors. -/
def State.setFreeNum (state : State) (freeNum : Nat) : State :=
  { state with txch := { state.txch with freeNum := freeNum } }

theorem Counting.setFreeNum {origin model : State} (counting : Counting origin model)
    (freeNum : Nat) : Counting origin (model.setFreeNum freeNum) :=
  ⟨counting.sendHead, counting.pbuf, counting.trace⟩

section Count

variable {exact : Nat → Prop} {permits : {reply : Type} → Access reply → State → Prop}
variable {cells : Nat → Prop} {origin state : State} {start base : Nat} {packet : Packet}

theorem countRound_last {currBd : Nat}
    (early : ∀ {reply : Type} (request : Access reply) model,
      Counting origin model → Reclaims exact cells base packet.clen model request →
      permits request model)
    (counting : Counting origin state) (eop : (state.bd .tx currBd).eop = true) :
    (outline exact permits).Runs (countRound currBd) state (.inr currBd) state := by
  unfold countRound
  have isEop := (and_eop_eq_iff _).mpr eop
  apply runs_test (early _ _ counting (by trivial))
  · intro answer same
    have alike : answer &&& cpdmaBufDescEop = cpdmaBufDescEop := by
      rw [and_eop_eq_iff, same 30 (by decide) (by decide)]
      exact eop
    rw [if_pos isEop, if_pos alike]
  · rw [if_pos isEop]
    exact .done

theorem countRound_next {currBd next freeNum counted : Nat}
    (early : ∀ {reply : Type} (request : Access reply) model,
      Counting origin model → Reclaims exact cells base packet.clen model request →
      permits request model)
    (counting : Counting origin state) (inside : counted < packet.clen)
    (before : state.txch.freeNum = base + counted)
    (eop : (state.bd .tx currBd).eop = false)
    (link : (state.bd .tx currBd).next = some next)
    (count : incU32 state.txch.freeNum = freeNum) (one : freeNum = state.txch.freeNum + 1) :
    (outline exact permits).Runs (countRound currBd) state
      (if freeNum = numBd then .inr next else .inl next) (state.setFreeNum freeNum) := by
  unfold countRound
  have notEop : ¬ (state.bd .tx currBd).flagsPktlen &&& cpdmaBufDescEop =
      cpdmaBufDescEop := by
    rw [and_eop_eq_iff, show (state.bd .tx currBd).flagsPktlen.getLsbD 30 = false from eop]
    decide
  subst count
  apply runs_test (early _ _ counting (by trivial))
  · intro answer same
    have alike : ¬ answer &&& cpdmaBufDescEop = cpdmaBufDescEop := by
      rw [and_eop_eq_iff, same 30 (by decide) (by decide), ← and_eop_eq_iff]
      exact notEop
    rw [if_neg notEop, if_neg alike]
  · rw [if_neg notEop]
    apply runs_lift (early _ _ counting (by trivial)) (by trivial)
    apply runs_setTxch (early _ _ counting (by exact .inr ⟨counted, inside, before, one⟩))
    apply runs_getTxch (early _ _ (by exact counting.setFreeNum _) (by exact .inl rfl))
    have followed : (State.perform (.loadNext .tx currBd) state).1 = some next := link
    rw [followed]
    change (outline exact permits).Runs (if _ = numBd then _ else _) _ _ _
    by_cases full : incU32 state.txch.freeNum = numBd
    · rw [if_pos full, if_pos (by exact full)]
      exact .done
    · rw [if_neg full, if_neg (by exact full)]
      exact .done

/-- The loop from the descriptor at `offset` of the packet on.  Its early exit is
taken at the last descriptor of the last packet or not at all. -/
theorem countLoop_runs (state : State)
    (early : ∀ {reply : Type} (request : Access reply) model,
      Counting origin model → Reclaims exact cells base packet.clen model request →
      permits request model)
    (counting : Counting origin state) (marked : Marked state start packet)
    (linked : ∀ offset, offset + 1 < packet.clen →
      (state.bd .tx (place numBd start offset)).next =
        some (place numBd start (offset + 1)))
    {offset : Nat} (room : base + packet.clen ≤ numBd)
    (count : state.txch.freeNum = base + (offset + 1)) (inside : offset < packet.clen) :
    (outline exact permits).Runs (.iterate countRound (place numBd start offset)) state
      (place numBd start (packet.clen - 1)) (state.setFreeNum (base + packet.clen)) := by
  induction left : packet.clen - 1 - offset generalizing offset state with
  | zero =>
      have isLast : offset = packet.clen - 1 := by omega
      have eop : (state.bd .tx (place numBd start offset)).eop = true := by
        rw [marked.eop offset inside]
        simp only [decide_eq_true_eq]
        omega
      apply Outline.Runs.leave (countRound_last early counting eop)
      rw [← isLast]
      have same : state.setFreeNum (base + packet.clen) = state := by
        rw [show base + packet.clen = state.txch.freeNum by omega]
        rfl
      rw [same]
      exact .done
  | succ left inductionHypothesis =>
      have eop : (state.bd .tx (place numBd start offset)).eop = false := by
        rw [marked.eop offset inside]
        simp only [decide_eq_false_iff_not]
        omega
      have counted : incU32 state.txch.freeNum = base + (offset + 1 + 1) := by
        rw [incU32_of_lt (by have := numBd_eq; omega), count]
        omega
      have round := countRound_next early counting (by omega) count eop (linked offset (by omega))
        counted (by omega)
      by_cases full : base + (offset + 1 + 1) = numBd
      · -- All descriptors are counted, so this packet ends here.
        rw [if_pos full] at round
        apply Outline.Runs.leave round
        rw [show packet.clen - 1 = offset + 1 by omega,
          show base + (offset + 1 + 1) = base + packet.clen by omega]
        exact .done
      · rw [if_neg full] at round
        apply Outline.Runs.next round
        exact inductionHypothesis (state.setFreeNum (base + (offset + 1 + 1)))
          (counting.setFreeNum _)
          ⟨marked.nonempty, marked.sop, marked.eop, marked.pbuf⟩ linked rfl (by omega) (by omega)

theorem countBds_runs
    (early : ∀ {reply : Type} (request : Access reply) model,
      Counting origin model → Reclaims exact cells state.txch.freeNum packet.clen model request →
      permits request model)
    (counting : Counting origin state) (bound : start < numBd)
    (marked : Marked state start packet)
    (linked : ∀ offset, offset + 1 < packet.clen →
      (state.bd .tx (place numBd start offset)).next =
        some (place numBd start (offset + 1)))
    (room : state.txch.freeNum + packet.clen ≤ numBd) :
    (outline exact permits).Runs (countBds start) state
      (place numBd start (packet.clen - 1))
      (state.setFreeNum (state.txch.freeNum + packet.clen)) := by
  have counted : incU32 state.txch.freeNum = state.txch.freeNum + (0 + 1) := by
    rw [incU32_of_lt (by have := numBd_eq; have := marked.nonempty; omega)]
  unfold countBds
  apply runs_setTxch (early _ _ counting
    (by exact .inr ⟨0, marked.nonempty, (Nat.add_zero _).symm, counted⟩))
  have markedFirst : Marked (state.setFreeNum (incU32 state.txch.freeNum)) start packet :=
    ⟨marked.nonempty, marked.sop, marked.eop, marked.pbuf⟩
  have loop := countLoop_runs (state.setFreeNum (incU32 state.txch.freeNum)) early
    (counting.setFreeNum _) markedFirst linked room counted marked.nonempty
  rw [place_zero bound] at loop
  exact loop

end Count

/-! ## Giving the pbuf back -/

/-- Only reference counts have changed, and pbufs may have been released. -/
structure Released (before after : State) : Prop where
  txch : after.txch = before.txch
  rxch : after.rxch = before.rxch
  bd : after.bd = before.bd
  engine : after.engine = before.engine
  next : ∀ q, (after.pbuf q).next = (before.pbuf q).next
  trace : ∃ released : List Nat, after.trace = released.map Event.released ++ before.trace

theorem Released.refl (state : State) : Released state state :=
  ⟨rfl, rfl, rfl, rfl, fun _ => rfl, [], rfl⟩

theorem Released.trans {before middle after : State} (first : Released before middle)
    (second : Released middle after) : Released before after where
  txch := second.txch.trans first.txch
  rxch := second.rxch.trans first.rxch
  bd := second.bd.trans first.bd
  engine := second.engine.trans first.engine
  next q := (second.next q).trans (first.next q)
  trace := by
    rcases first.trace with ⟨early, firstTrace⟩
    rcases second.trace with ⟨late, secondTrace⟩
    exact ⟨late ++ early, by rw [secondTrace, firstTrace, List.map_append, List.append_assoc]⟩

theorem PbufChain.congr {before after : State} {p : Ptr} {chain : List Nat}
    (path : PbufChain before p chain)
    (same : ∀ q, (after.pbuf q).next = (before.pbuf q).next) : PbufChain after p chain :=
  Path.congr path fun q _ => same q

/-- The effect of `ref--`. -/
def State.dropRef (state : State) (address : Nat) : State :=
  state.modifyPbuf address fun pbuf => { pbuf with ref := pbuf.ref - 1 }

theorem dropRef_released (state : State) (address : Nat) :
    Released state (state.dropRef address) := by
  refine ⟨rfl, rfl, rfl, rfl, ?_, [], rfl⟩
  intro q
  by_cases same : q = address
  · subst same
    simp [State.dropRef]
  · simp [State.dropRef, same]

section Free

variable {exact : Nat → Prop} {permits : {reply : Type} → Access reply → State → Prop}
variable {state : State} {p : Nat}

/-- A reference is left. -/
theorem freeRound_kept (state : State)
    (drops : ∀ {reply : Type} (request : Access reply) model, Drops request → permits request model)
    {address count : Nat} (shared : (state.pbuf address).ref ≠ 1) :
    (outline exact permits).Runs (freeRound (some address, count)) state
      (.inl (none, count)) (state.dropRef address) := by
  unfold freeRound
  apply runs_setPbuf (drops _ _ (by trivial))
  apply runs_getPbuf (drops _ _ (by trivial))
  have left : ¬ ((state.dropRef address).pbuf address).ref = 0 := by
    simp only [State.dropRef, State.modifyPbuf_pbuf_self]
    intro zero
    exact shared (by bv_omega)
  change (outline exact permits).Runs
    (if ((state.dropRef address).pbuf address).ref = 0 then _ else _) _ _ _
  rw [if_neg left]
  exact .done

/-- The last reference is dropped. -/
theorem freeRound_last (state : State)
    (drops : ∀ {reply : Type} (request : Access reply) model, Drops request → permits request model)
    {address count : Nat} (last : (state.pbuf address).ref = 1) :
    (outline exact permits).Runs (freeRound (some address, count)) state
      (.inl ((state.pbuf address).next, (count + 1) % 2 ^ 8))
      ((state.dropRef address).record (.released address)) := by
  rw [← (dropRef_released state address).next address]
  unfold freeRound
  apply runs_setPbuf (drops _ _ (by trivial))
  apply runs_getPbuf (drops _ _ (by trivial))
  have none : ((state.dropRef address).pbuf address).ref = 0 := by
    simp [State.dropRef, last]
  change (outline exact permits).Runs
    (if ((state.dropRef address).pbuf address).ref = 0 then _ else _) _ _ _
  rw [if_pos none]
  apply runs_getPbuf (drops _ _ (by trivial))
  apply runs_emit (drops _ _ (by trivial))
  exact .done

theorem freeLoop_runs (state : State)
    (drops : ∀ {reply : Type} (request : Access reply) model, Drops request → permits request model)
    {head : Ptr} {chain : List Nat} {count : Nat} (path : PbufChain state head chain) :
    ∃ freed after, (outline exact permits).Runs (.iterate freeRound (head, count)) state
      freed after ∧ Released state after := by
  induction chain generalizing head count state with
  | nil =>
      have ended : head = none := path
      subst ended
      exact ⟨count, state, .leave .done .done, .refl state⟩
  | cons address chain inductionHypothesis =>
      rcases path with ⟨rfl, path⟩
      by_cases last : (state.pbuf address).ref = 1
      · have dropped := dropRef_released state address
        have chainAfter : PbufChain ((state.dropRef address).record (.released address))
            (state.pbuf address).next chain := PbufChain.congr path dropped.next
        rcases inductionHypothesis ((state.dropRef address).record (.released address))
          chainAfter with ⟨freed, after, loop, released⟩
        refine ⟨freed, after, .next (freeRound_last state drops last) loop, ?_⟩
        have noted : Released (state.dropRef address)
            ((state.dropRef address).record (.released address)) :=
          ⟨rfl, rfl, rfl, rfl, fun _ => rfl, [address], rfl⟩
        exact dropped.trans (noted.trans released)
      · exact ⟨count, state.dropRef address,
          .next (freeRound_kept state drops last) (.leave .done .done),
          dropRef_released state address⟩

theorem pbufFree_runs
    (frees : permits (.emit (.freed p)) state)
    (drops : ∀ {reply : Type} (request : Access reply) model, Drops request → permits request model)
    {chain : List Nat} (path : PbufChain state (some p) chain) :
    ∃ freed after, (outline exact permits).Runs (pbufFree (some p)) state freed after ∧
      Released (state.record (.freed p)) after := by
  have chainNoted : PbufChain (state.record (.freed p)) (some p) chain := path
  rcases freeLoop_runs (state.record (.freed p)) drops chainNoted with
    ⟨freed, after, runs, released⟩
  refine ⟨freed, after, ?_, released⟩
  unfold pbufFree
  apply runs_emit frees
  exact runs

/-- A shared pbuf only loses one reference. -/
theorem pbufFree_runs_shared
    (frees : permits (.emit (.freed p)) state)
    (drops : ∀ {reply : Type} (request : Access reply) model, Drops request → permits request model)
    (shared : (state.pbuf p).ref ≠ 1) :
    (outline exact permits).Runs (pbufFree (some p)) state 0
      ((state.record (.freed p)).dropRef p) := by
  unfold pbufFree
  apply runs_emit frees
  have kept : ((state.record (.freed p)).pbuf p).ref ≠ 1 := shared
  exact .next (freeRound_kept (state.record (.freed p)) drops kept) (.leave .done .done)

end Free

/-! ## The whole packet -/

/-- What `reclaimBds` leaves behind for the packet at `start`. -/
structure Reclaimed (packet : Packet) (start : Nat) (before after : State) : Prop where
  txch : after.txch =
    { before.txch with
      sendHead := some (place numBd start packet.clen)
      freeNum := before.txch.freeNum + packet.clen }
  rxch : after.rxch = before.rxch
  engine : after.engine = before.engine
  pbufs : ∀ q, (after.pbuf q).next = (before.pbuf q).next
  others : ∀ d, d ≠ start → d ≠ place numBd start (packet.clen - 1) →
    after.bd .tx d = before.bd .tx d
  cells : ∀ d, ∃ flags, after.bd .tx d = { before.bd .tx d with flagsPktlen := flags } ∧
    ∀ bit, flags.getLsbD bit = ((before.bd .tx d).flagsPktlen.getLsbD bit &&
      !(decide (bit = 31) && decide (d = start)) &&
      !(decide (bit = 30) && decide (d = place numBd start (packet.clen - 1))))
  trace : ∃ released : List Nat, after.trace =
    released.map Event.released ++ .freed packet.pbuf ::
      .cp .tx (place numBd start (packet.clen - 1)) :: before.trace

namespace State

/-- The effect of `advanceSendHead`. -/
def setSendHead (state : State) (sendHead : Ptr) : State :=
  { state with txch := { state.txch with sendHead := sendHead } }

/-- Strip a bit from the flags of a transmit descriptor. -/
def strip (state : State) (d : Nat) (mask : Word) : State :=
  state.modifyBd .tx d fun cell =>
    { cell with flagsPktlen := (state.bd .tx d).flagsPktlen &&& ~~~mask }

variable (state : State) (d other : Nat) (mask : Word)

theorem strip_bd : (state.strip d mask).bd .tx other =
    { state.bd .tx other with
      flagsPktlen := if other = d then (state.bd .tx other).flagsPktlen &&& ~~~mask
        else (state.bd .tx other).flagsPktlen } := by
  by_cases same : other = d
  · subst same
    simp [strip]
  · simp [strip, same]

theorem strip_getLsbD {index : Nat} (bit : Nat) (isBit : mask = BitVec.twoPow 32 index) :
    ((state.strip d mask).bd .tx other).flagsPktlen.getLsbD bit =
      ((state.bd .tx other).flagsPktlen.getLsbD bit &&
        !(decide (bit = index) && decide (other = d))) := by
  rw [strip_bd]
  by_cases same : other = d
  · simp only [same, isBit, if_true, getLsbD_and_not_twoPow, decide_true, Bool.and_true]
  · simp [same]

end State

section Packet

variable {exact : Nat → Prop} {permits : {reply : Type} → Access reply → State → Prop}
variable {cells : Nat → Prop} {origin state : State} {start base clen : Nat} {packet : Packet}

/-- `send_head` moves to the descriptor behind the packet, by the next pointer of
its last descriptor or, at the end of the chain, by `free_head`. -/
theorem advanceSendHead_runs (state : State) {currBd behind : Nat}
    (early : ∀ {reply : Type} (request : Access reply) model,
      Counting origin model → Reclaims exact cells base clen model request →
      permits request model)
    (counting : Counting origin state)
    (following : (state.bd .tx currBd).next = some behind ∨
      (state.bd .tx currBd).next = none ∧ state.txch.freeHead = some behind) :
    (outline exact permits).Runs
      (advanceSendHead currBd (state.bd .tx currBd).next) state ()
      (state.setSendHead (some behind)) := by
  rcases following with link | ⟨link, freeHead⟩
  · rw [link]
    unfold advanceSendHead
    apply runs_lift (early _ _ counting (by trivial)) (by trivial)
    have followed : (State.perform (.loadNext .tx currBd) state).1 = some behind := link
    rw [followed]
    exact runs_step (early _ _ counting (by exact .inl rfl)) (by trivial) .done
  · rw [link]
    unfold advanceSendHead
    apply runs_getTxch (early _ _ counting (by exact .inl rfl))
    rw [freeHead]
    exact runs_step (early _ _ counting (by exact .inl rfl)) (by trivial) .done

theorem reclaimBds_runs
    (early : ∀ {reply : Type} (request : Access reply) model,
      Counting state model → Reclaims exact cells state.txch.freeNum packet.clen model request →
      permits request model)
    (late : ∀ {reply : Type} (request : Access reply) model,
      Releases state packet.pbuf model request → permits request model)
    (bound : start < numBd)
    (marked : Marked state start packet)
    (linked : ∀ offset, offset + 1 < packet.clen →
      (state.bd .tx (place numBd start offset)).next =
        some (place numBd start (offset + 1)))
    (following : (state.bd .tx (place numBd start (packet.clen - 1))).next =
        some (place numBd start packet.clen) ∨
      (state.bd .tx (place numBd start (packet.clen - 1))).next = none ∧
        state.txch.freeHead = some (place numBd start packet.clen))
    (room : state.txch.freeNum + packet.clen ≤ numBd)
    (ownFirst : cells start) (ownLast : cells (place numBd start (packet.clen - 1)))
    {chain : List Nat} (path : PbufChain state (some packet.pbuf) chain) :
    ∃ after, (outline exact permits).Runs (reclaimBds start) state () after ∧
      Reclaimed packet start state after := by
  have nonempty := marked.nonempty
  let last := place numBd start (packet.clen - 1)
  let counted := state.setFreeNum (state.txch.freeNum + packet.clen)
  let stripped := (counted.strip start cpdmaBufDescSop).strip last cpdmaBufDescEop
  let moved := stripped.setSendHead (some (place numBd start packet.clen))
  let noted := moved.record (.cp .tx last)
  have sameNext : ∀ d, (stripped.bd .tx d).next = (state.bd .tx d).next := by
    intro d
    simp only [stripped, State.strip_bd]
    rfl
  have samePbuf : ∀ d, (stripped.bd .tx d).pbuf = (state.bd .tx d).pbuf := by
    intro d
    simp only [stripped, State.strip_bd]
    rfl
  have counting : Counting state stripped := ⟨rfl, samePbuf, rfl⟩
  have lastPbuf : (noted.bd .tx last).pbuf = some packet.pbuf :=
    (samePbuf last).trans (marked.pbuf _ (by omega))
  have pathNoted : PbufChain noted (some packet.pbuf) chain := path
  have release : ∃ freed after,
      (outline exact permits).Runs (pbufFree (some packet.pbuf)) noted freed after ∧
        Released (noted.record (.freed packet.pbuf)) after :=
    pbufFree_runs (late _ _ (by exact ⟨rfl, samePbuf, last, rfl⟩))
      (fun request model drops => late request model drops.releases) pathNoted
  rcases release with ⟨freed, after, freeing, released⟩
  refine ⟨after, ?_, ?_⟩
  · unfold reclaimBds
    apply Outline.Runs.bind
      (countBds_runs early ⟨rfl, fun _ => rfl, rfl⟩ bound marked linked room)
    apply runs_updateFlags (early _ _ (by exact ⟨rfl, fun _ => rfl, rfl⟩) (by trivial))
      (fun answer reads => early _ _ (by exact ⟨rfl, fun _ => rfl, rfl⟩)
        (by exact ⟨ownFirst, answer, reads, .inl rfl⟩))
      (fun _ reads => reads.and _)
    have once : Counting state (counted.strip start cpdmaBufDescSop) := by
      refine ⟨rfl, fun d => ?_, rfl⟩
      rw [State.strip_bd]
      rfl
    apply runs_updateFlags (early _ _ once (by trivial))
      (fun answer reads => early _ _ once (by exact ⟨ownLast, answer, reads, .inr rfl⟩))
      (fun _ reads => reads.and _)
    apply runs_lift (early _ _ counting (by trivial)) (by trivial)
    have behind : (stripped.bd .tx last).next = some (place numBd start packet.clen) ∨
        (stripped.bd .tx last).next = none ∧
          stripped.txch.freeHead = some (place numBd start packet.clen) := by
      rw [sameNext]
      exact following
    apply Outline.Runs.bind (advanceSendHead_runs stripped early counting behind)
    apply runs_emit (late _ _ (by trivial))
    apply runs_lift (late _ _ (by trivial)) (by trivial)
    have loaded : (State.perform (.loadPbuf .tx last) noted).1 = some packet.pbuf := lastPbuf
    change (outline exact permits).Runs
      (pbufFree (State.perform (.loadPbuf .tx last) noted).1 >>= _) noted _ _
    rw [loaded]
    exact Outline.Runs.bind freeing .done
  · have sameBd : ∀ d, after.bd .tx d = stripped.bd .tx d := by
      intro d
      rw [released.bd]
      rfl
    refine ⟨released.txch, released.rxch, released.engine, released.next, ?_, ?_, ?_⟩
    · intro d notFirst notLast
      rw [sameBd]
      simp only [stripped, State.strip_bd, if_neg notFirst, if_neg notLast, last]
      rfl
    · intro d
      refine ⟨(stripped.bd .tx d).flagsPktlen, ?_, ?_⟩
      · rw [sameBd]
        simp only [stripped, State.strip_bd]
        rfl
      · intro bit
        rw [State.strip_getLsbD _ _ _ _ bit (show cpdmaBufDescEop = BitVec.twoPow 32 30 from rfl),
          State.strip_getLsbD _ _ _ _ bit (show cpdmaBufDescSop = BitVec.twoPow 32 31 from rfl)]
        rfl
    · rcases released.trace with ⟨names, trace⟩
      exact ⟨names, trace⟩

end Packet

end BbbEth.Cpsw
