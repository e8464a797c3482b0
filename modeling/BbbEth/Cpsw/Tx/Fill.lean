import BbbEth.Cpsw.Tx.Ring

/-!
# Filling the descriptors of a packet

The part of `cpswif_transmit` between the capacity test and the test of
`send_tail` works on free descriptors only.
-/

namespace BbbEth.Cpsw

open BbbEth.Interference BbbEth.Linked Routine

/-- The chain of pbufs from `p` on. -/
def PbufChain (state : State) (p : Ptr) (chain : List Nat) : Prop :=
  Path (fun address => (state.pbuf address).next) p chain none

theorem PbufChain.nonempty {state : State} {p : Nat} {chain : List Nat}
    (path : PbufChain state (some p) chain) : 0 < chain.length := by
  cases chain with
  | nil => cases path
  | cons q chain => simp

/-- The accesses of `fillPacket`, which stores into `cells` only. -/
def Fills (cells : Nat → Prop) : {reply : Type} → Access reply → Prop
  | _, .txch _ => True
  | _, .pbuf _ _ => True
  | _, .loadNext .tx _ => True
  | _, .loadFlags .tx _ .plain => True
  | _, .storeNext .tx d _ => cells d
  | _, .storeBufptr .tx d _ => cells d
  | _, .storeBufoffLen .tx d _ => cells d
  | _, .storeFlags .tx d _ => cells d
  | _, .storePbuf .tx d _ => cells d
  | _, .emit (.clean _ _) => True
  | _, _ => False

namespace State

/-- The effect of one round of the loop over the chain. -/
def fillCell (state : State) (pbuf q d : Nat) : State :=
  let cleaned := state.record
    (.clean (state.pbuf q).payload (state.pbuf q).len.toNat)
  let stored := ((cleaned.modifyBd .tx d fun cell =>
      { cell with bufptr := (state.pbuf q).payload }).modifyBd .tx d fun cell =>
      { cell with bufoffLen := (state.pbuf q).len.setWidth 32 &&& cpdmaBdLenMask }).modifyBd
      .tx d fun cell => { cell with pbuf := some pbuf }
  { stored with txch := { stored.txch with freeNum := decU32 stored.txch.freeNum } }

/-- The effect of the loop over the chain, from descriptor `d` on. -/
def fillCells (pbuf : Nat) : List Nat → Nat → State → State
  | [], _, state => state
  | q :: chain, d, state =>
      fillCells pbuf chain (place numBd d 1) (state.fillCell pbuf q d)

end State

section fillCell

variable (state : State) (pbuf q d other : Nat)

@[simp] theorem fillCell_rxch : (state.fillCell pbuf q d).rxch = state.rxch := rfl
@[simp] theorem fillCell_pbuf : (state.fillCell pbuf q d).pbuf = state.pbuf := rfl
@[simp] theorem fillCell_engine : (state.fillCell pbuf q d).engine = state.engine := rfl

@[simp] theorem fillCell_txch : (state.fillCell pbuf q d).txch =
    { state.txch with freeNum := decU32 state.txch.freeNum } := rfl

@[simp] theorem fillCell_trace : (state.fillCell pbuf q d).trace =
    .clean (state.pbuf q).payload (state.pbuf q).len.toNat :: state.trace := rfl

theorem fillCell_bd_self : (state.fillCell pbuf q d).bd .tx d =
    { state.bd .tx d with
      bufptr := (state.pbuf q).payload
      bufoffLen := (state.pbuf q).len.setWidth 32 &&& cpdmaBdLenMask
      pbuf := some pbuf } := by
  simp [State.fillCell, State.record]

theorem fillCell_bd_ne (different : other ≠ d) :
    (state.fillCell pbuf q d).bd .tx other = state.bd .tx other := by
  simp [State.fillCell, State.record, different]

@[simp] theorem fillCell_next : ((state.fillCell pbuf q d).bd .tx other).next =
    (state.bd .tx other).next := by
  by_cases same : other = d
  · rw [same, fillCell_bd_self]
  · rw [fillCell_bd_ne _ _ _ _ _ same]

end fillCell

section fillCells

variable {pbuf : Nat} {chain : List Nat} {d other : Nat} {state : State}

@[simp] theorem fillCells_rxch : (State.fillCells pbuf chain d state).rxch = state.rxch := by
  induction chain generalizing d state with
  | nil => rfl
  | cons q chain inductionHypothesis => exact inductionHypothesis

@[simp] theorem fillCells_pbuf : (State.fillCells pbuf chain d state).pbuf = state.pbuf := by
  induction chain generalizing d state with
  | nil => rfl
  | cons q chain inductionHypothesis => exact inductionHypothesis

@[simp] theorem fillCells_engine :
    (State.fillCells pbuf chain d state).engine = state.engine := by
  induction chain generalizing d state with
  | nil => rfl
  | cons q chain inductionHypothesis => exact inductionHypothesis

theorem fillCells_sendTail :
    (State.fillCells pbuf chain d state).txch.sendTail = state.txch.sendTail := by
  induction chain generalizing d state with
  | nil => rfl
  | cons q chain inductionHypothesis => exact inductionHypothesis

theorem fillCells_txch (enough : chain.length ≤ state.txch.freeNum) :
    (State.fillCells pbuf chain d state).txch =
      { state.txch with freeNum := state.txch.freeNum - chain.length } := by
  induction chain generalizing d state with
  | nil => rfl
  | cons q chain inductionHypothesis =>
      simp only [List.length_cons] at enough ⊢
      have fewer := decU32_of_pos state.txch.freeNum (by omega)
      have enoughLeft : chain.length ≤ (state.fillCell pbuf q d).txch.freeNum := by
        simp only [fillCell_txch, fewer]
        omega
      rw [State.fillCells, inductionHypothesis enoughLeft]
      simp only [fillCell_txch, fewer]
      congr 1
      omega

/-- The cache lines that are cleaned, newest first. -/
theorem fillCells_trace : (State.fillCells pbuf chain d state).trace =
    (chain.map fun q => Event.clean (state.pbuf q).payload (state.pbuf q).len.toNat).reverse ++
      state.trace := by
  induction chain generalizing d state with
  | nil => rfl
  | cons q chain inductionHypothesis =>
      rw [State.fillCells, inductionHypothesis]
      simp

theorem fillCells_bd_of_notMem (bound : d < numBd)
    (outside : other ∉ arc numBd d chain.length) :
    (State.fillCells pbuf chain d state).bd .tx other = state.bd .tx other := by
  induction chain generalizing d state with
  | nil => rfl
  | cons q chain inductionHypothesis =>
      rw [List.length_cons, arc_succ bound, List.mem_cons, not_or] at outside
      rw [State.fillCells, inductionHypothesis (place_lt (by decide)) outside.2,
        fillCell_bd_ne _ _ _ _ _ outside.1]

/-- The descriptor `offset` places on describes the pbuf at `offset` in the chain. -/
theorem fillCells_bd_place (bound : d < numBd) (small : chain.length ≤ numBd)
    {offset : Nat} (inside : offset < chain.length) :
    (State.fillCells pbuf chain d state).bd .tx (place numBd d offset) =
      { state.bd .tx (place numBd d offset) with
        bufptr := (state.pbuf (chain[offset])).payload
        bufoffLen := (state.pbuf (chain[offset])).len.setWidth 32 &&& cpdmaBdLenMask
        pbuf := some pbuf } := by
  induction chain generalizing d state offset with
  | nil => simp at inside
  | cons q chain inductionHypothesis =>
      have distinct : (arc numBd d (chain.length + 1)).Nodup := nodup_arc small
      rw [arc_succ bound, List.nodup_cons] at distinct
      cases offset with
      | zero =>
          rw [place_zero bound, State.fillCells,
            fillCells_bd_of_notMem (place_lt (by decide)) distinct.1, fillCell_bd_self]
          rfl
      | succ offset =>
          simp only [List.length_cons, Nat.add_lt_add_iff_right] at inside small
          have rest : (State.fillCells pbuf chain (place numBd d 1)
              (state.fillCell pbuf q d)).bd .tx (place numBd (place numBd d 1) offset) = _ :=
            inductionHypothesis (place_lt (by decide)) (by omega) inside
          have later : place numBd d (offset + 1) ≠ d := by
            intro same
            apply distinct.1
            rw [mem_arc]
            exact ⟨offset, inside, by rw [place_place, Nat.add_comm 1 offset, same]⟩
          rw [place_place, Nat.add_comm 1 offset] at rest
          rw [State.fillCells, rest, fillCell_bd_ne _ _ _ _ _ later]
          simp

end fillCells

section Runs

variable {exact : Nat → Prop} {permits : {reply : Type} → Access reply → State → Prop}
variable {cells : Nat → Prop} {state : State}

theorem fillRound_runs
    (fills : ∀ {reply : Type} (request : Access reply) model,
      Fills cells request → permits request model)
    {pbuf q d : Nat} (own : cells d) (bdEnd : Ptr) :
    (outline exact permits).Runs (fillRound pbuf (some q, some d, bdEnd)) state
      (.inl ((state.pbuf q).next, (state.bd .tx d).next, some d))
      (state.fillCell pbuf q d) := by
  rw [← fillCell_next state pbuf q d d]
  apply runs_getPbuf (fills _ _ (by trivial))
  apply runs_getPbuf (fills _ _ (by trivial))
  apply runs_emit (fills _ _ (by trivial))
  apply runs_lift (fills _ _ (by exact own)) (by trivial)
  apply runs_lift (fills _ _ (by exact own)) (by trivial)
  apply runs_lift (fills _ _ (by exact own)) (by trivial)
  apply runs_lift (fills _ _ (by trivial)) (by trivial)
  apply runs_setTxch (fills _ _ (by trivial))
  apply runs_getPbuf (fills _ _ (by trivial))
  exact .done

/-- The loop over the chain, on descriptors that are linked one behind the other. -/
theorem fillBds_runs
    (fills : ∀ {reply : Type} (request : Access reply) model,
      Fills cells request → permits request model)
    {pbuf d : Nat} {p : Ptr} {chain : List Nat} {bdEnd : Ptr}
    (bound : d < numBd) (path : PbufChain state p chain) (nonempty : 0 < chain.length)
    (own : ∀ offset < chain.length, cells (place numBd d offset))
    (linked : ∀ offset, offset + 1 < chain.length →
      (state.bd .tx (place numBd d offset)).next = some (place numBd d (offset + 1))) :
    (outline exact permits).Runs
      (.iterate (fillRound pbuf) (p, some d, bdEnd)) state
      ((state.bd .tx (place numBd d (chain.length - 1))).next,
        some (place numBd d (chain.length - 1)))
      (State.fillCells pbuf chain d state) := by
  induction chain generalizing d p bdEnd state with
  | nil => exact absurd nonempty (Nat.lt_irrefl 0)
  | cons q chain inductionHypothesis =>
      rcases path with ⟨rfl, path⟩
      have firstOwn := own 0 nonempty
      rw [place_zero bound] at firstOwn
      apply Outline.Runs.next (fillRound_runs fills firstOwn bdEnd)
      cases chain with
      | nil =>
          have ended : (state.pbuf q).next = none := path
          rw [ended, List.length_singleton, Nat.sub_self, place_zero bound]
          exact .leave .done .done
      | cons next chain =>
          have first := linked 0 (by simp)
          rw [place_zero bound] at first
          rw [first]
          have rest := @inductionHypothesis (state.fillCell pbuf q d) (place numBd d 1) _
            (some d) (place_lt (by decide)) path (by simp)
            (by
              intro offset small
              simpa [Nat.add_comm] using own (offset + 1) (by simpa using small))
            (by
              intro offset small
              simpa [Nat.add_comm, Nat.add_left_comm] using
                linked (offset + 1) (by simpa using small))
          simpa [State.fillCells, Program.iterate, Nat.add_comm] using rest

end Runs

/-! ## The whole packet -/

/-- The flags word that the first descriptor gets before the loop. -/
def headerFlags (portNum : Word) (totLen : Half) : Word :=
  totLen.setWidth 32 ||| (cpdmaBufDescSop ||| cpdmaBufDescOwner) |||
    cpdmaBufDescToPort portNum

/-- The flags word of the descriptor at `offset` in a packet of `clen`. -/
def packetFlags (portNum : Word) (totLen : Half) (clen offset : Nat) (old : Word) : Word :=
  let flags := if offset = 0 then headerFlags portNum totLen else old
  if offset + 1 = clen then
    (flags ||| cpdmaBufDescEop) &&& ~~~cpdmaBufDescEoq
  else
    flags

/-- What `fillPacket` leaves behind when it starts at the free descriptor `first`. -/
structure Filled (portNum : Word) (pbuf : Nat) (chain : List Nat) (first : Nat)
    (before after : State) : Prop where
  txch : after.txch =
    { before.txch with
      freeHead := (before.bd .tx (place numBd first (chain.length - 1))).next
      freeNum := before.txch.freeNum - chain.length }
  rxch : after.rxch = before.rxch
  pbufs : after.pbuf = before.pbuf
  engine : after.engine = before.engine
  trace : after.trace =
    (chain.map fun q => Event.clean (before.pbuf q).payload (before.pbuf q).len.toNat).reverse ++
      before.trace
  others : ∀ d, d ∉ arc numBd first chain.length → after.bd .tx d = before.bd .tx d
  cells : ∀ offset, (inside : offset < chain.length) →
    after.bd .tx (place numBd first offset) =
      { next := if offset + 1 = chain.length then none
          else some (place numBd first (offset + 1))
        bufptr := (before.pbuf chain[offset]).payload
        bufoffLen := (before.pbuf chain[offset]).len.setWidth 32 &&& cpdmaBdLenMask
        flagsPktlen := packetFlags portNum (before.pbuf pbuf).totLen chain.length offset
          (before.bd .tx (place numBd first offset)).flagsPktlen
        pbuf := some pbuf }

namespace State

/-- The stores into the first descriptor before the loop. -/
def writeHeader (state : State) (portNum : Word) (pbuf first : Nat) : State :=
  let stored := state.modifyBd .tx first fun cell =>
    { cell with flagsPktlen := (state.pbuf pbuf).totLen.setWidth 32 }
  let started := stored.modifyBd .tx first fun cell =>
    { cell with flagsPktlen := (stored.bd .tx first).flagsPktlen |||
        (cpdmaBufDescSop ||| cpdmaBufDescOwner) }
  started.modifyBd .tx first fun cell =>
    { cell with flagsPktlen := (started.bd .tx first).flagsPktlen |||
        cpdmaBufDescToPort portNum }

/-- The stores into the last descriptor after the loop. -/
def writeEnd (state : State) (last : Nat) : State :=
  let cut := state.modifyBd .tx last fun cell => { cell with next := none }
  let ended := cut.modifyBd .tx last fun cell =>
    { cell with flagsPktlen := (cut.bd .tx last).flagsPktlen ||| cpdmaBufDescEop }
  ended.modifyBd .tx last fun cell =>
    { cell with flagsPktlen := (ended.bd .tx last).flagsPktlen &&& ~~~cpdmaBufDescEoq }

/-- The effect of `fillPacket` from the descriptor `first` on. -/
def fillPacket (state : State) (portNum : Word) (pbuf : Nat) (chain : List Nat)
    (first : Nat) : State :=
  let filled := fillCells pbuf chain first (state.writeHeader portNum pbuf first)
  let ended := filled.writeEnd (place numBd first (chain.length - 1))
  { ended with txch :=
    { ended.txch with
      freeHead := (state.bd .tx (place numBd first (chain.length - 1))).next } }

variable (state : State) (portNum : Word) (pbuf first last other : Nat)

theorem writeHeader_next : ((state.writeHeader portNum pbuf first).bd .tx other).next =
    (state.bd .tx other).next := by
  by_cases same : other = first
  · subst same
    simp [writeHeader]
  · simp [writeHeader, same]

theorem writeHeader_bd : (state.writeHeader portNum pbuf first).bd .tx other =
    if other = first then
      { state.bd .tx first with flagsPktlen := headerFlags portNum (state.pbuf pbuf).totLen }
    else state.bd .tx other := by
  by_cases same : other = first
  · subst same
    simp [writeHeader, headerFlags]
  · simp [writeHeader, same]

theorem writeEnd_bd : (state.writeEnd last).bd .tx other =
    if other = last then
      { state.bd .tx last with
        next := none
        flagsPktlen := ((state.bd .tx last).flagsPktlen ||| cpdmaBufDescEop) &&&
          ~~~cpdmaBufDescEoq }
    else state.bd .tx other := by
  by_cases same : other = last
  · subst same
    simp [writeEnd]
  · simp [writeEnd, same]

end State

section Packet

variable {exact : Nat → Prop} {permits : {reply : Type} → Access reply → State → Prop}
variable {cells : Nat → Prop} {state : State}

theorem writeHeader_runs
    (fills : ∀ {reply : Type} (request : Access reply) model,
      Fills cells request → permits request model)
    {portNum : Word} {first : Nat} (p : Nat) (own : cells first) :
    (outline exact permits).Runs (writeHeader portNum first (state.pbuf p).totLen) state ()
      (state.writeHeader portNum p first) := by
  unfold writeHeader
  apply runs_lift (fills _ _ (by exact own)) (by trivial)
  apply runs_updateFlags (fills _ _ (by trivial)) (fun _ _ => fills _ _ (by exact own))
    (fun _ reads => reads.or _)
  rw [← Program.bind_pure (updateFlags ..)]
  apply runs_updateFlags (fills _ _ (by trivial)) (fun _ _ => fills _ _ (by exact own))
    (fun _ reads => reads.or _)
  exact .done

theorem fillPacket_runs
    (fills : ∀ {reply : Type} (request : Access reply) model,
      Fills cells request → permits request model)
    {portNum : Word} {p first : Nat} {chain : List Nat}
    (head : state.txch.freeHead = some first) (bound : first < numBd)
    (path : PbufChain state (some p) chain)
    (own : ∀ offset < chain.length, cells (place numBd first offset))
    (linked : ∀ offset, offset + 1 < chain.length →
      (state.bd .tx (place numBd first offset)).next =
        some (place numBd first (offset + 1))) :
    (outline exact permits).Runs (fillPacket portNum p) state
      (some first, some (place numBd first (chain.length - 1)))
      (state.fillPacket portNum p chain first) := by
  have nonempty := path.nonempty
  have ownFirst := own 0 nonempty
  have ownLast := own (chain.length - 1) (by omega)
  rw [place_zero bound] at ownFirst
  unfold fillPacket
  apply runs_getTxch (fills _ _ (by trivial))
  apply runs_getTxch (fills _ _ (by trivial))
  apply runs_getPbuf (fills _ _ (by trivial))
  rw [head]
  apply Outline.Runs.bind (writeHeader_runs fills p ownFirst)
  have loop : (outline exact permits).Runs (fillBds p (some first))
      (state.writeHeader portNum p first) _ _ :=
    fillBds_runs fills bound path nonempty own
      fun offset inside => (State.writeHeader_next ..).trans (linked offset inside)
  rw [State.writeHeader_next] at loop
  apply Outline.Runs.bind loop
  apply runs_lift (fills _ _ (by exact ownLast)) (by trivial)
  apply runs_updateFlags (fills _ _ (by trivial)) (fun _ _ => fills _ _ (by exact ownLast))
    (fun _ reads => reads.or _)
  apply runs_updateFlags (fills _ _ (by trivial)) (fun _ _ => fills _ _ (by exact ownLast))
    (fun _ reads => reads.and _)
  apply runs_setTxch (fills _ _ (by trivial))
  exact .done

/-- What is in the descriptors when there are enough of them. -/
theorem fillPacket_filled {portNum : Word} {p first : Nat} {chain : List Nat}
    (bound : first < numBd) (nonempty : 0 < chain.length) (short : chain.length ≤ numBd)
    (enough : chain.length ≤ state.txch.freeNum)
    (linked : ∀ offset, offset + 1 < chain.length →
      (state.bd .tx (place numBd first offset)).next =
        some (place numBd first (offset + 1))) :
    Filled portNum p chain first state (state.fillPacket portNum p chain first) := by
  let header := state.writeHeader portNum p first
  let filled := State.fillCells p chain first header
  let last := place numBd first (chain.length - 1)
  let ended := filled.writeEnd last
  refine ⟨?_, ?_, ?_, ?_, ?_, ?_, ?_⟩
  · have loop : filled.txch = _ := fillCells_txch enough
    have kept : ended.txch = filled.txch := rfl
    change (⟨_, ended.txch.sendHead, ended.txch.sendTail, ended.txch.freeNum⟩ : Txch) = _
    rw [kept, loop]
    rfl
  · exact fillCells_rxch
  · exact fillCells_pbuf
  · exact fillCells_engine
  · exact fillCells_trace
  · intro d outside
    have notLast : d ≠ last := by
      rintro rfl
      exact outside (mem_arc.mpr ⟨_, by omega, rfl⟩)
    have notFirst : d ≠ first := by
      rintro rfl
      exact outside (mem_arc.mpr ⟨0, nonempty, place_zero bound⟩)
    change (filled.writeEnd last).bd .tx d = _
    rw [State.writeEnd_bd, if_neg notLast, fillCells_bd_of_notMem bound outside,
      State.writeHeader_bd, if_neg notFirst]
  · intro offset inside
    have loop : filled.bd .tx (place numBd first offset) = _ :=
      fillCells_bd_place bound short inside
    have headerBd : header.bd .tx (place numBd first offset) =
        { state.bd .tx (place numBd first offset) with
          flagsPktlen := if offset = 0 then headerFlags portNum (state.pbuf p).totLen
            else (state.bd .tx (place numBd first offset)).flagsPktlen } := by
      rw [State.writeHeader_bd]
      by_cases zero : offset = 0
      · subst zero
        simp [place_zero bound]
      · have different : place numBd first offset ≠ first := by
          intro same
          have atZero := same.trans (place_zero bound).symm
          exact zero (place_injective (by omega) (by decide) atZero)
        rw [if_neg different, if_neg zero]
    have samePbufs : header.pbuf = state.pbuf := rfl
    change (filled.writeEnd last).bd .tx (place numBd first offset) = _
    rw [State.writeEnd_bd]
    by_cases isLast : offset + 1 = chain.length
    · have atLast : last = place numBd first offset := by
        simp only [last, ← isLast, Nat.add_sub_cancel]
      rw [if_pos atLast.symm, atLast, loop, headerBd]
      simp [packetFlags, isLast, samePbufs]
    · have different : place numBd first offset ≠ last := by
        intro same
        have equal := place_injective (by omega) (by omega) same
        omega
      rw [if_neg different, loop, headerBd]
      simp [packetFlags, isLast, linked offset (by omega), samePbufs]

/-- The loop faults if the free descriptors end before the chain does. -/
theorem fillBds_faults
    (fills : ∀ {reply : Type} (request : Access reply) model,
      Fills (fun _ => True) request → permits request model)
    {pbuf : Nat} {p currBd bdEnd : Ptr} {chain free : List Nat}
    (path : PbufChain state p chain)
    (ends : Path (fun d => (state.bd .tx d).next) currBd free none)
    (long : free.length < chain.length) :
    (outline exact permits).Faults (.iterate (fillRound pbuf) (p, currBd, bdEnd)) state := by
  induction free generalizing chain p currBd bdEnd state with
  | nil =>
      cases chain with
      | nil => simp at long
      | cons q chain =>
          rcases path with ⟨rfl, _⟩
          have none : currBd = none := ends
          subst none
          apply Outline.Faults.round
          unfold fillRound
          apply faults_step (fills _ _ (by trivial)) (by trivial)
          apply faults_step (fills _ _ (by trivial)) (by trivial)
          apply faults_step (fills _ _ (by trivial)) (by trivial)
          exact .fault
  | cons d free inductionHypothesis =>
      cases chain with
      | nil => simp at long
      | cons q chain =>
          rcases path with ⟨rfl, path⟩
          rcases ends with ⟨rfl, ends⟩
          apply Outline.Faults.next (fillRound_runs fills trivial bdEnd)
          apply inductionHypothesis
          · exact path
          · exact ends.congr fun cell _ => fillCell_next ..
          · simpa using long

theorem fillPacket_faults
    (fills : ∀ {reply : Type} (request : Access reply) model,
      Fills (fun _ => True) request → permits request model)
    {portNum : Word} {p first : Nat} {chain free : List Nat}
    (head : state.txch.freeHead = some first) (path : PbufChain state (some p) chain)
    (ends : Path (fun d => (state.bd .tx d).next) (some first) free none)
    (long : free.length < chain.length) :
    (outline exact permits).Faults (fillPacket portNum p) state := by
  unfold fillPacket
  have chainHeader : PbufChain (state.writeHeader portNum p first) (some p) chain := path
  have endsHeader : Path (fun d => ((state.writeHeader portNum p first).bd .tx d).next)
      (some first) free none := ends.congr fun _ _ => State.writeHeader_next ..
  apply faults_step (fills _ _ (by trivial)) (by trivial)
  apply faults_step (fills _ _ (by trivial)) (by trivial)
  apply faults_step (fills _ _ (by trivial)) (by trivial)
  rw [show (State.perform (.txch fun txch => (txch.freeHead, txch)) state).1 = some first
    from head]
  simp only [State.perform, State.modifyPbuf_same]
  apply Outline.Faults.after (writeHeader_runs fills p trivial)
  exact (fillBds_faults fills chainHeader endsHeader long).bind _

end Packet

end BbbEth.Cpsw
