import BbbEth.Cpsw.Tx.Invariant

/-!
# `eth0_tx_isr` under any OWNER and EOQ bits
-/

namespace BbbEth.Cpsw

open BbbEth.Interference BbbEth.Linked Routine

/-- `eth0_tx_isr` is running, and `cnt` counts down from `0xFFFF` with each poll
that finds OWNER set. -/
def Budget (timely : Prop) (cnt : Nat) (trace : List Event) : Prop :=
  inTxIsr trace = true ∧ (timely → 0 < cnt ∧ cnt + ownedPolls trace = 0xFFFF)

/-- The wait for the packet at `head` is over. -/
def Waited (timely : Prop) (cnt head : Nat) (trace : List Event) : Prop :=
  Budget timely cnt trace ∧ (timely → Polled trace head)

/-- The accesses of `eth0_tx_isr` between two packets. -/
def Looks : {reply : Type} → Access reply → Prop
  | _, .txch use => ∀ txch, (use txch).2 = txch
  | _, .rxch use => ∀ rxch, (use rxch).2 = rxch
  | _, .loadFlags .tx _ .plain => True
  | _, .emit (.eoi _) => True
  | _, _ => False

/-- The accesses of `reclaimBds` for the packet at `head`, from a state on. -/
def ReclaimsAt (origin : State) (head : Nat) (packet : Packet) {reply : Type}
    (request : Access reply) (model : State) : Prop :=
  Counting origin model ∧
      Reclaims (fun _ => False) (· ∈ arc numBd head packet.clen) origin.txch.freeNum packet.clen
        model request ∨
    Releases origin packet.pbuf model request

theorem Looks.isLocal {reply : Type} {request : Access reply} (looks : Looks request) :
    TxLocal request := by
  cases request with
  | loadFlags chan d use =>
      cases chan with
      | tx =>
          cases use with
          | plain => trivial
          | owner => exact looks.elim
          | eoq => exact looks.elim
      | rx => exact looks.elim
  | emit event => cases event with | eoi => rfl | _ => exact looks.elim
  | txch => trivial
  | rxch => trivial
  | _ => exact looks.elim

theorem Reclaims.isLocal {exact cells : Nat → Prop} {base clen : Nat} {model : State}
    {reply : Type} {request : Access reply}
    (reclaims : Reclaims exact cells base clen model request) : TxLocal request := by
  cases request with
  | loadFlags chan d use =>
      cases chan with
      | tx =>
          cases use with
          | plain => trivial
          | owner => exact reclaims.elim
          | eoq => exact reclaims.elim
      | rx => exact reclaims.elim
  | loadNext chan d => cases chan with | tx => trivial | rx => exact reclaims.elim
  | storeFlags chan d value => cases chan with | tx => trivial | rx => exact reclaims.elim
  | txch => trivial
  | _ => exact reclaims.elim

theorem Releases.isLocal {origin model : State} {p : Nat} {reply : Type}
    {request : Access reply} (releases : Releases origin p model request) : TxLocal request := by
  cases request with
  | loadPbuf chan d => cases chan with | tx => trivial | rx => exact releases.elim
  | emit event =>
      cases event with
      | cp => rfl
      | freed => rfl
      | released => rfl
      | _ => exact releases.elim
  | pbuf => trivial
  | _ => exact releases.elim

section Foremost

variable {origin model actual : State} {head : Nat} {packet : Packet} {behind : List Packet}

/-- What is foremost depends on the pbufs of its descriptors, and on what was accepted and
freed. -/
theorem Foremost.congr (foremost : Foremost origin head packet behind)
    (pbuf : ∀ d, (model.bd .tx d).pbuf = (origin.bd .tx d).pbuf)
    (same : waiting model.trace = waiting origin.trace)
    (like : TxLike (fun _ => False) model actual) : Foremost actual head packet behind where
  next := by
    rw [waiting_congr like.trace, same]
    exact foremost.next
  pbuf d member := by
    rw [(like.bd d).pbuf, pbuf]
    exact foremost.pbuf d member

theorem Counting.foremost (counting : Counting origin model)
    (foremost : Foremost origin head packet behind)
    (like : TxLike (fun _ => False) model actual) : Foremost actual head packet behind :=
  foremost.congr counting.pbuf (congrArg waiting counting.trace) like

theorem Freeing.foremost (freeing : Freeing origin model)
    (foremost : Foremost origin head packet behind)
    (like : TxLike (fun _ => False) model actual) : Foremost actual head packet behind := by
  rcases freeing.trace with ⟨d, trace⟩
  refine foremost.congr freeing.pbuf ?_ like
  rw [trace]
  rfl

/-- Up to the completion pointer write the descriptors of the polled packet are counted, and
marks are cleared in them. -/
theorem Counting.polledFirst {reply : Type} {request : Access reply}
    (counting : Counting origin model) (foremost : Foremost origin head packet behind)
    (ring : origin.txch.freeNum + slots (packet :: behind) = numBd)
    (sendHead : origin.txch.sendHead = some head)
    (like : TxLike (fun _ => False) model actual) (polled : Polled actual.trace head)
    (reclaims : Reclaims (fun _ => False) (· ∈ arc numBd head packet.clen) origin.txch.freeNum
      packet.clen model request) : PolledFirst actual (actual.perform request).2 := by
  have first := counting.foremost foremost like
  have here : actual.txch.sendHead = some head := by
    rw [like.txch, counting.sendHead]
    exact sendHead
  constructor
  · intro more
    refine ⟨head, packet, behind, first, polled, here, ?_⟩
    cases request with
    | txch use =>
        have counts : Counts origin.txch.freeNum packet.clen use actual.txch := by
          rw [like.txch]
          exact reclaims
        rcases counts with same | ⟨counted, inside, before, one⟩
        · exact absurd same more.ne'
        · exact ⟨counted, inside, by omega, one⟩
    | loadFlags chan d use => cases use <;> exact absurd more (Nat.lt_irrefl _)
    | loadNext | storeFlags => exact absurd more (Nat.lt_irrefl _)
    | _ => exact reclaims.elim
  · intro d cleared
    refine ⟨head, packet, behind, first, polled, here, ?_⟩
    cases request with
    | storeFlags chan other value =>
        cases chan with
        | rx => exact reclaims.elim
        | tx =>
            by_cases same : d = other
            · exact same ▸ reclaims.1
            · have kept : (actual.perform (.storeFlags .tx other value)).2.bd .tx d =
                  actual.bd .tx d :=
                State.modifyBd_bd_ne actual .tx .tx other d
                  (fun cell => { cell with flagsPktlen := value }) same
              rw [kept] at cleared
              rcases cleared with ⟨set, clear⟩ | ⟨set, clear⟩
              · exact absurd (set.symm.trans clear) (by decide)
              · exact absurd (set.symm.trans clear) (by decide)
    | loadFlags chan other use =>
        cases use <;> rcases cleared with ⟨set, clear⟩ | ⟨set, clear⟩ <;>
          exact absurd (set.symm.trans clear) (by decide)
    | txch | loadNext =>
        rcases cleared with ⟨set, clear⟩ | ⟨set, clear⟩
        · exact absurd (set.symm.trans clear) (by decide)
        · exact absurd (set.symm.trans clear) (by decide)
    | _ => exact reclaims.elim
  · intro p note
    rw [reclaims.isLocal.trace] at note
    cases request with
    | emit => exact reclaims.elim
    | _ => exact absurd note (ne_cons_self _ _)

/-- Behind it the pbuf of the polled packet is freed. -/
theorem Releases.polledFirst {reply : Type} {request : Access reply}
    (foremost : Foremost origin head packet behind)
    (like : TxLike (fun _ => False) model actual) (polled : Polled actual.trace head)
    (releases : Releases origin packet.pbuf model request) :
    PolledFirst actual (actual.perform request).2 := by
  cases request with
  | emit event =>
      constructor
      · intro more
        exact absurd more (Nat.lt_irrefl _)
      · intro d cleared
        rcases cleared with ⟨set, clear⟩ | ⟨set, clear⟩
        · exact absurd (set.symm.trans clear) (by decide)
        · exact absurd (set.symm.trans clear) (by decide)
      · intro q note
        have same : event = .freed q := (List.cons.inj note).1
        subst same
        rcases releases with ⟨rfl, freeing⟩
        exact ⟨head, packet, behind, freeing.foremost foremost like, polled, rfl⟩
  | loadPbuf chan d => exact .of_kept le_rfl (fun _ => rfl) fun _ => ne_cons_self _ _
  | pbuf address use => exact .of_kept le_rfl (fun _ => rfl) fun _ => ne_cons_self _ _
  | _ => exact releases.elim

end Foremost

section Isr

variable {admits : {reply : Type} → Access reply → State → Prop} {timely faulty : Prop}
variable {result : Type} {post : result → State → Prop}

theorem looks_describes (cnt : Nat) :
    (outline (fun _ => False) fun request _ => Looks request).Describes
      (flipContract admits timely faulty)
      fun model actual => TxLike (fun _ => False) model actual ∧
        Budget timely cnt actual.trace := by
  apply flips_describes (Budget timely cnt)
  · intro reply request model looks
    exact looks.isLocal
  · intro reply request model trace looks budget
    cases request with
    | emit event => cases event with | eoi => exact budget | _ => exact looks.elim
    | _ => exact budget
  · intro reply request model actual like budget looks isTimely inside
    cases request with
    | txch use =>
        apply PolledFirst.of_kept
        · exact (congrArg Txch.freeNum (looks actual.txch)).le
        · intro d
          rfl
        · intro p
          exact ne_cons_self _ _
    | rxch use =>
        exact .of_kept le_rfl (fun _ => rfl) fun _ => ne_cons_self _ _
    | loadFlags chan d use =>
        cases use with
        | plain => exact .of_kept le_rfl (fun _ => rfl) fun _ => ne_cons_self _ _
        | owner => cases chan <;> exact looks.elim
        | eoq => cases chan <;> exact looks.elim
    | emit event =>
        cases event with
        | eoi chan =>
            have other : ∀ p, Event.eoi chan :: actual.trace ≠ .freed p :: actual.trace := by
              intro p same
              cases (List.cons.inj same).1
            exact .of_kept le_rfl (fun _ => rfl) other
        | _ => exact looks.elim
    | _ => exact looks.elim

theorem reclaims_describes (cnt : Nat) {origin : State} {head : Nat} {packet : Packet}
    {behind : List Packet} (foremost : Foremost origin head packet behind)
    (ring : origin.txch.freeNum + slots (packet :: behind) = numBd)
    (sendHead : origin.txch.sendHead = some head) :
    (outline (fun _ => False) fun request model =>
      ReclaimsAt origin head packet request model).Describes (flipContract admits timely faulty)
      fun model actual => TxLike (fun _ => False) model actual ∧
        Waited timely cnt head actual.trace := by
  apply flips_describes (Waited timely cnt head)
  · intro reply request model permitted
    rcases permitted with ⟨_, reclaims⟩ | releases
    · exact reclaims.isLocal
    · exact releases.isLocal
  · intro reply request model trace permitted waited
    cases request with
    | emit event =>
        rcases permitted with ⟨_, reclaims⟩ | releases
        · exact reclaims.elim
        · cases event with
          | cp => exact waited
          | freed => exact waited
          | released => exact waited
          | _ => exact releases.elim
    | _ => exact waited
  · intro reply request model actual like waited permitted isTimely inside
    have polled := waited.2 isTimely
    rcases permitted with ⟨counting, reclaims⟩ | releases
    · exact counting.polledFirst foremost ring sendHead like polled reclaims
    · exact releases.polledFirst foremost like polled

/-! ## The wait for OWNER -/

/-- What holds while `eth0_tx_isr` waits for the packet at `head`, with its counter, and what holds
behind the wait. -/
structure Waits (contract : Contract Access State) (head : Nat)
    (holds waited : Nat → State → Prop) : Prop where
  performs : ∀ {reply : Type} (request : Access reply) state,
    contract.perform request state = state.perform request
  stable : ∀ cnt pending, contract.Stable pending (holds cnt)
  safe : ∀ {cnt state}, holds cnt state → contract.safe state
  guarantee : ∀ {cnt state}, holds cnt state →
    contract.guarantee state (state.record (.poll .tx head (state.bd .tx head).flagsPktlen))
  again : ∀ {cnt state}, holds cnt state → contract.admits (.loadFlags .tx head .owner) state →
    (state.bd .tx head).owner = true →
    holds (decU32 cnt) (state.record (.poll .tx head (state.bd .tx head).flagsPktlen))
  spent : ∀ {state}, holds 0 state → waited 0 state
  ended : ∀ {cnt state}, holds cnt state → (state.bd .tx head).owner = false →
    waited cnt (state.record (.poll .tx head (state.bd .tx head).flagsPktlen))

namespace Waits

variable {contract : Contract Access State} {head cnt : Nat} {holds waited : Nat → State → Prop}
variable {actual : State}

/-- One poll. -/
theorem round (waits : Waits contract head holds waited) {rest : Nat ⊕ Nat → Routine result}
    (start : holds cnt actual)
    (again : ∀ later, holds (decU32 cnt) later →
      contract.Ensures post (rest (if decU32 cnt = 0 then .inr 0 else .inl (decU32 cnt))) later)
    (ended : ∀ later, waited cnt later → contract.Ensures post (rest (.inr cnt)) later) :
    contract.Ensures post (awaitRound head cnt >>= rest) actual := by
  apply Contract.Ensures.of_perform (waits.stable cnt _) start
  · intro before kept
    exact waits.safe kept
  · intro before kept _
    rw [waits.performs]
    exact waits.guarantee kept
  · intro before kept admitted
    rw [waits.performs]
    change contract.Ensures post
      ((if (before.bd .tx head).flagsPktlen &&& cpdmaBufDescOwner = cpdmaBufDescOwner
        then _ else _) >>= rest) _
    by_cases owned : (before.bd .tx head).owner = true
    · rw [if_pos ((and_owner_eq_iff _).mpr owned)]
      have goesOn := again _ (waits.again kept admitted owned)
      rw [Program.bind_ite]
      split
      next spent => rwa [if_pos spent] at goesOn
      next left => rwa [if_neg left] at goesOn
    · rw [if_neg fun isOwned => owned ((and_owner_eq_iff _).mp isOwned)]
      exact ended _ (waits.ended kept (by simpa using owned))

/-- The loop, from any counter but zero. -/
theorem loop (waits : Waits contract head holds waited) {rest : Nat → Routine result}
    (start : holds cnt actual) (positive : 0 < cnt)
    (ended : ∀ left later, waited left later → contract.Ensures post (rest left) later) :
    contract.Ensures post (.loop (awaitRound head) cnt rest) actual := by
  induction cnt generalizing actual with
  | zero => exact absurd positive (Nat.lt_irrefl 0)
  | succ cnt inductionHypothesis =>
      apply Contract.Ensures.of_loop (waits.stable (cnt + 1) none) start
      · intro before kept
        exact waits.safe kept
      · intro before kept
        apply waits.round kept
        · intro later left
          rw [show decU32 (cnt + 1) = cnt from decU32_of_pos _ (Nat.succ_pos cnt)] at left ⊢
          by_cases exhausted : cnt = 0
          · subst exhausted
            rw [if_pos rfl]
            exact ended 0 later (waits.spent left)
          · rw [if_neg exhausted]
            exact inductionHypothesis left (Nat.pos_of_ne_zero exhausted)
        · intro later waited
          exact ended (cnt + 1) later waited

/-- The wait ends.  A counter that has reached zero wraps around once. -/
theorem ensures (waits : Waits contract head holds waited) {rest : Nat → Routine result}
    (start : holds cnt actual)
    (ended : ∀ left later, waited left later → contract.Ensures post (rest left) later) :
    contract.Ensures post (awaitOwner head cnt >>= rest) actual := by
  cases cnt with
  | succ cnt => exact waits.loop start (Nat.succ_pos cnt) ended
  | zero =>
      apply Contract.Ensures.of_loop (waits.stable 0 none) start
      · intro before kept
        exact waits.safe kept
      · intro before kept
        apply waits.round kept
        · intro later left
          have positive : 0 < decU32 0 := by simp [decU32]
          rw [if_neg (Nat.pos_iff_ne_zero.mp positive)]
          exact waits.loop left positive ended
        · intro later waited
          exact ended 0 later waited

end Waits

/-- A poll that finds OWNER set uses up the budget, unless that is kept. -/
theorem Budget.again {cnt head : Nat} {state : State} (budget : Budget timely cnt state.trace)
    (within : timely → WithinBudget (.loadFlags .tx head .owner) state)
    (owned : (state.bd .tx head).owner = true) :
    Budget timely (decU32 cnt)
      (state.record (.poll .tx head (state.bd .tx head).flagsPktlen)).trace := by
  refine ⟨budget.1, fun isTimely => ?_⟩
  have left : ownedPolls state.trace + 1 < 0xFFFF := within isTimely owned
  rcases budget.2 isTimely with ⟨positive, total⟩
  have isOwned : (state.bd .tx head).flagsPktlen.getLsbD 29 = true := owned
  rw [decU32_of_pos cnt positive]
  simp only [State.record, ownedPolls, isOwned, if_true]
  omega

/-- A poll that finds OWNER clear is for nothing. -/
theorem Budget.ended {cnt head : Nat} {state : State} (budget : Budget timely cnt state.trace)
    (clear : (state.bd .tx head).owner = false) :
    Budget timely cnt (state.record (.poll .tx head (state.bd .tx head).flagsPktlen)).trace := by
  have isClear : (state.bd .tx head).flagsPktlen.getLsbD 29 = false := clear
  refine ⟨budget.1, fun isTimely => ?_⟩
  rcases budget.2 isTimely with ⟨positive, total⟩
  change 0 < cnt ∧ cnt + (ownedPolls state.trace + _) = _
  simp only [isClear]
  exact ⟨positive, total⟩

/-- The wait under any OWNER and EOQ bits. -/
theorem flips_waits
    (bounded : timely → ∀ {reply : Type} (request : Access reply) current,
      admits request current → WithinBudget request current) (model : State) (head : Nat) :
    Waits (flipContract admits timely faulty) head
      (fun cnt actual => TxLike (fun _ => False) model actual ∧ Budget timely cnt actual.trace)
      fun cnt actual => TxLike (fun _ => False) model actual ∧
        Waited timely cnt head actual.trace where
  performs _ _ := rfl
  stable cnt pending := flips_stable (Budget timely cnt) model pending
  safe _ := trivial
  guarantee {cnt state} kept _ _ := by
    have other : ∀ p, Event.poll .tx head (state.bd .tx head).flagsPktlen :: state.trace ≠
        .freed p :: state.trace := by
      intro p same
      cases (List.cons.inj same).1
    exact .of_kept le_rfl (fun _ => rfl) other
  again kept admitted owned :=
    ⟨{ kept.1 with trace := kept.1.trace },
      kept.2.again (fun isTimely => bounded isTimely _ _ admitted) owned⟩
  spent kept := by
    refine ⟨kept.1, kept.2, fun isTimely => ?_⟩
    exact absurd (kept.2.2 isTimely).1 (Nat.lt_irrefl 0)
  ended kept clear :=
    ⟨{ kept.1 with trace := kept.1.trace }, kept.2.ended clear, fun _ => ⟨_, rfl, clear⟩⟩

/-! ## One packet -/

/-- Reclaiming the first packet keeps the invariant. -/
theorem TxInvariant.reclaim {state after : State} {start : Nat} {packet : Packet}
    {reclaimed packets : List Packet}
    (invariant : TxInvariant state start reclaimed (packet :: packets))
    (step : Reclaimed packet start state after) :
    TxInvariant after (place numBd start packet.clen) (reclaimed ++ [packet]) packets where
  ring := invariant.ring.reclaim step
  history := by
    rcases step.trace with ⟨released, trace⟩
    rw [trace]
    exact invariant.history.reclaim released
  grounded p := by
    rcases invariant.grounded p with ⟨chain, path⟩
    exact ⟨chain, path.congr step.pbufs⟩
  armed := by
    rw [step.rxch]
    exact invariant.armed

/-- One round of the loop, with a packet at `send_head`. -/
theorem completeRound_ensures
    (bounded : timely → ∀ {reply : Type} (request : Access reply) current,
      admits request current → WithinBudget request current)
    {model actual : State} {cnt start : Nat} {packet : Packet}
    {reclaimed packets : List Packet} {rest : (Ptr × Nat) ⊕ Unit → Routine result}
    (invariant : TxInvariant model start reclaimed (packet :: packets))
    (like : TxLike (fun _ => False) model actual) (budget : Budget timely cnt actual.trace)
    (next : ∀ left middle later,
      TxInvariant middle (place numBd start packet.clen) (reclaimed ++ [packet]) packets →
      TxLike (fun _ => False) middle later → Budget timely left later.trace →
      (flipContract admits timely faulty).Ensures post
        (rest (.inl (some (place numBd start packet.clen), left))) later) :
    (flipContract admits timely faulty).Ensures post
      (completeRound (some start, cnt) >>= rest) actual := by
  have ring := invariant.ring
  have marked := ring.queued.1
  have count := ring.count
  simp only [slots_cons] at count
  have sop : (model.bd .tx start).sop = true := by
    have first := marked.sop 0 marked.nonempty
    rwa [place_zero ring.bound, decide_eq_true rfl] at first
  have foremost : Foremost model start packet packets := by
    refine ⟨invariant.history.waiting_eq, fun d member => ?_⟩
    rcases mem_arc.mp member with ⟨offset, inside, rfl⟩
    exact marked.pbuf offset inside
  rcases invariant.grounded (some packet.pbuf) with ⟨chain, path⟩
  have reclaiming : ∃ after, (outline (fun _ => False) fun request later =>
      ReclaimsAt model start packet request later).Runs (reclaimBds start) model () after ∧
        Reclaimed packet start model after :=
    reclaimBds_runs (fun _ _ counting reclaims => .inl ⟨counting, reclaims⟩)
      (fun _ _ releases => .inr releases) ring.bound marked
      (fun offset inside => ring.linked (by simp; omega)) ring.following (by omega)
      (mem_arc.mpr ⟨0, marked.nonempty, place_zero ring.bound⟩)
      (mem_arc.mpr ⟨_, Nat.sub_lt marked.nonempty Nat.one_pos, rfl⟩) path
  rcases reclaiming with ⟨after, reclaiming, step⟩
  have kept := invariant.reclaim step
  simp only [completeRound, deref, Program.bind_done, Program.bind_assoc]
  apply describes_flags (looks_describes cnt) (by trivial) ⟨like, budget⟩
  intro flags later reads holds
  have isFirst : ¬ flags &&& cpdmaBufDescSop = 0 := by
    rw [and_sop_eq_zero_iff, reads.1 31 (by decide) (by decide)]
    simpa [Bd.sop] using sop
  rw [if_neg isFirst]
  simp only [Program.bind_assoc]
  apply (flips_waits bounded model start).ensures holds
  intro left later waited
  apply (reclaims_describes left foremost ring.count ring.sendHead).ensures reclaiming waited
  intro later holds
  apply describes_getTxch (looks_describes left) (by intro txch; rfl) ⟨holds.1, holds.2.1⟩
  intro later holds
  rw [kept.ring.sendHead]
  exact next left after later kept holds.1 holds.2

/-- The loop reclaims every packet. -/
theorem completeLoop_ensures
    (bounded : timely → ∀ {reply : Type} (request : Access reply) current,
      admits request current → WithinBudget request current)
    {model actual : State} {cnt start : Nat} {reclaimed packets : List Packet}
    {rest : Unit → Routine result}
    (invariant : TxInvariant model start reclaimed packets)
    (like : TxLike (fun _ => False) model actual) (budget : Budget timely cnt actual.trace)
    (empty : ∀ left middle finish later,
      TxInvariant middle finish (reclaimed ++ packets) [] →
      TxLike (fun _ => False) middle later → Budget timely left later.trace →
      (flipContract admits timely faulty).Ensures post (rest ()) later) :
    (flipContract admits timely faulty).Ensures post
      (.loop completeRound (some start, cnt) rest) actual := by
  induction packets generalizing model actual cnt start reclaimed with
  | nil =>
      have free := (invariant.ring.free 0 (by simp) (by decide)).1
      rw [place_zero invariant.ring.bound] at free
      apply Contract.Ensures.of_loop ((looks_describes cnt).stable model none) ⟨like, budget⟩
      · intro before _
        trivial
      · intro before holds
        change (flipContract admits timely faulty).Ensures post
          (.lift (.loadFlags .tx start .plain) >>= _) before
        apply describes_flags (looks_describes cnt) (by trivial) holds
        intro flags later reads holds
        have notFirst : flags &&& cpdmaBufDescSop = 0 := by
          rw [and_sop_eq_zero_iff, reads.1 31 (by decide) (by decide)]
          exact free
        change (flipContract admits timely faulty).Ensures post
          ((if flags &&& cpdmaBufDescSop = 0 then _ else _) >>= _) later
        rw [if_pos notFirst]
        have nothing := empty cnt model start later
        rw [List.append_nil] at nothing
        exact nothing invariant holds.1 holds.2
  | cons packet packets inductionHypothesis =>
      apply Contract.Ensures.of_loop ((looks_describes cnt).stable model none) ⟨like, budget⟩
      · intro before _
        trivial
      · intro before holds
        apply completeRound_ensures bounded invariant holds.1 holds.2
        intro left middle later kept like budget
        apply inductionHypothesis kept like budget
        intro left middle finish later done like budget
        rw [List.append_assoc] at done
        exact empty left middle finish later done like budget

/-! ## The whole handler -/

/-- Between two calls, with the given packets reclaimed and none in the ring. -/
def TxDrained (state : State) (reclaimed : List Packet) : Prop :=
  inTxIsr state.trace = false ∧ ∃ start, TxInvariant state start reclaimed []

theorem TxDrained.idle {state : State} {reclaimed : List Packet}
    (drained : TxDrained state reclaimed) : TxIdle state := by
  rcases drained with ⟨outside, start, invariant⟩
  exact ⟨outside, start, reclaimed, [], invariant⟩

/-- An event that no part of the history counts. -/
theorem TxInvariant.record {state : State} {start : Nat} {reclaimed packets : List Packet}
    (invariant : TxInvariant state start reclaimed packets) {event : Event}
    (history : TxHistory (event :: state.trace) start reclaimed packets) :
    TxInvariant (state.record event) start reclaimed packets where
  ring := invariant.ring.congr rfl fun _ => ⟨rfl, rfl, rfl, rfl⟩
  history := history
  grounded := invariant.grounded
  armed := invariant.armed

/-- Entering the handler. -/
theorem enterTxIsr_ensures {actual : State} {rest : Unit → Routine result}
    (outside : inTxIsr actual.trace = false)
    (continues : ∀ later, TxLike (fun _ => False) (actual.record (.gpioOn .usr4)) later →
      Budget timely 0xFFFF later.trace →
      (flipContract admits timely faulty).Ensures post (rest ()) later) :
    (flipContract admits timely faulty).Ensures post
      (emit (.gpioOn .usr4) >>= rest) actual := by
  have holds : Sends actual actual := ⟨.refl _ _, outside⟩
  apply Contract.Ensures.of_perform (sends_describes.stable actual _) holds
  · intro before _
    trivial
  · intro before kept _ _ inside
    rw [kept.2] at inside
    cases inside
  · intro before kept _
    apply continues
    · exact @TxLike.moves _ _ _ _ _ (.emit (.gpioOn .usr4)) kept.1 rfl rfl
    · exact ⟨rfl, fun _ => ⟨by decide, rfl⟩⟩

/-- Leaving the handler. -/
theorem leaveTxIsr_ensures {model actual : State} {cnt : Nat} {rest : Unit → Routine result}
    (like : TxLike (fun _ => False) model actual) (budget : Budget timely cnt actual.trace)
    (continues : ∀ later, Sends (model.record (.gpioOff .usr4)) later →
      (flipContract admits timely faulty).Ensures post (rest ()) later) :
    (flipContract admits timely faulty).Ensures post
      (emit (.gpioOff .usr4) >>= rest) actual := by
  apply Contract.Ensures.of_perform ((looks_describes cnt).stable model _) ⟨like, budget⟩
  · intro before _
    trivial
  · intro before kept _ _ _
    have other : ∀ p, Event.gpioOff .usr4 :: before.trace ≠ .freed p :: before.trace := by
      intro p same
      cases (List.cons.inj same).1
    exact .of_kept le_rfl (fun _ => rfl) other
  · intro before kept _
    apply continues
    refine ⟨?_, rfl⟩
    exact @TxLike.moves _ _ _ _ _ (.emit (.gpioOff .usr4)) kept.1 rfl rfl

theorem eth0TxIsr_ensures
    (bounded : timely → ∀ {reply : Type} (request : Access reply) current,
      admits request current → WithinBudget request current)
    {state : State} {start : Nat} {reclaimed packets : List Packet}
    (invariant : TxInvariant state start reclaimed packets)
    (outside : inTxIsr state.trace = false) :
    (flipContract admits timely faulty).Ensures
      (fun _ after => TxDrained after (reclaimed ++ packets)) eth0TxIsr state := by
  unfold eth0TxIsr
  apply enterTxIsr_ensures outside
  intro later like budget
  have entered : TxInvariant (state.record (.gpioOn .usr4)) start reclaimed packets :=
    invariant.record ⟨invariant.history.accepted, invariant.history.freed,
      invariant.history.acknowledged, invariant.history.start⟩
  apply describes_getTxch (looks_describes 0xFFFF) (by intro txch; rfl) ⟨like, budget⟩
  intro later holds
  rw [entered.ring.sendHead]
  apply completeLoop_ensures bounded entered holds.1 holds.2
  intro left middle finish later drained like budget
  apply describes_emit (looks_describes left) (by trivial) ⟨like, budget⟩
  intro later holds
  apply (looks_describes left).ensures
    (cpswifRxbdAlloc_full (fun _ keeps => keeps) (by exact drained.armed)) holds
  intro later holds
  rw [← Program.bind_pure (emit _)]
  apply leaveTxIsr_ensures holds.1 holds.2
  intro later sends
  apply sends_describes.done sends
  intro after still
  refine ⟨still.2, finish, ?_⟩
  have noted : TxInvariant ((middle.record (.eoi .tx)).record (.gpioOff .usr4)) finish
      (reclaimed ++ packets) [] :=
    ⟨drained.ring.congr rfl fun _ => ⟨rfl, rfl, rfl, rfl⟩,
      ⟨drained.history.accepted, drained.history.freed, drained.history.acknowledged,
        drained.history.start⟩, drained.grounded, drained.armed⟩
  exact noted.like still.1

end Isr

end BbbEth.Cpsw
