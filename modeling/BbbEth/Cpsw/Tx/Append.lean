import BbbEth.Cpsw.Tx.Serving

/-!
# Appending a packet beside the engine

`cpswif_transmit` links a packet behind the old tail while the engine may be at work there.
-/

namespace BbbEth.Cpsw

open BbbEth.Interference BbbEth.Linked Routine

/-! ## A longer queue -/

/-- The descriptors of a packet that is to be appended. -/
structure Appendable (state : State) (first : Nat) (packet : Packet) : Prop where
  marked : Marked state first packet
  linked : ∀ offset, offset + 1 < packet.clen →
    (state.bd .tx (place numBd first offset)).next = some (place numBd first (offset + 1))
  closed : (state.bd .tx (place numBd first (packet.clen - 1))).next = none
  owner : ∀ offset < packet.clen, (state.bd .tx (place numBd first offset)).owner =
    (state.bd .tx (place numBd first offset)).sop
  eoq : (state.bd .tx (place numBd first (packet.clen - 1))).eoq = false

/-- OWNER is clear on the descriptors that are not in use. -/
def Rested (state : State) (start : Nat) (packets : List Packet) : Prop :=
  ∀ offset, slots packets ≤ offset → offset < numBd →
    (state.bd .tx (place numBd start offset)).owner = false

section Extend

variable {base state : State} {start : Nat} {packets : List Packet} {packet : Packet}
variable {tail : Ptr}

/-- The queue with a packet behind it, when the engine serves it from where it is. -/
theorem Served.extend (served : Served base start packets tail)
    (room : slots packets + packet.clen ≤ numBd)
    (cells : ∀ offset < slots packets, state.bd .tx (place numBd start offset) =
      { base.bd .tx (place numBd start offset) with
        next := some (place numBd start (offset + 1)) })
    (ready : Appendable state (place numBd start (slots packets)) packet)
    (engine : ∀ finished pending, packets = finished ++ pending →
      Progress base start tail finished pending →
      TxAt state (place numBd start (slots finished))
        (some (place numBd (place numBd start (slots packets)) (packet.clen - 1)))
        (pending ++ [packet])) :
    Served state start (packets ++ [packet])
      (some (place numBd (place numBd start (slots packets)) (packet.clen - 1))) where
  size := by simpa using room
  bound := served.bound
  queued := by
    rw [queued_append served.bound]
    refine ⟨served.queued.congr ?_ ?_ ?_, ready.marked, trivial⟩
    · intro offset inside
      rw [cells offset inside]
      rfl
    · intro offset inside
      rw [cells offset inside]
      rfl
    · intro offset inside
      rw [cells offset inside]
  linked offset inside := by
    simp only [slots_append, slots_cons, slots_nil, Nat.add_zero] at inside
    by_cases early : offset < slots packets
    · rw [cells offset early]
    · have link := ready.linked (offset - slots packets) (by omega)
      rwa [place_place, place_place,
        show slots packets + (offset - slots packets) = offset by omega,
        show slots packets + (offset - slots packets + 1) = offset + 1 by omega] at link
  closed _ := by
    have nonempty := ready.marked.nonempty
    have ended := ready.closed
    rw [place_place, ← Nat.add_sub_assoc nonempty] at ended ⊢
    rw [slots_append, slots_cons, slots_nil, Nat.add_zero]
    exact ⟨ended, rfl⟩
  progress := by
    rcases served.progress with ⟨finished, pending, split, progress⟩
    have size : slots packets = slots finished + slots pending := by rw [split, slots_append]
    refine ⟨finished, pending ++ [packet], by rw [split, List.append_assoc], ?_, ?_,
      engine finished pending split progress⟩
    · intro offset inside
      rw [cells offset (by omega)]
      exact progress.done offset inside
    · intro offset low high
      simp only [slots_append, slots_cons, slots_nil, Nat.add_zero] at high
      by_cases early : offset < slots packets
      · rw [cells offset early]
        exact progress.queued offset low (by rwa [← split])
      · have owner := ready.owner (offset - slots packets) (by omega)
        rwa [place_place, show slots packets + (offset - slots packets) = offset by omega] at owner

end Extend

/-! ## Behind the old tail -/

/-- The state without the next pointer of a descriptor. -/
def State.cut (state : State) (tail : Nat) : State :=
  state.modifyBd .tx tail fun cell => { cell with next := none }

/-- Changes of different fields of the descriptors commute. -/
theorem State.modifyBd_comm (state : State) (chan : Chan) (left right : Nat)
    (change other : Bd → Bd) (commute : ∀ cell, other (change cell) = change (other cell)) :
    (state.modifyBd chan left change).modifyBd chan right other =
      (state.modifyBd chan right other).modifyBd chan left change := by
  unfold State.modifyBd
  congr 1
  funext queryChan query
  dsimp only
  by_cases atRight : queryChan = chan ∧ query = right
  · by_cases same : right = left
    · subst same
      simp [atRight, commute]
    · simp [atRight, same]
  · by_cases atLeft : queryChan = chan ∧ query = left
    · by_cases same : left = right
      · exact absurd (same ▸ atLeft) atRight
      · simp [atLeft, same]
    · simp [atRight, atLeft]

section Tail

variable {current next : State} {start first tail : Nat} {packets : List Packet}

theorem completeTx_cut : (current.completeTx first tail none).cut tail =
    (current.cut tail).completeTx first tail none := by
  let release (cell : Bd) : Bd :=
    { cell with flagsPktlen := cell.flagsPktlen &&& ~~~cpdmaBufDescOwner }
  let finish (cell : Bd) : Bd := { cell with flagsPktlen := cell.flagsPktlen ||| cpdmaBufDescEoq }
  let unlink (cell : Bd) : Bd := { cell with next := none }
  have cut : ((current.modifyBd .tx first release).modifyBd .tx tail finish).modifyBd .tx tail
      unlink = ((current.modifyBd .tx tail unlink).modifyBd .tx first release).modifyBd .tx tail
      finish := by
    rw [State.modifyBd_comm _ _ _ _ finish unlink fun _ => rfl,
      State.modifyBd_comm _ _ _ _ release unlink fun _ => rfl]
  exact congrArg (fun state : State => state.setEngine .tx .idle) cut

/-- The engine sets EOQ only on a descriptor without a successor. -/
theorem Served.eoq_kept {end_ : Ptr} (served : Served current start packets end_)
    (step : TxStep current next) {d : Nat} (linked : (current.bd .tx d).next ≠ none) :
    (next.bd .tx d).eoq = (current.bd .tx d).eoq := by
  rcases served.progress with ⟨finished, pending, split, progress⟩
  cases step with
  | load => rfl
  | advance => rfl
  | @complete first last loaded at_ eop =>
      have busy : current.engine .tx ≠ .idle := by simp [at_]
      rcases progress.engine.busy busy with ⟨packet, later, rfl⟩
      rcases progress.engine with ⟨⟨offset, inside, position⟩, _⟩
      rw [at_] at position
      rcases position with fetch | isLoaded
      · cases fetch
      · injection isLoaded with _ isBd isNext
        have apart : ¬ (d = last ∧ loaded = none) := by
          rintro ⟨rfl, ended⟩
          rw [isNext, ← isBd] at ended
          exact linked ended
        rw [completeTx_eoq, decide_eq_false apart, Bool.or_false]

variable {model : State} {last : Nat}

theorem cut_bd (state : State) (tail d : Nat) : (state.cut tail).bd .tx d =
    { state.bd .tx d with next := if d = tail then none else (state.bd .tx d).next } := by
  rw [State.cut, State.modifyBd_bd]
  split <;> rfl

/-- The descriptors as they were before the tail was linked. -/
theorem cut_link {value : Ptr} (closed : (current.bd .tx tail).next = none) (d : Nat) :
    ((current.modifyBd .tx tail fun cell => { cell with next := value }).cut tail).bd .tx d =
      current.bd .tx d := by
  rw [cut_bd, State.modifyBd_bd]
  by_cases isTail : d = tail
  · subst isTail
    simp only [if_true]
    rw [← closed]
  · simp only [if_neg isTail]

/-- The engine has stopped at the old tail, or works with the NULL pointer that it has loaded
there. -/
structure Behind (start : Nat) (packets : List Packet) (tail : Nat) (model actual : State) :
    Prop where
  like : TxLike (Unqueued start packets) model actual
  served : Served (actual.cut tail) start packets (some tail)
  engine : actual.engine .tx = .idle ∨ ∃ first, actual.engine .tx = .loaded first tail none

/-- The engine serves the longer queue: it finds the old tail linked. -/
structure Ahead (start : Nat) (packets : List Packet) (last tail : Nat) (model actual : State) :
    Prop where
  like : TxLike (Unqueued start packets) model actual
  served : Served actual start packets (some last)
  linked : (actual.bd .tx tail).next ≠ none
  eoq : (actual.bd .tx tail).eoq = false

theorem Behind.step (behind : Behind start packets tail model current)
    (step : TxStep current next) : Behind start packets tail model next := by
  have frame := step.frame
  cases step with
  | load at_ =>
      rcases behind.engine with idle | ⟨first, loaded⟩
      · rw [at_] at idle
        cases idle
      · rw [at_] at loaded
        cases loaded
  | advance at_ _ =>
      rcases behind.engine with idle | ⟨first, loaded⟩
      · rw [at_] at idle
        cases idle
      · rw [at_] at loaded
        cases loaded
  | @complete first d loaded at_ eop =>
      rcases behind.engine with idle | ⟨first', isLoaded⟩
      · rw [at_] at idle
        cases idle
      · rw [at_] at isLoaded
        injection isLoaded with _ isTail isNone
        subst isTail isNone
        have eop' : ((current.cut d).bd .tx d).eop = true := by
          rw [cut_bd]
          exact eop
        have step' : TxStep (current.cut d) ((current.cut d).completeTx first d none) :=
          .complete at_ eop'
        rw [← completeTx_cut] at step'
        refine ⟨behind.like.frame frame fun other outside => ?_, behind.served.step step',
          .inl (completeTx_engine ..)⟩
        have same := congrArg Bd.flagsPktlen (behind.served.untouched step' outside)
        rwa [cut_bd, cut_bd] at same

theorem Ahead.step (ahead : Ahead start packets last tail model current)
    (step : TxStep current next) : Ahead start packets last tail model next where
  like := ahead.like.frame step.frame fun d outside => by
    rw [ahead.served.untouched step outside]
  served := ahead.served.step step
  linked := by
    rw [(step.frame.bd tail).next]
    exact ahead.linked
  eoq := (ahead.served.eoq_kept step ahead.linked).trans ahead.eoq

end Tail

/-! ## Handing the packet over -/

section Send

variable {base state model actual next : State} {start tail first : Nat} {packets : List Packet}
variable {packet : Packet} {end_ : Ptr}

theorem TxLike.mono {exact exact' : Nat → Prop} (like : TxLike exact model actual)
    (fewer : ∀ d, exact' d → exact d) : TxLike exact' model actual :=
  { like with bd := fun d =>
      { like.bd d with flags := ⟨(like.bd d).flags.1, fun inside =>
        (like.bd d).flags.2 (fewer d inside)⟩ } }

theorem Unqueued.of_append {d : Nat} (outside : Unqueued start (packets ++ [packet]) d) :
    Unqueued start packets d :=
  fun offset inside => outside offset (by rw [slots_append]; omega)

theorem and_eoq_ne_zero_iff (flags : Word) :
    flags &&& cpdmaBufDescEoq ≠ 0 ↔ flags.getLsbD 28 = true := by
  rw [show cpdmaBufDescEoq = BitVec.twoPow 32 28 from rfl, BitVec.and_twoPow]
  cases flags.getLsbD 28 <;> decide

theorem Appendable.congr {other : State} (ready : Appendable state first packet)
    (cells : ∀ offset < packet.clen, other.bd .tx (place numBd first offset) =
      state.bd .tx (place numBd first offset)) : Appendable other first packet := by
  have nonempty := ready.marked.nonempty
  refine ⟨ready.marked.congr ?_ ?_ ?_, ?_, ?_, ?_, ?_⟩
  · intro offset inside
    rw [cells offset inside]
  · intro offset inside
    rw [cells offset inside]
  · intro offset inside
    rw [cells offset inside]
  · intro offset inside
    rw [cells offset (by omega)]
    exact ready.linked offset inside
  · rw [cells _ (by omega)]
    exact ready.closed
  · intro offset inside
    rw [cells offset inside]
    exact ready.owner offset inside
  · rw [cells _ (by omega)]
    exact ready.eoq

/-- The queue with the old tail linked. -/
theorem Served.joined (served : Served base start packets (some tail))
    (cells : ∀ d, state.bd .tx d = { base.bd .tx d with
      next := if d = tail then some (place numBd start (slots packets))
        else (base.bd .tx d).next }) {offset : Nat} (inside : offset < slots packets) :
    state.bd .tx (place numBd start offset) = { base.bd .tx (place numBd start offset) with
      next := some (place numBd start (offset + 1)) } := by
  have size := served.size
  have nonempty : packets ≠ [] := by
    rintro rfl
    exact absurd inside (Nat.not_lt_zero offset)
  have isTail := Option.some.inj (served.closed nonempty).2
  rw [cells]
  by_cases isLast : offset + 1 = slots packets
  · rw [if_pos (by rw [isTail, ← isLast, Nat.add_sub_cancel]), isLast]
  · have apart : place numBd start offset ≠ tail := by
      rw [isTail]
      intro same
      have equal := place_injective (by omega) (by omega) same
      omega
    rw [if_neg apart, served.linked offset (by omega)]

/-- An engine that has stopped is started on the packet. -/
theorem Served.started (served : Served base start packets end_)
    (idle : base.engine .tx = .idle) (room : slots packets + packet.clen ≤ numBd)
    (cells : ∀ offset < slots packets, state.bd .tx (place numBd start offset) =
      { base.bd .tx (place numBd start offset) with
        next := some (place numBd start (offset + 1)) })
    (ready : Appendable state (place numBd start (slots packets)) packet)
    (engine : state.engine .tx =
      .fetch (place numBd start (slots packets)) (place numBd start (slots packets))) :
    Served state start (packets ++ [packet])
      (some (place numBd (place numBd start (slots packets)) (packet.clen - 1))) := by
  apply served.extend room cells ready
  intro finished pending split progress
  cases pending with
  | nil =>
      rw [List.append_nil] at split
      subst split
      refine ⟨⟨0, ready.marked.nonempty, .inl ?_⟩, ?_⟩
      · rw [engine, place_zero (place_lt (by decide))]
      · rintro d ⟨⟩
        exact ready.eoq
  | cons packet' later =>
      rcases progress.engine.1 with ⟨offset, _, fetch | loaded⟩
      · rw [idle] at fetch
        cases fetch
      · rw [idle] at loaded
        cases loaded

/-- EOQ is set on the tail where the engine has stopped. -/
theorem Served.eoq_of_idle (served : Served base start packets (some tail))
    (idle : base.engine .tx = .idle) : (base.bd .tx tail).eoq = true := by
  rcases served.progress with ⟨finished, pending, split, progress⟩
  cases pending with
  | nil => exact progress.engine.2 tail rfl
  | cons packet' later =>
      rcases progress.engine.1 with ⟨offset, _, fetch | loaded⟩
      · rw [idle] at fetch
        cases fetch
      · rw [idle] at loaded
        cases loaded

/-- The old tail is linked: either the engine has passed it already, or it goes on from there. -/
theorem Served.link (served : Served actual start packets (some tail))
    (like : TxLike (Unqueued start packets) model actual)
    (room : slots packets + packet.clen ≤ numBd) (closed : (actual.bd .tx tail).next = none)
    (ready : Appendable actual (place numBd start (slots packets)) packet)
    (apart : ∀ offset < packet.clen,
      place numBd (place numBd start (slots packets)) offset ≠ tail)
    (store : next = actual.modifyBd .tx tail fun cell =>
      { cell with next := some (place numBd start (slots packets)) }) :
    Behind start packets tail (model.modifyBd .tx tail fun cell =>
        { cell with next := some (place numBd start (slots packets)) }) next ∨
      Ahead start (packets ++ [packet])
        (place numBd (place numBd start (slots packets)) (packet.clen - 1)) tail
        (model.modifyBd .tx tail fun cell =>
          { cell with next := some (place numBd start (slots packets)) }) next := by
  subst store
  have like' := like.modifyBd tail
    (fun cell => { cell with next := some (place numBd start (slots packets)) })
    (fun cell => { cell with next := some (place numBd start (slots packets)) })
    fun _ _ alike => { alike with next := rfl }
  by_cases behind : actual.engine .tx = .idle ∨ ∃ first, actual.engine .tx = .loaded first tail none
  · left
    refine ⟨like', ?_, behind⟩
    refine @Served.congr actual _ start packets (some tail) served rfl
      (fun _ _ => cut_link closed _) ?_
    intro d _
    rw [cut_link closed]
  · right
    rw [not_or, not_exists] at behind
    have stored : ∀ d, d ≠ tail → (actual.modifyBd .tx tail fun cell =>
        { cell with next := some (place numBd start (slots packets)) }).bd .tx d =
          actual.bd .tx d := fun d other => State.modifyBd_bd_ne _ _ _ _ _ _ other
    have clear : (actual.bd .tx tail).eoq = false := by
      rcases served.progress with ⟨finished, pending, split, progress⟩
      rcases progress.engine.busy behind.1 with ⟨packet', later, rfl⟩
      exact progress.engine.2 tail rfl
    have cells : ∀ d, (actual.modifyBd .tx tail fun cell =>
        { cell with next := some (place numBd start (slots packets)) }).bd .tx d =
          { actual.bd .tx d with
            next := if d = tail then some (place numBd start (slots packets))
              else (actual.bd .tx d).next } := by
      intro d
      rw [State.modifyBd_bd]
      split <;> rfl
    have ready' := ready.congr fun offset inside => stored _ (apart offset inside)
    refine ⟨like'.mono fun _ => Unqueued.of_append,
      served.extend room (fun _ => served.joined cells) ready' ?_, ?_, ?_⟩
    · intro finished pending split progress
      rcases progress.engine.busy behind.1 with ⟨packet', later, rfl⟩
      rcases progress.engine.1 with ⟨offset, inside, position⟩
      refine ⟨⟨offset, inside, ?_⟩, ?_⟩
      · rcases position with fetch | loaded
        · exact .inl fetch
        · by_cases atTail : place numBd (place numBd start (slots finished)) offset = tail
          · rw [atTail, closed] at loaded
            exact (behind.2 _ loaded).elim
          · right
            rw [stored _ atTail]
            exact loaded
      · rintro d ⟨⟩
        exact ready'.eoq
    · rw [State.modifyBd_bd_self]
      nofun
    · rw [State.modifyBd_bd_self]
      exact clear

/-- The descriptors behind the queue. -/
theorem unqueued_place {offset : Nat} (low : slots packets ≤ offset) (high : offset < numBd) :
    Unqueued start packets (place numBd start offset) := by
  intro other inside same
  have equal := place_injective high (by omega) same
  omega

theorem unqueued_behind {offset : Nat} (inside : slots packets + offset < numBd) :
    Unqueued start packets (place numBd (place numBd start (slots packets)) offset) := by
  rw [place_place]
  exact unqueued_place (Nat.le_add_right _ _) inside

theorem TxLike.hdp {exact : Nat → Prop} (like : TxLike exact model actual) (bd : Ptr) :
    TxLike exact model (actual.writeHdp .tx bd) where
  txch := (State.writeHdp_txch _ _ _).trans like.txch
  rxch := (State.writeHdp_rxch _ _ _).trans like.rxch
  pbuf := (State.writeHdp_pbuf _ _ _).trans like.pbuf
  bd d := by
    rw [State.writeHdp_bd]
    exact like.bd d
  trace := by
    rw [State.writeHdp_trace, essential_hdp]
    exact like.trace

theorem writeHdp_engine (idle : actual.engine .tx = .idle) (d : Nat) :
    (actual.writeHdp .tx (some d)).engine .tx = .fetch d d := by
  simp [State.writeHdp, State.start, State.record, idle, State.setEngine]

end Send

section Transmit

variable {admits : {reply : Type} → Access reply → State → Prop}
variable {fits : State → Nat → Prop} {result : Type} {post : result → State → Prop}
variable {start tail : Nat} {packets : List Packet} {packet : Packet} {model actual : State}
variable {rest : Unit → Routine result}

/-- The assertion about `cpswif_transmit`: a model, and no `eth0_tx_isr`. -/
def Beside (exact : Nat → Prop) (start : Nat) (packets : List Packet) (tail : Ptr)
    (model actual : State) : Prop :=
  Serves exact start packets tail (fun trace => inTxIsr trace = false) model actual

/-- An engine that has stopped stays where it is. -/
theorem not_step_of_idle {next : State} (idle : actual.engine .tx = .idle) :
    ¬ TxStep actual next := by
  intro step
  cases step with
  | load at_ | advance at_ | complete at_ =>
      rw [idle] at at_
      cases at_

/-- A write of the TX HDP where the engine has stopped. -/
theorem hdp_ensures {bd : Ptr} (idle : actual.engine .tx = .idle)
    (continues : (engineContract admits fits).Ensures post (rest ()) (actual.writeHdp .tx bd)) :
    (engineContract admits fits).Ensures post (.lift (.hdp .tx bd) >>= rest) actual := by
  have stable : (engineContract admits fits).Stable (some ⟨Unit, .hdp .tx bd⟩) (· = actual) := by
    rintro current next rfl step
    exact (not_step_of_idle idle step).elim
  apply Contract.Ensures.of_perform stable rfl
  · intro before _
    trivial
  · intro before _ _
    trivial
  · rintro before rfl _
    exact continues

/-- The test of the old tail.  The engine is not at work with the NULL pointer that it has loaded
there, so that EOQ says whether it has stopped. -/
theorem restartTx_serves
    (unraced : ∀ {reply : Type} (request : Access reply) current,
      admits request current → Unraced request current)
    (holds : (Behind start packets tail model actual ∨
      Ahead start (packets ++ [packet])
        (place numBd (place numBd start (slots packets)) (packet.clen - 1)) tail model actual) ∧
      inTxIsr actual.trace = false)
    (link : (model.bd .tx tail).next = some (place numBd start (slots packets)))
    (room : slots packets + packet.clen ≤ numBd)
    (ready : Appendable model (place numBd start (slots packets)) packet)
    (continues : ∀ later, Beside (Unqueued start (packets ++ [packet])) start
      (packets ++ [packet])
      (some (place numBd (place numBd start (slots packets)) (packet.clen - 1))) model later →
      (engineContract admits fits).Ensures post (rest ()) later) :
    (engineContract admits fits).Ensures post
      (restartTx tail (some (place numBd start (slots packets))) >>= rest) actual := by
  have stable : (engineContract admits fits).Stable (some ⟨Word, .loadFlags .tx tail .eoq⟩)
      fun actual => (Behind start packets tail model actual ∨
        Ahead start (packets ++ [packet])
          (place numBd (place numBd start (slots packets)) (packet.clen - 1)) tail model actual) ∧
        inTxIsr actual.trace = false := by
    rintro current next ⟨either, outside⟩ step
    refine ⟨either.imp (fun behind => behind.step step) (fun ahead => ahead.step step), ?_⟩
    rw [TxStep.frame step |>.trace]
    exact outside
  apply Contract.Ensures.of_perform stable holds
  · intro before _
    trivial
  · intro before _ _
    trivial
  · rintro before ⟨either, outside⟩ admitted
    have apart : ∀ first, before.engine .tx ≠ .loaded first tail none := unraced _ before admitted
    change (engineContract admits fits).Ensures post
      ((if (before.bd .tx tail).flagsPktlen &&& cpdmaBufDescEoq ≠ 0 then _ else _) >>= rest) before
    rw [Program.bind_ite]
    rcases either with behind | ahead
    · have idle : before.engine .tx = .idle := by
        rcases behind.engine with idle | ⟨first, loaded⟩
        · exact idle
        · exact (apart first loaded).elim
      have eoq := behind.served.eoq_of_idle idle
      rw [cut_bd] at eoq
      rw [if_pos ((and_eoq_ne_zero_iff _).mpr eoq)]
      apply hdp_ensures idle
      apply continues
      refine ⟨(behind.like.hdp _).mono fun _ => Unqueued.of_append, ?_, ?_⟩
      · apply behind.served.started idle room
        · intro offset inside
          rw [State.writeHdp_bd]
          apply behind.served.joined _ inside
          intro d
          rw [cut_bd]
          by_cases isTail : d = tail
          · subst isTail
            have found := (behind.like.bd d).next.trans link
            simp only [if_true]
            rw [← found]
          · rw [if_neg isTail, if_neg isTail]
        · apply ready.congr
          intro offset inside
          rw [State.writeHdp_bd]
          exact behind.like.bd_eq (unqueued_behind (by omega))
        · exact writeHdp_engine idle _
      · rw [State.writeHdp_trace]
        exact outside
    · have clear : ¬ (before.bd .tx tail).flagsPktlen &&& cpdmaBufDescEoq ≠ 0 := by
        rw [and_eoq_ne_zero_iff]
        intro set
        exact absurd (set.symm.trans ahead.eoq) (by decide)
      rw [if_neg clear]
      exact continues before ⟨ahead.like, ahead.served, outside⟩

/-- The packet is handed over, through the HDP register or behind the old tail. -/
theorem sendBds_serves
    (unraced : ∀ {reply : Type} (request : Access reply) current,
      admits request current → Unraced request current)
    (beside : Beside (Unqueued start packets) start packets model.txch.sendTail model actual)
    (unsent : model.txch.sendTail = none → packets = [])
    (closed : ∀ tail, model.txch.sendTail = some tail → (model.bd .tx tail).next = none)
    (apart : ∀ tail, model.txch.sendTail = some tail → ∀ offset < packet.clen,
      place numBd (place numBd start (slots packets)) offset ≠ tail)
    (room : slots packets + packet.clen ≤ numBd)
    (ready : Appendable model (place numBd start (slots packets)) packet)
    (continues : ∀ later, Beside (Unqueued start (packets ++ [packet])) start
      (packets ++ [packet])
      (some (place numBd (place numBd start (slots packets)) (packet.clen - 1)))
      (model.linkTail (place numBd start (slots packets))) later →
      (engineContract admits fits).Ensures post (rest ()) later) :
    (engineContract admits fits).Ensures post
      (sendBds (some (place numBd start (slots packets))) model.txch.sendTail >>= rest) actual := by
  have same : ∀ offset < packet.clen, Unqueued start packets
      (place numBd (place numBd start (slots packets)) offset) :=
    fun offset inside => unqueued_behind (by omega)
  unfold State.linkTail at continues
  cases isTail : model.txch.sendTail with
  | none =>
      rw [isTail] at continues beside
      obtain rfl := unsent isTail
      have idle : actual.engine .tx = .idle := by
        rcases beside.served.progress with ⟨finished, pending, split, progress⟩
        rcases List.append_eq_nil_iff.mp split.symm with ⟨rfl, rfl⟩
        exact progress.engine.1
      apply hdp_ensures idle
      apply continues
      refine ⟨(beside.like.hdp _).mono fun _ => Unqueued.of_append, ?_, ?_⟩
      · apply beside.served.started idle room
        · intro offset inside
          exact absurd inside (Nat.not_lt_zero offset)
        · apply ready.congr
          intro offset inside
          rw [State.writeHdp_bd]
          exact beside.like.bd_eq (same offset inside)
        · exact writeHdp_engine idle _
      · rw [State.writeHdp_trace]
        exact beside.trace
  | some tail =>
      rw [isTail] at continues beside
      unfold sendBds
      rw [Program.bind_assoc]
      have stable : (engineContract admits fits).Stable
          (some ⟨Unit, .storeNext .tx tail (some (place numBd start (slots packets)))⟩)
          (Beside (Unqueued start packets) start packets (some tail) model) :=
        fun _ _ serves step => Serves.step (fun _ inside => inside) serves step
      apply Contract.Ensures.of_perform stable beside
      · intro before _
        trivial
      · intro before _ _
        trivial
      · intro before serves _
        have linked := serves.served.link serves.like room
          ((serves.like.bd tail).next.trans (closed tail isTail))
          (ready.congr fun offset inside => serves.like.bd_eq (same offset inside))
          (apart tail isTail) rfl
        refine restartTx_serves unraced ⟨linked, serves.trace⟩ ?_ room ?_ continues
        · rw [State.modifyBd_bd_self]
        · apply ready.congr
          intro offset inside
          exact State.modifyBd_bd_ne _ _ _ _ _ _ (apart tail isTail offset inside)

end Transmit

end BbbEth.Cpsw
