import BbbEth.Cpsw.Tx.Ring

/-!
# The transmit engine

The engine loads the next pointer of a descriptor, goes on to the next descriptor of
the packet, and completes the packet at its EOP descriptor: it clears OWNER on the SOP
descriptor and starts on the packet whose pointer it has loaded, or, if that is NULL,
sets EOQ and stops.
-/

namespace BbbEth.Cpsw

open BbbEth.Interference BbbEth.Linked

/-- The engine completes the packet from `first` to `d`, with the next pointer that it
has loaded from `d`. -/
def State.completeTx (state : State) (first d : Nat) (next : Ptr) : State :=
  let released := state.modifyBd .tx first fun cell =>
    { cell with flagsPktlen := cell.flagsPktlen &&& ~~~cpdmaBufDescOwner }
  match next with
  | some e => released.setEngine .tx (.fetch e e)
  | none =>
      (released.modifyBd .tx d fun cell =>
        { cell with flagsPktlen := cell.flagsPktlen ||| cpdmaBufDescEoq }).setEngine .tx .idle

/-- A step of the transmit engine. -/
inductive TxStep (current : State) : State → Prop where
  | load {first d : Nat} : current.engine .tx = .fetch first d →
      TxStep current (current.setEngine .tx (.loaded first d (current.bd .tx d).next))
  | advance {first d e : Nat} : current.engine .tx = .loaded first d (some e) →
      (current.bd .tx d).eop = false → TxStep current (current.setEngine .tx (.fetch first e))
  | complete {first d : Nat} {next : Ptr} : current.engine .tx = .loaded first d next →
      (current.bd .tx d).eop = true → TxStep current (current.completeTx first d next)

theorem modifyFlags_bd (state : State) (chan : Chan) (d other : Nat) (change : Word → Word) :
    (state.modifyBd chan d fun cell =>
      { cell with flagsPktlen := change cell.flagsPktlen }).bd chan other =
      { state.bd chan other with
        flagsPktlen := if other = d then change (state.bd chan other).flagsPktlen
          else (state.bd chan other).flagsPktlen } := by
  rw [State.modifyBd_bd]
  split <;> rfl

section Complete

variable (state : State) (first d other : Nat) (next : Ptr)

theorem getLsbD_or_eoq (flags : Word) (bit : Nat) :
    (flags ||| cpdmaBufDescEoq).getLsbD bit = (flags.getLsbD bit || decide (bit = 28)) := by
  rw [show cpdmaBufDescEoq = BitVec.twoPow 32 28 from rfl, getLsbD_or_twoPow _ (by decide)]

theorem completeTx_engine : (state.completeTx first d next).engine .tx =
    match next with
    | some e => .fetch e e
    | none => .idle := by
  cases next <;> simp [State.completeTx, State.setEngine]

/-- Completing a packet writes OWNER on its first and EOQ on its last descriptor. -/
theorem completeTx_bd : ∃ flags,
    (state.completeTx first d next).bd .tx other =
      { state.bd .tx other with flagsPktlen := flags } ∧
    ∀ bit, flags.getLsbD bit =
      (((state.bd .tx other).flagsPktlen.getLsbD bit &&
        !(decide (bit = 29) && decide (other = first))) ||
        (decide (bit = 28) && decide (other = d ∧ next = none))) := by
  have released := modifyFlags_bd state .tx first other (· &&& ~~~cpdmaBufDescOwner)
  have bits : ∀ bit, (if other = first then
      (state.bd .tx other).flagsPktlen &&& ~~~cpdmaBufDescOwner
      else (state.bd .tx other).flagsPktlen).getLsbD bit =
      ((state.bd .tx other).flagsPktlen.getLsbD bit &&
        !(decide (bit = 29) && decide (other = first))) := by
    intro bit
    by_cases isFirst : other = first
    · rw [if_pos isFirst, getLsbD_and_not_owner]
      simp [isFirst]
    · rw [if_neg isFirst]
      simp [isFirst]
  cases next with
  | some e => exact ⟨_, released, fun bit => by rw [bits bit]; simp⟩
  | none =>
      have ended := modifyFlags_bd (state.modifyBd .tx first fun cell =>
        { cell with flagsPktlen := cell.flagsPktlen &&& ~~~cpdmaBufDescOwner }) .tx d other
        (· ||| cpdmaBufDescEoq)
      rw [released] at ended
      refine ⟨_, ended, ?_⟩
      intro bit
      by_cases isLast : other = d
      · rw [if_pos isLast, getLsbD_or_eoq, bits bit]
        simp [isLast]
      · rw [if_neg isLast, bits bit]
        simp [isLast]

theorem completeTx_owner : ((state.completeTx first d next).bd .tx other).owner =
    ((state.bd .tx other).owner && !decide (other = first)) := by
  rcases completeTx_bd state first d other next with ⟨flags, same, bits⟩
  rw [same]
  change flags.getLsbD 29 = _
  rw [bits 29]
  simp [Bd.owner]

theorem completeTx_sop : ((state.completeTx first d next).bd .tx other).sop =
    (state.bd .tx other).sop := by
  rcases completeTx_bd state first d other next with ⟨flags, same, bits⟩
  rw [same]
  change flags.getLsbD 31 = _
  rw [bits 31]
  simp [Bd.sop]

theorem completeTx_eoq : ((state.completeTx first d next).bd .tx other).eoq =
    ((state.bd .tx other).eoq || decide (other = d ∧ next = none)) := by
  rcases completeTx_bd state first d other next with ⟨flags, same, bits⟩
  rw [same]
  change flags.getLsbD 28 = _
  rw [bits 28]
  simp [Bd.eoq]

end Complete

/-- What a step of the engine leaves alone. -/
structure TxFrame (current next : State) : Prop where
  txch : next.txch = current.txch
  rxch : next.rxch = current.rxch
  pbuf : next.pbuf = current.pbuf
  trace : next.trace = current.trace
  bd : ∀ d, BdLike (fun _ => False) d (current.bd .tx d) (next.bd .tx d)

theorem TxStep.frame {current next : State} (step : TxStep current next) :
    TxFrame current next := by
  cases step with
  | load => exact ⟨rfl, rfl, rfl, rfl, fun _ => ⟨rfl, rfl, rfl, rfl, .refl _⟩⟩
  | advance => exact ⟨rfl, rfl, rfl, rfl, fun _ => ⟨rfl, rfl, rfl, rfl, .refl _⟩⟩
  | @complete first d loaded _ _ =>
      refine ⟨?_, ?_, ?_, ?_, ?_⟩
      · cases loaded <;> rfl
      · cases loaded <;> rfl
      · cases loaded <;> rfl
      · cases loaded <;> rfl
      · intro other
        rcases completeTx_bd current first d other loaded with ⟨flags, same, bits⟩
        rw [same]
        refine ⟨rfl, rfl, rfl, rfl, ?_, False.elim⟩
        intro bit notEoq notOwner
        simp only
        rw [bits bit]
        simp [notEoq, notOwner]

/-! ## An engine that serves the queue -/

/-- Where the engine is when the packets `pending` are still to be sent, the first of
them from the descriptor `first` on: in that packet, with EOQ clear on the tail, or
stopped, with EOQ set. -/
def TxAt (state : State) (first : Nat) (tail : Ptr) : List Packet → Prop
  | [] => state.engine .tx = .idle ∧ ∀ d, tail = some d → (state.bd .tx d).eoq = true
  | packet :: _ =>
      (∃ offset < packet.clen, state.engine .tx = .fetch first (place numBd first offset) ∨
        state.engine .tx = .loaded first (place numBd first offset)
          (state.bd .tx (place numBd first offset)).next) ∧
      ∀ d, tail = some d → (state.bd .tx d).eoq = false

/-- OWNER is clear on the packets that the engine has completed, and set on the SOP
descriptors of the others, where the engine is at work. -/
structure Progress (state : State) (start : Nat) (tail : Ptr)
    (finished pending : List Packet) : Prop where
  done : ∀ offset < slots finished, (state.bd .tx (place numBd start offset)).owner = false
  queued : ∀ offset, slots finished ≤ offset → offset < slots (finished ++ pending) →
    (state.bd .tx (place numBd start offset)).owner =
      (state.bd .tx (place numBd start offset)).sop
  engine : TxAt state (place numBd start (slots finished)) tail pending

/-- The packets lie in the ring from `start` on, end at `tail`, and the engine serves
them in order. -/
structure Served (state : State) (start : Nat) (packets : List Packet) (tail : Ptr) :
    Prop where
  size : slots packets ≤ numBd
  bound : start < numBd
  queued : Queued state start packets
  linked : ∀ offset, offset + 1 < slots packets →
    (state.bd .tx (place numBd start offset)).next =
      some (place numBd start (offset + 1))
  closed : packets ≠ [] →
    (state.bd .tx (place numBd start (slots packets - 1))).next = none ∧
      tail = some (place numBd start (slots packets - 1))
  progress : ∃ finished pending, packets = finished ++ pending ∧
    Progress state start tail finished pending

section Served

variable {current next : State} {start first : Nat} {packets later : List Packet}
variable {packet : Packet} {tail : Ptr}

/-- The chain itself is not touched. -/
theorem Served.of_frame {finished pending : List Packet}
    (served : Served current start packets tail) (frame : TxFrame current next)
    (split : packets = finished ++ pending)
    (progress : Progress next start tail finished pending) :
    Served next start packets tail where
  size := served.size
  bound := served.bound
  queued := served.queued.congr (fun _ _ => (frame.bd _).sameShape.sop)
    (fun _ _ => (frame.bd _).sameShape.eop) (fun _ _ => (frame.bd _).pbuf)
  linked offset inside := (frame.bd _).next.trans (served.linked offset inside)
  closed nonempty :=
    ⟨(frame.bd _).next.trans (served.closed nonempty).1, (served.closed nonempty).2⟩
  progress := ⟨finished, pending, split, progress⟩

/-- A busy engine is in the first pending packet. -/
theorem TxAt.busy {pending : List Packet} (engine : TxAt current first tail pending)
    (busy : current.engine .tx ≠ .idle) : ∃ packet later, pending = packet :: later := by
  cases pending with
  | nil => exact (busy engine.1).elim
  | cons packet later => exact ⟨packet, later, rfl⟩

/-- The engine completes its packet, and goes on to the next one or stops. -/
theorem Progress.complete {finished : List Packet} {d : Nat} {loaded : Ptr}
    (served : Served current start packets tail)
    (split : packets = finished ++ packet :: later)
    (progress : Progress current start tail finished (packet :: later))
    (isLast : d = place numBd start (slots finished + (packet.clen - 1)))
    (link : loaded = (current.bd .tx d).next) :
    Progress (current.completeTx (place numBd start (slots finished)) d loaded) start tail
      (finished ++ [packet]) later := by
  have size := served.size
  have bound : place numBd start (slots finished) < numBd := place_lt (by decide)
  have queued := served.queued
  rw [split, queued_append served.bound] at queued
  have marked := queued.2.1
  have nonempty := marked.nonempty
  rw [split, slots_append, slots_cons] at size
  have owner := fun other => completeTx_owner current (place numBd start (slots finished)) d
    other loaded
  have sop := fun other => completeTx_sop current (place numBd start (slots finished)) d
    other loaded
  have eoq := fun other => completeTx_eoq current (place numBd start (slots finished)) d
    other loaded
  refine ⟨?_, ?_, ?_⟩
  · intro offset inside
    simp only [slots_append, slots_cons, slots_nil, Nat.add_zero] at inside
    rw [owner]
    by_cases early : offset < slots finished
    · rw [progress.done offset early, Bool.false_and]
    · rw [progress.queued offset (by omega) (by simp; omega)]
      have position : place numBd start offset =
          place numBd (place numBd start (slots finished)) (offset - slots finished) := by
        rw [place_place, Nat.add_sub_of_le (by omega)]
      by_cases isFirst : offset = slots finished
      · simp [isFirst]
      · rw [position, marked.sop _ (by omega), decide_eq_false (by omega), Bool.false_and]
  · intro offset low high
    simp only [slots_append, slots_cons, slots_nil, Nat.add_zero] at low high
    rw [owner, sop, progress.queued offset (by omega) (by simp; omega)]
    have different : place numBd start offset ≠ place numBd start (slots finished) := by
      intro same
      have equal := place_injective (by omega) (by omega) same
      omega
    simp [different]
  · cases later with
    | nil =>
        have ended := served.closed (by simp [split])
        simp only [split, slots_append, slots_cons, slots_nil, Nat.add_zero] at ended
        rw [Nat.add_sub_assoc nonempty, ← isLast] at ended
        rw [ended.1] at link
        subst link
        refine ⟨completeTx_engine .., ?_⟩
        intro t isTail
        rw [ended.2] at isTail
        obtain rfl := Option.some.inj isTail
        rw [eoq]
        simp
    | cons following later =>
        have follows := queued.2.2.1.nonempty
        have linked := served.linked (slots finished + (packet.clen - 1)) (by
          simp only [split, slots_append, slots_cons]
          omega)
        rw [← isLast, ← link, show slots finished + (packet.clen - 1) + 1 =
          slots finished + packet.clen by omega] at linked
        simp only [slots_append, slots_cons, slots_nil, Nat.add_zero]
        refine ⟨⟨0, follows, .inl ?_⟩, ?_⟩
        · rw [completeTx_engine, linked, place_zero (place_lt (by decide))]
        · intro t isTail
          rw [eoq, progress.engine.2 t isTail, linked]
          simp

/-- The engine serves the packets step by step. -/
theorem Served.step (served : Served current start packets tail)
    (step : TxStep current next) : Served next start packets tail := by
  rcases served.progress with ⟨finished, pending, split, progress⟩
  have size := served.size
  have frame := step.frame
  cases step with
  | @load first d at_ =>
      have busy : current.engine .tx ≠ .idle := by simp [at_]
      rcases progress.engine.busy busy with ⟨packet, later, rfl⟩
      apply served.of_frame frame split
      refine ⟨progress.done, progress.queued, ?_⟩
      rcases progress.engine with ⟨⟨offset, inside, position⟩, eoq⟩
      refine ⟨⟨offset, inside, .inr ?_⟩, eoq⟩
      rcases position with fetch | loaded
      · rw [at_] at fetch
        cases fetch
        simp [State.setEngine]
      · rw [at_] at loaded
        cases loaded
  | @advance first d e at_ eop =>
      have busy : current.engine .tx ≠ .idle := by simp [at_]
      rcases progress.engine.busy busy with ⟨packet, later, rfl⟩
      have queued := served.queued
      rw [split, queued_append served.bound] at queued
      have marked := queued.2.1
      rcases progress.engine with ⟨⟨offset, inside, position⟩, eoq⟩
      rw [at_] at position
      rcases position with fetch | loaded
      · cases fetch
      · injection loaded with isFirst isBd isNext
        subst isBd
        -- EOP is clear, so the packet goes on behind this descriptor.
        rw [marked.eop offset inside, decide_eq_false_iff_not] at eop
        have linked := served.linked (slots finished + offset) (by
          simp only [split, slots_append, slots_cons]
          omega)
        rw [← place_place, ← isNext] at linked
        apply served.of_frame frame split
        refine ⟨progress.done, progress.queued, ⟨offset + 1, by omega, .inl ?_⟩, eoq⟩
        rw [Option.some.inj linked, isFirst, place_place, Nat.add_assoc]
        simp [State.setEngine]
  | @complete first d loaded at_ eop =>
      have busy : current.engine .tx ≠ .idle := by simp [at_]
      rcases progress.engine.busy busy with ⟨packet, later, rfl⟩
      have queued := served.queued
      rw [split, queued_append served.bound] at queued
      have marked := queued.2.1
      rcases progress.engine with ⟨⟨offset, inside, position⟩, eoq⟩
      rw [at_] at position
      rcases position with fetch | isLoaded
      · cases fetch
      · injection isLoaded with isFirst isBd isNext
        subst isBd isFirst
        -- EOP is set, so this is the end of the packet.
        rw [marked.eop offset inside, decide_eq_true_eq] at eop
        have split' : packets = (finished ++ [packet]) ++ later := by simp [split]
        apply served.of_frame frame split'
        apply progress.complete served split _ isNext
        rw [place_place, show packet.clen - 1 = offset by omega]

/-- A step of the engine touches descriptors of the queue only. -/
theorem Served.untouched (served : Served current start packets tail)
    (step : TxStep current next) {d : Nat}
    (apart : ∀ offset < slots packets, d ≠ place numBd start offset) :
    next.bd .tx d = current.bd .tx d := by
  rcases served.progress with ⟨finished, pending, split, progress⟩
  cases step with
  | load => rfl
  | advance => rfl
  | @complete first last loaded at_ eop =>
      have busy : current.engine .tx ≠ .idle := by simp [at_]
      rcases progress.engine.busy busy with ⟨packet, later, rfl⟩
      rcases progress.engine with ⟨⟨offset, inside, position⟩, _⟩
      rw [at_] at position
      rcases position with fetch | isLoaded
      · cases fetch
      · injection isLoaded with isFirst isBd _
        have size : slots packets = slots finished + (packet.clen + slots later) := by
          simp [split]
        have notFirst : d ≠ first := by
          rw [isFirst]
          exact apart _ (by omega)
        have notLast : d ≠ last := by
          rw [isBd, place_place]
          exact apart _ (by omega)
        cases loaded with
        | some e => simp [State.completeTx, State.setEngine, notFirst]
        | none => simp [State.completeTx, State.setEngine, notFirst, notLast]

/-- The service only depends on the engine and on the descriptors of the queue. -/
theorem Served.congr (served : Served current start packets tail)
    (engine : next.engine .tx = current.engine .tx)
    (cells : ∀ offset < slots packets, next.bd .tx (place numBd start offset) =
      current.bd .tx (place numBd start offset))
    (eoq : ∀ d, tail = some d → (next.bd .tx d).eoq = (current.bd .tx d).eoq) :
    Served next start packets tail where
  size := served.size
  bound := served.bound
  queued := by
    apply served.queued.congr
    · intro offset inside
      rw [cells offset inside]
    · intro offset inside
      rw [cells offset inside]
    · intro offset inside
      rw [cells offset inside]
  linked offset inside := by
    rw [cells offset (by omega)]
    exact served.linked offset inside
  closed nonempty := by
    have last := served.queued.slots_pos nonempty
    rw [cells _ (by omega)]
    exact served.closed nonempty
  progress := by
    rcases served.progress with ⟨finished, pending, split, progress⟩
    have size : slots packets = slots finished + slots pending := by simp [split]
    refine ⟨finished, pending, split, ?_, ?_, ?_⟩
    · intro offset inside
      rw [cells offset (by omega)]
      exact progress.done offset inside
    · intro offset low high
      rw [cells offset (by rw [split]; exact high)]
      exact progress.queued offset low high
    · have at_ := progress.engine
      cases pending with
      | nil =>
          refine ⟨engine.trans at_.1, ?_⟩
          intro d isTail
          rw [eoq d isTail]
          exact at_.2 d isTail
      | cons packet later =>
          rcases at_ with ⟨⟨offset, inside, position⟩, clear⟩
          refine ⟨⟨offset, inside, ?_⟩, ?_⟩
          · rw [engine, place_place, cells _ (by rw [size, slots_cons]; omega), ← place_place]
            exact position
          · intro d isTail
            rw [eoq d isTail]
            exact clear d isTail

end Served

end BbbEth.Cpsw
