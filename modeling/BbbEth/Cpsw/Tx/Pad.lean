import BbbEth.Cpsw.Tx.Fill

/-!
# Padding a short packet

The length adjustment at the start of `cpswif_output`.
-/

namespace BbbEth.Cpsw

open BbbEth.Interference BbbEth.Linked Routine

namespace State

/-- The walk of `padShort` along the pbufs behind `p`. -/
def padTail (state : State) (p : Nat) : List Nat → State
  | [] => state
  | q :: rest =>
      (state.modifyPbuf q fun pbuf =>
        { pbuf with totLen := (state.pbuf p).totLen - (state.pbuf p).len }).padTail q rest

/-- The effect of `padShort` on a short packet, whose last pbuf is `last`. -/
def pad (state : State) (p : Nat) (rest : List Nat) (last : Nat) : State :=
  let started := state.modifyPbuf p fun pbuf => { pbuf with totLen := minPktLen }
  let walked := started.padTail p rest
  walked.modifyPbuf last fun pbuf => { pbuf with len := (walked.pbuf last).totLen }

end State

/-- Two pbufs that differ in `tot_len` at most. -/
structure SameButTotLen (left right : Pbuf) : Prop where
  next : right.next = left.next
  payload : right.payload = left.payload
  len : right.len = left.len
  ref : right.ref = left.ref

section Pad

variable {state : State} {p q : Nat} {rest : List Nat}

theorem padTail_eq : ∃ heap, state.padTail p rest = { state with pbuf := heap } := by
  induction rest generalizing state p with
  | nil => exact ⟨state.pbuf, rfl⟩
  | cons next rest inductionHypothesis =>
      rcases @inductionHypothesis (state.modifyPbuf next _) next with ⟨heap, same⟩
      exact ⟨heap, same⟩

/-- The walk changes the total lengths only. -/
theorem padTail_same : SameButTotLen (state.pbuf q) ((state.padTail p rest).pbuf q) := by
  induction rest generalizing state p with
  | nil => exact ⟨rfl, rfl, rfl, rfl⟩
  | cons next rest inductionHypothesis =>
      have later := @inductionHypothesis (state.modifyPbuf next fun pbuf =>
        { pbuf with totLen := (state.pbuf p).totLen - (state.pbuf p).len }) next
      by_cases same : q = next
      · subst same
        simp only [State.modifyPbuf_pbuf_self] at later
        exact ⟨later.next, later.payload, later.len, later.ref⟩
      · rw [State.modifyPbuf_pbuf_ne _ _ _ _ same] at later
        exact later

/-- What is left of the total length behind some pbufs. -/
def remaining (state : State) (total : Half) (pbufs : List Nat) : Half :=
  pbufs.foldl (fun left q => left - (state.pbuf q).len) total

/-- The last pbuf ends up with what the others leave. -/
theorem padTail_last (distinct : (p :: rest).Nodup) :
    ((state.padTail p rest).pbuf ((p :: rest).getLast (by simp))).totLen =
      remaining state (state.pbuf p).totLen (p :: rest).dropLast := by
  induction rest generalizing state p with
  | nil => rfl
  | cons next rest inductionHypothesis =>
      have later := @inductionHypothesis (state.modifyPbuf next fun pbuf =>
        { pbuf with totLen := (state.pbuf p).totLen - (state.pbuf p).len }) next
        (List.nodup_cons.mp distinct).2
      have lens : ∀ (pbufs : List Nat) total, remaining (state.modifyPbuf next fun pbuf =>
          { pbuf with totLen := (state.pbuf p).totLen - (state.pbuf p).len }) total pbufs =
          remaining state total pbufs := by
        intro pbufs total
        unfold remaining
        congr 1
        funext left q
        by_cases same : q = next
        · subst same
          simp
        · simp [same]
      rw [lens, State.modifyPbuf_pbuf_self] at later
      exact later

/-- What the walk leaves, as long as the pbufs are not longer than the total. -/
theorem remaining_toNat {total : Half} {pbufs : List Nat}
    (fits : (pbufs.map fun q => (state.pbuf q).len.toNat).sum ≤ total.toNat) :
    (remaining state total pbufs).toNat =
      total.toNat - (pbufs.map fun q => (state.pbuf q).len.toNat).sum := by
  induction pbufs generalizing total with
  | nil => rfl
  | cons next pbufs inductionHypothesis =>
      simp only [List.map_cons, List.sum_cons] at fits ⊢
      have step : (total - (state.pbuf next).len).toNat =
          total.toNat - (state.pbuf next).len.toNat :=
        BitVec.toNat_sub_of_le (BitVec.le_def.mpr (by omega))
      have later := @inductionHypothesis (total - (state.pbuf next).len) (by omega)
      rw [step, Nat.sub_sub] at later
      exact later

theorem pad_eq (last : Nat) : ∃ heap, state.pad p rest last = { state with pbuf := heap } := by
  rcases @padTail_eq (state.modifyPbuf p fun pbuf => { pbuf with totLen := minPktLen }) p rest
    with ⟨heap, same⟩
  simp only [State.pad, same]
  exact ⟨_, rfl⟩

theorem pad_txch (last : Nat) : (state.pad p rest last).txch = state.txch := by
  have heap : ∃ heap, state.pad p rest last = _ := pad_eq last
  rcases heap with ⟨heap, equal⟩
  rw [equal]

theorem pad_trace (last : Nat) : (state.pad p rest last).trace = state.trace := by
  have heap : ∃ heap, state.pad p rest last = _ := pad_eq last
  rcases heap with ⟨heap, equal⟩
  rw [equal]

/-- Padding changes the lengths only. -/
theorem pad_same (last q : Nat) :
    ((state.pad p rest last).pbuf q).next = (state.pbuf q).next ∧
      ((state.pad p rest last).pbuf q).payload = (state.pbuf q).payload ∧
      ((state.pad p rest last).pbuf q).ref = (state.pbuf q).ref := by
  have walked := @padTail_same (state.modifyPbuf p fun pbuf =>
    { pbuf with totLen := minPktLen }) p q rest
  have started : ∀ address, SameButTotLen (state.pbuf address)
      ((state.modifyPbuf p fun pbuf => { pbuf with totLen := minPktLen }).pbuf address) := by
    intro address
    by_cases same : address = p
    · subst same
      simp only [State.modifyPbuf_pbuf_self]
      exact ⟨rfl, rfl, rfl, rfl⟩
    · rw [State.modifyPbuf_pbuf_ne _ _ _ _ same]
      exact ⟨rfl, rfl, rfl, rfl⟩
  have next := walked.next.trans (started q).next
  have payload := walked.payload.trans (started q).payload
  have ref := walked.ref.trans (started q).ref
  by_cases same : q = last
  · subst same
    simp only [State.pad, State.modifyPbuf_pbuf_self]
    exact ⟨next, payload, ref⟩
  · simp only [State.pad, State.modifyPbuf_pbuf_ne _ _ _ _ same]
    exact ⟨next, payload, ref⟩

/-- The last pbuf gets what the others leave of the minimum. -/
theorem pad_last (distinct : (p :: rest).Nodup) {last : Nat}
    (isLast : last = (p :: rest).getLast (by simp)) :
    ((state.pad p rest last).pbuf last).totLen =
        remaining state minPktLen (p :: rest).dropLast ∧
      ((state.pad p rest last).pbuf last).len =
        remaining state minPktLen (p :: rest).dropLast := by
  subst isLast
  have walked := @padTail_last (state.modifyPbuf p fun pbuf =>
    { pbuf with totLen := minPktLen }) p rest distinct
  have lens : remaining (state.modifyPbuf p fun pbuf => { pbuf with totLen := minPktLen })
      minPktLen (p :: rest).dropLast = remaining state minPktLen (p :: rest).dropLast := by
    unfold remaining
    congr 1
    funext left q
    by_cases same : q = p
    · subst same
      simp
    · simp [same]
  rw [State.modifyPbuf_pbuf_self, lens] at walked
  simp only [State.pad, State.modifyPbuf_pbuf_self]
  exact ⟨walked, walked⟩

section Runs

variable {exact : Nat → Prop} {permits : {reply : Type} → Access reply → State → Prop}

/-- The loop of `padShort`. -/
theorem padLoop_runs
    (reads : ∀ {reply : Type} (address : Nat) (use : Pbuf → reply × Pbuf) model,
      permits (.pbuf address use) model)
    (path : PbufChain state (some p) (p :: rest)) :
    (outline exact permits).Runs (.iterate padRound p) state
      ((p :: rest).getLast (by simp)) (state.padTail p rest) := by
  induction rest generalizing state p with
  | nil =>
      have ended : (state.pbuf p).next = none := path.2
      have round : (outline exact permits).Runs (padRound p) state (.inr p) state := by
        unfold padRound
        apply runs_getPbuf (reads _ _ _)
        rw [ended]
        exact .done
      exact .leave round .done
  | cons next rest inductionHypothesis =>
      have link : (state.pbuf p).next = some next := path.2.1
      have round : (outline exact permits).Runs (padRound p) state (.inl next)
          (state.modifyPbuf next fun pbuf =>
            { pbuf with totLen := (state.pbuf p).totLen - (state.pbuf p).len }) := by
        unfold padRound
        apply runs_getPbuf (reads _ _ _)
        rw [link]
        apply runs_getPbuf (reads _ _ _)
        apply runs_getPbuf (reads _ _ _)
        apply runs_setPbuf (reads _ _ _)
        exact .done
      apply Outline.Runs.next round
      apply inductionHypothesis
      have chain : PbufChain state (some next) (next :: rest) := ⟨rfl, path.2.2⟩
      apply chain.congr
      intro q
      by_cases same : q = next
      · subst same
        simp
      · simp [same]

theorem padShort_runs_short
    (reads : ∀ {reply : Type} (address : Nat) (use : Pbuf → reply × Pbuf) model,
      permits (.pbuf address use) model)
    (path : PbufChain state (some p) (p :: rest))
    (isShort : (state.pbuf p).totLen < minPktLen) :
    (outline exact permits).Runs (padShort p) state ((p :: rest).getLast (by simp))
      (state.pad p rest ((p :: rest).getLast (by simp))) := by
  unfold padShort
  apply runs_getPbuf (reads _ _ _)
  rw [if_pos isShort]
  apply runs_setPbuf (reads _ _ _)
  have chain : PbufChain (state.modifyPbuf p fun pbuf => { pbuf with totLen := minPktLen })
      (some p) (p :: rest) := by
    apply path.congr
    intro q
    by_cases same : q = p
    · subst same
      simp
    · simp [same]
  apply Outline.Runs.bind (padLoop_runs reads chain)
  apply runs_getPbuf (reads _ _ _)
  apply runs_setPbuf (reads _ _ _)
  exact .done

theorem padShort_runs_long
    (reads : ∀ {reply : Type} (address : Nat) (use : Pbuf → reply × Pbuf) model,
      permits (.pbuf address use) model)
    (isLong : ¬ (state.pbuf p).totLen < minPktLen) :
    (outline exact permits).Runs (padShort p) state p state := by
  unfold padShort
  apply runs_getPbuf (reads _ _ _)
  rw [if_neg isLong]
  exact .done

end Runs

end Pad

end BbbEth.Cpsw
