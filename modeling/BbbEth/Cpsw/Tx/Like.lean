import BbbEth.Cpsw.Outline

/-!
# The transmit side without its engine

`TxLike exact` relates a state to a model state in which no engine runs: they
agree on everything the transmit side reads, except for the OWNER and EOQ bits of
the descriptors outside `exact`, and on the trace up to polls and HDP writes.
-/

namespace BbbEth.Cpsw

open BbbEth.Interference

/-- Agreement of two descriptors, of which the first is `bd`. -/
structure BdLike (exact : Nat → Prop) (bd : Nat) (model actual : Bd) : Prop where
  next : actual.next = model.next
  bufptr : actual.bufptr = model.bufptr
  bufoffLen : actual.bufoffLen = model.bufoffLen
  pbuf : actual.pbuf = model.pbuf
  flags : Reads exact bd actual.flagsPktlen model.flagsPktlen

/-- A state agrees with a model state in which no TX engine runs. -/
structure TxLike (exact : Nat → Prop) (model actual : State) : Prop where
  txch : actual.txch = model.txch
  rxch : actual.rxch = model.rxch
  pbuf : actual.pbuf = model.pbuf
  bd : ∀ d, BdLike exact d (model.bd .tx d) (actual.bd .tx d)
  trace : essential actual.trace = essential model.trace

theorem TxLike.refl (exact : Nat → Prop) (state : State) : TxLike exact state state where
  txch := rfl
  rxch := rfl
  pbuf := rfl
  bd _ := ⟨rfl, rfl, rfl, rfl, .refl _⟩
  trace := rfl

/-- The accesses that the model accounts for. -/
def TxLocal : {reply : Type} → Access reply → Prop
  | _, .txch _ => True
  | _, .rxch _ => True
  | _, .pbuf _ _ => True
  | _, .loadNext .tx _ => True
  | _, .loadFlags .tx _ .plain => True
  | _, .loadPbuf .tx _ => True
  | _, .storeNext .tx _ _ => True
  | _, .storeBufptr .tx _ _ => True
  | _, .storeBufoffLen .tx _ _ => True
  | _, .storeFlags .tx _ _ => True
  | _, .storePbuf .tx _ _ => True
  | _, .emit event => event.essential = true
  | _, _ => False

section Like

variable {exact : Nat → Prop} {model actual next : State} {reply : Type}
variable {request : Access reply}

theorem TxLike.modifyBd (like : TxLike exact model actual) (d : Nat)
    (change other : Bd → Bd)
    (alike : ∀ left right, BdLike exact d left right →
      BdLike exact d (other left) (change right)) :
    TxLike exact (model.modifyBd .tx d other) (actual.modifyBd .tx d change) where
  txch := like.txch
  rxch := like.rxch
  pbuf := like.pbuf
  bd query := by
    by_cases same : query = d
    · subst same
      simpa using alike _ _ (like.bd query)
    · simpa [same] using like.bd query
  trace := like.trace

theorem TxLike.replies (like : TxLike exact model actual) (isLocal : TxLocal request) :
    outlineReplies exact request model (actual.perform request).1 := by
  cases request with
  | txch use => simp [outlineReplies, State.perform, like.txch]
  | rxch use => simp [outlineReplies, State.perform, like.rxch]
  | pbuf address use => simp [outlineReplies, State.perform, like.pbuf]
  | loadNext chan d =>
      cases chan with
      | tx => exact (like.bd d).next
      | rx => exact isLocal.elim
  | loadFlags chan d use =>
      cases chan with
      | tx =>
          cases use with
          | plain => exact (like.bd d).flags
          | owner => exact isLocal.elim
          | eoq => exact isLocal.elim
      | rx => exact isLocal.elim
  | loadPbuf chan d =>
      cases chan with
      | tx => exact (like.bd d).pbuf
      | rx => exact isLocal.elim
  | storeNext chan d value => rfl
  | storeBufptr chan d value => rfl
  | storeBufoffLen chan d value => rfl
  | storeFlags chan d value => rfl
  | storePbuf chan d value => rfl
  | emit event => rfl
  | alloc => exact isLocal.elim
  | hdp chan d => rfl
  | input address ifNum => rfl

theorem TxLike.moves (like : TxLike exact model actual) (isLocal : TxLocal request)
    (moves : outlineMoves exact request model (actual.perform request).1 next) :
    TxLike exact next (actual.perform request).2 := by
  cases request with
  | txch use =>
      obtain rfl := moves
      exact { like with txch := by simp [State.perform, like.txch] }
  | rxch use =>
      obtain rfl := moves
      exact { like with rxch := by simp [State.perform, like.rxch] }
  | pbuf address use =>
      obtain rfl := moves
      refine { like with pbuf := ?_ }
      simp [State.perform, State.modifyPbuf, like.pbuf]
  | loadNext chan d =>
      obtain rfl := moves
      exact like
  | loadFlags chan d use =>
      cases chan with
      | tx =>
          cases use with
          | plain =>
              obtain rfl := moves
              exact like
          | owner => exact isLocal.elim
          | eoq => exact isLocal.elim
      | rx => exact isLocal.elim
  | loadPbuf chan d =>
      obtain rfl := moves
      exact like
  | storeNext chan d value =>
      cases chan with
      | tx =>
          obtain rfl := moves
          refine like.modifyBd d (fun cell => { cell with next := value })
            (fun cell => { cell with next := value }) ?_
          intro left right alike
          exact { alike with next := rfl }
      | rx => exact isLocal.elim
  | storeBufptr chan d value =>
      cases chan with
      | tx =>
          obtain rfl := moves
          refine like.modifyBd d (fun cell => { cell with bufptr := value })
            (fun cell => { cell with bufptr := value }) ?_
          intro left right alike
          exact { alike with bufptr := rfl }
      | rx => exact isLocal.elim
  | storeBufoffLen chan d value =>
      cases chan with
      | tx =>
          obtain rfl := moves
          refine like.modifyBd d (fun cell => { cell with bufoffLen := value })
            (fun cell => { cell with bufoffLen := value }) ?_
          intro left right alike
          exact { alike with bufoffLen := rfl }
      | rx => exact isLocal.elim
  | storeFlags chan d value =>
      cases chan with
      | tx =>
          obtain ⟨stored, reads, rfl⟩ := moves
          refine like.modifyBd d (fun cell => { cell with flagsPktlen := value })
            (fun cell => { cell with flagsPktlen := stored }) ?_
          intro left right alike
          exact { alike with flags := reads }
      | rx => exact isLocal.elim
  | storePbuf chan d value =>
      cases chan with
      | tx =>
          obtain rfl := moves
          refine like.modifyBd d (fun cell => { cell with pbuf := value })
            (fun cell => { cell with pbuf := value }) ?_
          intro left right alike
          exact { alike with pbuf := rfl }
      | rx => exact isLocal.elim
  | emit event =>
      obtain rfl := moves
      refine { like with trace := ?_ }
      have shown : event.essential = true := isLocal
      simp only [State.perform, State.record, essential, List.filter_cons, shown, if_true]
      exact congrArg _ like.trace
  | alloc => exact isLocal.elim
  | hdp chan d => exact isLocal.elim
  | input address ifNum => exact isLocal.elim

end Like

/-- The outline describes a contract whose environment keeps `TxLike` and a
further assertion `keeps`. -/
theorem outline_describes {contract : Contract Access State}
    (effects : ∀ {reply : Type} (request : Access reply) state,
      contract.perform request state = state.perform request)
    {exact : Nat → Prop} {permits : {reply : Type} → Access reply → State → Prop}
    {keeps : State → Prop}
    (isLocal : ∀ {reply : Type} (request : Access reply) model,
      permits request model → TxLocal request)
    (stable : ∀ model pending,
      contract.Stable pending fun actual => TxLike exact model actual ∧ keeps actual)
    (safe : ∀ model actual, TxLike exact model actual → keeps actual → contract.safe actual)
    (guarantee : ∀ {reply : Type} (request : Access reply) model actual,
      TxLike exact model actual → keeps actual → permits request model →
      contract.admits request actual →
      contract.guarantee actual (actual.perform request).2)
    (kept : ∀ {reply : Type} (request : Access reply) model actual,
      TxLike exact model actual → keeps actual → permits request model →
      keeps (actual.perform request).2) :
    (outline exact permits).Describes contract
      fun model actual => TxLike exact model actual ∧ keeps actual where
  stable := stable
  safe holds := safe _ _ holds.1 holds.2
  guarantee holds permitted admitted := by
    rw [effects]
    exact guarantee _ _ _ holds.1 holds.2 permitted admitted
  replies holds permitted := by
    rw [effects]
    exact holds.1.replies (isLocal _ _ permitted)
  moves holds permitted moves := by
    rw [effects] at moves ⊢
    exact ⟨holds.1.moves (isLocal _ _ permitted) moves,
      kept _ _ _ holds.1 holds.2 permitted⟩

end BbbEth.Cpsw
