import BbbEth.Cpsw.Tx.Engine
import BbbEth.Cpsw.Tx.Isr

/-!
# The transmit side beside its engine

Here the engine makes its own steps, between any two accesses of the driver.  What is to be shown
is that no packet is left behind when the engine has stopped.
-/

namespace BbbEth.Cpsw

open BbbEth.Interference BbbEth.Linked Routine

/-! ## The system -/

/-- The transmit side beside its engine. -/
def engineSystem (admits : {reply : Type} → Access reply → State → Prop)
    (fits : State → Nat → Prop) : System Access State where
  perform := State.perform
  rely _ := TxStep
  admits := admits
  initial state := Booted state ∧ Grounded state
  calls := TxCallOf fits
  outside := HeapChange

/-- A descriptor that is linked in the send chain, from `send_head` on. -/
def InSendChain (state : State) (d : Nat) : Prop :=
  ∃ chain finish, Path (fun d => (state.bd .tx d).next) state.txch.sendHead chain finish ∧
    d ∈ chain

/-- Where the engine is idle, no descriptor of the send chain has OWNER set. -/
def AllStarted (state : State) : Prop :=
  state.engine .tx = .idle → ∀ d, InSendChain state d → (state.bd .tx d).owner = false

/-- No packet is left behind in any run, whenever no call is running. -/
def NoLostWakeUp (system : System Access State) : Prop :=
  ∀ state, system.Idle state → AllStarted state

/-- `cpswif_transmit` does not test the EOQ bit of the old tail while the engine works with the
NULL pointer it has loaded there, and no poll of `eth0_tx_isr` gives up. -/
def Unraced : {reply : Type} → Access reply → State → Prop
  | _, .loadFlags .tx d .eoq, state => ∀ first, state.engine .tx ≠ .loaded first d none
  | _, request, state => WithinBudget request state

/-- The contract of the calls. -/
def engineContract (admits : {reply : Type} → Access reply → State → Prop)
    (fits : State → Nat → Prop) : Contract Access State where
  toSetting := (engineSystem admits fits).toSetting
  safe _ := True
  guarantee _ _ := True
  mayFault := False

/-! ## What the engine leaves alone -/

/-- The descriptors outside the queue. -/
def Unqueued (start : Nat) (packets : List Packet) (d : Nat) : Prop :=
  ∀ offset < slots packets, d ≠ place numBd start offset

/-- The accesses that store outside the queue, and leave the EOQ bit of the tail. -/
def Spares (exact : Nat → Prop) (start : Nat) (packets : List Packet) (tail : Ptr) :
    {reply : Type} → Access reply → State → Prop
  | _, .storeNext .tx d _, _ => Unqueued start packets d
  | _, .storeBufptr .tx d _, _ => Unqueued start packets d
  | _, .storeBufoffLen .tx d _, _ => Unqueued start packets d
  | _, .storePbuf .tx d _, _ => Unqueued start packets d
  | _, .storeFlags .tx d value, model => exact d ∧
      (tail = some d → value.getLsbD 28 = (model.bd .tx d).eoq)
  | _, _, _ => True

section Serves

variable {exact : Nat → Prop} {start : Nat} {packets : List Packet} {tail : Ptr}
variable {model actual next : State} {reply : Type} {request : Access reply}

theorem BdLike.eq {d : Nat} {left right : Bd} (like : BdLike exact d left right)
    (inside : exact d) : right = left := by
  cases left
  cases right
  rcases like with ⟨rfl, rfl, rfl, rfl, flags⟩
  obtain rfl := flags.2 inside
  rfl

/-- An exact descriptor is the one of the model. -/
theorem TxLike.bd_eq (like : TxLike exact model actual) {d : Nat} (inside : exact d) :
    actual.bd .tx d = model.bd .tx d := (like.bd d).eq inside

/-- A step of the engine that leaves the exact descriptors alone. -/
theorem TxLike.frame (like : TxLike exact model actual) (frame : TxFrame actual next)
    (flags : ∀ d, exact d → (next.bd .tx d).flagsPktlen = (actual.bd .tx d).flagsPktlen) :
    TxLike exact model next where
  txch := frame.txch.trans like.txch
  rxch := frame.rxch.trans like.rxch
  pbuf := frame.pbuf.trans like.pbuf
  bd d := by
    have cell := frame.bd d
    have old := like.bd d
    refine ⟨cell.next.trans old.next, cell.bufptr.trans old.bufptr,
      cell.bufoffLen.trans old.bufoffLen, cell.pbuf.trans old.pbuf,
      cell.flags.1.trans old.flags.1, fun inside => ?_⟩
    exact (flags d inside).trans (old.flags.2 inside)
  trace := by rw [frame.trace, like.trace]

/-- A store outside the queue. -/
theorem Served.modifyBd {d : Nat} (change : Bd → Bd)
    (served : Served actual start packets tail) (outside : Unqueued start packets d)
    (eoq : tail = some d → (change (actual.bd .tx d)).eoq = (actual.bd .tx d).eoq) :
    Served (actual.modifyBd .tx d change) start packets tail := by
  have cells : ∀ offset < slots packets,
      (actual.modifyBd .tx d change).bd .tx (place numBd start offset) =
        actual.bd .tx (place numBd start offset) := fun offset inside =>
    State.modifyBd_bd_ne _ _ _ _ _ _ (Ne.symm (outside offset inside))
  refine @Served.congr actual _ start packets tail served rfl cells ?_
  intro other isTail
  by_cases same : other = d
  · rw [same] at isTail ⊢
    rw [State.modifyBd_bd_self]
    exact eoq isTail
  · rw [State.modifyBd_bd_ne _ _ _ _ _ _ same]

/-- The engine serves the queue across such an access. -/
theorem Served.perform (apart : ∀ d, exact d → Unqueued start packets d)
    (served : Served actual start packets tail) (like : TxLike exact model actual)
    (isLocal : TxLocal request) (spares : Spares exact start packets tail request model) :
    Served (actual.perform request).2 start packets tail := by
  have same : ∀ later : State, later.engine = actual.engine → later.bd = actual.bd →
      Served later start packets tail := by
    intro later engine bd
    refine @Served.congr actual _ start packets tail served (by rw [engine]) ?_ ?_
    · intro offset _
      rw [bd]
    · intro d _
      rw [bd]
  cases request with
  | loadFlags chan d use => cases use <;> exact same _ rfl rfl
  | storeNext chan d value =>
      cases chan with
      | tx => exact served.modifyBd (fun cell => { cell with next := value }) spares fun _ => rfl
      | rx => exact isLocal.elim
  | storeBufptr chan d value =>
      cases chan with
      | tx => exact served.modifyBd (fun cell => { cell with bufptr := value }) spares fun _ => rfl
      | rx => exact isLocal.elim
  | storeBufoffLen chan d value =>
      cases chan with
      | tx =>
          exact served.modifyBd (fun cell => { cell with bufoffLen := value }) spares fun _ => rfl
      | rx => exact isLocal.elim
  | storePbuf chan d value =>
      cases chan with
      | tx => exact served.modifyBd (fun cell => { cell with pbuf := value }) spares fun _ => rfl
      | rx => exact isLocal.elim
  | storeFlags chan d value =>
      cases chan with
      | tx =>
          apply served.modifyBd (fun cell => { cell with flagsPktlen := value })
            (apart d spares.1)
          intro isTail
          rw [like.bd_eq spares.1]
          exact spares.2 isTail
      | rx => exact isLocal.elim
  | hdp => exact isLocal.elim
  | alloc => exact isLocal.elim
  | input => exact isLocal.elim
  | _ => exact same _ rfl rfl

/-! ## Stretches of the calls -/

/-- The assertion about such a stretch: a model that is exact outside the queue at most, which the
engine serves, and an assertion on the trace. -/
structure Serves (exact : Nat → Prop) (start : Nat) (packets : List Packet) (tail : Ptr)
    (keeps : List Event → Prop) (model actual : State) : Prop where
  like : TxLike exact model actual
  served : Served actual start packets tail
  trace : keeps actual.trace

variable {admits : {reply : Type} → Access reply → State → Prop}
variable {fits : State → Nat → Prop} {keeps : List Event → Prop}

theorem Serves.step (apart : ∀ d, exact d → Unqueued start packets d)
    (serves : Serves exact start packets tail keeps model actual)
    (step : TxStep actual next) : Serves exact start packets tail keeps model next where
  like := serves.like.frame step.frame fun d inside => by
    rw [serves.served.untouched step (apart d inside)]
  served := serves.served.step step
  trace := by
    rw [step.frame.trace]
    exact serves.trace

/-- The outline describes the calls beside the engine if its accesses spare the queue. -/
theorem serves_describes {permits : {reply : Type} → Access reply → State → Prop}
    (apart : ∀ d, exact d → Unqueued start packets d)
    (isLocal : ∀ {reply : Type} (request : Access reply) model,
      permits request model → TxLocal request)
    (spares : ∀ {reply : Type} (request : Access reply) model,
      permits request model → Spares exact start packets tail request model)
    (kept : ∀ {reply : Type} (request : Access reply) model trace,
      permits request model → keeps trace → keeps (noted request trace)) :
    (outline exact permits).Describes (engineContract admits fits)
      (Serves exact start packets tail keeps) where
  stable model pending actual next serves step := serves.step apart step
  safe _ := trivial
  guarantee _ _ _ := trivial
  replies serves permitted := serves.like.replies (isLocal _ _ permitted)
  moves {reply request model next actual} serves permitted moves :=
    { like := serves.like.moves (isLocal _ _ permitted) moves
      served := serves.served.perform apart serves.like (isLocal _ _ permitted)
        (spares _ _ permitted)
      trace := by
        change keeps (actual.perform request).2.trace
        rw [(isLocal _ _ permitted).trace actual]
        exact kept _ model _ permitted serves.trace }

end Serves

end BbbEth.Cpsw
