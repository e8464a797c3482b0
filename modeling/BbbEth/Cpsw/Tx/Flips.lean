import BbbEth.Cpsw.Boot
import BbbEth.Cpsw.Tx.History

/-!
# The transmit side under any OWNER and EOQ bits

Here the engine may change the OWNER and EOQ bits of the transmit descriptors at
any time and in any way.  The driver calls are `cpswif_transmit`, with chains of
given lengths, and `eth0_tx_isr`.
-/

namespace BbbEth.Cpsw

open BbbEth.Interference BbbEth.Linked Routine

/-! ## The system -/

/-- What the engines may change, as far as the transmit side can see. -/
structure EngineFlips (current next : State) : Prop where
  txch : next.txch = current.txch
  rxch : next.rxch = current.rxch
  pbuf : next.pbuf = current.pbuf
  bd : ∀ d, BdLike (fun _ => False) d (current.bd .tx d) (next.bd .tx d)
  trace : next.trace = current.trace

/-- Every pbuf chain ends. -/
def Grounded (state : State) : Prop := ∀ p, ∃ chain, PbufChain state p chain

/-- Between two calls the rest of the program may change the pbufs. -/
def HeapChange (current next : State) : Prop :=
  (∃ heap, next = { current with pbuf := heap }) ∧ Grounded next

/-- A call of `cpswif_transmit` whose caller notes that the packet was accepted. -/
def transmitCall (portNum : Word) (p clen : Nat) : Routine Unit := do
  let err ← cpswifTransmit portNum p
  if err = .ok then emit (.accepted p clen) else .done ()

/-- The calls of the transmit side, on chains of the given lengths. -/
def TxCallOf (fits : State → Nat → Prop) (state : State) (code : Routine Unit) : Prop :=
  (∃ portNum p chain, SlavePort portNum ∧ PbufChain state (some p) chain ∧
    fits state chain.length ∧ code = transmitCall portNum p chain.length) ∨
  code = eth0TxIsr

/-- A chain that `cpswif_transmit` accepts, by its length modulo 256, leaves a descriptor free. -/
def LeavesRoom (state : State) (clen : Nat) : Prop :=
  clen % 2 ^ 8 ≤ state.txch.freeNum → clen < numBd

/-- The transmit side, for schedules that admit the given accesses, on chains of the given
lengths. -/
def flipSystemOf (admits : {reply : Type} → Access reply → State → Prop)
    (fits : State → Nat → Prop) : System Access State where
  perform := State.perform
  rely _ := EngineFlips
  admits := admits
  initial state := Booted state ∧ Grounded state
  calls := TxCallOf fits
  outside := HeapChange

/-- The transmit side on chains that do not use up the ring. -/
def flipSystem (admits : {reply : Type} → Access reply → State → Prop) : System Access State :=
  flipSystemOf admits fun _ clen => clen < numBd

/-! ## Polls before reclaims -/

/-- The last poll of `eth0_tx_isr` was of `head` and found OWNER clear. -/
def Polled (trace : List Event) (head : Nat) : Prop :=
  ∃ flags, lastPoll trace = some (head, flags) ∧ flags.getLsbD 29 = false

/-- The packet whose pbuf is to be freed next, with those behind it: its descriptors are those from
`head` on, and all of them have its pbuf. -/
structure Foremost (state : State) (head : Nat) (packet : Packet) (behind : List Packet) :
    Prop where
  next : waiting state.trace = packet :: behind
  pbuf : ∀ d ∈ arc numBd head packet.clen, (state.bd .tx d).pbuf = some packet.pbuf

/-- A step of `eth0_tx_isr` counts a descriptor as free, clears SOP or EOP or passes a pbuf to
`pbuf_free` only if the last poll was of the foremost packet and found OWNER clear, and the
descriptor or the pbuf is one of this packet.  Its descriptors are counted one by one: `counted`
of them are before the step. -/
structure PolledFirst (before after : State) : Prop where
  count : before.txch.freeNum < after.txch.freeNum → ∃ head packet behind,
    Foremost before head packet behind ∧ Polled before.trace head ∧
      before.txch.sendHead = some head ∧ ∃ counted < packet.clen,
      before.txch.freeNum + slots (packet :: behind) = numBd + counted ∧
        after.txch.freeNum = before.txch.freeNum + 1
  marks : ∀ d, ((before.bd .tx d).sop = true ∧ (after.bd .tx d).sop = false ∨
      (before.bd .tx d).eop = true ∧ (after.bd .tx d).eop = false) →
    ∃ head packet behind, Foremost before head packet behind ∧ Polled before.trace head ∧
      before.txch.sendHead = some head ∧ d ∈ arc numBd head packet.clen
  release : ∀ p, after.trace = .freed p :: before.trace → ∃ head packet behind,
    Foremost before head packet behind ∧ Polled before.trace head ∧ packet.pbuf = p

/-- The poll loop keeps within its budget: fewer than `0xFFFF` polls of one call of
`eth0_tx_isr` find OWNER set. -/
def WithinBudget : {reply : Type} → Access reply → State → Prop
  | _, .loadFlags .tx d .owner, state =>
      (state.bd .tx d).owner = true → ownedPolls state.trace + 1 < 0xFFFF
  | _, _, _ => True

/-- The contract of the calls.  Polls come first where `timely` holds, and faults are
tolerated where `faulty` does. -/
def flipContract (admits : {reply : Type} → Access reply → State → Prop)
    (timely faulty : Prop) : Contract Access State where
  toSetting := (flipSystem admits).toSetting
  safe _ := True
  guarantee before after := timely → inTxIsr before.trace = true → PolledFirst before after
  mayFault := faulty

theorem TxLike.flips {model current next : State}
    (like : TxLike (fun _ => False) model current) (flips : EngineFlips current next) :
    TxLike (fun _ => False) model next where
  txch := flips.txch.trans like.txch
  rxch := flips.rxch.trans like.rxch
  pbuf := flips.pbuf.trans like.pbuf
  bd d :=
    { next := (flips.bd d).next.trans (like.bd d).next
      bufptr := (flips.bd d).bufptr.trans (like.bd d).bufptr
      bufoffLen := (flips.bd d).bufoffLen.trans (like.bd d).bufoffLen
      pbuf := (flips.bd d).pbuf.trans (like.bd d).pbuf
      flags := ⟨(flips.bd d).flags.1.trans (like.bd d).flags.1, False.elim⟩ }
  trace := by rw [flips.trace, like.trace]

section Describes

variable {admits : {reply : Type} → Access reply → State → Prop} {timely faulty : Prop}

/-- Assertions on the model and on the trace are stable. -/
theorem flips_stable (keeps : List Event → Prop) (model : State)
    (pending : Option (Pending Access)) :
    (flipContract admits timely faulty).Stable pending fun actual =>
      TxLike (fun _ => False) model actual ∧ keeps actual.trace := by
  intro current next holds flips
  refine ⟨holds.1.flips flips, ?_⟩
  rw [show next.trace = current.trace from flips.trace]
  exact holds.2

/-- What an access adds to the trace. -/
def noted : {reply : Type} → Access reply → List Event → List Event
  | _, .emit event, trace => event :: trace
  | _, _, trace => trace

theorem TxLocal.trace {reply : Type} {request : Access reply} (isLocal : TxLocal request)
    (state : State) : (state.perform request).2.trace = noted request state.trace := by
  cases request with
  | loadFlags chan d use =>
      cases use with
      | plain => rfl
      | owner =>
          cases chan with
          | tx => exact isLocal.elim
          | rx => exact isLocal.elim
      | eoq => rfl
  | storePbuf chan d value =>
      cases chan with
      | tx => rfl
      | rx => exact isLocal.elim
  | hdp => exact isLocal.elim
  | input => exact isLocal.elim
  | _ => rfl

/-- An outline describes the calls if its accesses keep the assertion on the
trace and come after the poll. -/
theorem flips_describes (keeps : List Event → Prop)
    {permits : {reply : Type} → Access reply → State → Prop}
    (isLocal : ∀ {reply : Type} (request : Access reply) model,
      permits request model → TxLocal request)
    (kept : ∀ {reply : Type} (request : Access reply) model trace,
      permits request model → keeps trace → keeps (noted request trace))
    (polled : ∀ {reply : Type} (request : Access reply) model actual,
      TxLike (fun _ => False) model actual → keeps actual.trace → permits request model →
      timely → inTxIsr actual.trace = true →
      PolledFirst actual (actual.perform request).2) :
    (outline (fun _ => False) permits).Describes (flipContract admits timely faulty)
      fun model actual => TxLike (fun _ => False) model actual ∧ keeps actual.trace := by
  apply outline_describes (fun _ _ => rfl) isLocal
  · intro model pending
    exact flips_stable keeps model pending
  · intro model actual _ _
    trivial
  · intro reply request model actual like holds permitted _ isTimely inside
    exact polled request model actual like holds permitted isTimely inside
  · intro reply request model actual like holds permitted
    rw [(isLocal request model permitted).trace actual]
    exact kept request model actual.trace permitted holds

end Describes

namespace PolledFirst

variable {before after : State} {head : Nat}

/-- A step that counts, clears and releases nothing. -/
theorem of_kept (count : after.txch.freeNum ≤ before.txch.freeNum)
    (bd : ∀ d, (after.bd .tx d).flagsPktlen = (before.bd .tx d).flagsPktlen)
    (trace : ∀ p, after.trace ≠ .freed p :: before.trace) : PolledFirst before after where
  count more := by omega
  marks d cleared := by
    simp only [Bd.sop, Bd.eop, bd d] at cleared
    rcases cleared with ⟨set, clear⟩ | ⟨set, clear⟩
    · rw [set] at clear
      cases clear
    · rw [set] at clear
      cases clear
  release p note := (trace p note).elim

end PolledFirst

theorem ne_cons_self (event : Event) (trace : List Event) : trace ≠ event :: trace := by
  intro same
  have length := congrArg List.length same
  simp at length

end BbbEth.Cpsw
