import BbbEth.Cpsw.Tx.Isr

/-!
# The transmit side over whole runs
-/

namespace BbbEth.Cpsw

open BbbEth.Interference BbbEth.Linked Routine

/-! ## The invariant along every run -/

/-- `cpswif_cpdma_init` leaves an empty ring. -/
theorem BootShape.txRing {start state : State} (shape : BootShape start state) :
    TxRing state 0 [] := by
  refine ⟨by decide, ?_, ?_, ?_, ?_, ?_, ?_, trivial, ?_⟩
  · rw [shape.txch, slots_nil, Nat.add_zero]
  · rw [shape.txch]
  · rw [shape.txch]
    rfl
  · intro tail isTail
    rw [shape.txch] at isTail
    cases isTail
  · intro _
    rfl
  · intro d small
    rw [shape.txch, if_neg (by simp)]
    exact (shape.tx d small).1
  · intro offset _ small
    have flags := (shape.tx (place numBd 0 offset) (place_lt (by decide))).2
    simp only [Bd.sop, Bd.eop, flags]
    decide

theorem BootShape.txHistory {start state : State} (shape : BootShape start state) :
    inTxIsr state.trace = false ∧ TxHistory state.trace 0 [] [] := by
  have each := shape.trace
  generalize state.trace = trace at each ⊢
  induction trace with
  | nil => exact ⟨rfl, rfl, rfl, rfl, rfl⟩
  | cons event others inductionHypothesis =>
      have rest := inductionHypothesis fun other member => each other (by simp [member])
      rcases each event (by simp) with ⟨address, length, rfl⟩ | rfl
      · exact ⟨rest.1, rest.2.accepted, rest.2.freed, rest.2.acknowledged, rest.2.start⟩
      · exact ⟨rest.1, rest.2.accepted, rest.2.freed, rest.2.acknowledged, rest.2.start⟩

/-- `cpswif_cpdma_init` establishes the invariant. -/
theorem Booted.txIdle {state : State} (booted : Booted state) (grounded : Grounded state) :
    TxIdle state := by
  rcases booted.shape with ⟨start, power, shape⟩
  refine ⟨shape.txHistory.1, 0, [], [], ⟨shape.txRing, shape.txHistory.2, grounded, ?_⟩⟩
  rw [shape.rxch]

theorem EngineFlips.like {current next : State} (flips : EngineFlips current next) :
    TxLike (fun _ => False) current next :=
  (TxLike.refl _ current).flips flips

/-- Every step of the system keeps the invariant. -/
theorem flip_invariant {admits : {reply : Type} → Access reply → State → Prop}
    {fits : State → Nat → Prop} {timely : Prop}
    (bounded : timely → ∀ {reply : Type} (request : Access reply) current,
      admits request current → WithinBudget request current)
    (room : ∀ current clen, fits current clen → LeavesRoom current clen) :
    (flipSystemOf admits fits).Invariant (flipContract admits timely False).safe
      (flipContract admits timely False).guarantee TxIdle where
  initial start initial := initial.1.txIdle initial.2
  outside current next idle change := by
    rcases idle with ⟨outside, start, reclaimed, packets, invariant⟩
    rcases change with ⟨⟨heap, rfl⟩, grounded⟩
    exact ⟨outside, start, reclaimed, packets,
      invariant.ring.congr rfl fun _ => ⟨rfl, rfl, rfl, rfl⟩, invariant.history, grounded,
      invariant.armed⟩
  rely current next idle flips := by
    rcases idle with ⟨outside, start, reclaimed, packets, invariant⟩
    refine ⟨?_, start, reclaimed, packets, invariant.like (EngineFlips.like flips)⟩
    rw [EngineFlips.trace flips]
    exact outside
  safely _ _ := trivial
  calls current code idle call := by
    rcases idle with ⟨outside, start, reclaimed, packets, invariant⟩
    rcases call with ⟨portNum, p, chain, port, path, allowed, rfl⟩ | rfl
    · exact (transmit_ensures invariant outside port path (room _ _ allowed)).mono
        fun _ _ queued => ⟨queued.1, _, _, _, queued.2⟩
    · exact (eth0TxIsr_ensures bounded invariant outside).mono fun _ _ drained => drained.idle

/-! ## What the ring represents -/

/-- `struct txch` and its descriptors hold the packets `queued`, from the descriptor
`start` on. -/
structure TxRepresents (state : State) (start : Nat) (queued : List Packet) : Prop where
  count : state.txch.freeNum + slots queued = numBd
  head : state.txch.sendHead = some start
  send : queued ≠ [] → Path (fun d => (state.bd .tx d).next) state.txch.sendHead
    (arc numBd start (slots queued)) none
  tail : queued ≠ [] → state.txch.sendTail = (arc numBd start (slots queued)).getLast?
  empty : queued = [] → state.txch.sendHead = state.txch.freeHead
  packets : Queued state start queued
  free : ∃ finish, Path (fun d => (state.bd .tx d).next) state.txch.freeHead
    (arc numBd (place numBd start (slots queued)) state.txch.freeNum) finish
  clear : ∀ d ∈ arc numBd (place numBd start (slots queued)) state.txch.freeNum,
    (state.bd .tx d).sop = false ∧ (state.bd .tx d).eop = false

namespace TxRing

variable {state : State} {start : Nat} {packets : List Packet}

/-- The send chain runs through the queued descriptors and ends at `send_tail`. -/
theorem sendPath (ring : TxRing state start packets) (queued : packets ≠ []) :
    Path (fun d => (state.bd .tx d).next) state.txch.sendHead
      (arc numBd start (slots packets)) none := by
  have isTail := ring.last queued
  have nonempty := ring.queued.slots_pos queued
  have closed : (state.bd .tx (place numBd start (slots packets - 1))).next = none := by
    rw [ring.links _ (place_lt (by decide)), if_pos isTail]
  have linked : ∀ offset < slots packets - 1, (state.bd .tx (place numBd start offset)).next =
      some (place numBd start (offset + 1)) := fun offset inside => ring.linked (by omega)
  have path : Path (fun d => (state.bd .tx d).next) _ _ none :=
    path_arc_closed ring.bound linked closed
  rwa [Nat.sub_add_cancel nonempty, ← ring.sendHead] at path

/-- The free descriptors are linked one behind the other from `free_head` on. -/
theorem freePath (ring : TxRing state start packets) :
    ∃ finish, Path (fun d => (state.bd .tx d).next) state.txch.freeHead
      (arc numBd (place numBd start (slots packets)) state.txch.freeNum) finish := by
  have count := ring.count
  have bound : place numBd start (slots packets) < numBd := place_lt (by decide)
  rw [ring.freeHead]
  cases free : state.txch.freeNum with
  | zero => exact ⟨_, rfl⟩
  | succ others =>
      have linked : ∀ offset < others,
          (state.bd .tx (place numBd (place numBd start (slots packets)) offset)).next =
            some (place numBd (place numBd start (slots packets)) (offset + 1)) :=
        fun offset inside => ring.freeLinked (by omega)
      have path : Path (fun d => (state.bd .tx d).next) _ _ _ := path_arc bound linked
      refine ⟨(state.bd .tx (place numBd (place numBd start (slots packets)) others)).next, ?_⟩
      rw [arc_append, Path.append_iff]
      exact ⟨_, path, by simp [arc, place_zero (place_lt (by decide : 0 < numBd))]⟩

theorem represents (ring : TxRing state start packets) :
    TxRepresents state start packets where
  count := ring.count
  head := ring.sendHead
  send := ring.sendPath
  tail queued := by
    rw [ring.last queued, getLast?_arc (ring.queued.slots_pos queued)]
  empty none := by
    subst none
    rw [ring.sendHead, ring.freeHead, slots_nil, place_zero ring.bound]
  packets := ring.queued
  free := ring.freePath
  clear d member := by
    have count := ring.count
    rcases mem_arc.mp member with ⟨offset, inside, rfl⟩
    rw [place_place]
    exact ring.free _ (by omega) (by omega)

end TxRing

/-- The packets are reclaimed first in, first out.  Each that has been reclaimed was
acknowledged at its EOP descriptor and its head pbuf was passed to `pbuf_free`, once
and in order; the others lie in the ring. -/
structure TxAccounts (state : State) (reclaimed queued : List Packet) : Prop where
  represents : TxRepresents state (place numBd 0 (slots reclaimed)) queued
  accepted : accepted state.trace = reclaimed ++ queued
  freed : freed state.trace = reclaimed.map Packet.pbuf
  acknowledged : acknowledged state.trace = lastBds 0 reclaimed

theorem TxInvariant.accounts {state : State} {start : Nat} {reclaimed queued : List Packet}
    (invariant : TxInvariant state start reclaimed queued) :
    TxAccounts state reclaimed queued where
  represents := by
    rw [← invariant.history.start]
    exact invariant.ring.represents
  accepted := invariant.history.accepted
  freed := invariant.history.freed
  acknowledged := invariant.history.acknowledged

/-- Chains that do not use up the ring leave room in it. -/
theorem flipSystem_invariant :
    (flipSystem fun _ _ => True).Invariant (flipContract (fun _ _ => True) False False).safe
      (flipContract (fun _ _ => True) False False).guarantee TxIdle :=
  flip_invariant False.elim fun _ _ short _ => short

/-- A call of `eth0_tx_isr` reclaims all packets. -/
theorem drains {state : State} {start : Nat} {reclaimed queued : List Packet}
    (invariant : TxInvariant state start reclaimed queued) (outside : inTxIsr state.trace = false) :
    (flipContract (fun _ _ => True) False False).Ensures
      (fun _ after => inTxIsr after.trace = false ∧
        ∃ finish, TxInvariant after finish (reclaimed ++ queued) []) eth0TxIsr state :=
  eth0TxIsr_ensures False.elim invariant outside

/-- Between two calls the ring represents the queued packets, and every call of
`eth0_tx_isr` comes to an end, with nothing left in the ring. -/
theorem txRing_accounts {state : State}
    (idle : (flipSystem fun _ _ => True).Idle state) :
    (∃ reclaimed queued, TxAccounts state reclaimed queued) ∧
      (flipSystem fun _ _ => True).Completes eth0TxIsr state fun _ after =>
        TxAccounts after (accepted state.trace) [] := by
  rcases flipSystem_invariant.of_idle idle with ⟨outside, start, reclaimed, queued, invariant⟩
  refine ⟨⟨reclaimed, queued, invariant.accounts⟩, ?_⟩
  apply ((drains invariant outside).mono _).completes not_false
  rintro _ after ⟨_, finish, drained⟩
  rw [invariant.history.accepted]
  exact drained.accounts

/-! ### Packets of one pbuf and of two -/

/-- Pbufs of 60 bytes, each a packet of its own. -/
def singleHeap (_ : Nat) : Pbuf := ⟨none, 0x1000#32, 60#16, 60#16, 1⟩

theorem singleHeap_grounded : Grounded (powerOn singleHeap).boot := by
  unfold Grounded PbufChain
  rw [boot_pbuf]
  intro p
  cases p with
  | none => exact ⟨[], rfl⟩
  | some q => exact ⟨[q], rfl, rfl⟩

/-- The same, but for a packet of the pbufs 1 and 2. -/
def pairHeap (p : Nat) : Pbuf :=
  if p = 1 then ⟨some 2, 0x2000#32, 120#16, 60#16, 1⟩ else singleHeap p

theorem pairHeap_chains {state : State} : Grounded { state with pbuf := pairHeap } ∧
    PbufChain { state with pbuf := pairHeap } (some 0) [0] ∧
    PbufChain { state with pbuf := pairHeap } (some 1) [1, 2] := by
  refine ⟨fun p => ?_, ⟨rfl, rfl⟩, ⟨rfl, rfl, rfl⟩⟩
  cases p with
  | none => exact ⟨[], rfl⟩
  | some q =>
      by_cases pair : q = 1
      · subst pair
        exact ⟨[1, 2], rfl, rfl, rfl⟩
      · refine ⟨[q], rfl, ?_⟩
        change (pairHeap q).next = none
        unfold pairHeap
        rw [if_neg pair]
        rfl

/-- The states between two calls, with what has been reclaimed and what is queued. -/
def IdleWith (state : State) (reclaimed queued : List Packet) : Prop :=
  (flipSystem fun _ _ => True).Idle state ∧ inTxIsr state.trace = false ∧
    ∃ start, TxInvariant state start reclaimed queued

/-- Another packet can be queued where there are enough descriptors. -/
theorem IdleWith.transmits {state : State} {reclaimed queued : List Packet} {p : Nat}
    {chain : List Nat} (idle : IdleWith state reclaimed queued)
    (path : PbufChain { state with pbuf := pairHeap } (some p) chain)
    (enough : chain.length + slots queued < numBd) :
    ∃ after, IdleWith after reclaimed (queued ++ [⟨p, chain.length⟩]) := by
  rcases idle with ⟨idle, outside, start, invariant⟩
  have changed : (flipSystem fun _ _ => True).Idle { state with pbuf := pairHeap } :=
    idle.outside ⟨⟨pairHeap, rfl⟩, pairHeap_chains.1⟩
  have kept : TxInvariant { state with pbuf := pairHeap } start reclaimed queued :=
    ⟨invariant.ring.congr rfl fun _ => ⟨rfl, rfl, rfl, rfl⟩, invariant.history,
      pairHeap_chains.1, invariant.armed⟩
  have short : chain.length < numBd := by omega
  have ensures := @transmit_ensures (fun _ _ => True) False False _ _ _ _ kept outside 1
    (.inl rfl) _ _ path fun _ => short
  rcases ensures.exists_returns not_false (fun _ _ => trivial) with
    ⟨_, after, returns, outside, later⟩
  refine ⟨after, changed.returns (.inl ⟨1, p, chain, .inl rfl, path, short, rfl⟩) returns, outside,
    start, ?_⟩
  have fits : chain.length % 2 ^ 8 ≤ state.txch.freeNum := by
    have count := invariant.ring.count
    exact (Nat.mod_le ..).trans (by omega)
  have same : State.queue { state with pbuf := pairHeap } queued ⟨p, chain.length⟩ =
      queued ++ [⟨p, chain.length⟩] := if_pos fits
  rw [← same]
  exact later

theorem IdleWith.reclaims {state : State} {reclaimed queued : List Packet}
    (idle : IdleWith state reclaimed queued) :
    ∃ after, IdleWith after (reclaimed ++ queued) [] := by
  rcases idle with ⟨idle, outside, start, invariant⟩
  rcases (drains invariant outside).exists_returns not_false (fun _ _ => trivial) with
    ⟨_, after, returns, later⟩
  exact ⟨after, idle.returns (.inr rfl) returns, later⟩

/-- Two packets are transmitted and reclaimed, and another one is queued behind them. -/
theorem txRing_accounts_again : ∃ state,
    accepted state.trace = [⟨0, 1⟩, ⟨1, 2⟩, ⟨0, 1⟩] ∧ freed state.trace = [0, 1] ∧
    (∃ reclaimed queued, TxAccounts state reclaimed queued) ∧
      (flipSystem fun _ _ => True).Completes eth0TxIsr state fun _ after =>
        TxAccounts after (accepted state.trace) [] := by
  have boots : (flipSystem fun _ _ => True).Idle (powerOn singleHeap).boot :=
    .initial ⟨powerOn_booted singleHeap, singleHeap_grounded⟩
  have first : IdleWith (powerOn singleHeap).boot [] [] := by
    have shape := boot_shape (powerOn_powerOn singleHeap)
    exact ⟨boots, shape.txHistory.1, 0, shape.txRing, shape.txHistory.2, singleHeap_grounded,
      by rw [shape.rxch]⟩
  rcases first.transmits pairHeap_chains.2.1 (by decide) with ⟨one, second⟩
  rcases second.transmits pairHeap_chains.2.2 (by decide) with ⟨two, third⟩
  rcases third.reclaims with ⟨swept, fourth⟩
  rcases fourth.transmits pairHeap_chains.2.1 (by decide) with ⟨state, idle, _, _, invariant⟩
  exact ⟨state, invariant.history.accepted, invariant.history.freed, txRing_accounts idle⟩

end BbbEth.Cpsw
