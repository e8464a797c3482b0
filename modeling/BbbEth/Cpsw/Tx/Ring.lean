import BbbEth.Cpsw.Tx.Like

/-!
# The transmit ring

The queued packets occupy an arc of the descriptors that starts at `send_head`;
the free descriptors are the rest of the circle.  The next pointers follow the
circle everywhere but at `send_tail`, where they are cut.
-/

namespace BbbEth.Cpsw

open BbbEth.Interference BbbEth.Linked

/-- A packet that `cpswif_transmit` has accepted: its head pbuf and the number of
pbufs in its chain, which is the number of descriptors it occupies. -/
structure Packet where
  pbuf : Nat
  clen : Nat
  deriving DecidableEq, Repr

/-- The number of descriptors that a list of packets occupies. -/
def slots (packets : List Packet) : Nat := (packets.map Packet.clen).sum

@[simp] theorem slots_nil : slots [] = 0 := rfl

@[simp] theorem slots_cons (packet : Packet) (packets : List Packet) :
    slots (packet :: packets) = packet.clen + slots packets := by
  simp [slots]

@[simp] theorem slots_append (left right : List Packet) :
    slots (left ++ right) = slots left + slots right := by
  simp [slots]

/-- The descriptors of one packet from `start` on: SOP on the first, EOP on the
last, and the head pbuf on every one. -/
structure Marked (state : State) (start : Nat) (packet : Packet) : Prop where
  nonempty : 0 < packet.clen
  sop : ∀ offset < packet.clen,
    (state.bd .tx (place numBd start offset)).sop = decide (offset = 0)
  eop : ∀ offset < packet.clen,
    (state.bd .tx (place numBd start offset)).eop = decide (offset + 1 = packet.clen)
  pbuf : ∀ offset < packet.clen,
    (state.bd .tx (place numBd start offset)).pbuf = some packet.pbuf

/-- The packets lie one behind the other from `start` on. -/
def Queued (state : State) : Nat → List Packet → Prop
  | _, [] => True
  | start, packet :: packets =>
      Marked state start packet ∧ Queued state (place numBd start packet.clen) packets

/-- The representation invariant of `struct txch` and its descriptors. -/
structure TxRing (state : State) (start : Nat) (packets : List Packet) : Prop where
  bound : start < numBd
  count : state.txch.freeNum + slots packets = numBd
  sendHead : state.txch.sendHead = some start
  freeHead : state.txch.freeHead = some (place numBd start (slots packets))
  sendTail : ∀ tail, state.txch.sendTail = some tail →
    tail < numBd ∧ place numBd tail 1 = place numBd start (slots packets)
  unsent : state.txch.sendTail = none → packets = []
  links : ∀ d < numBd, (state.bd .tx d).next =
    if state.txch.sendTail = some d then none else some (place numBd d 1)
  queued : Queued state start packets
  free : ∀ offset, slots packets ≤ offset → offset < numBd →
    (state.bd .tx (place numBd start offset)).sop = false ∧
      (state.bd .tx (place numBd start offset)).eop = false

section Queued

variable {state other : State} {start : Nat} {packets left right : List Packet}
variable {packet : Packet}

/-- Packets only depend on the marks of their descriptors. -/
theorem Marked.congr (marked : Marked state start packet)
    (sops : ∀ offset < packet.clen, (other.bd .tx (place numBd start offset)).sop =
      (state.bd .tx (place numBd start offset)).sop)
    (eops : ∀ offset < packet.clen, (other.bd .tx (place numBd start offset)).eop =
      (state.bd .tx (place numBd start offset)).eop)
    (pbufs : ∀ offset < packet.clen, (other.bd .tx (place numBd start offset)).pbuf =
      (state.bd .tx (place numBd start offset)).pbuf) :
    Marked other start packet where
  nonempty := marked.nonempty
  sop offset small := (sops offset small).trans (marked.sop offset small)
  eop offset small := (eops offset small).trans (marked.eop offset small)
  pbuf offset small := (pbufs offset small).trans (marked.pbuf offset small)

theorem Queued.congr (queued : Queued state start packets)
    (sops : ∀ offset < slots packets, (other.bd .tx (place numBd start offset)).sop =
      (state.bd .tx (place numBd start offset)).sop)
    (eops : ∀ offset < slots packets, (other.bd .tx (place numBd start offset)).eop =
      (state.bd .tx (place numBd start offset)).eop)
    (pbufs : ∀ offset < slots packets, (other.bd .tx (place numBd start offset)).pbuf =
      (state.bd .tx (place numBd start offset)).pbuf) :
    Queued other start packets := by
  induction packets generalizing start with
  | nil => trivial
  | cons packet packets inductionHypothesis =>
      simp only [slots_cons] at sops eops pbufs
      refine ⟨queued.1.congr ?_ ?_ ?_, inductionHypothesis queued.2 ?_ ?_ ?_⟩
      · intro offset small
        exact sops offset (by omega)
      · intro offset small
        exact eops offset (by omega)
      · intro offset small
        exact pbufs offset (by omega)
      · intro offset small
        simpa using sops (packet.clen + offset) (by omega)
      · intro offset small
        simpa using eops (packet.clen + offset) (by omega)
      · intro offset small
        simpa using pbufs (packet.clen + offset) (by omega)

theorem Queued.slots_pos (queued : Queued state start packets) (some : packets ≠ []) :
    0 < slots packets := by
  cases packets with
  | nil => exact (some rfl).elim
  | cons packet packets =>
      have first := queued.1.nonempty
      rw [slots_cons]
      omega

theorem queued_append (bound : start < numBd) :
    Queued state start (left ++ right) ↔
      Queued state start left ∧ Queued state (place numBd start (slots left)) right := by
  induction left generalizing start with
  | nil => simp [Queued, place_zero bound]
  | cons packet left inductionHypothesis =>
      have rest := @inductionHypothesis (place numBd start packet.clen) (place_lt (by decide))
      rw [place_place] at rest
      simp only [List.cons_append, Queued, slots_cons, rest, and_assoc]

end Queued

/-- The parts of a descriptor that the ring invariant speaks about. -/
structure SameShape (left right : Bd) : Prop where
  next : right.next = left.next
  pbuf : right.pbuf = left.pbuf
  sop : right.sop = left.sop
  eop : right.eop = left.eop

theorem BdLike.sameShape {exact : Nat → Prop} {d : Nat} {model actual : Bd}
    (like : BdLike exact d model actual) : SameShape model actual where
  next := like.next
  pbuf := like.pbuf
  sop := like.flags.1 31 (by decide) (by decide)
  eop := like.flags.1 30 (by decide) (by decide)

namespace TxRing

variable {state other : State} {start : Nat} {packets : List Packet} {packet : Packet}

/-- The invariant does not see the OWNER and EOQ bits, the buffers or the pbufs. -/
theorem congr (ring : TxRing state start packets) (txch : other.txch = state.txch)
    (shapes : ∀ d, SameShape (state.bd .tx d) (other.bd .tx d)) :
    TxRing other start packets where
  bound := ring.bound
  count := by rw [txch]; exact ring.count
  sendHead := by rw [txch]; exact ring.sendHead
  freeHead := by rw [txch]; exact ring.freeHead
  sendTail := by rw [txch]; exact ring.sendTail
  unsent := by rw [txch]; exact ring.unsent
  links d small := by rw [txch, (shapes d).next]; exact ring.links d small
  queued := ring.queued.congr (fun _ _ => (shapes _).sop) (fun _ _ => (shapes _).eop)
    (fun _ _ => (shapes _).pbuf)
  free offset low high := by
    rw [(shapes _).sop, (shapes _).eop]
    exact ring.free offset low high

theorem like {exact : Nat → Prop} (ring : TxRing state start packets)
    (same : TxLike exact state other) : TxRing other start packets :=
  ring.congr same.txch fun d => (same.bd d).sameShape

theorem slots_le (ring : TxRing state start packets) : slots packets ≤ numBd := by
  have count := ring.count
  omega

/-- The tail is the descriptor before `free_head`. -/
theorem tail_eq (ring : TxRing state start packets) {tail : Nat}
    (isTail : state.txch.sendTail = some tail) :
    tail = place numBd start (slots packets + (numBd - 1)) := by
  rcases ring.sendTail tail isTail with ⟨bound, behind⟩
  calc tail = place numBd tail 0 := (place_zero bound).symm
    _ = place numBd (place numBd tail 1) (numBd - 1) := by
        rw [place_place, show 1 + (numBd - 1) = 0 + numBd by decide, place_size]
    _ = place numBd start (slots packets + (numBd - 1)) := by
        rw [behind, place_place]

/-- Only the descriptor before `free_head` can be the tail. -/
theorem ne_tail (ring : TxRing state start packets) {offset : Nat}
    (bound : offset < numBd) (notLast : offset + 1 ≠ slots packets)
    (notBefore : offset + 1 ≠ slots packets + numBd) :
    state.txch.sendTail ≠ some (place numBd start offset) := by
  intro isTail
  have behind := (ring.sendTail _ isTail).2
  rw [place_place] at behind
  have small := ring.slots_le
  have congruent : Nat.ModEq numBd (offset + 1) (slots packets) :=
    Nat.ModEq.add_left_cancel' start behind
  rw [Nat.ModEq, numBd_eq] at congruent
  rw [numBd_eq] at bound small notBefore
  omega

/-- Inside the queue the descriptors are linked to their successors. -/
theorem linked (ring : TxRing state start packets) {offset : Nat}
    (inside : offset + 1 < slots packets) :
    (state.bd .tx (place numBd start offset)).next =
      some (place numBd start (offset + 1)) := by
  have small := ring.slots_le
  have notTail := ring.ne_tail (by omega : offset < numBd) (by omega) (by omega)
  rw [ring.links _ (place_lt (by decide)), if_neg notTail, place_place]

/-- Counted from `free_head`, the tail comes last. -/
theorem free_ne_tail (ring : TxRing state start packets) {offset : Nat}
    (inside : offset + 1 < numBd) : state.txch.sendTail ≠
      some (place numBd (place numBd start (slots packets)) offset) := by
  intro isTail
  have position := ring.tail_eq isTail
  rw [← place_place] at position
  have same := place_injective (by omega) (by decide) position
  omega

/-- The free descriptors are linked too, up to the one before `free_head`. -/
theorem freeLinked (ring : TxRing state start packets) {offset : Nat}
    (inside : offset + 1 < numBd) :
    (state.bd .tx (place numBd (place numBd start (slots packets)) offset)).next =
      some (place numBd (place numBd start (slots packets)) (offset + 1)) := by
  rw [ring.links _ (place_lt (by decide)), if_neg (ring.free_ne_tail inside), place_place,
    place_place]

/-- The end of the send chain. -/
theorem last (ring : TxRing state start packets) (queued : packets ≠ []) :
    state.txch.sendTail = some (place numBd start (slots packets - 1)) := by
  cases isTail : state.txch.sendTail with
  | none => exact (queued (ring.unsent isTail)).elim
  | some tail =>
      have nonempty := ring.queued.slots_pos queued
      rw [ring.tail_eq isTail, show slots packets + (numBd - 1) = slots packets - 1 + numBd by
        have := numBd_eq; omega, place_size]

/-- What lies behind the first packet. -/
theorem following (ring : TxRing state start (packet :: packets)) :
    (state.bd .tx (place numBd start (packet.clen - 1))).next =
        some (place numBd start packet.clen) ∨
      (state.bd .tx (place numBd start (packet.clen - 1))).next = none ∧
        state.txch.freeHead = some (place numBd start packet.clen) := by
  have nonempty := ring.queued.1.nonempty
  cases packets with
  | nil =>
      right
      have isTail := ring.last (by simp)
      simp only [slots_cons, slots_nil, Nat.add_zero] at isTail
      rw [ring.links _ (place_lt (by decide)), if_pos isTail, ring.freeHead]
      simp
  | cons next packets =>
      left
      have more := ring.queued.2.1.nonempty
      have inside : packet.clen - 1 + 1 < slots (packet :: next :: packets) := by
        simp only [slots_cons]
        omega
      have link := ring.linked inside
      rwa [Nat.sub_add_cancel nonempty] at link

end TxRing

end BbbEth.Cpsw
