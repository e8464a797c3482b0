import BbbEth.Cpsw.Tx.Output

/-!
# References across `cpswif_output`

The reference that `cpswif_output` takes, and the `pbuf_free` that gives it back.
-/

namespace BbbEth.Cpsw

open BbbEth.Interference BbbEth.Linked Routine

/-! ## Chains that are too long -/

/-- The packet that a call has queued will give back the pbuf `p`. -/
def Returnable (p : Nat) (state : State) : Prop :=
  ∃ last, state.txch.sendTail = some last ∧ (state.bd .tx last).eop = true ∧
    (state.bd .tx last).pbuf = some p

theorem Returnable.like {exact : Nat → Prop} {p : Nat} {model actual : State}
    (returnable : Returnable p model) (like : TxLike exact model actual) :
    Returnable p actual := by
  rcases returnable with ⟨last, isTail, eop, pbuf⟩
  refine ⟨last, ?_, ?_, ?_⟩
  · rw [like.txch]
    exact isTail
  · rw [(like.bd last).sameShape.eop]
    exact eop
  · rw [(like.bd last).pbuf]
    exact pbuf

section Overrun

variable {p d : Nat} {chain : List Nat} {state : State}

/-- However long the chain is, the last descriptor names its head. -/
theorem fillCells_last (bound : d < numBd) (nonempty : 0 < chain.length) :
    ((State.fillCells p chain d state).bd .tx (place numBd d (chain.length - 1))).pbuf =
      some p := by
  induction chain generalizing d state with
  | nil => exact absurd nonempty (Nat.lt_irrefl 0)
  | cons q chain inductionHypothesis =>
      cases chain with
      | nil =>
          rw [List.length_singleton, Nat.sub_self, place_zero bound]
          change ((state.fillCell p q d).bd .tx d).pbuf = some p
          rw [fillCell_bd_self]
      | cons next chain =>
          have rest := @inductionHypothesis (place numBd d 1) (state.fillCell p q d)
            (place_lt (by decide)) (by simp)
          rw [place_place] at rest
          simp only [List.length_cons, Nat.add_sub_cancel] at rest ⊢
          rwa [Nat.add_comm 1] at rest

/-- What is filled is returnable, once it is linked. -/
theorem fillPacket_returnable {portNum : Word} (bound : d < numBd)
    (nonempty : 0 < chain.length) :
    Returnable p ((state.fillPacket portNum p chain d).link d
      (place numBd d (chain.length - 1))) := by
  refine ⟨place numBd d (chain.length - 1), ?_, ?_, ?_⟩
  · rw [link_txch]
  · rw [(link_shape _ _ _ _).2.1]
    change (((State.fillCells p chain d (state.writeHeader portNum p d)).writeEnd _).bd .tx
      _).flagsPktlen.getLsbD 30 = true
    rw [State.writeEnd_bd, if_pos rfl, getLsbD_and_not_eoq, getLsbD_or_eop]
    simp
  · rw [(link_shape _ _ _ _).2.2]
    change (((State.fillCells p chain d (state.writeHeader portNum p d)).writeEnd _).bd .tx
      _).pbuf = some p
    rw [State.writeEnd_bd, if_pos rfl]
    exact fillCells_last bound nonempty

variable {admits : {reply : Type} → Access reply → State → Prop} {timely : Prop}
variable {actual : State} {start : Nat} {packets : List Packet} {portNum : Word}

/-- A chain of more than 255 pbufs can pass the capacity test, since `pbuf_clen`
counts modulo 256.  The call then runs through the whole ring: it faults at the cut
of an old tail, or overwrites its own descriptors. -/
theorem cpswifTransmit_overrun (ring : TxRing state start packets)
    (holds : Sends state actual) (path : PbufChain state (some p) chain)
    (counted : chain.length % 2 ^ 8 ≤ state.txch.freeNum)
    (long : state.txch.freeNum < chain.length) :
    (flipContract admits timely True).Ensures
      (fun err later => err = .ok ∧ later.pbuf = state.pbuf ∧ Returnable p later)
      (cpswifTransmit portNum p) actual := by
  have count := ring.count
  have size := numBd_eq
  have bound : place numBd start (slots packets) < numBd := place_lt (by decide)
  have fills : ∀ {reply : Type} (request : Access reply) (_ : State),
      Fills (fun _ => True) request → Calm request := fun _ _ fills => fills.calm
  have clen : (outline (fun _ => False) fun request _ => Calm request).Runs
      (pbufClen (some p)) state ((0 + chain.length) % 2 ^ 8) state :=
    runs_clen (fun _ _ => trivial) path (by decide)
  unfold cpswifTransmit
  apply sends_describes.ensures clen holds
  intro later kept
  apply describes_getTxch sends_describes (by trivial) kept
  intro later kept
  rw [Nat.zero_add, if_neg (Nat.not_lt.mpr counted)]
  cases isTail : state.txch.sendTail with
  | some tail =>
      -- The free descriptors end at the old tail, before the chain does.
      have closed : (state.bd .tx (place numBd (place numBd start (slots packets))
          (numBd - 1))).next = none := by
        have position := ring.tail_eq isTail
        rw [place_place, ← position, ring.links tail (ring.sendTail tail isTail).1,
          if_pos isTail]
      have linked : ∀ offset < numBd - 1,
          (state.bd .tx (place numBd (place numBd start (slots packets)) offset)).next =
            some (place numBd (place numBd start (slots packets)) (offset + 1)) :=
        fun offset inside => ring.freeLinked (by omega)
      have ends : Path (fun d => (state.bd .tx d).next) _ _ none :=
        path_arc_closed bound linked closed
      have faults : (outline (fun _ => False) fun request _ => Calm request).Faults
          (fillPacket portNum p) state :=
        fillPacket_faults fills ring.freeHead path ends (by rw [length_arc]; omega)
      exact sends_describes.faults trivial (faults.bind _) kept
  | none =>
      have linked : ∀ offset, offset + 1 < chain.length →
          (state.bd .tx (place numBd (place numBd start (slots packets)) offset)).next =
            some (place numBd (place numBd start (slots packets)) (offset + 1)) := by
        intro offset _
        rw [ring.links _ (place_lt (by decide)), isTail, if_neg (by simp), place_place]
      have filling : (outline (fun _ => False) fun request _ => Calm request).Runs
          (fillPacket portNum p) state _ _ :=
        fillPacket_runs fills ring.freeHead bound path (fun _ _ => trivial) linked
      apply sends_describes.ensures filling kept
      intro later kept
      apply describes_getTxch sends_describes (by trivial) kept
      intro later kept
      apply sends_sendBds kept
      intro later kept
      apply describes_setTxch sends_describes (by trivial) kept
      intro later kept
      apply sends_describes.done kept
      intro after still
      refine ⟨rfl, ?_, (fillPacket_returnable bound path.nonempty).like still.1⟩
      rw [still.1.pbuf]
      exact (link_pbuf (state.fillPacket portNum p chain _) _ _).trans fillCells_pbuf

end Overrun

/-! ## The balance -/

/-- What a call that returns `ERR_MEM` should leave: everything as it was, up to the
OWNER and EOQ bits that the engine writes. -/
structure Untouched (before after : State) : Prop where
  txch : after.txch = before.txch
  bd : ∀ d, BdLike (fun _ => False) d (before.bd .tx d) (after.bd .tx d)
  pbuf : after.pbuf = before.pbuf
  trace : after.trace = before.trace

/-- The `pbuf_free` of the completed packet takes back one reference and releases
nothing. -/
def GivesBack (p : Nat) (before after : State) : Prop :=
  ∀ count final, (flipSystem fun _ _ => True).Returns (pbufFree (some p)) after count final →
    count = 0 ∧ (final.pbuf p).ref = (before.pbuf p).ref ∧
      ∀ q, q ≠ p → final.pbuf q = after.pbuf q

/-- `cpswif_output` changes nothing if it fails, and otherwise takes one reference to
`p`, which the release of the packet gives back. -/
structure OutputBalanced (portNum : Word) (before : State) (p : Nat) : Prop where
  failed : ∀ after, (flipSystem fun _ _ => True).Returns (cpswifOutput portNum p) before
    .mem after → Untouched before after
  queued : ∀ after, (flipSystem fun _ _ => True).Returns (cpswifOutput portNum p) before
    .ok after → (after.pbuf p).ref = (before.pbuf p).ref + 1 ∧ Returnable p after ∧
      GivesBack p before after

section Balance

variable {state after : State} {start : Nat} {packets : List Packet} {portNum : Word}
variable {p : Nat} {chain : List Nat}

theorem addRef_ref (state : State) (q : Nat) :
    ((state.addRef q).pbuf q).ref = (state.pbuf q).ref + 1 := by
  simp [State.addRef]

theorem addRef_ne (state : State) {q other : Nat} (different : other ≠ q) :
    (state.addRef q).pbuf other = state.pbuf other := by
  simp [State.addRef, different]

theorem local_describes {admits : {reply : Type} → Access reply → State → Prop}
    {faulty : Prop} :
    (outline (fun _ => False) fun request _ => TxLocal request).Describes
      (flipContract admits False faulty)
      fun model actual => TxLike (fun _ => False) model actual ∧ True := by
  apply flips_describes fun _ => True
  · intro reply request model isLocal
    exact isLocal
  · intro reply request model trace _ _
    trivial
  · intro reply request model actual _ _ _ isTimely
    exact isTimely.elim

/-- A reference that is not the last is simply given back. -/
theorem givesBack_of_ref {before : State} (held : (before.pbuf p).ref ≠ 0)
    (ref : (after.pbuf p).ref = (before.pbuf p).ref + 1) : GivesBack p before after := by
  intro count final returns
  have shared : (after.pbuf p).ref ≠ 1 := by
    rw [ref]
    intro one
    exact held (by bv_omega)
  have freeing : (outline (fun _ => False) fun request _ => TxLocal request).Runs
      (pbufFree (some p)) after 0 ((after.record (.freed p)).dropRef p) :=
    pbufFree_runs_shared rfl (fun request model drops =>
      (drops.releases : Releases model p model request).isLocal) shared
  have ensures : (flipContract (fun _ _ => True) False False).Ensures _ _ after :=
    local_describes.ensures_post freeing ⟨.refl _ _, trivial⟩
  have final := ensures.post_of_returns returns
  refine ⟨final.1, ?_, ?_⟩
  · rw [final.2.1.pbuf]
    simp only [State.dropRef, State.modifyPbuf_pbuf_self]
    change (after.pbuf p).ref - 1 = _
    rw [ref]
    bv_omega
  · intro q different
    rw [final.2.1.pbuf]
    simp only [State.dropRef, State.modifyPbuf_pbuf_ne _ _ _ _ different]
    rfl

/-- A filled packet is returnable. -/
theorem sent_returnable {filled : State} (ring : TxRing state start packets)
    (port : SlavePort portNum) (nonempty : 0 < chain.length)
    (enough : chain.length ≤ state.txch.freeNum)
    (fill : Filled portNum p chain (place numBd start (slots packets)) state filled)
    (sends : Sends (filled.link (place numBd start (slots packets))
      (place numBd (place numBd start (slots packets)) (chain.length - 1))) after) :
    Returnable p after := by
  have marked := ring.append_marked port nonempty enough fill
  have last : chain.length - 1 < chain.length := by omega
  refine Returnable.like ⟨_, by rw [link_txch], ?_, ?_⟩ sends.1
  · rw [(link_shape _ _ _ _).2.1, marked.eop _ last]
    exact decide_eq_true (Nat.sub_add_cancel nonempty)
  · rw [(link_shape _ _ _ _).2.2]
    exact marked.pbuf _ last

/-- The pbufs after a successful call for a long packet, or for a short one in a single
pbuf. -/
theorem output_ensures_balanced (ring : TxRing state start packets)
    (outside : inTxIsr state.trace = false) (port : SlavePort portNum)
    (path : PbufChain state (some p) chain)
    (fits : chain.length % 2 ^ 8 ≤ state.txch.freeNum)
    (whole : minPktLen ≤ (state.pbuf p).totLen ∨ (state.pbuf p).next = none) :
    (flipContract (fun _ _ => True) False True).Ensures
      (fun err later => err = .ok ∧ (later.pbuf p).ref = (state.pbuf p).ref + 1 ∧
        Returnable p later) (cpswifOutput portNum p) state := by
  by_cases isShort : (state.pbuf p).totLen < minPktLen
  · have single : (state.pbuf p).next = none := by
      rcases whole with isLong | single
      · exact absurd isShort (BitVec.not_lt.mpr isLong)
      · exact single
    have one : chain = [p] := path.unique ⟨rfl, single⟩
    subst one
    apply output_ensures_short ring ⟨.refl _ _, outside⟩ path isShort rfl
    · intro none
      rw [none] at fits
      simp at fits
    · intro filled later enough fill sends
      refine ⟨rfl, ?_, sent_returnable ((ring.pad p [] p).addRef p) port (by simp) enough fill
        sends⟩
      rw [sends.1.pbuf, link_pbuf, fill.pbufs]
      change (((state.pad p [] p).addRef p).pbuf p).ref = _
      rw [addRef_ref, (pad_same p p).2.2]
  · by_cases enough : chain.length ≤ state.txch.freeNum
    · apply output_ensures_long ring ⟨.refl _ _, outside⟩ path (fun _ => enough) isShort
      · intro full
        omega
      · intro filled later enough fill sends
        refine ⟨rfl, ?_, sent_returnable (ring.addRef p) port path.nonempty enough fill sends⟩
        rw [sends.1.pbuf, link_pbuf, fill.pbufs, addRef_ref]
    · apply output_ensures ⟨.refl _ _, outside⟩
        (padShort_runs_long (fun _ _ _ => trivial) isShort)
      intro later kept
      have pathHanded : PbufChain (state.addRef p) (some p) chain :=
        path.congr fun q => (addRef_same state p q).1
      have overrun : (flipContract (fun _ _ => True) False True).Ensures
          (fun err later => err = .ok ∧ later.pbuf = (state.addRef p).pbuf ∧
            Returnable p later) (cpswifTransmit portNum p) later :=
        cpswifTransmit_overrun (ring.addRef p) kept pathHanded fits (Nat.lt_of_not_le enough)
      apply overrun.mono
      intro err after result
      refine ⟨result.1, ?_, result.2.2⟩
      rw [result.2.1, addRef_ref]

/-- In all other cases some run breaks the balance. -/
theorem output_unbalanced (ring : TxRing state start packets)
    (outside : inTxIsr state.trace = false) (path : PbufChain state (some p) chain)
    (balanced : OutputBalanced portNum state p) :
    chain.length % 2 ^ 8 ≤ state.txch.freeNum ∧
      (minPktLen ≤ (state.pbuf p).totLen ∨ (state.pbuf p).next = none) := by
  rcases path.of_some with ⟨rest, rfl, _⟩
  have grows : ∀ ref : Half, ref + 1 ≠ ref := by
    intro ref same
    bv_omega
  by_cases isShort : (state.pbuf p).totLen < minPktLen
  · have exists_last : ∃ last, last = (p :: rest).getLast (by simp) := ⟨_, rfl⟩
    rcases exists_last with ⟨last, isLast⟩
    have ensures : (flipContract (fun _ _ => True) False False).Ensures
        (fun err later => (err = .ok ∧ 0 < state.txch.freeNum ∨ err = .mem) ∧
          later.pbuf = ((state.pad p rest last).addRef last).pbuf)
        (cpswifOutput portNum p) state := by
      apply output_ensures_short ring ⟨.refl _ _, outside⟩ path isShort isLast
      · intro _ later sends
        exact ⟨.inr rfl, sends.1.pbuf⟩
      · intro filled later enough fill sends
        have free : ((state.pad p rest last).addRef last).txch.freeNum =
            state.txch.freeNum := congrArg Txch.freeNum (pad_txch last)
        rw [free] at enough
        refine ⟨.inl ⟨rfl, enough⟩, ?_⟩
        rw [sends.1.pbuf, link_pbuf, fill.pbufs]
    rcases ensures.exists_returns not_false (fun _ _ => trivial) with
      ⟨err, after, returns, outcome, heap⟩
    have taken : (after.pbuf last).ref = (state.pbuf last).ref + 1 := by
      rw [heap, addRef_ref, (pad_same last last).2.2]
    rcases outcome with ⟨rfl, free⟩ | rfl
    · cases rest with
      | nil =>
          refine ⟨?_, .inr path.2⟩
          rw [List.length_singleton]
          exact free
      | cons next rest =>
          -- The reference is taken to another pbuf than the caller's.
          have different : p ≠ last := by
            rw [isLast, List.getLast_cons (by simp)]
            intro same
            have distinct := List.nodup_cons.mp path.nodup
            exact distinct.1 (by rw [same]; exact List.getLast_mem _)
          have kept : (after.pbuf p).ref = (state.pbuf p).ref := by
            rw [heap, addRef_ne _ different, (pad_same last p).2.2]
          exact absurd ((balanced.queued after returns).1.symm.trans kept) (grows _)
    · have same := (balanced.failed after returns).pbuf
      rw [same] at taken
      exact absurd taken.symm (grows _)
  · refine ⟨?_, .inl (BitVec.not_lt.mp isShort)⟩
    apply Nat.le_of_not_lt
    intro full
    have ensures : (flipContract (fun _ _ => True) False False).Ensures
        (fun err later => err = .mem ∧ later.pbuf = (state.addRef p).pbuf)
        (cpswifOutput portNum p) state := by
      apply output_ensures_long ring ⟨.refl _ _, outside⟩ path
      · intro fits
        omega
      · exact isShort
      · intro _ later sends
        exact ⟨rfl, sends.1.pbuf⟩
      · intro filled later enough
        have small := Nat.mod_le (p :: rest).length (2 ^ 8)
        omega
    rcases ensures.exists_returns not_false (fun _ _ => trivial) with
      ⟨err, after, returns, rfl, heap⟩
    have taken := addRef_ref state p
    rw [← heap, (balanced.failed after returns).pbuf] at taken
    exact absurd taken.symm (grows _)

/-- `cpswif_output` keeps the references balanced if and only if the packet fits into
the free descriptors, as `pbuf_clen` counts it, and is long enough or in one pbuf. -/
theorem cpswifOutput_balanced (ring : TxRing state start packets)
    (outside : inTxIsr state.trace = false) (port : SlavePort portNum)
    (path : PbufChain state (some p) chain) (held : (state.pbuf p).ref ≠ 0) :
    OutputBalanced portNum state p ↔ chain.length % 2 ^ 8 ≤ state.txch.freeNum ∧
      (minPktLen ≤ (state.pbuf p).totLen ∨ (state.pbuf p).next = none) := by
  constructor
  · exact output_unbalanced ring outside path
  · intro condition
    have ensures := output_ensures_balanced ring outside port path condition.1 condition.2
    constructor
    · intro after returns
      have result := ensures.post_of_returns returns
      cases result.1
    · intro after returns
      have result := ensures.post_of_returns returns
      exact ⟨result.2.1, result.2.2, givesBack_of_ref held result.2.1⟩

end Balance

/-- The longer packet keeps the balance. -/
theorem cpswifOutput_balanced_longHeap : OutputBalanced 1 (powerOn longHeap).boot 0 := by
  have shape := boot_shape (powerOn_powerOn longHeap)
  have path : PbufChain (powerOn longHeap).boot (some 0) [0, 1] := boot_chain rfl rfl
  apply (cpswifOutput_balanced shape.txRing shape.txHistory.1 (.inl rfl) path
    (by rw [boot_pbuf]; decide)).mpr
  rw [shape.txch, boot_pbuf]
  exact ⟨by simp [numBd_eq], .inl (by decide)⟩

/-- A short packet in two pbufs does not: the reference goes to the second. -/
theorem cpswifOutput_unbalanced_splitHeap : ¬ OutputBalanced 1 (powerOn splitHeap).boot 0 := by
  intro balanced
  have shape := boot_shape (powerOn_powerOn splitHeap)
  have path : PbufChain (powerOn splitHeap).boot (some 0) [0, 1] := boot_chain rfl rfl
  have whole := (output_unbalanced shape.txRing shape.txHistory.1 path balanced).2
  rw [boot_pbuf] at whole
  revert whole
  decide

end BbbEth.Cpsw
