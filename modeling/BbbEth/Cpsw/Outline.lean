import BbbEth.Cpsw.Driver
import BbbEth.Interference.Outline

/-!
# Driver stretches without an environment

The TX engine writes the OWNER and EOQ bits of queued descriptors and nothing
else that the driver reads.  In the model of an `outline exact` no engine runs;
a load of the flags of a transmit descriptor outside `exact` may then differ
from the model in those two bits, and every other access replies what it replies
in the model.
-/

namespace BbbEth.Cpsw

open BbbEth.Interference BbbEth.Linked

/-- Agreement of two flags words off the OWNER and EOQ bits. -/
def SameMarks (left right : Word) : Prop :=
  ∀ bit, bit ≠ 28 → bit ≠ 29 → left.getLsbD bit = right.getLsbD bit

theorem SameMarks.refl (flags : Word) : SameMarks flags flags := fun _ _ _ => rfl

theorem SameMarks.trans {left middle right : Word} (first : SameMarks left middle)
    (second : SameMarks middle right) : SameMarks left right :=
  fun bit notEoq notOwner => (first bit notEoq notOwner).trans (second bit notEoq notOwner)

theorem SameMarks.symm {left right : Word} (same : SameMarks left right) :
    SameMarks right left :=
  fun bit notEoq notOwner => (same bit notEoq notOwner).symm

/-- What a load of the flags of `bd` may give when the model holds `right`. -/
def Reads (exact : Nat → Prop) (bd : Nat) (left right : Word) : Prop :=
  SameMarks left right ∧ (exact bd → left = right)

namespace Reads

variable {exact : Nat → Prop} {bd : Nat} {left right : Word}

theorem refl (flags : Word) : Reads exact bd flags flags := ⟨.refl flags, fun _ => rfl⟩

theorem or (reads : Reads exact bd left right) (mask : Word) :
    Reads exact bd (left ||| mask) (right ||| mask) := by
  refine ⟨fun bit notEoq notOwner => ?_, fun inside => by rw [reads.2 inside]⟩
  simp only [BitVec.getLsbD_or, reads.1 bit notEoq notOwner]

theorem and (reads : Reads exact bd left right) (mask : Word) :
    Reads exact bd (left &&& mask) (right &&& mask) := by
  refine ⟨fun bit notEoq notOwner => ?_, fun inside => by rw [reads.2 inside]⟩
  simp only [BitVec.getLsbD_and, reads.1 bit notEoq notOwner]

end Reads

/-- A load of the flags gives a word that `Reads` allows; every other access
replies what it replies in the model. -/
def outlineReplies (exact : Nat → Prop) :
    {reply : Type} → Access reply → State → reply → Prop
  | _, .loadFlags .tx d .plain, model, answer =>
      Reads exact d answer (model.bd .tx d).flagsPktlen
  | _, request, model, answer => answer = (model.perform request).1

/-- A store of flags may store a word that `Reads` allows in the model. -/
def outlineMoves (exact : Nat → Prop) :
    {reply : Type} → Access reply → State → reply → State → Prop
  | _, .storeFlags .tx d value, model, _, next =>
      ∃ stored, Reads exact d value stored ∧
        next = (model.perform (.storeFlags .tx d stored)).2
  | _, request, model, _, next => next = (model.perform request).2

/-- Stretches of the driver in a model without engines. -/
def outline (exact : Nat → Prop)
    (permits : {reply : Type} → Access reply → State → Prop) : Outline Access State where
  permits := permits
  replies := outlineReplies exact
  moves := outlineMoves exact

/-! ## Runs of the outline -/

/-- Accesses with one reply. -/
def Steady : {reply : Type} → Access reply → Prop
  | _, .loadFlags .tx _ .plain => False
  | _, _ => True

section Runs

variable {exact : Nat → Prop} {permits : {reply : Type} → Access reply → State → Prop}
variable {before after : State} {reply result : Type} {value : result}

/-- An access that is not a load of flags. -/
theorem runs_step {request : Access reply} {rest : reply → Routine result}
    (permitted : permits request before) (steady : Steady request)
    (later : (outline exact permits).Runs (rest (before.perform request).1)
      (before.perform request).2 value after) :
    (outline exact permits).Runs (.perform request rest) before value after := by
  apply Outline.Runs.perform (fun _ => (before.perform request).2) permitted
  · intro answer given
    cases request with
    | storeFlags chan d word =>
        cases chan with
        | tx => exact ⟨word, .refl word, rfl⟩
        | rx => rfl
    | _ => rfl
  · intro answer given
    cases request with
    | loadFlags chan d use =>
        cases chan with
        | tx =>
            cases use with
            | plain => exact steady.elim
            | owner =>
                obtain rfl := given
                exact later
            | eoq =>
                obtain rfl := given
                exact later
        | rx =>
            obtain rfl := given
            exact later
    | _ =>
        obtain rfl := given
        exact later

theorem runs_lift {request : Access reply} {rest : reply → Routine result}
    (permitted : permits request before) (steady : Steady request)
    (later : (outline exact permits).Runs (rest (before.perform request).1)
      (before.perform request).2 value after) :
    (outline exact permits).Runs (.lift request >>= rest) before value after :=
  runs_step permitted steady later

/-- An access before a fault. -/
theorem faults_step {request : Access reply} {rest : reply → Routine result}
    (permitted : permits request before) (steady : Steady request)
    (later : (outline exact permits).Faults (rest (before.perform request).1)
      (before.perform request).2) :
    (outline exact permits).Faults (.perform request rest) before := by
  have first : (outline exact permits).Runs (.lift request) before _ _ :=
    runs_step permitted steady .done
  exact .after first later

theorem runs_getTxch {field : Txch → reply} {rest : reply → Routine result}
    (permitted : permits (.txch fun txch => (field txch, txch)) before)
    (later : (outline exact permits).Runs (rest (field before.txch)) before value after) :
    (outline exact permits).Runs (Routine.getTxch field >>= rest) before value after :=
  runs_step permitted trivial later

theorem runs_setTxch {change : Txch → Txch} {rest : Unit → Routine result}
    (permitted : permits (.txch fun txch => ((), change txch)) before)
    (later : (outline exact permits).Runs (rest ())
      { before with txch := change before.txch } value after) :
    (outline exact permits).Runs (Routine.setTxch change >>= rest) before value after :=
  runs_step permitted trivial later

theorem runs_getRxch {field : Rxch → reply} {rest : reply → Routine result}
    (permitted : permits (.rxch fun rxch => (field rxch, rxch)) before)
    (later : (outline exact permits).Runs (rest (field before.rxch)) before value after) :
    (outline exact permits).Runs (Routine.getRxch field >>= rest) before value after :=
  runs_step permitted trivial later

theorem runs_setRxch {change : Rxch → Rxch} {rest : Unit → Routine result}
    (permitted : permits (.rxch fun rxch => ((), change rxch)) before)
    (later : (outline exact permits).Runs (rest ())
      { before with rxch := change before.rxch } value after) :
    (outline exact permits).Runs (Routine.setRxch change >>= rest) before value after :=
  runs_step permitted trivial later

theorem runs_getPbuf {address : Nat} {field : Pbuf → reply} {rest : reply → Routine result}
    (permitted : permits (.pbuf address fun pbuf => (field pbuf, pbuf)) before)
    (later : (outline exact permits).Runs (rest (field (before.pbuf address)))
      before value after) :
    (outline exact permits).Runs (Routine.getPbuf address field >>= rest)
      before value after := by
  apply runs_step permitted trivial
  simp only [State.perform, State.modifyPbuf_same]
  exact later

theorem runs_setPbuf {address : Nat} {change : Pbuf → Pbuf} {rest : Unit → Routine result}
    (permitted : permits (.pbuf address fun pbuf => ((), change pbuf)) before)
    (later : (outline exact permits).Runs (rest ())
      (before.modifyPbuf address change) value after) :
    (outline exact permits).Runs (Routine.setPbuf address change >>= rest)
      before value after :=
  runs_step permitted trivial later

theorem runs_emit {event : Event} {rest : Unit → Routine result}
    (permitted : permits (.emit event) before)
    (later : (outline exact permits).Runs (rest ()) (before.record event) value after) :
    (outline exact permits).Runs (Routine.emit event >>= rest) before value after :=
  runs_step permitted trivial later

/-- `pbuf_clen` counts the pbufs of a chain modulo 256. -/
theorem runs_clen (reads : ∀ {reply : Type} (address : Nat) (use : Pbuf → reply × Pbuf),
      permits (.pbuf address use) before) {p : Ptr} {chain : List Nat} {count : Nat}
    (path : Path (fun address => (before.pbuf address).next) p chain none)
    (small : count < 2 ^ 8) :
    (outline exact permits).Runs (.iterate clenRound (count, p)) before
      ((count + chain.length) % 2 ^ 8) before := by
  induction chain generalizing p count with
  | nil =>
      have ended : p = none := path
      subst ended
      rw [List.length_nil, Nat.add_zero, Nat.mod_eq_of_lt small]
      exact .leave .done .done
  | cons q chain inductionHypothesis =>
      rcases path with ⟨rfl, path⟩
      have round : (outline exact permits).Runs (clenRound (count, some q)) before
          (.inl ((count + 1) % 2 ^ 8, (before.pbuf q).next)) before := by
        unfold clenRound
        apply runs_getPbuf (reads _ _)
        exact .done
      have others := inductionHypothesis path (Nat.mod_lt (count + 1) (by decide : 2 ^ 8 > 0))
      rw [Nat.mod_add_mod, Nat.add_right_comm] at others
      exact .next round others

/-- A load of flags that is only tested off the OWNER and EOQ bits. -/
theorem runs_test {d : Nat} {rest : Word → Routine result}
    (permitted : permits (.loadFlags .tx d .plain) before)
    (tests : ∀ answer, SameMarks answer (before.bd .tx d).flagsPktlen →
      rest answer = rest (before.bd .tx d).flagsPktlen)
    (later : (outline exact permits).Runs (rest (before.bd .tx d).flagsPktlen)
      before value after) :
    (outline exact permits).Runs (.lift (.loadFlags .tx d .plain) >>= rest)
      before value after := by
  apply Outline.Runs.perform (fun _ => before) permitted
  · intro answer given
    rfl
  · intro answer given
    change (outline exact permits).Runs (rest answer) before value after
    rw [tests answer given.1]
    exact later

/-- A read-modify-write of flags. -/
theorem runs_updateFlags {d : Nat} {change : Word → Word} {rest : Unit → Routine result}
    (loads : permits (.loadFlags .tx d .plain) before)
    (stores : ∀ answer, Reads exact d answer (before.bd .tx d).flagsPktlen →
      permits (.storeFlags .tx d (change answer)) before)
    (changes : ∀ answer, Reads exact d answer (before.bd .tx d).flagsPktlen →
      Reads exact d (change answer) (change (before.bd .tx d).flagsPktlen))
    (later : (outline exact permits).Runs (rest ())
      (before.modifyBd .tx d fun cell =>
        { cell with flagsPktlen := change (before.bd .tx d).flagsPktlen }) value after) :
    (outline exact permits).Runs (Routine.updateFlags .tx d change >>= rest)
      before value after := by
  apply Outline.Runs.perform (fun _ => before) loads
  · intro answer given
    rfl
  · intro answer given
    apply Outline.Runs.perform
      (fun _ => before.modifyBd .tx d fun cell =>
        { cell with flagsPktlen := change (before.bd .tx d).flagsPktlen })
      (stores answer given)
    · intro stored _
      exact ⟨_, changes answer given, rfl⟩
    · intro stored _
      exact later

section Describes

variable {contract : Contract Access State} {related : State → State → Prop}
variable {post : result → State → Prop} {actual : State}

/-- One access in an interleaving that the outline describes. -/
theorem describes_lift (describes : (outline exact permits).Describes contract related)
    {request : Access reply} {rest : reply → Routine result}
    (permitted : permits request before) (steady : Steady request)
    (holds : related before actual)
    (continues : ∀ later, related (before.perform request).2 later →
      contract.Ensures post (rest (before.perform request).1) later) :
    contract.Ensures post (.lift request >>= rest) actual :=
  describes.ensures (runs_step permitted steady .done) holds continues

theorem describes_getTxch (describes : (outline exact permits).Describes contract related)
    {field : Txch → reply} {rest : reply → Routine result}
    (permitted : permits (.txch fun txch => (field txch, txch)) before)
    (holds : related before actual)
    (continues : ∀ later, related before later →
      contract.Ensures post (rest (field before.txch)) later) :
    contract.Ensures post (Routine.getTxch field >>= rest) actual :=
  describes_lift describes permitted trivial holds continues

theorem describes_setTxch (describes : (outline exact permits).Describes contract related)
    {change : Txch → Txch} {rest : Unit → Routine result}
    (permitted : permits (.txch fun txch => ((), change txch)) before)
    (holds : related before actual)
    (continues : ∀ later, related { before with txch := change before.txch } later →
      contract.Ensures post (rest ()) later) :
    contract.Ensures post (Routine.setTxch change >>= rest) actual :=
  describes_lift describes permitted trivial holds continues

theorem describes_emit (describes : (outline exact permits).Describes contract related)
    {event : Event} {rest : Unit → Routine result}
    (permitted : permits (.emit event) before) (holds : related before actual)
    (continues : ∀ later, related (before.record event) later →
      contract.Ensures post (rest ()) later) :
    contract.Ensures post (Routine.emit event >>= rest) actual :=
  describes_lift describes permitted trivial holds continues

/-- A load of flags in such an interleaving. -/
theorem describes_flags (describes : (outline exact permits).Describes contract related)
    {d : Nat} {rest : Word → Routine result}
    (permitted : permits (.loadFlags .tx d .plain) before) (holds : related before actual)
    (continues : ∀ flags later, Reads exact d flags (before.bd .tx d).flagsPktlen →
      related before later → contract.Ensures post (rest flags) later) :
    contract.Ensures post (.lift (.loadFlags .tx d .plain) >>= rest) actual := by
  apply Contract.Ensures.of_perform (describes.stable before _) holds
  · intro current kept
    exact describes.safe kept
  · intro current kept admitted
    exact describes.guarantee kept permitted admitted
  · intro current kept _
    exact continues _ _ (describes.replies kept permitted)
      (describes.moves kept permitted rfl)

end Describes

end Runs

end BbbEth.Cpsw
