import BbbEth.Edma.Completion

/-!
# Error interrupts

`DMACCErrorISR` clears missed events and the errors of the controller.  The registers change by
what the handler writes only, so no new error arrives.
-/

namespace BbbEth.Edma

open BbbEth.Registers BbbEth.Loops

/-! ## Registers -/

/-- The words of the errors. -/
inductive ErrorCell where
  | qemr
  | qser
  | ccerr
  deriving DecidableEq

def dmaccQemcr : Register ErrorCell := ⟨.qemr, .clear⟩
def dmaccSQsecr : Register ErrorCell := ⟨.qser, .clear⟩
def dmaccCcerrclr : Register ErrorCell := ⟨.ccerr, .clear⟩

def dmaccErrHandlerRetryCount : Nat := 10
def socDmaNumEvque : Nat := 4
def dmaccCcerrTccerrShift : Nat := 16

/-- The registers that the handler reads and writes. -/
structure Errors where
  /-- The missed events are in EMR and EMRH. -/
  controller : Controller
  pending : File PendingCell 32
  errors : File ErrorCell 32

namespace Errors

/-! ## Routines -/

/-- `DMAQdmaClrMissEvt`. -/
def dmaQdmaClrMissEvt (chNum : Nat) (state : Errors) : Errors :=
  { state with
    errors := (state.errors.write dmaccSQsecr (bit chNum)).orInto dmaccQemcr (bit chNum) }

/-- `DMAClrCCErr`. -/
def dmaClrCCErr (flags : Word) (state : Errors) : Errors :=
  { state with errors := state.errors.write dmaccCcerrclr flags }

/-- The body of the first loop, which clears a missed event. -/
def clearMissed (isIPR : Word) (index : Nat) (state : Errors) : Errors :=
  if isIPR ≠ 0 then { state with controller := dmaClrMissEvt index state.controller }
  else { state with controller := dmaClrMissEvt (index + 32) state.controller }

/-- The body of the third loop, which clears the error of a queue. -/
def clearQueue (pendingIrqs : Word) (state : Errors) (evtqueNum : Nat) : Errors :=
  if pendingIrqs &&& bit evtqueNum ≠ 0 then dmaClrCCErr (bit evtqueNum) state else state

/-- One pass of the outer loop. -/
def errorPass (isIPR : Word) (state : Errors) : Nat × Errors :=
  let pendingIrqs := if isIPR ≠ 0 then state.controller .emr else state.controller .emrh
  let (_, state) := scan (clearMissed isIPR) pendingIrqs 0 state
  let (_, state) := scan dmaQdmaClrMissEvt (state.errors .qemr) 0 state
  let pendingIrqs := state.errors .ccerr
  if pendingIrqs ≠ 0 then
    let state := (List.range socDmaNumEvque).foldl (clearQueue pendingIrqs) state
    let state :=
      if pendingIrqs &&& bit dmaccCcerrTccerrShift ≠ 0 then
        dmaClrCCErr (bit dmaccCcerrTccerrShift) state
      else state
    (1, state)
  else (0, state)

/-- The outer loop, with the number of passes that are left. -/
def errorLoop (isIPR : Word) : Nat → Nat → Errors → Errors
  | 0, _, state => state
  | left + 1, index, state =>
      if index ≠ 0 then
        let (index, state) := errorPass isIPR state
        errorLoop isIPR left index state
      else state

/-- `DMACCErrorISR`. -/
def dmaCCErrorISR (state : Errors) : Errors :=
  let isIPR := state.pending .ipr
  let isIPRH := state.pending .iprh
  if isIPR ||| isIPRH ≠ 0 ∨ state.errors .qemr ≠ 0 ∨ state.errors .ccerr ≠ 0 then
    errorLoop isIPR dmaccErrHandlerRetryCount 1 state
  else state

/-! ## What is recovered -/

/-- A missed event of a channel. -/
def missed (state : Errors) (chNum : Nat) : Bool := pairBit .emr .emrh chNum state.controller

/-- The bits of the queue thresholds and of the completion codes. -/
def errorBit (index : Nat) : Bool :=
  decide (index < socDmaNumEvque) || decide (index = dmaccCcerrTccerrShift)

/-- Every bit that was set is cleared. -/
structure Recovered (before after : Errors) : Prop where
  missed : ∀ chNum < socDmaNumDmach, before.missed chNum = true → after.missed chNum = false
  qdma : ∀ index, (before.errors .qemr).getLsbD index = true →
    (after.errors .qemr).getLsbD index = false
  errors : ∀ index, errorBit index = true → (before.errors .ccerr).getLsbD index = true →
    (after.errors .ccerr).getLsbD index = false

/-- The half of the channels that the handler looks at. -/
def selected (isIPR : Word) (chNum : Nat) : Bool := decide (isIPR ≠ 0) == decide (chNum < 32)

/-- What a pass changes. -/
structure Passed (isIPR : Word) (before after : Errors) : Prop where
  missed : ∀ chNum < socDmaNumDmach,
    after.missed chNum = (before.missed chNum && !selected isIPR chNum)
  qdma : after.errors .qemr = 0
  errors : ∀ index < 32, (after.errors .ccerr).getLsbD index =
    ((before.errors .ccerr).getLsbD index && !errorBit index)

/-! ## Routines -/

section Routines

variable {state : Errors} {isIPR : Word} {index chNum number other : Nat}

theorem missed_clrMissEvt {controller : Controller} (inside : number < socDmaNumDmach)
    (inside' : other < socDmaNumDmach) :
    pairBit .emr .emrh other (dmaClrMissEvt number controller) =
      (pairBit .emr .emrh other controller && !decide (other = number)) := by
  have runs : ∃ cell : Cell, cell ≠ .emr ∧ cell ≠ .emrh ∧ ∃ value, dmaClrMissEvt number controller =
      orBit ⟨.emr, .clear⟩ ⟨.emrh, .clear⟩ number (controller.write ⟨cell, .clear⟩ value) := by
    unfold dmaClrMissEvt orBit
    split
    · exact ⟨.ser, by decide, by decide, _, rfl⟩
    · exact ⟨.serh, by decide, by decide, _, rfl⟩
  rcases runs with ⟨cell, apart, apart', value, runs⟩
  rw [runs, pairBit_orBit (by decide) inside inside']
  by_cases same : other = number
  · simp [same]
  · rw [if_neg same, decide_eq_false same, Bool.not_false, Bool.and_true]
    exact pairBit_congr (File.write_of_ne apart.symm) (File.write_of_ne apart'.symm)

/-- The channel of a bit in the register that is looked at. -/
def place (isIPR : Word) (index : Nat) : Nat := if isIPR ≠ 0 then index else index + 32

theorem clearMissed_eq : clearMissed isIPR index state =
    { state with controller := dmaClrMissEvt (place isIPR index) state.controller } := by
  unfold clearMissed place
  split
  · rfl
  · rfl

theorem missed_clearMissed (inside : chNum < socDmaNumDmach) (small : index < 32) :
    (clearMissed isIPR index state).missed chNum =
      (state.missed chNum && !decide (chNum = place isIPR index)) := by
  have below : place isIPR index < socDmaNumDmach := by
    unfold place socDmaNumDmach
    split <;> omega
  rw [clearMissed_eq]
  exact missed_clrMissEvt below inside

theorem qemr_dmaQdmaClrMissEvt (inside : other < 32) :
    ((dmaQdmaClrMissEvt chNum state).errors .qemr).getLsbD other =
      ((state.errors .qemr).getLsbD other && !decide (other = chNum)) := by
  refine (File.getLsbD_orInto inside).trans ?_
  rw [File.write_of_ne (by decide)]
  by_cases same : other = chNum
  · simp [same]
  · simp [same]

theorem ccerr_dmaQdmaClrMissEvt :
    (dmaQdmaClrMissEvt chNum state).errors .ccerr = state.errors .ccerr := by
  have apart : ErrorCell.ccerr ≠ dmaccQemcr.cell := by decide
  have apart' : ErrorCell.ccerr ≠ dmaccSQsecr.cell := by decide
  change (state.errors.write dmaccSQsecr (bit chNum)).orInto dmaccQemcr (bit chNum) .ccerr = _
  rw [File.orInto_of_ne apart, File.write_of_ne apart']

theorem qemr_dmaClrCCErr {flags : Word} :
    (dmaClrCCErr flags state).errors .qemr = state.errors .qemr := by
  have apart : ErrorCell.qemr ≠ dmaccCcerrclr.cell := by decide
  change state.errors.write dmaccCcerrclr flags .qemr = _
  rw [File.write_of_ne apart]

theorem ccerr_dmaClrCCErr (inside : other < 32) :
    ((dmaClrCCErr (bit number) state).errors .ccerr).getLsbD other =
      ((state.errors .ccerr).getLsbD other && !decide (other = number)) := by
  have runs : (dmaClrCCErr (bit number) state).errors =
      state.errors.orInto ⟨.ccerr, .clear⟩ (bit number) := File.write_clear_eq
  rw [runs]
  refine (File.getLsbD_orInto inside).trans ?_
  by_cases same : other = number
  · simp [same]
  · simp [same]

end Routines

/-! ## One pass -/

section Pass

variable {state before after : Errors} {isIPR : Word} {chNum : Nat}

/-- The loop over the missed events of one half. -/
theorem missed_scan (inside : chNum < socDmaNumDmach) :
    (scan (clearMissed isIPR)
      (if isIPR ≠ 0 then state.controller .emr else state.controller .emrh) 0 state).2.missed
          chNum = (state.missed chNum && !selected isIPR chNum) := by
  have below : chNum < 64 := inside
  rw [scan_snd, foldl_hits (missed · chNum) (fun index => decide (chNum = place isIPR index))
    fun round member current => by
      rw [Nat.zero_add]
      exact missed_clearMissed inside (BitVec.lt_of_getLsbD (mem_bits.mp member))]
  cases set : state.missed chNum with
  | false => rfl
  | true =>
      rw [Bool.true_and, Bool.true_and, Bool.not_inj_iff, Bool.eq_iff_iff, List.any_eq_true]
      unfold missed pairBit at set
      unfold selected place
      by_cases low : isIPR ≠ 0
      · simp only [if_pos low, mem_bits, decide_eq_true_eq, decide_eq_true low, beq_iff_eq]
        constructor
        · rintro ⟨index, member, rfl⟩
          exact (decide_eq_true (BitVec.lt_of_getLsbD member)).symm
        · intro small
          rw [if_pos (of_decide_eq_true small.symm)] at set
          exact ⟨chNum, set, rfl⟩
      · simp only [if_neg low, mem_bits, decide_eq_true_eq, decide_eq_false low, beq_iff_eq]
        constructor
        · rintro ⟨index, member, rfl⟩
          exact (decide_eq_false (by omega)).symm
        · intro large
          have upper : ¬ chNum < 32 := of_decide_eq_false large.symm
          rw [if_neg upper] at set
          exact ⟨chNum - 32, set, by omega⟩

theorem qemr_scan : (scan dmaQdmaClrMissEvt (state.errors .qemr) 0 state).2.errors .qemr = 0 := by
  apply BitVec.eq_of_getLsbD_eq
  intro index inside
  rw [scan_snd, foldl_hits (fun state : Errors => (state.errors .qemr).getLsbD index)
    (fun chNum => decide (index = chNum)) fun round member current => by
      rw [Nat.zero_add]
      exact qemr_dmaQdmaClrMissEvt inside]
  cases set : (state.errors .qemr).getLsbD index with
  | false => exact BitVec.getLsbD_zero.symm
  | true =>
      have hit : List.any (state.errors .qemr).toNat.bitIndices
          (fun chNum => decide (index = chNum)) = true :=
        List.any_eq_true.mpr ⟨index, mem_bits.mpr set, decide_eq_true rfl⟩
      rw [hit]
      exact BitVec.getLsbD_zero.symm

theorem and_bit_ne_zero {word : Word} {number : Nat} (inside : number < 32) :
    word &&& bit number ≠ 0 ↔ word.getLsbD number = true := by
  constructor
  · intro some
    by_contra clear
    refine some (BitVec.eq_of_getLsbD_eq fun index inside' => ?_)
    rw [BitVec.getLsbD_and, getLsbD_one inside']
    by_cases same : index = number
    · rw [same, Bool.eq_false_of_not_eq_true clear]
      exact BitVec.getLsbD_zero.symm
    · rw [decide_eq_false same, Bool.and_false]
      exact BitVec.getLsbD_zero.symm
  · intro set zero
    have bits := congrArg (fun word : Word => word.getLsbD number) zero
    simp only [BitVec.getLsbD_and, getLsbD_one inside, set, decide_true, Bool.and_true] at bits
    exact absurd (bits.trans BitVec.getLsbD_zero) (by decide)

/-- The errors of some numbers are cleared. -/
theorem ccerr_foldl {index : Nat} {numbers : List Nat} (inside : index < 32)
    (small : ∀ number ∈ numbers, number < 32) :
    ((numbers.foldl (clearQueue (state.errors .ccerr)) state).errors .ccerr).getLsbD index =
      ((state.errors .ccerr).getLsbD index && !decide (index ∈ numbers)) := by
  generalize pending : state.errors .ccerr = pendingIrqs
  rw [foldl_hits (fun state : Errors => (state.errors .ccerr).getLsbD index)
    (fun number => decide (index = number) && pendingIrqs.getLsbD number)
    fun number member current => by
      unfold clearQueue
      by_cases set : pendingIrqs.getLsbD number = true
      · rw [if_pos ((and_bit_ne_zero (small number member)).mpr set), set, Bool.and_true]
        exact ccerr_dmaClrCCErr inside
      · rw [if_neg fun some => set ((and_bit_ne_zero (small number member)).mp some),
          Bool.eq_false_of_not_eq_true set, Bool.and_false, Bool.not_false, Bool.and_true],
    pending]
  cases set : pendingIrqs.getLsbD index with
  | false => rfl
  | true =>
      rw [Bool.true_and, Bool.true_and, Bool.not_inj_iff, Bool.eq_iff_iff, List.any_eq_true,
        decide_eq_true_iff]
      constructor
      · rintro ⟨number, member, same⟩
        rw [Bool.and_eq_true, decide_eq_true_iff] at same
        exact same.1 ▸ member
      · intro member
        exact ⟨index, member, by rw [decide_eq_true rfl, set]; rfl⟩

theorem missed_foldl {numbers : List Nat} {pendingIrqs : Word} :
    (numbers.foldl (clearQueue pendingIrqs) state).missed chNum = state.missed chNum :=
  foldl_keeps (missed · chNum) fun number current => by
    unfold clearQueue
    split
    · rfl
    · rfl

theorem qemr_foldl {numbers : List Nat} {pendingIrqs : Word} :
    (numbers.foldl (clearQueue pendingIrqs) state).errors .qemr = state.errors .qemr :=
  foldl_keeps (fun state : Errors => state.errors .qemr) fun number current => by
    unfold clearQueue
    split
    · exact qemr_dmaClrCCErr
    · rfl

/-- The numbers of the errors that are cleared. -/
theorem errorBit_eq {index : Nat} :
    decide (index ∈ List.range socDmaNumEvque ++ [dmaccCcerrTccerrShift]) = errorBit index := by
  simp [errorBit]

/-- What one pass does. -/
theorem errorPass_passed : Passed isIPR state (errorPass isIPR state).2 := by
  let first := (scan (clearMissed isIPR)
    (if isIPR ≠ 0 then state.controller .emr else state.controller .emrh) 0 state).2
  let second := (scan dmaQdmaClrMissEvt (first.errors .qemr) 0 first).2
  let third := (List.range socDmaNumEvque ++ [dmaccCcerrTccerrShift]).foldl
    (clearQueue (second.errors .ccerr)) second
  have firstErrors : first.errors = state.errors := by
    refine (congrArg Errors.errors scan_snd).trans ?_
    refine foldl_keeps Errors.errors fun index current => ?_
    rw [clearMissed_eq]
  have secondMissed : ∀ chNum, second.missed chNum = first.missed chNum := by
    intro chNum
    exact (congrArg (missed · chNum) scan_snd).trans
      (foldl_keeps (missed · chNum) fun index current => rfl)
  have secondErrors : second.errors .ccerr = state.errors .ccerr := by
    rw [← firstErrors]
    refine (congrArg (fun state : Errors => state.errors .ccerr) scan_snd).trans
      (foldl_keeps (fun state : Errors => state.errors .ccerr) fun index current => ?_)
    exact ccerr_dmaQdmaClrMissEvt
  have small : ∀ number ∈ List.range socDmaNumEvque ++ [dmaccCcerrTccerrShift], number < 32 := by
    decide
  have result : (errorPass isIPR state).2 =
      if second.errors .ccerr ≠ 0 then third else second := by
    refine (apply_ite Prod.snd (second.errors .ccerr ≠ 0) _ _).trans ?_
    rw [show third = _ from List.foldl_append]
    rfl
  rw [result]
  refine ⟨fun chNum inside => ?_, ?_, fun index inside => ?_⟩
  · have same : (if second.errors .ccerr ≠ 0 then third else second).missed chNum =
        second.missed chNum := by
      split
      · exact missed_foldl
      · rfl
    rw [same, secondMissed]
    exact missed_scan inside
  · split
    · exact qemr_foldl.trans qemr_scan
    · exact qemr_scan
  · rw [← secondErrors]
    split
    · refine (ccerr_foldl inside small).trans ?_
      rw [errorBit_eq]
    · next none =>
        have zero : (0 : Word).getLsbD index = false := BitVec.getLsbD_zero
        rw [not_not.mp none, zero, Bool.false_and]

end Pass

/-! ## A run -/

section Run

variable {state before middle after : Errors} {isIPR : Word}

theorem Passed.trans (first : Passed isIPR before middle) (second : Passed isIPR middle after) :
    Passed isIPR before after where
  missed chNum inside := by
    rw [second.missed chNum inside, first.missed chNum inside, Bool.and_assoc, Bool.and_self]
  qdma := second.qdma
  errors index inside := by
    rw [second.errors index inside, first.errors index inside, Bool.and_assoc, Bool.and_self]

/-- A second pass changes nothing that the first one does not. -/
theorem errorLoop_passed {left index : Nat} (more : index ≠ 0) :
    Passed isIPR state (errorLoop isIPR (left + 1) index state) := by
  induction left generalizing index state with
  | zero =>
      rw [errorLoop, if_pos more]
      exact errorPass_passed
  | succ left inductionHypothesis =>
      rw [errorLoop, if_pos more]
      by_cases again : (errorPass isIPR state).1 ≠ 0
      · exact errorPass_passed.trans (inductionHypothesis again)
      · change Passed isIPR state (errorLoop isIPR (left + 1) (errorPass isIPR state).1
          (errorPass isIPR state).2)
        rw [errorLoop, if_neg again]
        exact errorPass_passed

theorem emr_eq_zero_iff :
    state.controller .emr = 0 ↔ ∀ chNum < 32, state.missed chNum = false := by
  constructor
  · intro zero chNum low
    rw [missed, pairBit, if_pos low, zero]
    exact BitVec.getLsbD_zero
  · intro clear
    apply BitVec.eq_of_getLsbD_eq
    intro index inside
    have bit := clear index inside
    rw [missed, pairBit, if_pos inside] at bit
    exact bit.trans BitVec.getLsbD_zero.symm

theorem emrh_eq_zero_iff :
    state.controller .emrh = 0 ↔ ∀ chNum, 32 ≤ chNum → chNum < 64 → state.missed chNum = false := by
  constructor
  · intro zero chNum high _
    rw [missed, pairBit, if_neg (Nat.not_lt.mpr high), zero]
    exact BitVec.getLsbD_zero
  · intro clear
    apply BitVec.eq_of_getLsbD_eq
    intro index inside
    have bit := clear (index + 32) (by omega) (by omega)
    rw [missed, pairBit, if_neg (by omega), Nat.add_sub_cancel] at bit
    exact bit.trans BitVec.getLsbD_zero.symm

/-- The missed events of the other half stay. -/
theorem Passed.recovers_iff (passed : Passed isIPR before after) :
    Recovered before after ↔
      ∀ chNum < socDmaNumDmach, selected isIPR chNum = false → before.missed chNum = false := by
  constructor
  · intro recovered chNum inside other
    by_contra set
    rw [Bool.not_eq_false] at set
    have stays := passed.missed chNum inside
    rw [recovered.missed chNum inside set, set, other] at stays
    cases stays
  · intro other
    refine ⟨fun chNum inside set => ?_, fun index _ => ?_, fun index is set => ?_⟩
    · rw [passed.missed chNum inside]
      cases looked : selected isIPR chNum with
      | false => rw [other chNum inside looked, Bool.false_and]
      | true => rw [Bool.not_true, Bool.and_false]
    · rw [passed.qdma]
      exact BitVec.getLsbD_zero
    · rw [passed.errors index (BitVec.lt_of_getLsbD set), is, Bool.not_true, Bool.and_false]

/-- What stays in a run of the handler that makes passes. -/
theorem Passed.recovers_iff_words (passed : Passed isIPR before after) :
    Recovered before after ↔
      if isIPR ≠ 0 then before.controller .emrh = 0 else before.controller .emr = 0 := by
  rw [passed.recovers_iff]
  unfold selected
  split
  · next low =>
      rw [emrh_eq_zero_iff, decide_eq_true low]
      constructor
      · intro clear chNum high inside
        exact clear chNum inside (by rw [decide_eq_false (Nat.not_lt.mpr high)]; rfl)
      · intro clear chNum inside other
        rw [beq_eq_false_iff_ne, ne_comm, ne_eq, decide_eq_true_iff, Nat.not_lt] at other
        exact clear chNum other inside
  · next high =>
      rw [emr_eq_zero_iff, decide_eq_false high]
      constructor
      · intro clear chNum low
        exact clear chNum (low.trans (by decide)) (by rw [decide_eq_true low]; rfl)
      · intro clear chNum _ other
        rw [beq_eq_false_iff_ne, ne_comm, ne_eq, decide_eq_false_iff_not, not_not] at other
        exact clear chNum other

/-- Nothing is done where there is nothing to clear. -/
theorem recovered_self_iff {state : Errors} (qemr : state.errors .qemr = 0)
    (ccerr : state.errors .ccerr = 0) :
    Recovered state state ↔ state.controller .emr = 0 ∧ state.controller .emrh = 0 := by
  constructor
  · intro recovered
    have clear : ∀ chNum < socDmaNumDmach, state.missed chNum = false := by
      intro chNum inside
      by_contra set
      rw [Bool.not_eq_false] at set
      exact absurd (set.symm.trans (recovered.missed chNum inside set)) (by decide)
    refine ⟨?_, ?_⟩
    · exact emr_eq_zero_iff.mpr fun chNum low => clear chNum (low.trans (by decide))
    · exact emrh_eq_zero_iff.mpr fun chNum _ inside => clear chNum inside
  · rintro ⟨emr, emrh⟩
    refine ⟨fun chNum inside _ => ?_, fun index _ => ?_, fun index _ _ => ?_⟩
    · by_cases low : chNum < 32
      · exact emr_eq_zero_iff.mp emr chNum low
      · exact emrh_eq_zero_iff.mp emrh chNum (Nat.not_lt.mp low) inside
    · rw [qemr]
      exact BitVec.getLsbD_zero
    · rw [ccerr]
      exact BitVec.getLsbD_zero

/-- The handler looks at the missed events of the lower channels if a completion of one of them is
pending, and otherwise at those of the upper ones; it does neither if only they are missed. -/
theorem recovered_iff (state : Errors) :
    Recovered state (dmaCCErrorISR state) ↔
      (state.pending .ipr ≠ 0 → state.controller .emrh = 0) ∧
      (state.pending .ipr = 0 → state.controller .emr = 0 ∧
        (state.controller .emrh ≠ 0 →
          state.pending .iprh ≠ 0 ∨ state.errors .qemr ≠ 0 ∨ state.errors .ccerr ≠ 0)) := by
  unfold dmaCCErrorISR
  by_cases enters : state.pending .ipr ||| state.pending .iprh ≠ 0 ∨ state.errors .qemr ≠ 0 ∨
      state.errors .ccerr ≠ 0
  · have passed : Passed (state.pending .ipr) state (errorLoop (state.pending .ipr)
        dmaccErrHandlerRetryCount 1 state) := errorLoop_passed Nat.one_ne_zero
    rw [if_pos enters, passed.recovers_iff_words]
    by_cases low : state.pending .ipr ≠ 0
    · rw [if_pos low]
      exact ⟨fun clear => ⟨fun _ => clear, fun zero => absurd zero low⟩, fun both => both.1 low⟩
    · rw [if_neg low]
      have zero := not_not.mp low
      rw [zero] at enters
      have others : state.pending .iprh ≠ 0 ∨ state.errors .qemr ≠ 0 ∨ state.errors .ccerr ≠ 0 :=
        enters.imp_left fun some same => some (by
          rw [same]
          exact BitVec.or_zero)
      exact ⟨fun clear => ⟨fun some => absurd zero some, fun _ => ⟨clear, fun _ => others⟩⟩,
        fun both => (both.2 zero).1⟩
  · rw [if_neg enters]
    rcases not_or.mp enters with ⟨pending, rest⟩
    rcases not_or.mp rest with ⟨qemr, ccerr⟩
    rcases BitVec.or_eq_zero_iff.mp (not_not.mp pending) with ⟨ipr, iprh⟩
    rw [recovered_self_iff (not_not.mp qemr) (not_not.mp ccerr)]
    constructor
    · rintro ⟨emr, emrh⟩
      exact ⟨fun some => absurd ipr some, fun _ => ⟨emr, fun some => absurd emrh some⟩⟩
    · rintro ⟨_, high⟩
      refine ⟨(high ipr).1, not_not.mp fun some => ?_⟩
      rcases (high ipr).2 some with set | set | set
      · exact set iprh
      · exact qemr set
      · exact ccerr set

end Run

/-- Channel 5 missed an event, and nothing else is pending. -/
def missedFive : Errors where
  controller := Function.update (fun _ => 0) .emr (bit 5)
  pending _ := 0
  errors _ := 0

theorem not_recovered : ¬ Recovered missedFive (dmaCCErrorISR missedFive) := by
  intro recovered
  have set : missedFive.missed 5 = true := by decide
  have stays : (dmaCCErrorISR missedFive).missed 5 = true := by decide
  exact absurd (stays.symm.trans (recovered.missed 5 (by decide) set)) (by decide)

end Errors

end BbbEth.Edma
