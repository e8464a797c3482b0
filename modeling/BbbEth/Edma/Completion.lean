import BbbEth.Edma.Channel
import BbbEth.Loops.Bits

/-!
# Completion interrupts

`DMACompletionISR` reads the pending interrupts, again and again, and calls what is registered for
each of them.  The controller may set and clear pending interrupts at any time, so each read has a
value of its own.
-/

namespace BbbEth.Edma

open BbbEth.Registers BbbEth.Loops

/-- The words of the pending interrupts. -/
inductive PendingCell where
  | ipr
  | iprh
  deriving DecidableEq

def dmaccSIcr : Register PendingCell := ⟨.ipr, .clear⟩
def dmaccSIcrh : Register PendingCell := ⟨.iprh, .clear⟩

/-- What the handler does, one step after the other. -/
inductive Step where
  /-- A read of IPR, with what is read. -/
  | read (value : Word)
  | write (register : Register PendingCell) (value : Word)
  /-- A read of an element of `cb_Fxn`. -/
  | index (number : Nat)
  | call (function : Word) (tcc : Nat)
  deriving DecidableEq

def dmaccComplHandlerRetryCount : Nat := 10

/-- `DMA_NUM_TCC`, the length of `cb_Fxn`. -/
def dmaNumTcc : Nat := socDmaNumDmach

/-- `DMAClrIntr`. -/
def dmaClrIntr (value : Nat) : Step :=
  if value < 32 then .write dmaccSIcr (bit value)
  else .write dmaccSIcrh (bit (value - 32))

/-- What is done for a pending interrupt. -/
def dispatch (cbFxn : Nat → Word) (indexl : Nat) : List Step :=
  [dmaClrIntr indexl, .index indexl] ++
    if cbFxn indexl ≠ 0 then [.index indexl, .call (cbFxn indexl) indexl] else []

/-- The inner loop, with the count that it ends with. -/
def dispatchLoop (cbFxn : Nat → Word) (pendingIrqs : Word) : Nat × List Step :=
  scan (fun indexl steps => steps ++ dispatch cbFxn indexl) pendingIrqs 0 []

/-- The outer loop, with the number of passes that are left and the number of the next read. -/
def completionLoop (cbFxn ipr : Nat → Word) : Nat → Nat → Nat → List Step
  | 0, _, _ => []
  | left + 1, reads, indexl =>
      if indexl ≠ 0 then
        let (indexl, steps) := dispatchLoop cbFxn (ipr reads)
        .read (ipr reads) :: steps ++ completionLoop cbFxn ipr left (reads + 1) indexl
      else []

/-- `DMACompletionISR`, for the values that are read. -/
def dmaCompletionISR (cbFxn ipr : Nat → Word) : List Step :=
  .read (ipr 0) ::
    if ipr 0 ≠ 0 then completionLoop cbFxn ipr dmaccComplHandlerRetryCount 1 1 else []

/-! ## Passes -/

/-- A read of the pending interrupts with what is done for them. -/
structure Pass where
  snapshot : Word
  steps : List Step

def Pass.trace (pass : Pass) : List Step := .read pass.snapshot :: pass.steps

/-- Each pending interrupt is cleared and its function called, both once; nothing else is done, and
no element behind `cb_Fxn` is read. -/
structure Pass.Serves (cbFxn : Nat → Word) (pass : Pass) : Prop where
  reads : ∀ value, .read value ∉ pass.steps
  cleared : ∀ tcc < dmaNumTcc,
    pass.steps.count (dmaClrIntr tcc) = if pass.snapshot.getLsbD tcc then 1 else 0
  writes : ∀ register value, .write register value ∈ pass.steps →
    ∃ tcc, pass.snapshot.getLsbD tcc = true ∧ .write register value = dmaClrIntr tcc
  called : ∀ function tcc, pass.steps.count (.call function tcc) =
    if pass.snapshot.getLsbD tcc = true ∧ cbFxn tcc = function ∧ function ≠ 0 then 1 else 0
  indexed : ∀ number, .index number ∈ pass.steps → number < dmaNumTcc

/-- A run is one read and passes with the reads that follow, one pass for each.  Without the last
passes that it may make, its last read has no pending interrupt. -/
def Completes (cbFxn ipr : Nat → Word) (trace : List Step) : Prop :=
  ∃ passes : List Pass,
    trace = .read (ipr 0) :: passes.flatMap Pass.trace ∧
    passes.map Pass.snapshot = (List.range passes.length).map (fun pass => ipr (pass + 1)) ∧
    (∀ pass ∈ passes, pass.Serves cbFxn) ∧
    passes.length ≤ dmaccComplHandlerRetryCount ∧
    (passes.length < dmaccComplHandlerRetryCount → ipr passes.length = 0)

/-! ## One pass -/

theorem bit_inj {number other : Nat} (inside : number < 32) (same : bit other = bit number) :
    other = number := by
  have bits := congrArg (fun word : Word => word.getLsbD number) same
  simp only [getLsbD_one inside, decide_true] at bits
  exact (of_decide_eq_true bits).symm

theorem dmaClrIntr_inj {tcc other : Nat} (inside : tcc < dmaNumTcc)
    (same : dmaClrIntr other = dmaClrIntr tcc) : other = tcc := by
  have below : tcc < 64 := inside
  unfold dmaClrIntr at same
  split at same
  · split at same
    · next small => exact bit_inj small (Step.write.inj same).2
    · cases (Step.write.inj same).1
  · split at same
    · cases (Step.write.inj same).1
    · have shifted := bit_inj (by omega) (Step.write.inj same).2
      omega

section Dispatch

variable {cbFxn ipr : Nat → Word} {snapshot : Word} {step : Step} {indexl : Nat}

theorem dmaClrIntr_isWrite (indexl : Nat) :
    ∃ register value, dmaClrIntr indexl = .write register value := by
  unfold dmaClrIntr
  split
  · exact ⟨_, _, rfl⟩
  · exact ⟨_, _, rfl⟩

/-- What is done for a pending interrupt. -/
theorem mem_dispatch (member : step ∈ dispatch cbFxn indexl) :
    step = dmaClrIntr indexl ∨ step = .index indexl ∨
      cbFxn indexl ≠ 0 ∧ step = .call (cbFxn indexl) indexl := by
  unfold dispatch at member
  rcases List.mem_append.mp member with first | later
  · rcases List.mem_pair.mp first with rfl | rfl
    · exact .inl rfl
    · exact .inr (.inl rfl)
  · split at later
    · next registered =>
        rcases List.mem_pair.mp later with rfl | rfl
        · exact .inr (.inl rfl)
        · exact .inr (.inr ⟨registered, rfl⟩)
    · cases later

theorem dispatchLoop_snd : (dispatchLoop cbFxn snapshot).2 =
    snapshot.toNat.bitIndices.flatMap (dispatch cbFxn) := by
  rw [dispatchLoop, scan_snd, List.flatMap_eq_foldl]
  simp only [Nat.zero_add]

theorem mem_dispatchLoop (member : step ∈ (dispatchLoop cbFxn snapshot).2) :
    ∃ tcc, snapshot.getLsbD tcc = true ∧ step ∈ dispatch cbFxn tcc := by
  rw [dispatchLoop_snd] at member
  rcases List.mem_flatMap.mp member with ⟨tcc, pending, inside⟩
  exact ⟨tcc, mem_bits.mp pending, inside⟩

theorem count_clear_dispatch : (dispatch cbFxn indexl).count (dmaClrIntr indexl) = 1 := by
  rcases dmaClrIntr_isWrite indexl with ⟨register, value, is⟩
  unfold dispatch
  rw [is]
  split
  · simp
  · simp

theorem count_call_dispatch {function : Word} :
    (dispatch cbFxn indexl).count (.call function indexl) =
      if cbFxn indexl = function ∧ function ≠ 0 then 1 else 0 := by
  rcases dmaClrIntr_isWrite indexl with ⟨register, value, is⟩
  unfold dispatch
  rw [is]
  by_cases registered : cbFxn indexl ≠ 0
  · rw [if_pos registered]
    by_cases same : cbFxn indexl = function
    · subst same
      rw [if_pos ⟨rfl, registered⟩]
      simp
    · rw [if_neg fun both => same both.1]
      simp [same]
  · have absent : ¬ (cbFxn indexl = function ∧ function ≠ 0) := by
      rintro ⟨rfl, present⟩
      exact registered present
    rw [if_neg registered, if_neg absent]
    simp

/-- One pass serves its snapshot. -/
theorem serves : (⟨snapshot, (dispatchLoop cbFxn snapshot).2⟩ : Pass).Serves cbFxn where
  reads value member := by
    rcases mem_dispatchLoop member with ⟨tcc, _, inside⟩
    rcases dmaClrIntr_isWrite tcc with ⟨register, written, is⟩
    rcases mem_dispatch inside with same | same | ⟨_, same⟩
    · rw [is] at same
      cases same
    · cases same
    · cases same
  cleared tcc inside := by
    have apart : ∀ other, other ≠ tcc → dmaClrIntr tcc ∉ dispatch cbFxn other := by
      intro other different member
      rcases dmaClrIntr_isWrite tcc with ⟨register, written, is⟩
      rcases mem_dispatch member with same | same | ⟨_, same⟩
      · exact different (dmaClrIntr_inj inside same.symm)
      · rw [is] at same
        cases same
      · rw [is] at same
        cases same
    rw [dispatchLoop_snd, count_flatMap_bits apart, count_clear_dispatch]
  writes register value member := by
    rcases mem_dispatchLoop member with ⟨tcc, pending, inside⟩
    refine ⟨tcc, pending, ?_⟩
    rcases mem_dispatch inside with same | same | ⟨_, same⟩
    · exact same
    · cases same
    · cases same
  called function tcc := by
    have apart : ∀ other, other ≠ tcc → .call function tcc ∉ dispatch cbFxn other := by
      intro other different member
      rcases dmaClrIntr_isWrite other with ⟨register, written, is⟩
      rcases mem_dispatch member with same | same | ⟨_, same⟩
      · rw [is] at same
        cases same
      · cases same
      · exact different (Step.call.inj same).2.symm
    rw [dispatchLoop_snd, count_flatMap_bits apart, count_call_dispatch]
    exact (ite_and ..).symm
  indexed number member := by
    rcases mem_dispatchLoop member with ⟨tcc, pending, inside⟩
    have small : tcc < 32 := BitVec.lt_of_getLsbD pending
    rcases dmaClrIntr_isWrite tcc with ⟨register, written, is⟩
    rcases mem_dispatch inside with same | same | ⟨_, same⟩
    · rw [is] at same
      cases same
    · rw [Step.index.inj same]
      exact small.trans (by decide)
    · cases same

end Dispatch

/-! ## A run -/

section Run

variable {cbFxn ipr : Nat → Word}

/-- The passes of the outer loop. -/
theorem completionLoop_passes {left indexl : Nat} (reads : Nat) (more : indexl ≠ 0) :
    ∃ passes : List Pass,
      completionLoop cbFxn ipr left reads indexl = passes.flatMap Pass.trace ∧
      passes.map Pass.snapshot = (List.range passes.length).map (fun pass => ipr (reads + pass)) ∧
      (∀ pass ∈ passes, pass.Serves cbFxn) ∧
      passes.length ≤ left ∧
      (passes.length < left → passes.length ≠ 0 ∧ ipr (reads + passes.length - 1) = 0) := by
  induction left generalizing reads indexl with
  | zero =>
      refine ⟨[], rfl, rfl, ?_, le_rfl, ?_⟩
      · intro pass member
        cases member
      · intro less
        exact absurd less (Nat.lt_irrefl _)
  | succ left inductionHypothesis =>
      let pass : Pass := ⟨ipr reads, (dispatchLoop cbFxn (ipr reads)).2⟩
      have unfolded : completionLoop cbFxn ipr (left + 1) reads indexl =
          pass.trace ++ completionLoop cbFxn ipr left (reads + 1)
            (dispatchLoop cbFxn (ipr reads)).1 := by
        rw [completionLoop, if_pos more]
        rfl
      by_cases again : (dispatchLoop cbFxn (ipr reads)).1 ≠ 0
      · rcases inductionHypothesis (reads + 1) again with
          ⟨passes, trace, snapshots, serve, most, last⟩
        refine ⟨pass :: passes, ?_, ?_, ?_, Nat.succ_le_succ most, ?_⟩
        · rw [unfolded, trace, List.flatMap_cons]
        · rw [List.map_cons, snapshots, List.length_cons, List.range_succ_eq_map, List.map_cons,
            List.map_map]
          simp [pass, Function.comp_def, Nat.add_assoc, Nat.add_comm 1]
        · exact List.forall_mem_cons.mpr ⟨serves, serve⟩
        · intro less
          rcases last (Nat.lt_of_succ_lt_succ less) with ⟨some, zero⟩
          refine ⟨Nat.succ_ne_zero _, ?_⟩
          rw [← zero]
          congr 1
          rw [List.length_cons]
          omega
      · rw [not_not] at again
        have none : ipr reads = 0 := scan_fst_eq_zero_iff.mp again
        have stops : completionLoop cbFxn ipr left (reads + 1) 0 = [] := by
          cases left with
          | zero => rfl
          | succ left => rw [completionLoop, if_neg fun more => more rfl]
        refine ⟨[pass], ?_, ?_, ?_, Nat.succ_le_succ (Nat.zero_le _), ?_⟩
        · rw [unfolded, again, stops]
          rfl
        · rfl
        · exact List.forall_mem_cons.mpr ⟨serves, fun _ member => by cases member⟩
        · intro _
          exact ⟨Nat.one_ne_zero, none⟩

/-- Every run completes what is pending, whatever is read. -/
theorem dmaCompletionISR_completes (cbFxn ipr : Nat → Word) :
    Completes cbFxn ipr (dmaCompletionISR cbFxn ipr) := by
  unfold dmaCompletionISR
  by_cases pending : ipr 0 ≠ 0
  · obtain ⟨passes, trace, snapshots, serve, most, last⟩ : ∃ passes : List Pass,
        completionLoop cbFxn ipr dmaccComplHandlerRetryCount 1 1 = passes.flatMap Pass.trace ∧ _ :=
      completionLoop_passes 1 Nat.one_ne_zero
    refine ⟨passes, ?_, ?_, serve, most, ?_⟩
    · rw [if_pos pending, trace]
    · rw [snapshots]
      simp only [Nat.add_comm 1]
    · intro less
      rcases last less with ⟨_, zero⟩
      rwa [Nat.add_sub_cancel_left] at zero
  · rw [if_neg pending]
    refine ⟨[], rfl, rfl, ?_, Nat.zero_le _, ?_⟩
    · intro pass member
      cases member
    · intro _
      exact not_not.mp pending

end Run

end BbbEth.Edma
