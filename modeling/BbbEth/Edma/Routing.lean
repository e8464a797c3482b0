import BbbEth.Edma.Routines
import BbbEth.Edma.Completion
import BbbEth.Registers.Field

/-!
# The way of a completion

A request writes the completion code of a channel and enables an interrupt.  A transfer that is
complete sets the pending bit of the code.
-/

namespace BbbEth.Edma

open BbbEth.Registers BbbEth.Loops

/-- The field TCC of an OPT word. -/
def tccField : Field := ⟨12, 6⟩

/-- The completion code of a channel. -/
def completionCode (controller : Controller) (chNum : Fin 64) : Nat :=
  (tccField.get (controller (.opt chNum))).toNat

/-- What IPR says when the bit of a code is pending, until the handler clears it.  A code from 32 on
has its bit in IPRH. -/
def Pending (code : Nat) (ipr : Nat → Word) : Prop :=
  code < 32 → (ipr 0).getLsbD code = true ∧ (ipr 1).getLsbD code = true

/-- The handler calls the function of a code that is pending, whatever else is. -/
def Reaches (code function : Nat) : Prop :=
  ∀ cbFxn ipr, cbFxn function ≠ 0 → Pending code ipr →
    .call (cbFxn function) function ∈ dmaCompletionISR cbFxn ipr

/-- A completion on a channel finds its interrupt enabled, and its function is called. -/
structure Routed (chNum tccNum : Fin 64) (after : Controller) : Prop where
  enabled : pairBit .ier .ierh (completionCode after chNum) after = true
  reaches : Reaches (completionCode after chNum) tccNum

/-! ## Requests -/

section Requests

variable {before : Controller} {chNum tccNum : Fin 64} {evtQNum : Word}

theorem completionCode_setTcc :
    completionCode (setTcc chNum tccNum before) chNum = tccNum.val := by
  have below : tccNum.val < 64 := tccNum.isLt
  have cleared : tccField.get dmaccOptTccClr = 0 := by decide
  have fits : tccField.offset + tccField.size ≤ 32 := by decide
  have mask : (dmaccOptTcc >>> 12).toNat = 2 ^ 6 - 1 := by decide
  have small : (dmaccOptTcc >>> 12 &&& BitVec.ofNat 32 tccNum).toNat = tccNum.val := by
    rw [BitVec.toNat_and, mask, BitVec.toNat_ofNat, Nat.and_comm, Nat.and_two_pow_sub_one_eq_mod]
    omega
  have written : setTcc chNum tccNum before (.opt chNum) =
      (before (.opt chNum) &&& dmaccOptTccClr) ||| dmaccOptTccSet tccNum :=
    File.orInto_plain.trans (congrArg (· ||| _) File.andInto_plain)
  have zero : tccField.get (before (.opt chNum) &&& dmaccOptTccClr) = 0 := by
    rw [Field.get_and, cleared]
    exact BitVec.and_zero
  rw [completionCode, written, Field.get_or_right zero]
  refine (Field.toNat_get_shift fits ?_).trans small
  rw [small]
  exact below

theorem requestChannel_fst :
    (dmaRequestChannel dmaChannelTypeDma chNum tccNum evtQNum before).1 = true := by
  have valid : tccNum.val < socDmaNumDmach := tccNum.isLt
  have valid' : chNum.val < socDmaNumDmach := chNum.isLt
  simp [dmaRequestChannel, valid, valid']

/-- A request for a DMA channel. -/
theorem requestChannel_snd :
    (dmaRequestChannel dmaChannelTypeDma chNum tccNum evtQNum before).2 =
      setTcc chNum tccNum (dmaEnableEvtIntr chNum (dmaMapChToEvtQ dmaChannelTypeDma chNum evtQNum
        (dmaEnableChInShadowReg dmaChannelTypeDma chNum before))) := by
  have valid : tccNum.val < (Channel.dma chNum).codes := tccNum.isLt
  have runs : (dmaRequestChannel (Channel.dma chNum).chType (Channel.dma chNum).chNum tccNum evtQNum
      before).2 = _ := requestChannel_eq
  rw [if_pos valid] at runs
  exact runs

theorem completionCode_requestChannel :
    completionCode (dmaRequestChannel dmaChannelTypeDma chNum tccNum evtQNum before).2 chNum =
      tccNum.val := by
  rw [requestChannel_snd]
  exact completionCode_setTcc

/-- The interrupt that is enabled is that of the number of the channel. -/
theorem pairBit_requestChannel :
    pairBit .ier .ierh tccNum
        (dmaRequestChannel dmaChannelTypeDma chNum tccNum evtQNum before).2 =
      if tccNum = chNum then true else pairBit .ier .ierh tccNum before := by
  have queue : Aspect.queue ≠ .interrupt := by decide
  have shadow : Aspect.shadow ≠ .interrupt := by decide
  rw [requestChannel_snd]
  have entered : AgreeOn .interrupt before (dmaEnableChInShadowReg (Channel.dma chNum).chType
      (Channel.dma chNum).chNum before) := agree_enableCh shadow
  have mapped : AgreeOn .interrupt _ (dmaMapChToEvtQ (Channel.dma chNum).chType
      (Channel.dma chNum).chNum evtQNum (dmaEnableChInShadowReg (Channel.dma chNum).chType
        (Channel.dma chNum).chNum before)) := agree_map queue
  have stays : (Channel.dma tccNum).interrupts (dmaMapChToEvtQ dmaChannelTypeDma chNum evtQNum
      (dmaEnableChInShadowReg dmaChannelTypeDma chNum before)) =
        (Channel.dma tccNum).interrupts before :=
    Channel.interrupts_congr (.after mapped entered)
  have written : (Channel.dma tccNum).interrupts (setTcc chNum tccNum (dmaEnableEvtIntr chNum
      (dmaMapChToEvtQ dmaChannelTypeDma chNum evtQNum
        (dmaEnableChInShadowReg dmaChannelTypeDma chNum before)))) =
      (Channel.dma tccNum).interrupts (dmaEnableEvtIntr (Channel.dma chNum).chNum
        (dmaMapChToEvtQ dmaChannelTypeDma chNum evtQNum
          (dmaEnableChInShadowReg dmaChannelTypeDma chNum before))) :=
    Channel.interrupts_congr (agree_setTcc (by decide))
  refine written.trans (interrupts_enableEvtIntr.trans ?_)
  rw [stays]
  simp only [Fin.ext_iff]
  rfl

end Requests

/-! ## The handler -/

/-- The handler looks at the codes of the lower half only. -/
theorem reaches_iff {code : Nat} : Reaches code code ↔ code < 32 := by
  constructor
  · intro reaches
    by_contra large
    have member := reaches (fun _ => 1) (fun _ => 0) (by decide) (fun small => absurd small large)
    unfold dmaCompletionISR at member
    simp at member
  · intro small cbFxn ipr registered pending
    rcases pending small with ⟨first, second⟩
    have some : ipr 0 ≠ 0 := by
      intro zero
      rw [zero] at first
      exact absurd (first.symm.trans BitVec.getLsbD_zero) (by decide)
    have called : .call (cbFxn code) code ∈ (dispatchLoop cbFxn (ipr 1)).2 := by
      rw [dispatchLoop_snd, List.mem_flatMap]
      refine ⟨code, mem_bits.mpr second, List.mem_append_right _ ?_⟩
      rw [if_pos registered]
      exact List.mem_cons_of_mem _ (List.mem_singleton.mpr rfl)
    have runs : dmaCompletionISR cbFxn ipr = .read (ipr 0) :: .read (ipr 1) ::
        ((dispatchLoop cbFxn (ipr 1)).2 ++
          completionLoop cbFxn ipr 9 2 (dispatchLoop cbFxn (ipr 1)).1) := by
      rw [dmaCompletionISR, if_pos some]
      rfl
    rw [runs]
    exact List.mem_cons_of_mem _ (List.mem_cons_of_mem _ (List.mem_append_left _ called))

/-- A completion is routed if its code is one of the lower half and the interrupt of the code is
that of the channel or was enabled before. -/
theorem routed_iff (chNum tccNum : Fin 64) (evtQNum : Word) (before : Controller) :
    ((dmaRequestChannel dmaChannelTypeDma chNum tccNum evtQNum before).1 = true →
      Routed chNum tccNum
        (dmaRequestChannel dmaChannelTypeDma chNum tccNum evtQNum before).2) ↔
      tccNum.val < 32 ∧ (tccNum = chNum ∨ pairBit .ier .ierh tccNum before = true) := by
  have enabled : (if tccNum = chNum then true else pairBit .ier .ierh tccNum before) = true ↔
      tccNum = chNum ∨ pairBit .ier .ierh tccNum before = true := by
    by_cases same : tccNum = chNum
    · simp [same]
    · simp [same]
  constructor
  · intro routed
    rcases routed requestChannel_fst with ⟨interrupt, reaches⟩
    rw [completionCode_requestChannel] at interrupt reaches
    rw [pairBit_requestChannel] at interrupt
    exact ⟨reaches_iff.mp reaches, enabled.mp interrupt⟩
  · rintro ⟨small, interrupt⟩ _
    refine ⟨?_, ?_⟩
    · rw [completionCode_requestChannel, pairBit_requestChannel]
      exact enabled.mpr interrupt
    · rw [completionCode_requestChannel]
      exact reaches_iff.mpr small

/-- A channel and a code of another number. -/
def channelThree : Fin 64 := ⟨3, by decide⟩

def codeSeven : Fin 64 := ⟨7, by decide⟩

theorem not_routed : ¬ ((dmaRequestChannel dmaChannelTypeDma channelThree codeSeven 0
      fun _ => 0).1 = true →
    Routed channelThree codeSeven (dmaRequestChannel dmaChannelTypeDma channelThree codeSeven 0
      fun _ => 0).2) := by
  intro routed
  have interrupt := (routed requestChannel_fst).enabled
  rw [completionCode_requestChannel, pairBit_requestChannel] at interrupt
  exact absurd interrupt (by decide)

end BbbEth.Edma
