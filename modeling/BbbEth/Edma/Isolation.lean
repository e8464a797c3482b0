import BbbEth.Edma.Routines

/-!
# Isolation of channels

The operations on a channel should leave the other channels alone, and the ones that close it
should undo those that open it.
-/

namespace BbbEth.Edma

open BbbEth.Registers

/-! ## Operations -/

/-- The operations on a channel. -/
inductive Call where
  | requestChannel (channel : Channel) (tccNum : Nat) (evtQNum : BitVec 3)
  | freeChannel (channel : Channel) (trigMode tccNum : Nat) (evtQNum : BitVec 3)
  | enableTransfer (chNum : Fin 64) (trigMode : Nat)
  | disableTransfer (chNum : Fin 64) (trigMode : Nat)

namespace Call

/-- What an operation runs. -/
def run : Call → Controller → Bool × Controller
  | .requestChannel channel tccNum evtQNum =>
      dmaRequestChannel channel.chType channel.chNum tccNum (evtQNum.setWidth 32)
  | .freeChannel channel trigMode tccNum evtQNum =>
      dmaFreeChannel channel.chType channel.chNum trigMode tccNum (evtQNum.setWidth 32)
  | .enableTransfer chNum trigMode => dmaEnableTransfer chNum trigMode
  | .disableTransfer chNum trigMode => dmaDisableTransfer chNum trigMode

/-- The channel of an operation. -/
def channel : Call → Option Channel
  | .requestChannel channel _ _ => some channel
  | .freeChannel channel _ _ _ => some channel
  | .enableTransfer chNum trigMode => transferChannel chNum trigMode
  | .disableTransfer chNum trigMode => transferChannel chNum trigMode

end Call

/-! ## What is asked of an operation -/

/-- The other channels stay as they are. -/
structure Isolated (channel : Option Channel) (before after : Controller) : Prop where
  enabled : ∀ other : Channel, channel ≠ some other → other.enabled after = other.enabled before
  inShadow : ∀ other : Channel, channel ≠ some other → other.inShadow after = other.inShadow before
  interrupts : ∀ other : Channel, (∀ own : Channel, channel = some own → own.chNum ≠ other.chNum) →
    other.interrupts after = other.interrupts before
  queue : ∀ other : Channel, channel ≠ some other → other.queue after = other.queue before

/-- A channel is free, so that a request gives it the queue that is asked for. -/
structure Freed (channel : Channel) (after : Controller) : Prop where
  inShadow : channel.inShadow after = false
  interrupts : channel.interrupts after = false
  queue : channel.queue after = 0
  later : ∀ tccNum evtQNum,
    channel.queue ((Call.requestChannel channel tccNum evtQNum).run after).2 = evtQNum

/-- An operation is isolated, and closes a channel if it should. -/
structure Call.Meets (call : Call) (before : Controller) : Prop where
  isolated : Isolated call.channel before (call.run before).2
  disabled : ∀ chNum, call = .disableTransfer chNum dmaTrigModeEvent →
    (Channel.dma chNum).enabled (call.run before).2 = false
  freed : ∀ channel trigMode tccNum evtQNum,
    call = .freeChannel channel trigMode tccNum evtQNum → Freed channel (call.run before).2

/-- The state in which a channel is freed as it should be. -/
structure Channel.Frees (channel : Channel) (trigMode tccNum : Nat) (before : Controller) :
    Prop where
  queue : channel.queue before = 0
  neighbours : ∀ other, other.queueCell = channel.queueCell → other ≠ channel →
    other.queue before = 7
  lower : ∀ chNum other : Fin 8, channel = .qdma chNum → other < chNum →
    (Channel.qdma other).inShadow before = false
  code : channel.codes ≤ tccNum → channel.interrupts before = false
  transfer : trigMode ≠ dmaTrigModeManual → ∀ other, other ≠ channel →
    transferChannel channel.number trigMode = some other → other.enabled before = false

/-- The state in which an operation does what it should. -/
def Call.Fits : Call → Controller → Prop
  | .requestChannel _ _ _, _ => True
  | .freeChannel channel trigMode tccNum _, before => channel.Frees trigMode tccNum before
  | .enableTransfer _ _, _ => True
  | .disableTransfer chNum trigMode, before => trigMode = dmaTrigModeEvent →
      chNum.val < 32 ∨ (Channel.dma chNum).enabled before = false

/-! ## Opening a channel -/

section Calls

variable {before : Controller} {channel other : Channel} {trigMode tccNum : Nat} {evtQNum : Word}
  {aspect : Aspect}

/-- What a request does after the shadow region and the queue. -/
theorem agree_requestChannel (param : .param ≠ aspect) (interrupt : .interrupt ≠ aspect) :
    AgreeOn aspect
      (dmaMapChToEvtQ channel.chType channel.chNum evtQNum
        (dmaEnableChInShadowReg channel.chType channel.chNum before))
      (dmaRequestChannel channel.chType channel.chNum tccNum evtQNum before).2 := by
  rw [requestChannel_eq]
  split
  · exact .after (agree_setTcc param) (agree_orBit interrupt interrupt)
  · exact agree_setTcc param

theorem queue_requestChannel :
    other.queue (dmaRequestChannel channel.chType channel.chNum tccNum evtQNum before).2 =
      if other = channel then channel.kept before ||| evtQNum.setWidth 3
      else other.queue before := by
  rw [Channel.queue_congr (agree_requestChannel (by decide) (by decide)), queue_map,
    Channel.kept_congr (agree_enableCh (by decide)),
    Channel.queue_congr (agree_enableCh (by decide))]

/-- A request leaves the other channels alone. -/
theorem isolated_requestChannel : Isolated (some channel) before
    (dmaRequestChannel channel.chType channel.chNum tccNum evtQNum before).2 where
  enabled := fun other _ => Channel.enabled_congr
    (.after (agree_requestChannel (by decide) (by decide))
      (.after (agree_map (by decide)) (agree_enableCh (by decide))))
  inShadow := fun other apart => by
    rw [Channel.inShadow_congr (agree_requestChannel (by decide) (by decide)),
      Channel.inShadow_congr (agree_map (by decide)), inShadow_enableCh,
      if_neg fun same => apart (congrArg some same.symm)]
  interrupts := fun other apart => by
    have mapped : other.interrupts (dmaMapChToEvtQ channel.chType channel.chNum evtQNum
        (dmaEnableChInShadowReg channel.chType channel.chNum before)) = other.interrupts before :=
      Channel.interrupts_congr (.after (agree_map (by decide)) (agree_enableCh (by decide)))
    rw [requestChannel_eq, Channel.interrupts_congr (agree_setTcc (by decide))]
    split
    · rw [interrupts_enableEvtIntr, if_neg (apart channel rfl).symm, mapped]
    · exact mapped
  queue := fun other apart =>
    queue_requestChannel.trans (if_neg fun same => apart (congrArg some same.symm))

/-- So does a transfer that starts. -/
theorem isolated_enableTransfer {chNum : Fin 64} : Isolated (transferChannel chNum trigMode) before
    (dmaEnableTransfer chNum trigMode before).2 where
  enabled := fun other apart => enabled_enableTransfer apart
  inShadow := fun other _ => Channel.inShadow_congr (agree_enableTransfer (by decide) (by decide))
  interrupts := fun other _ =>
    Channel.interrupts_congr (agree_enableTransfer (by decide) (by decide))
  queue := fun other _ => Channel.queue_congr (agree_enableTransfer (by decide) (by decide))

/-! ## Closing a channel -/

/-- So does one that ends. -/
theorem isolated_disableTransfer {chNum : Fin 64} : Isolated (transferChannel chNum trigMode) before
    (dmaDisableTransfer chNum trigMode before).2 where
  enabled := fun other apart =>
    enabled_disableTransfer.trans (if_neg fun all => apart all.1)
  inShadow := fun other _ => Channel.inShadow_congr (agree_disableTransfer (by decide) (by decide))
  interrupts := fun other _ =>
    Channel.interrupts_congr (agree_disableTransfer (by decide) (by decide))
  queue := fun other _ => Channel.queue_congr (agree_disableTransfer (by decide) (by decide))

/-- What the end of a channel does after the queue. -/
theorem agree_freeChannel (interrupt : .interrupt ≠ aspect) :
    AgreeOn aspect
      (dmaUnmapChToEvtQ channel.chType channel.chNum
        (dmaDisableChInShadowReg channel.chType channel.chNum
          (dmaDisableTransfer channel.chNum trigMode before).2))
      (dmaFreeChannel channel.chType channel.chNum trigMode tccNum evtQNum before).2 := by
  rw [freeChannel_eq]
  split
  · exact agree_orBit interrupt interrupt
  · exact .refl

theorem enabled_freeChannel :
    other.enabled (dmaFreeChannel channel.chType channel.chNum trigMode tccNum evtQNum before).2 =
      other.enabled (dmaDisableTransfer channel.number trigMode before).2 := by
  have number : channel.chNum = channel.number := by cases channel <;> rfl
  rw [← number]
  exact Channel.enabled_congr (.after (agree_freeChannel (by decide))
    (.after (agree_unmap (by decide)) (agree_disableCh (by decide))))

theorem inShadow_freeChannel :
    other.inShadow (dmaFreeChannel channel.chType channel.chNum trigMode tccNum evtQNum
      before).2 = true ↔ ¬ channel.Leaves other ∧ other.inShadow before = true := by
  have shadow : other.inShadow (dmaFreeChannel channel.chType channel.chNum trigMode tccNum evtQNum
      before).2 = other.inShadow (dmaDisableChInShadowReg channel.chType channel.chNum
        (dmaDisableTransfer channel.chNum trigMode before).2) :=
    Channel.inShadow_congr (.after (agree_freeChannel (by decide)) (agree_unmap (by decide)))
  rw [shadow, inShadow_disableCh,
    Channel.inShadow_congr (agree_disableTransfer (by decide) (by decide))]

theorem interrupts_freeChannel :
    other.interrupts (dmaFreeChannel channel.chType channel.chNum trigMode tccNum evtQNum
      before).2 = if tccNum < channel.codes ∧ other.chNum = channel.chNum then false
        else other.interrupts before := by
  have kept : other.interrupts (dmaUnmapChToEvtQ channel.chType channel.chNum
      (dmaDisableChInShadowReg channel.chType channel.chNum
        (dmaDisableTransfer channel.chNum trigMode before).2)) = other.interrupts before :=
    Channel.interrupts_congr (.after (agree_unmap (by decide)) (.after (agree_disableCh (by decide))
      (agree_disableTransfer (by decide) (by decide))))
  rw [freeChannel_eq]
  by_cases valid : tccNum < channel.codes
  · rw [if_pos valid, interrupts_disableEvtIntr, kept]
    simp only [valid, true_and]
  · rw [if_neg valid, if_neg fun both => valid both.1, kept]

theorem queue_freeChannel :
    other.queue (dmaFreeChannel channel.chType channel.chNum trigMode tccNum evtQNum before).2 =
      if other.queueCell = channel.queueCell ∧ other ≠ channel then 7
      else other.queue before := by
  have kept : other.queue (dmaDisableChInShadowReg channel.chType channel.chNum
      (dmaDisableTransfer channel.chNum trigMode before).2) = other.queue before :=
    Channel.queue_congr (.after (agree_disableCh (by decide))
      (agree_disableTransfer (by decide) (by decide)))
  rw [Channel.queue_congr (agree_freeChannel (by decide)), queue_unmap, kept]

variable (evtQNum)

/-- A channel that is freed in such a state leaves the others alone. -/
theorem Frees.isolated (frees : channel.Frees trigMode tccNum before) :
    Isolated (some channel) before
      (dmaFreeChannel channel.chType channel.chNum trigMode tccNum evtQNum before).2 where
  enabled := fun other apart => by
    have different : other ≠ channel := fun same => apart (congrArg some same.symm)
    rw [enabled_freeChannel, enabled_disableTransfer]
    split
    · next all => exact (frees.transfer all.2.1 other different all.1).symm
    · rfl
  inShadow := fun other apart => by
    rw [Bool.eq_iff_iff, inShadow_freeChannel, and_iff_right_iff_imp]
    intro shadow leaves
    have different : other ≠ channel := fun same => apart (congrArg some same.symm)
    cases channel with
    | dma number =>
        cases other with
        | dma other => exact different (Channel.dma_inj.mpr leaves)
        | qdma other => exact leaves
    | qdma number =>
        cases other with
        | dma other => exact leaves
        | qdma other =>
            have lower : other < number :=
              Nat.lt_of_le_of_ne leaves fun same => different (Channel.qdma_inj.mpr same)
            rw [frees.lower number other rfl lower] at shadow
            cases shadow
  interrupts := fun other apart =>
    interrupts_freeChannel.trans (if_neg fun both => apart channel rfl both.2.symm)
  queue := fun other apart => by
    rw [queue_freeChannel]
    split
    · next both => exact (frees.neighbours other both.1 both.2).symm
    · rfl

/-- It is freed. -/
theorem Frees.freed (frees : channel.Frees trigMode tccNum before) : Freed channel
    (dmaFreeChannel channel.chType channel.chNum trigMode tccNum evtQNum before).2 := by
  have queue : channel.queue
      (dmaFreeChannel channel.chType channel.chNum trigMode tccNum evtQNum before).2 = 0 := by
    rw [queue_freeChannel, if_neg fun both => both.2 rfl]
    exact frees.queue
  refine ⟨?_, ?_, queue, fun code evtQNum' => ?_⟩
  · rw [← Bool.not_eq_true, inShadow_freeChannel]
    rintro ⟨stays, _⟩
    cases channel with
    | dma number => exact stays rfl
    | qdma number => exact stays (Nat.le_refl _)
  · rw [interrupts_freeChannel]
    split
    · rfl
    · next invalid => exact frees.code (Nat.le_of_not_lt fun valid => invalid ⟨valid, rfl⟩)
  · have kept : channel.kept
        (dmaFreeChannel channel.chType channel.chNum trigMode tccNum evtQNum before).2 = 0 := by
      cases channel with
      | dma number => rfl
      | qdma number => exact queue
    refine (queue_requestChannel.trans (if_pos rfl)).trans ?_
    rw [kept, BitVec.setWidth_setWidth_of_le _ (by decide), BitVec.setWidth_eq]
    exact BitVec.zero_or

/-- A channel that is freed as it should be is in such a state. -/
theorem frees_of_isolated
    (isolated : Isolated (some channel) before
      (dmaFreeChannel channel.chType channel.chNum trigMode tccNum evtQNum before).2)
    (freed : Freed channel
      (dmaFreeChannel channel.chType channel.chNum trigMode tccNum evtQNum before).2) :
    channel.Frees trigMode tccNum before where
  queue := by
    have queue := freed.queue
    rwa [queue_freeChannel, if_neg fun both => both.2 rfl] at queue
  neighbours := fun other word different => by
    have kept := isolated.queue other fun same => different (Option.some.inj same).symm
    rw [queue_freeChannel, if_pos ⟨word, different⟩] at kept
    exact kept.symm
  lower := fun number other is lower => by
    subst is
    rw [← Bool.not_eq_true]
    intro shadow
    have kept := isolated.inShadow (.qdma other) fun same =>
      Fin.ne_of_lt lower (Channel.qdma.inj (Option.some.inj same)).symm
    rw [shadow, inShadow_freeChannel] at kept
    exact kept.1 (Nat.le_of_lt lower)
  code := fun invalid => by
    have interrupts := freed.interrupts
    rwa [interrupts_freeChannel, if_neg fun both => Nat.not_lt.mpr invalid both.1] at interrupts
  transfer := fun manual other different transfer => by
    have kept := isolated.enabled other fun same => different (Option.some.inj same).symm
    have small : trigMode = dmaTrigModeEvent → channel.number.val < 32 := by
      intro event
      rw [event, transferChannel_event, Option.some_inj] at transfer
      cases channel with
      | dma number => exact absurd transfer.symm different
      | qdma number => exact Nat.lt_trans number.isLt (by decide)
    rw [enabled_freeChannel, enabled_disableTransfer, if_pos ⟨transfer, manual, small⟩] at kept
    exact kept.symm

end Calls

/-- The operations on a channel are isolated and undo each other in these states alone. -/
theorem isolation_iff (call : Call) (before : Controller) :
    call.Meets before ↔ call.Fits before := by
  cases call with
  | requestChannel channel tccNum evtQNum =>
      exact iff_of_true ⟨isolated_requestChannel, nofun, nofun⟩ trivial
  | enableTransfer chNum trigMode =>
      exact iff_of_true ⟨isolated_enableTransfer, nofun, nofun⟩ trivial
  | disableTransfer chNum trigMode =>
      constructor
      · intro meets event
        subst event
        have disabled := meets.disabled chNum rfl
        by_cases low : chNum.val < 32
        · exact .inl low
        · refine .inr (disabled.symm.trans (enabled_disableTransfer.trans (if_neg ?_))).symm
          exact fun all => low (all.2.2 rfl)
      · intro fits
        refine ⟨isolated_disableTransfer, fun other is => ?_, nofun⟩
        cases is
        refine enabled_disableTransfer.trans ?_
        split
        · rfl
        · next not =>
            refine (fits rfl).resolve_left fun low => not ?_
            exact ⟨transferChannel_event, by decide, fun _ => low⟩
  | freeChannel channel trigMode tccNum evtQNum =>
      constructor
      · intro meets
        exact frees_of_isolated (evtQNum.setWidth 32) meets.isolated
          (meets.freed channel trigMode tccNum evtQNum rfl)
      · intro frees
        refine ⟨Frees.isolated (evtQNum.setWidth 32) frees, nofun, fun other mode code queue is => ?_⟩
        cases is
        exact Frees.freed (evtQNum.setWidth 32) frees

/-- A freed channel gives the others of its word the queue number seven. -/
theorem not_isolation : ¬ ∀ (call : Call) (before : Controller), call.Meets before := by
  intro meets
  have isolated := (meets (.freeChannel (.dma 0) dmaTrigModeEvent 0 0) fun _ => 0).isolated
  have kept := isolated.queue (.dma 1) nofun
  have filled : (Channel.dma 1).queue (dmaFreeChannel (Channel.dma 0).chType (Channel.dma 0).chNum
      dmaTrigModeEvent 0 0 fun _ => 0).2 = 7 :=
    queue_freeChannel.trans (if_pos ⟨rfl, nofun⟩)
  cases filled.symm.trans kept

end BbbEth.Edma
