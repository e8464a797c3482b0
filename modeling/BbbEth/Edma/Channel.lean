import BbbEth.Edma.Driver

/-!
# Channels

What the registers say of a channel: whether it is enabled, whether it is in the shadow region,
whether its interrupt is enabled, and its event queue.
-/

namespace BbbEth.Edma

open BbbEth.Registers

/-- A channel. -/
inductive Channel where
  | dma (chNum : Fin 64)
  | qdma (chNum : Fin 8)
  deriving DecidableEq

/-- The channel of a transfer. -/
def transferChannel (chNum : Fin 64) (trigMode : Nat) : Option Channel :=
  if trigMode = dmaTrigModeManual ∨ trigMode = dmaTrigModeEvent then some (.dma chNum)
  else if inside : trigMode = dmaTrigModeQdma ∧ chNum.val < 8 then some (.qdma ⟨chNum, inside.2⟩)
  else none

section TransferChannel

variable {chNum : Fin 64}

theorem transferChannel_event : transferChannel chNum dmaTrigModeEvent = some (.dma chNum) :=
  if_pos (.inr rfl)

theorem transferChannel_qdma (inside : chNum.val < 8) :
    transferChannel chNum dmaTrigModeQdma = some (.qdma ⟨chNum, inside⟩) :=
  (if_neg (by decide)).trans (dif_pos ⟨rfl, inside⟩)

theorem transferChannel_outside (outside : ¬ chNum.val < 8) :
    transferChannel chNum dmaTrigModeQdma = none :=
  (if_neg (by decide)).trans (dif_neg fun both => outside both.2)

theorem transferChannel_none {trigMode : Nat} (manual : trigMode ≠ dmaTrigModeManual)
    (qdma : trigMode ≠ dmaTrigModeQdma) (event : trigMode ≠ dmaTrigModeEvent) :
    transferChannel chNum trigMode = none :=
  (if_neg (not_or_intro manual event)).trans (dif_neg fun both => qdma both.1)

end TransferChannel

/-- What a word says of channels. -/
inductive Aspect where
  | param
  | queue
  | shadow
  | event
  | enable
  | interrupt
  deriving DecidableEq

/-- What a word is for. -/
def Cell.aspect : Cell → Aspect
  | .opt _ => .param
  | .dmaqnum _ | .qdmaqnum => .queue
  | .drae | .draeh | .qrae => .shadow
  | .emr | .emrh | .er | .erh | .ser | .serh => .event
  | .eer | .eerh | .qeer => .enable
  | .ier | .ierh => .interrupt

/-- Two states agree on what some words are for. -/
def AgreeOn (aspect : Aspect) (before after : Controller) : Prop :=
  ∀ cell : Cell, cell.aspect = aspect → after cell = before cell

/-- A bit of two words. -/
def pairBit (low high : Cell) (number : Nat) (controller : Controller) : Bool :=
  if number < 32 then (controller low).getLsbD number else (controller high).getLsbD (number - 32)

theorem pairBit_congr {low high : Cell} {number : Nat} {before after : Controller}
    (lower : after low = before low) (upper : after high = before high) :
    pairBit low high number after = pairBit low high number before := by
  unfold pairBit
  rw [lower, upper]

/-- A field of a word. -/
def field (number : Nat) (word : Word) : BitVec 3 := word.extractLsb' (number * 4) 3

namespace Channel

/-- The type of a channel. -/
def chType : Channel → Nat
  | .dma _ => dmaChannelTypeDma
  | .qdma _ => dmaChannelTypeQdma

/-- The number of a channel. -/
def chNum : Channel → Nat
  | .dma chNum => chNum
  | .qdma chNum => chNum

/-- The number of a channel among those of the controller. -/
def number (channel : Channel) : Fin 64 :=
  match channel with
  | .dma chNum => chNum
  | .qdma chNum => chNum.castLE (by decide)

/-- The number of completion codes for a channel. -/
def codes : Channel → Nat
  | .dma _ => socDmaNumDmach
  | .qdma _ => socDmaNumQdmach

/-- The event-enable bit. -/
def enabled (controller : Controller) : Channel → Bool
  | .dma chNum => pairBit .eer .eerh chNum controller
  | .qdma chNum => (controller .qeer).getLsbD chNum

/-- The bit of the shadow region. -/
def inShadow (controller : Controller) : Channel → Bool
  | .dma chNum => pairBit .drae .draeh chNum controller
  | .qdma chNum => (controller .qrae).getLsbD chNum

/-- The interrupt-enable bit, which a DMA and a QDMA channel of one number share. -/
def interrupts (controller : Controller) (channel : Channel) : Bool :=
  pairBit .ier .ierh channel.chNum controller

/-- The word with the queue number. -/
def queueCell : Channel → Cell
  | .dma chNum => .dmaqnum (chNum.val >>> 3)
  | .qdma _ => .qdmaqnum

/-- The field of the queue number. -/
def queueField : Channel → Nat
  | .dma chNum => chNum % 8
  | .qdma chNum => chNum

/-- The queue number. -/
def queue (controller : Controller) (channel : Channel) : BitVec 3 :=
  field channel.queueField (controller channel.queueCell)

/-- The bits of a queue number that a request keeps. -/
def kept (controller : Controller) : Channel → BitVec 3
  | .dma _ => 0
  | .qdma chNum => (Channel.qdma chNum).queue controller

variable {before after : Controller} {channel : Channel}

theorem chNum_lt (channel : Channel) : channel.chNum < socDmaNumDmach := by
  cases channel with
  | dma chNum => exact chNum.isLt
  | qdma chNum => exact Nat.lt_trans chNum.isLt (by decide)

/-! ## What a channel depends on -/

theorem enabled_congr (agree : AgreeOn .enable before after) :
    channel.enabled after = channel.enabled before := by
  cases channel with
  | dma chNum => exact pairBit_congr (agree _ rfl) (agree _ rfl)
  | qdma chNum => exact congrArg (BitVec.getLsbD · chNum) (agree _ rfl)

theorem inShadow_congr (agree : AgreeOn .shadow before after) :
    channel.inShadow after = channel.inShadow before := by
  cases channel with
  | dma chNum => exact pairBit_congr (agree _ rfl) (agree _ rfl)
  | qdma chNum => exact congrArg (BitVec.getLsbD · chNum) (agree _ rfl)

theorem interrupts_congr (agree : AgreeOn .interrupt before after) :
    channel.interrupts after = channel.interrupts before :=
  pairBit_congr (agree _ rfl) (agree _ rfl)

theorem queue_congr (agree : AgreeOn .queue before after) :
    channel.queue after = channel.queue before := by
  cases channel with
  | dma chNum => exact congrArg (field _) (agree _ rfl)
  | qdma chNum => exact congrArg (field _) (agree _ rfl)

theorem kept_congr (agree : AgreeOn .queue before after) :
    channel.kept after = channel.kept before := by
  cases channel with
  | dma chNum => rfl
  | qdma chNum => exact queue_congr agree

/-! ## Numbers -/

theorem dma_inj {number other : Fin 64} :
    Channel.dma other = .dma number ↔ other.val = number.val := by
  rw [Channel.dma.injEq, Fin.ext_iff]

theorem qdma_inj {number other : Fin 8} :
    Channel.qdma other = .qdma number ↔ other.val = number.val := by
  rw [Channel.qdma.injEq, Fin.ext_iff]

theorem queueField_lt (channel : Channel) : channel.queueField < 8 := by
  cases channel with
  | dma chNum => exact Nat.mod_lt _ (by decide)
  | qdma chNum => exact chNum.isLt

/-- A channel is given by the place of its queue number. -/
theorem queueField_inj {other : Channel} (word : other.queueCell = channel.queueCell) :
    other.queueField = channel.queueField ↔ other = channel := by
  cases channel with
  | dma chNum =>
      cases other with
      | dma other =>
          have quotient : other.val >>> 3 = chNum.val >>> 3 := Cell.dmaqnum.inj word
          rw [Nat.shiftRight_eq_div_pow, Nat.shiftRight_eq_div_pow] at quotient
          rw [dma_inj]
          change other.val % 8 = chNum.val % 8 ↔ _
          omega
      | qdma other => cases word
  | qdma chNum =>
      cases other with
      | dma other => cases word
      | qdma other => exact qdma_inj.symm

end Channel

/-! ## Bits -/

section Bits

variable {controller : Controller} {low high cell : Cell} {view : View} {number other : Nat}
  {first second : Register Cell}

theorem getLsbD_one {index number : Nat} (inside : index < 32) :
    (bit number).getLsbD index = decide (index = number) :=
  File.getLsbD_bit inside

theorem orBit_of_ne (apart : cell ≠ first.cell) (apart' : cell ≠ second.cell) :
    orBit first second number controller cell = controller cell := by
  unfold orBit
  split
  · exact File.orInto_of_ne apart
  · exact File.orInto_of_ne apart'

/-- Words for different aspects are different. -/
theorem ne_of_aspect {aspect : Aspect} (is : cell.aspect = aspect) (not : low.aspect ≠ aspect) :
    cell ≠ low := by
  rintro rfl
  exact not is

/-- The bit of one number is written. -/
theorem pairBit_orBit (apart : low ≠ high) (inside : number < 64) (inside' : other < 64) :
    pairBit low high other (orBit ⟨low, view⟩ ⟨high, view⟩ number controller) =
      if other = number then decide (view ≠ .clear) else pairBit low high other controller := by
  unfold pairBit orBit
  by_cases lower : other < 32
  · rw [if_pos lower, if_pos lower]
    split
    · exact File.getLsbD_orInto lower
    · next upper =>
        have different : other ≠ number := fun same => upper (same ▸ lower)
        rw [if_neg different, File.orInto_of_ne apart]
  · rw [if_neg lower, if_neg lower]
    split
    · next lower' =>
        have different : other ≠ number := fun same => lower (same ▸ lower')
        rw [if_neg different, File.orInto_of_ne apart.symm]
    · next upper =>
        have reduced : other - 32 = number - 32 ↔ other = number := by omega
        refine (File.getLsbD_orInto (by omega)).trans ?_
        simp only [reduced]

end Bits

/-! ## Fields -/

section Fields

variable {number other : Nat} {word : Word}

/-- The bits of a field. -/
theorem getLsbD_field {index : Nat} (inside : index < 3) :
    (field number word).getLsbD index = word.getLsbD (number * 4 + index) := by
  unfold field
  rw [BitVec.getLsbD_extractLsb', decide_eq_true inside, Bool.true_and]

/-- The bits of a queue number in its place. -/
theorem getLsbD_place {index : Nat} (inside : index < 3) (small : other < 8) (queNum : Word) :
    (((0x7 : Word) &&& queNum) <<< (number * 4)).getLsbD (other * 4 + index) =
      (decide (other = number) && queNum.getLsbD index) := by
  have seven : ∀ place, (0x7 : Word).getLsbD place = decide (place < 3) := by
    intro place
    by_cases low : place < 32
    · have all : ∀ place : Fin 32, (0x7 : Word).getLsbD place = decide (place.val < 3) := by decide
      exact all ⟨place, low⟩
    · have ge : 32 ≤ place := by omega
      have high : ¬ place < 3 := by omega
      rw [BitVec.getLsbD_of_ge _ _ ge, decide_eq_false high]
  rw [BitVec.getLsbD_shiftLeft, BitVec.getLsbD_and, seven]
  by_cases same : other = number
  · subst same
    have fits : other * 4 + index < 32 := by omega
    have place : other * 4 + index - other * 4 = index := by omega
    simp [fits, place, inside]
  · by_cases before : other * 4 + index < number * 4
    · simp [before, same]
    · have away : ¬ other * 4 + index - number * 4 < 3 := by omega
      simp [away, same]

/-- The bits of the mask of a field. -/
theorem getLsbD_mask {index : Nat} (inside : index < 3) (small : other < 8) :
    ((0x7 : Word) <<< (number * 4)).getLsbD (other * 4 + index) = decide (other = number) := by
  have ones : (0x7 : Word) &&& 0xffffffff = 0x7 := by decide
  have all : ∀ index, index < 3 → (0xffffffff : Word).getLsbD index = true := by decide
  have place : (((0x7 : Word) &&& 0xffffffff) <<< (number * 4)).getLsbD (other * 4 + index) = _ :=
    getLsbD_place inside small 0xffffffff
  rwa [ones, all index inside, Bool.and_true] at place

/-- A field that is cleared and set. -/
theorem field_replace (small : other < 8) (queNum : Word) :
    field other (word &&& ~~~ ((0x7 : Word) <<< (number * 4)) |||
      ((0x7 : Word) &&& queNum) <<< (number * 4)) =
        if other = number then queNum.setWidth 3 else field other word := by
  apply BitVec.eq_of_getLsbD_eq
  intro index inside
  have low : other * 4 + index < 32 := by omega
  rw [getLsbD_field inside, BitVec.getLsbD_or, BitVec.getLsbD_and, BitVec.getLsbD_not,
    getLsbD_mask inside small, getLsbD_place inside small, decide_eq_true low]
  split
  · next same => simp [same, inside]
  · next different => simp [different, getLsbD_field inside]

/-- A field to which bits are added. -/
theorem field_orSet (small : other < 8) (queNum : Word) :
    field other (word ||| ((0x7 : Word) &&& queNum) <<< (number * 4)) =
      if other = number then field other word ||| queNum.setWidth 3 else field other word := by
  apply BitVec.eq_of_getLsbD_eq
  intro index inside
  rw [getLsbD_field inside, BitVec.getLsbD_or, getLsbD_place inside small]
  split
  · next same =>
      rw [BitVec.getLsbD_or, getLsbD_field inside]
      simp [same, inside]
  · next different => simp [different, getLsbD_field inside]

/-- The mask that clears a field fills every other one. -/
theorem field_orClr (small : other < 8) :
    field other (word ||| ~~~ ((0x7 : Word) <<< (number * 4))) =
      if other = number then field other word else 7 := by
  apply BitVec.eq_of_getLsbD_eq
  intro index inside
  have low : other * 4 + index < 32 := by omega
  rw [getLsbD_field inside, BitVec.getLsbD_or, BitVec.getLsbD_not, getLsbD_mask inside small,
    decide_eq_true low]
  split
  · next same => simp [same, getLsbD_field inside]
  · next different =>
      have ones : ∀ index, index < 3 → (7 : BitVec 3).getLsbD index = true := by decide
      rw [ones index inside]
      simp [different]

end Fields

end BbbEth.Edma
