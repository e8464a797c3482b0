import BbbEth.Edma.Channel

/-!
# What the routines change

Each routine writes words for one aspect of channels, and the bits or the field of its own
channel; where it does more, its lemma says so.
-/

namespace BbbEth.Edma

open BbbEth.Registers

/-! ## Stores -/

section Routines

variable {controller : Controller} {channel other : Channel} {cell : Cell} {number : Nat}

theorem enableCh_dma : dmaEnableChInShadowReg dmaChannelTypeDma number controller =
    orBit dmaccDrae dmaccDraeh number controller :=
  if_pos rfl

theorem enableCh_qdma : dmaEnableChInShadowReg dmaChannelTypeQdma number controller =
    controller.orInto dmaccQrae (bit number) :=
  (if_neg (by decide)).trans (if_pos rfl)

theorem disableCh_dma : dmaDisableChInShadowReg dmaChannelTypeDma number controller =
    orBit ⟨.drae, .clear⟩ ⟨.draeh, .clear⟩ number controller := by
  refine (if_pos rfl).trans ?_
  unfold orBit
  split
  · exact File.andInto_not
  · exact File.andInto_not

theorem disableCh_qdma : dmaDisableChInShadowReg dmaChannelTypeQdma number controller =
    controller.andInto dmaccQrae ((~~~ 0x01 : Word) <<< number) :=
  (if_neg (by decide)).trans (if_pos rfl)

theorem map_dma {evtQNum : Word} : dmaMapChToEvtQ dmaChannelTypeDma number evtQNum controller =
    (controller.andInto (dmaccDmaqnum (number >>> 3)) (dmaccDmaqnumClr number)).orInto
      (dmaccDmaqnum (number >>> 3)) (dmaccDmaqnumSet number evtQNum) :=
  if_pos rfl

theorem map_qdma {evtQNum : Word} : dmaMapChToEvtQ dmaChannelTypeQdma number evtQNum controller =
    controller.orInto dmaccQdmaqnum (dmaccQdmaqnumSet number evtQNum) :=
  (if_neg (by decide)).trans (if_pos rfl)

theorem unmap_eq : dmaUnmapChToEvtQ channel.chType channel.chNum controller =
    controller.orInto ⟨channel.queueCell, .plain⟩
      (~~~ ((0x7 : Word) <<< (channel.queueField * 4))) := by
  cases channel with
  | dma _ => exact if_pos rfl
  | qdma _ =>
      have other : dmaChannelTypeQdma ≠ dmaChannelTypeDma := by decide
      exact (if_neg other).trans (if_pos rfl)

/-! ## Aspects that a routine leaves -/

variable {aspect : Aspect}

theorem agree_orInto {register : Register Cell} {value : Word}
    (apart : register.cell.aspect ≠ aspect) :
    AgreeOn aspect controller (controller.orInto register value) :=
  fun _ is => File.orInto_of_ne (ne_of_aspect is apart)

theorem agree_write {register : Register Cell} {value : Word}
    (apart : register.cell.aspect ≠ aspect) :
    AgreeOn aspect controller (controller.write register value) :=
  fun _ is => File.write_of_ne (ne_of_aspect is apart)

theorem agree_andInto {register : Register Cell} {value : Word}
    (apart : register.cell.aspect ≠ aspect) :
    AgreeOn aspect controller (controller.andInto register value) :=
  fun _ is => File.andInto_of_ne (ne_of_aspect is apart)

theorem agree_orBit {low high : Register Cell} (apart : low.cell.aspect ≠ aspect)
    (apart' : high.cell.aspect ≠ aspect) :
    AgreeOn aspect controller (orBit low high number controller) :=
  fun _ is => orBit_of_ne (ne_of_aspect is apart) (ne_of_aspect is apart')

theorem AgreeOn.after {before middle after : Controller} (second : AgreeOn aspect middle after)
    (first : AgreeOn aspect before middle) : AgreeOn aspect before after :=
  fun cell is => (second cell is).trans (first cell is)

theorem AgreeOn.refl : AgreeOn aspect controller controller := fun _ _ => rfl

theorem agree_enableCh (apart : .shadow ≠ aspect) :
    AgreeOn aspect controller (dmaEnableChInShadowReg channel.chType channel.chNum controller) := by
  cases channel with
  | dma _ => exact enableCh_dma ▸ agree_orBit apart apart
  | qdma _ => exact enableCh_qdma ▸ agree_orInto apart

theorem agree_disableCh (apart : .shadow ≠ aspect) :
    AgreeOn aspect controller (dmaDisableChInShadowReg channel.chType channel.chNum controller) := by
  cases channel with
  | dma _ => exact disableCh_dma ▸ agree_orBit apart apart
  | qdma _ => exact disableCh_qdma ▸ agree_andInto apart

theorem agree_map {evtQNum : Word} (apart : .queue ≠ aspect) :
    AgreeOn aspect controller (dmaMapChToEvtQ channel.chType channel.chNum evtQNum controller) := by
  cases channel with
  | dma _ => exact map_dma ▸ .after (agree_orInto apart) (agree_andInto apart)
  | qdma _ => exact map_qdma ▸ agree_orInto apart

theorem agree_unmap (apart : .queue ≠ aspect) :
    AgreeOn aspect controller (dmaUnmapChToEvtQ channel.chType channel.chNum controller) := by
  rw [unmap_eq]
  cases channel with
  | dma _ => exact agree_orInto apart
  | qdma _ => exact agree_orInto apart

theorem agree_clrMissEvt (apart : .event ≠ aspect) :
    AgreeOn aspect controller (dmaClrMissEvt number controller) := by
  unfold dmaClrMissEvt
  split
  · exact .after (agree_orInto apart) (agree_write apart)
  · exact .after (agree_orInto apart) (agree_write apart)

theorem agree_setTcc {tccNum : Nat} (apart : .param ≠ aspect) :
    AgreeOn aspect controller (setTcc number tccNum controller) :=
  .after (agree_orInto apart) (agree_andInto apart)

theorem agree_disableDmaEvt (apart : .enable ≠ aspect) :
    AgreeOn aspect controller (dmaDisableDmaEvt number controller) := by
  unfold dmaDisableDmaEvt
  split
  · exact agree_orInto apart
  · exact agree_orInto apart

theorem agree_enableTransfer {trigMode : Nat} (event : .event ≠ aspect) (enable : .enable ≠ aspect) :
    AgreeOn aspect controller (dmaEnableTransfer number trigMode controller).2 := by
  unfold dmaEnableTransfer
  split
  · split
    · exact agree_orBit event event
    · exact .refl
  · split
    · split
      · exact agree_write enable
      · exact .refl
    · split
      · split
        · exact .after (agree_orBit enable enable) (agree_clrMissEvt event)
        · exact .refl
      · exact .refl

theorem agree_disableTransfer {trigMode : Nat} (event : .event ≠ aspect)
    (enable : .enable ≠ aspect) :
    AgreeOn aspect controller (dmaDisableTransfer number trigMode controller).2 := by
  unfold dmaDisableTransfer
  split
  · split
    · exact agree_orBit event event
    · exact .refl
  · split
    · split
      · exact agree_write enable
      · exact .refl
    · split
      · split
        · exact .after (agree_disableDmaEvt enable) (agree_clrMissEvt event)
        · exact .refl
      · exact .refl

/-! ## What a routine changes -/

/-- A channel comes into the shadow region. -/
theorem inShadow_enableCh :
    other.inShadow (dmaEnableChInShadowReg channel.chType channel.chNum controller) =
      if other = channel then true else other.inShadow controller := by
  cases channel with
  | dma number =>
      refine (congrArg other.inShadow enableCh_dma).trans ?_
      cases other with
      | dma other =>
          simp only [Channel.dma_inj]
          exact pairBit_orBit (by decide) number.isLt other.isLt
      | qdma other =>
          rw [if_neg nofun]
          exact congrArg (BitVec.getLsbD · other) (orBit_of_ne (by decide) (by decide))
  | qdma number =>
      refine (congrArg other.inShadow enableCh_qdma).trans ?_
      cases other with
      | dma other =>
          rw [if_neg nofun]
          exact pairBit_congr (File.orInto_of_ne (by decide)) (File.orInto_of_ne (by decide))
      | qdma other =>
          simp only [Channel.qdma_inj]
          exact File.getLsbD_orInto (by omega)

/-- Whether a channel leaves the shadow region with another one. -/
def Channel.Leaves : Channel → Channel → Prop
  | .dma number, .dma other => other.val = number.val
  | .qdma number, .qdma other => other.val ≤ number.val
  | _, _ => False

/-- The mask for a QDMA channel has the bits above it. -/
theorem getLsbD_above {other : Nat} (inside : other < 8) :
    ((~~~ 0x01 : Word) <<< number).getLsbD other = decide (number < other) := by
  have low : other < 32 := by omega
  have ones : ∀ place : Fin 8, (~~~ 0x01 : Word).getLsbD place = decide (0 < place.val) := by decide
  have one : (~~~ 0x01 : Word).getLsbD (other - number) = decide (0 < other - number) :=
    ones ⟨other - number, by omega⟩
  rw [BitVec.getLsbD_shiftLeft, one, decide_eq_true low, Bool.true_and]
  by_cases above : number < other
  · have apart : ¬ other < number := by omega
    have positive : 0 < other - number := by omega
    simp [above, apart, positive]
  · have zero : other - number = 0 := by omega
    simp [above, zero]

/-- A DMA channel leaves the shadow region alone, and a QDMA channel with those below it. -/
theorem inShadow_disableCh :
    other.inShadow (dmaDisableChInShadowReg channel.chType channel.chNum controller) = true ↔
      ¬ channel.Leaves other ∧ other.inShadow controller = true := by
  cases channel with
  | dma number =>
      refine (Bool.eq_iff_iff.mp (congrArg other.inShadow disableCh_dma)).trans ?_
      cases other with
      | dma other =>
          have bits : (Channel.dma other).inShadow (orBit ⟨.drae, .clear⟩ ⟨.draeh, .clear⟩ number
              controller) = if other.val = number.val then false else _ :=
            pairBit_orBit (by decide) number.isLt other.isLt
          refine (Bool.eq_iff_iff.mp bits).trans ?_
          unfold Channel.Leaves
          split
          · next same => simp [same]
          · next different => exact (and_iff_right different).symm
      | qdma other =>
          have bits : (Channel.qdma other).inShadow (orBit ⟨.drae, .clear⟩ ⟨.draeh, .clear⟩ number
              controller) = (Channel.qdma other).inShadow controller :=
            congrArg (BitVec.getLsbD · other) (orBit_of_ne (by decide) (by decide))
          exact (Bool.eq_iff_iff.mp bits).trans (and_iff_right id).symm
  | qdma number =>
      refine (Bool.eq_iff_iff.mp (congrArg other.inShadow disableCh_qdma)).trans ?_
      cases other with
      | dma other =>
          have bits : (Channel.dma other).inShadow (controller.andInto dmaccQrae
              ((~~~ 0x01 : Word) <<< number.val)) = (Channel.dma other).inShadow controller :=
            pairBit_congr (File.andInto_of_ne (by decide)) (File.andInto_of_ne (by decide))
          exact (Bool.eq_iff_iff.mp bits).trans (and_iff_right id).symm
      | qdma other =>
          have bits : (Channel.qdma other).inShadow (controller.andInto dmaccQrae
              ((~~~ 0x01 : Word) <<< number.val)) =
                ((controller .qrae).getLsbD other && decide (number.val < other.val)) := by
            refine (congrArg (BitVec.getLsbD · other) File.andInto_plain).trans ?_
            rw [BitVec.getLsbD_and, getLsbD_above other.isLt]
          refine (Bool.eq_iff_iff.mp bits).trans ?_
          unfold Channel.Leaves Channel.inShadow
          rw [Bool.and_eq_true, decide_eq_true_iff, Nat.not_le, and_comm]

/-- A bit of the interrupts is written. -/
theorem interrupts_enableEvtIntr :
    other.interrupts (dmaEnableEvtIntr channel.chNum controller) =
      if other.chNum = channel.chNum then true else other.interrupts controller :=
  pairBit_orBit (by decide) channel.chNum_lt other.chNum_lt

theorem interrupts_disableEvtIntr :
    other.interrupts (dmaDisableEvtIntr channel.chNum controller) =
      if other.chNum = channel.chNum then false else other.interrupts controller :=
  pairBit_orBit (by decide) channel.chNum_lt other.chNum_lt

/-- The queue number of a channel is replaced, or only gets bits. -/
theorem queue_map {evtQNum : Word} :
    other.queue (dmaMapChToEvtQ channel.chType channel.chNum evtQNum controller) =
      if other = channel then channel.kept controller ||| evtQNum.setWidth 3
      else other.queue controller := by
  by_cases word : other.queueCell = channel.queueCell
  · simp only [← Channel.queueField_inj word]
    unfold Channel.queue
    rw [word]
    cases channel with
    | dma number =>
        refine (congrArg (fun after : Controller => field _ (after _)) map_dma).trans ?_
        refine (congrArg (field _) File.orInto_plain).trans ?_
        refine (congrArg (fun bits => field _ (bits ||| _)) File.andInto_plain).trans ?_
        refine (field_replace other.queueField_lt evtQNum).trans ?_
        exact congrArg (ite _ · _) BitVec.zero_or.symm
    | qdma number =>
        refine (congrArg (fun after : Controller => field _ (after _)) map_qdma).trans ?_
        refine (congrArg (field _) File.orInto_plain).trans ?_
        refine (field_orSet other.queueField_lt evtQNum).trans ?_
        by_cases same : other.queueField = (Channel.qdma number).queueField
        · refine (if_pos same).trans (Eq.trans ?_ (if_pos same).symm)
          exact congrArg (fun place => field place _ ||| _) same
        · exact (if_neg same).trans (if_neg same).symm
  · rw [if_neg fun same => word (congrArg Channel.queueCell same)]
    refine congrArg (field _) ?_
    cases channel with
    | dma number =>
        exact (congrFun map_dma _).trans
          ((File.orInto_of_ne word).trans (File.andInto_of_ne word))
    | qdma number => exact (congrFun map_qdma _).trans (File.orInto_of_ne word)

/-- The queue number of a channel stays, and the others in its word are filled. -/
theorem queue_unmap :
    other.queue (dmaUnmapChToEvtQ channel.chType channel.chNum controller) =
      if other.queueCell = channel.queueCell ∧ other ≠ channel then 7
      else other.queue controller := by
  rw [unmap_eq]
  unfold Channel.queue
  by_cases word : other.queueCell = channel.queueCell
  · rw [word, File.orInto_plain, field_orClr other.queueField_lt]
    simp only [Channel.queueField_inj word, true_and, ne_eq, ite_not]
  · rw [if_neg fun both => word both.1, File.orInto_of_ne word]

/-! ## Transfers -/

/-- An event is enabled by its bit. -/
theorem enabled_enableDmaEvt {chNum : Fin 64} :
    other.enabled (dmaEnableDmaEvt chNum controller) =
      if other = .dma chNum then true else other.enabled controller := by
  cases other with
  | dma other =>
      simp only [Channel.dma_inj]
      exact pairBit_orBit (by decide) chNum.isLt other.isLt
  | qdma other =>
      rw [if_neg nofun]
      exact congrArg (BitVec.getLsbD · other) (orBit_of_ne (by decide) (by decide))

/-- The event of a lower channel is disabled, and that of an upper one stays. -/
theorem enabled_disableDmaEvt {chNum : Fin 64} :
    other.enabled (dmaDisableDmaEvt chNum controller) =
      if other = .dma chNum ∧ chNum.val < 32 then false else other.enabled controller := by
  unfold dmaDisableDmaEvt
  by_cases low : chNum.val < 32
  · have runs : controller.orInto dmaccSEecr (bit chNum) =
        orBit dmaccSEecr ⟨.eerh, .clear⟩ chNum controller := (if_pos low).symm
    rw [if_pos low, runs]
    cases other with
    | dma other =>
        simp only [Channel.dma_inj, low, and_true]
        exact pairBit_orBit (by decide) chNum.isLt other.isLt
    | qdma other =>
        rw [if_neg fun both => nomatch both.1]
        exact congrArg (BitVec.getLsbD · other) (orBit_of_ne (by decide) (by decide))
  · have zero : bit chNum = 0 := by
      apply BitVec.eq_of_getLsbD_eq
      intro index inside
      rw [getLsbD_one inside, decide_eq_false (by omega)]
      exact BitVec.getLsbD_zero.symm
    rw [if_neg low, if_neg fun both => low both.2, zero]
    exact congrArg other.enabled File.orInto_clear_zero

theorem enabled_enableQdmaEvt {chNum : Fin 8} :
    other.enabled (dmaEnableQdmaEvt chNum controller) =
      if other = .qdma chNum then true else other.enabled controller := by
  unfold dmaEnableQdmaEvt dmaccSQeesr
  rw [File.write_set_eq]
  cases other with
  | dma other =>
      rw [if_neg nofun]
      exact pairBit_congr (File.orInto_of_ne (by decide)) (File.orInto_of_ne (by decide))
  | qdma other =>
      simp only [Channel.qdma_inj]
      exact File.getLsbD_orInto (by omega)

theorem enabled_disableQdmaEvt {chNum : Fin 8} :
    other.enabled (dmaDisableQdmaEvt chNum controller) =
      if other = .qdma chNum then false else other.enabled controller := by
  unfold dmaDisableQdmaEvt dmaccSQeecr
  rw [File.write_clear_eq]
  cases other with
  | dma other =>
      rw [if_neg nofun]
      exact pairBit_congr (File.orInto_of_ne (by decide)) (File.orInto_of_ne (by decide))
  | qdma other =>
      simp only [Channel.qdma_inj]
      exact File.getLsbD_orInto (by omega)

section Transfers

variable {chNum : Fin 64} {trigMode : Nat}

/-- A transfer that starts does not enable another channel. -/
theorem enabled_enableTransfer (apart : transferChannel chNum trigMode ≠ some other) :
    other.enabled (dmaEnableTransfer chNum trigMode controller).2 = other.enabled controller := by
  have inside : chNum.val < socDmaNumDmach := chNum.isLt
  unfold dmaEnableTransfer
  split
  · exact Channel.enabled_congr (agree_orBit (by decide) (by decide))
  · split
    · next mode =>
        split
        · next small =>
            rw [mode, transferChannel_qdma small] at apart
            have bits : other.enabled (dmaEnableQdmaEvt (⟨chNum, small⟩ : Fin 8) controller) =
                if other = .qdma ⟨chNum, small⟩ then true else _ := enabled_enableQdmaEvt
            exact bits.trans (if_neg fun same => apart (congrArg some same.symm))
        · rfl
    · split
      · next mode =>
          rw [mode, transferChannel_event] at apart
          rw [enabled_enableDmaEvt, if_neg fun same => apart (congrArg some same.symm)]
          exact Channel.enabled_congr (agree_clrMissEvt (by decide))
      · rfl

/-- What the end of a transfer does to the channel of the transfer. -/
theorem enabled_disableTransfer :
    other.enabled (dmaDisableTransfer chNum trigMode controller).2 =
      if transferChannel chNum trigMode = some other ∧ trigMode ≠ dmaTrigModeManual ∧
        (trigMode = dmaTrigModeEvent → chNum.val < 32) then false else other.enabled controller := by
  have inside : chNum.val < socDmaNumDmach := chNum.isLt
  unfold dmaDisableTransfer
  split
  · next mode =>
      rw [if_neg fun all => all.2.1 mode]
      exact Channel.enabled_congr (agree_orBit (by decide) (by decide))
  · next manual =>
      split
      · next mode =>
          split
          · next small =>
              have place : transferChannel chNum trigMode = some other ∧
                  trigMode ≠ dmaTrigModeManual ∧ (trigMode = dmaTrigModeEvent → chNum.val < 32) ↔
                    other = .qdma ⟨chNum, small⟩ := by
                rw [mode, transferChannel_qdma small, Option.some_inj]
                exact ⟨fun all => all.1.symm, fun same =>
                  ⟨same.symm, by decide, fun event => absurd event (by decide)⟩⟩
              have bits : other.enabled (dmaDisableQdmaEvt (⟨chNum, small⟩ : Fin 8) controller) =
                  if other = .qdma ⟨chNum, small⟩ then false else _ := enabled_disableQdmaEvt
              exact bits.trans (if_congr place rfl rfl).symm
          · next large =>
              rw [mode, transferChannel_outside large, if_neg nofun]
      · next qdma =>
          split
          · next mode =>
              have place : transferChannel chNum trigMode = some other ∧
                  trigMode ≠ dmaTrigModeManual ∧ (trigMode = dmaTrigModeEvent → chNum.val < 32) ↔
                    other = .dma chNum ∧ chNum.val < 32 := by
                rw [mode, transferChannel_event, Option.some_inj]
                exact ⟨fun all => ⟨all.1.symm, all.2.2 rfl⟩, fun both =>
                  ⟨both.1.symm, by decide, fun _ => both.2⟩⟩
              have missed : other.enabled (dmaClrMissEvt chNum controller) =
                  other.enabled controller := Channel.enabled_congr (agree_clrMissEvt (by decide))
              rw [if_congr place rfl rfl, enabled_disableDmaEvt, missed]
          · next event =>
              rw [transferChannel_none manual qdma event, if_neg nofun]

end Transfers

/-! ## Requests -/

/-- A request sets bits, maps the channel and writes the completion code. -/
theorem requestChannel_eq {tccNum : Nat} {evtQNum : Word} :
    (dmaRequestChannel channel.chType channel.chNum tccNum evtQNum controller).2 =
      setTcc channel.chNum tccNum
        (if tccNum < channel.codes then
          dmaEnableEvtIntr channel.chNum (dmaMapChToEvtQ channel.chType channel.chNum evtQNum
            (dmaEnableChInShadowReg channel.chType channel.chNum controller))
        else
          dmaMapChToEvtQ channel.chType channel.chNum evtQNum
            (dmaEnableChInShadowReg channel.chType channel.chNum controller)) := by
  unfold dmaRequestChannel
  rw [if_pos channel.chNum_lt]
  cases channel with
  | dma number =>
      by_cases valid : tccNum < socDmaNumDmach
      · simp [Channel.codes, Channel.chType, valid]
      · simp [Channel.codes, Channel.chType, valid]
  | qdma number =>
      have other : dmaChannelTypeQdma ≠ dmaChannelTypeDma := by decide
      by_cases valid : tccNum < socDmaNumQdmach
      · simp [Channel.codes, Channel.chType, valid, other]
      · simp [Channel.codes, Channel.chType, valid, other]

/-- A free channel is disabled, unmapped and does not interrupt. -/
theorem freeChannel_eq {trigMode tccNum : Nat} {evtQNum : Word} :
    (dmaFreeChannel channel.chType channel.chNum trigMode tccNum evtQNum controller).2 =
      if tccNum < channel.codes then
        dmaDisableEvtIntr channel.chNum (dmaUnmapChToEvtQ channel.chType channel.chNum
          (dmaDisableChInShadowReg channel.chType channel.chNum
            (dmaDisableTransfer channel.chNum trigMode controller).2))
      else
        dmaUnmapChToEvtQ channel.chType channel.chNum
          (dmaDisableChInShadowReg channel.chType channel.chNum
            (dmaDisableTransfer channel.chNum trigMode controller).2) := by
  unfold dmaFreeChannel
  rw [if_pos channel.chNum_lt]
  cases channel with
  | dma number =>
      by_cases valid : tccNum < socDmaNumDmach
      · simp [Channel.codes, Channel.chType, valid]
      · simp [Channel.codes, Channel.chType, valid]
  | qdma number =>
      have other : dmaChannelTypeQdma ≠ dmaChannelTypeDma := by decide
      by_cases valid : tccNum < socDmaNumQdmach
      · simp [Channel.codes, Channel.chType, valid, other]
      · simp [Channel.codes, Channel.chType, valid, other]

end Routines

end BbbEth.Edma
