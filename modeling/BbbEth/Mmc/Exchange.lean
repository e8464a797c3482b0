import BbbEth.Mmc.Dialogue

/-!
# Exchanges with the card

What the routines that the others are made of may return, and what they leave: a command, an
application command, the wait for a transfer, the preparation of a channel and the maintenance of
the cache.
-/

namespace BbbEth.Mmc

open BbbEth.Interference Server Routine BbbEth.Coherence

section Routines

variable {reply : Type} {current after : Desk}

@[simp] theorem results_getCard {field : CardInfo → reply} {value : reply} :
    desk.Results (getCard field) current value after ↔
      value = field current.card ∧ after = current := by
  simp [getCard]

@[simp] theorem results_setCard {change : CardInfo → CardInfo} {value : Unit} :
    desk.Results (setCard change) current value after ↔
      after = { current with card := change current.card } := by
  simp [setCard]

@[simp] theorem results_emit {event : Event} {value : Unit} :
    desk.Results (Routine.emit event) current value after ↔ after = current.emit event := by
  simp [Routine.emit]

@[simp] theorem results_issue {operation : Maintenance} {address : Nat} {value : Unit} :
    desk.Results (issue operation address) current value after ↔ after = current := by
  simp [issue]

@[simp] theorem results_takeFlag {flag : Flag} {value : Bool} :
    desk.Results (takeFlag flag) current value after ↔ after = current.judge flag value := by
  cases value <;> simp [takeFlag]

/-- A command completes or not. -/
@[simp] theorem results_mmc0GetCmdStatus {value : Bool} :
    desk.Results mmc0GetCmdStatus current value after ↔ after = current := by
  cases value <;> simp [mmc0GetCmdStatus, results_bind, Desk.judge]

/-- What `MMC0CmdSend` returns, and the command as it leaves it. -/
def Cmd.answered (c : Cmd) : Option (Fin 4 → Word) → Bool × Cmd
  | some rsp => (true, { c with rsp := rsp })
  | none => (false, c)

/-- A command is sent and answered. -/
def Desk.exchange (desk : Desk) (c : Cmd) (reply : Option (Fin 4 → Word)) : Desk :=
  { desk with
    registers := c.sent desk.dmaEnable desk.registers
    log := desk.log ++ [.command (c.sent desk.dmaEnable desk.registers) reply] }

@[simp] theorem results_prepareData {c : Cmd} {value : Unit} :
    desk.Results (prepareData c) current value after ↔ after = current := by
  unfold prepareData
  split <;> simp [results_bind, Desk.emit]

@[simp] theorem results_writeCmd {c : Cmd} {value : Unit} :
    desk.Results (writeCmd c) current value after ↔ after = current.exchange c none := by
  simp [writeCmd, Desk.exchange, Cmd.sent]

@[simp] theorem results_readResp {c : Cmd} {status : Bool} {value : Bool × Cmd} :
    desk.Results (readResp c status) (current.exchange c none) value after ↔
      ∃ reply : Option (Fin 4 → Word), reply.isSome = status ∧ value = c.answered reply ∧
        after = current.exchange c reply := by
  cases status with
  | true =>
      have one : ∀ rsp, (current.exchange c none).log.modifyLast (.answer rsp) =
          (current.exchange c (some rsp)).log := fun rsp => List.modifyLast_concat ..
      simp only [readResp, if_true, results_bind, results_lift, answers_getResp, results_done, one]
      constructor
      · rintro ⟨rsp, _, rfl, rfl, rfl⟩
        exact ⟨some rsp, rfl, rfl, rfl⟩
      · rintro ⟨reply, found, rfl, rfl⟩
        rcases Option.isSome_iff_exists.mp found with ⟨rsp, rfl⟩
        exact ⟨rsp, _, rfl, rfl, rfl⟩
  | false => simp [readResp, Cmd.answered]

/-- A command may complete, with any response, or time out. -/
@[simp] theorem results_mmc0CmdSend {c : Cmd} {value : Bool × Cmd} :
    desk.Results (mmc0CmdSend c) current value after ↔
      ∃ reply, value = c.answered reply ∧ after = current.exchange c reply := by
  simp only [mmc0CmdSend, results_bind, results_prepareData, results_writeCmd,
    results_mmc0GetCmdStatus, exists_eq_left, results_readResp, exists_const]
  constructor
  · rintro ⟨status, reply, _, same⟩
    exact ⟨reply, same⟩
  · rintro ⟨reply, same⟩
    exact ⟨reply.isSome, reply, rfl, same⟩

/-- The command that `MMCAppCmdSend` sends first. -/
def appCmd (card : CardInfo) : Cmd := { Cmd.blank with idx := 55, arg := card.rca <<< 16 }

/-- `MMCAppCmdSend` sends its command if CMD55 completes. -/
theorem results_mmcAppCmdSend {c : Cmd} {value : Bool × Cmd} :
    desk.Results (mmcAppCmdSend c) current value after ↔
      (value = (false, c) ∧ after = current.exchange (appCmd current.card) none) ∨
      ∃ rsp reply, value = c.answered reply ∧
        after = (current.exchange (appCmd current.card) (some rsp)).exchange c reply := by
  simp only [mmcAppCmdSend, results_bind, results_getCard]
  constructor
  · rintro ⟨_, _, ⟨rfl, rfl⟩, _, next, sent, others⟩
    rcases results_mmc0CmdSend.mp sent with ⟨reply, rfl, rfl⟩
    cases reply with
    | none =>
        rcases results_done.mp others with ⟨rfl, rfl⟩
        exact .inl ⟨rfl, rfl⟩
    | some rsp => exact .inr ⟨rsp, results_mmc0CmdSend.mp others⟩
  · rintro (⟨rfl, rfl⟩ | ⟨rsp, reply, rfl, rfl⟩)
    · exact ⟨_, _, ⟨rfl, rfl⟩, _, _, results_mmc0CmdSend.mpr ⟨none, rfl, rfl⟩,
        results_done.mpr ⟨rfl, rfl⟩⟩
    · exact ⟨_, _, ⟨rfl, rfl⟩, _, _, results_mmc0CmdSend.mpr ⟨some rsp, rfl, rfl⟩,
        results_mmc0CmdSend.mpr ⟨reply, rfl, rfl⟩⟩

theorem results_pollRound {timeOut : Word} {outcome : Word ⊕ Word} :
    desk.Results (pollRound timeOut) current outcome after ↔
      (outcome = .inr timeOut ∧ after = current.poll timeOut true) ∨
      (timeOut = 0 ∧ outcome = .inr (timeOut - 1) ∧ after = current.poll timeOut false) ∨
      (timeOut ≠ 0 ∧ outcome = .inl (timeOut - 1) ∧ after = current.poll timeOut false) := by
  by_cases zero : timeOut = 0#32
  · simp [pollRound, zero, or_comm]
  · simp [pollRound, zero, or_comm]

/-- What the counter is left at decides how the polls count. -/
theorem verdict_of_polls {timeOut left : Word}
    (polls : desk.Results (.iterate pollRound timeOut) current left after) :
    after = { current with verdict := current.verdict && !decide (left = 0) } := by
  generalize size : timeOut.toNat = rounds
  induction rounds using Nat.strongRecOn generalizing timeOut with
  | ind rounds inductionHypothesis =>
      have kept : current.poll timeOut false = current := by simp [Desk.poll]
      rw [results_iterate] at polls
      simp only [results_pollRound, kept] at polls
      rcases polls with ⟨later, next, ⟨same, _⟩ | ⟨_, same, _⟩ | ⟨more, same, rfl⟩, others⟩ |
        ⟨same, rfl⟩ | ⟨rfl, same, rfl⟩ | ⟨_, same, _⟩
      · cases same
      · cases same
      · cases same
        exact inductionHypothesis (timeOut - 1).toNat (by bv_omega) others rfl
      · cases same
        simp [Desk.poll]
      · cases same
        simp
      · cases same

/-- The part of the wait behind the transfer flags. -/
theorem verdict_of_awaitCallback {command : Word} {status value : Bool}
    (waits : desk.Results (awaitCallback command status) current value after)
    (judged : current.verdict = status) : after = { current with verdict := value } := by
  unfold awaitCallback at waits
  split at waits
  · rcases results_bind.mp waits with ⟨timeOut, _, polls, others⟩
    simp only [Program.bind_lift, results_perform, answers_storeFlag, results_done] at others
    rcases others with ⟨_, _, rfl, rfl, rfl⟩
    rw [verdict_of_polls polls, judged]
    by_cases zero : timeOut = 0#32
    · simp [zero]
    · simp [zero]
  · rcases results_done.mp waits with ⟨rfl, rfl⟩
    rw [← judged]

/-- A callback that is seen at the first poll. -/
theorem results_awaitCallback (command : Word) (status : Bool) :
    desk.Results (awaitCallback command status) current status current := by
  unfold awaitCallback
  split
  · have first : current.poll 0xFFFF true = current := by simp [Desk.poll]
    have polls : desk.Results (.iterate pollRound 0xFFFF) current 0xFFFF current :=
      results_iterate.mpr (.inr (results_pollRound.mpr (.inl ⟨rfl, first.symm⟩)))
    refine results_bind.mpr ⟨_, _, polls, ?_⟩
    simp
  · exact results_done.mpr ⟨rfl, rfl⟩

/-- The wait for a transfer. -/
@[simp] theorem results_mmc0GetXferStatus {value : Bool} :
    desk.Results mmc0GetXferStatus current value after ↔ after = current.transferred value := by
  simp only [mmc0GetXferStatus, Program.bind_lift, results_perform, answers_awaitFlags,
    results_bind, results_takeFlag, answers_loadCmd, answers_storeDmaEnable_false, results_done]
  constructor
  · rintro ⟨_, _, rfl, completed, _, rfl, timedOut, _, rfl, command, _, ⟨rfl, rfl⟩, status, waited,
      waits, _, _, rfl, rfl, rfl⟩
    rw [verdict_of_awaitCallback waits rfl]
    rfl
  · rintro rfl
    refine ⟨(), _, rfl, value, _, rfl, false, _, rfl, _, _, ⟨rfl, rfl⟩, _, _,
      results_awaitCallback _ _, (), _, rfl, ?_⟩
    simp [Desk.judge, Desk.transferred]

end Routines
section Maintenance

variable {current after : Desk}

@[simp] theorem results_mcrne {operation : Maintenance} {address : Nat} {value : Unit} :
    desk.Results (mcrne issue operation address) current value after ↔ after = current := by
  unfold mcrne
  split
  · exact results_issue
  · simp

theorem results_dflushLoop {finish address : Nat} {value : Unit} :
    desk.Results (.iterate (dflushLoop issue finish) address) current value after ↔
      after = current := by
  generalize size : finish - address = left
  induction left using Nat.strongRecOn generalizing address with
  | ind left inductionHypothesis =>
      rw [results_iterate]
      by_cases more : address < finish
      · have shorter : finish - (address + lineSize) < left := by
          rw [lineSize]
          omega
        simp [dflushLoop, results_bind, more, inductionHypothesis _ shorter rfl]
      · simp [dflushLoop, more]

@[simp] theorem results_cp15DCacheFlushBuff {start length : Nat} {value : Unit} :
    desk.Results (cp15DCacheFlushBuff issue start length) current value after ↔
      after = current := by
  simp [cp15DCacheFlushBuff, results_bind, results_dflushLoop]

end Maintenance
section Sequences

variable {current after : Desk} {c : Cmd} {value : Bool}

/-- A command, and what follows if it completes. -/
theorem results_orFail {next : Cmd → Routine Bool} :
    desk.Results (orFail (mmc0CmdSend c) next) current value after ↔
      (value = false ∧ after = current.exchange c none) ∨
      ∃ rsp, desk.Results (next { c with rsp := rsp }) (current.exchange c (some rsp)) value
        after := by
  simp only [orFail, results_bind, results_mmc0CmdSend]
  constructor
  · rintro ⟨_, _, ⟨reply, rfl, rfl⟩, others⟩
    cases reply with
    | none => exact .inl (results_done.mp others)
    | some rsp => exact .inr ⟨rsp, others⟩
  · rintro (⟨rfl, rfl⟩ | ⟨rsp, others⟩)
    · exact ⟨_, _, ⟨none, rfl, rfl⟩, results_done.mpr ⟨rfl, rfl⟩⟩
    · exact ⟨_, _, ⟨some rsp, rfl, rfl⟩, others⟩

/-- A command with data, and what follows if its transfer succeeds. -/
theorem results_transfer {next : Routine Bool} :
    desk.Results (transfer c next) current value after ↔
      (value = false ∧ after = current.exchange c none) ∨
      ∃ rsp, (value = false ∧ after = (current.exchange c (some rsp)).transferred false) ∨
        desk.Results next ((current.exchange c (some rsp)).transferred true) value after := by
  simp only [transfer, sendData, results_bind, results_orFail]
  constructor
  · rintro ⟨status, middle, ⟨rfl, rfl⟩ | ⟨rsp, waited⟩, others⟩
    · exact .inl (results_done.mp others)
    · rw [results_mmc0GetXferStatus] at waited
      subst waited
      cases status with
      | false => exact .inr ⟨rsp, .inl (results_done.mp others)⟩
      | true => exact .inr ⟨rsp, .inr others⟩
  · rintro (⟨rfl, rfl⟩ | ⟨rsp, ⟨rfl, rfl⟩ | others⟩)
    · exact ⟨false, _, .inl ⟨rfl, rfl⟩, results_done.mpr ⟨rfl, rfl⟩⟩
    · exact ⟨false, _, .inr ⟨rsp, results_mmc0GetXferStatus.mpr rfl⟩,
        results_done.mpr ⟨rfl, rfl⟩⟩
    · exact ⟨true, _, .inr ⟨rsp, results_mmc0GetXferStatus.mpr rfl⟩, others⟩

/-- The parameter set of a transfer. -/
def dmaEntry (channel : Channel) (ptr blkSize nBlks : Nat) : PaRamEntry :=
  match channel with
  | .mmc0Rx =>
      { srcAddr := mmcData
        destAddr := ptr
        srcBIdx := 0
        srcCIdx := 0
        destBIdx := 4
        destCIdx := blkSize % 2 ^ 16
        aCnt := 4
        bCnt := blkSize % 2 ^ 16 / 4
        cCnt := nBlks % 2 ^ 16
        bCntReload := 0
        linkAddr := 0xffff
        opt := paRamOpt .mmc0Rx ||| (1 <<< 0) ||| (2 <<< 8) ||| (1 <<< 2) }
  | .mmc0Tx =>
      { srcAddr := ptr
        destAddr := mmcData
        srcBIdx := 4
        srcCIdx := blkSize % 2 ^ 16
        destBIdx := 0
        destCIdx := 0
        aCnt := 4
        bCnt := blkSize % 2 ^ 16 / 4
        cCnt := nBlks % 2 ^ 16
        bCntReload := 0
        linkAddr := 0xffff
        opt := paRamOpt .mmc0Tx ||| (1 <<< 1) ||| (2 <<< 8) ||| (1 <<< 2) }

/-- A channel is set up and started. -/
def Desk.prepared (desk : Desk) (channel : Channel) (entry : PaRamEntry) (blkSize : Nat) : Desk :=
  { desk with
    dmaEnable := true
    registers := desk.registers.blkLenSet (.ofNat 32 blkSize)
    paRam := Function.update desk.paRam channel entry
    log := desk.log ++ [.start channel entry] }

@[simp] theorem results_mmcXferSetup {channel : Channel} {ptr blkSize nBlks : Nat} {done : Unit} :
    desk.Results (mmcXferSetup channel ptr blkSize nBlks) current done after ↔
      after = current.prepared channel (dmaEntry channel ptr blkSize nBlks) blkSize := by
  cases channel with
  | mmc0Rx =>
      simp [mmcXferSetup, mmcDmaSetup, mmcRxDmaSetup, Desk.emit]
      rfl
  | mmc0Tx =>
      simp [mmcXferSetup, mmcDmaSetup, mmcTxDmaSetup, Desk.emit]
      rfl

end Sequences
end BbbEth.Mmc
