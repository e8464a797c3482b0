import BbbEth.Mmc.Driver

/-!
# The calls into the driver

Every routine that the disk layer calls is made of commands, of transfers, and of
accesses to the card structure and to the data buffer.  `Respects` says what a
proof about all of them has to provide.
-/

namespace BbbEth.Mmc

open BbbEth.Interference BbbEth.Coherence Routine

/-- Accesses to the card structure, the data buffer and the cache. -/
inductive Local : {reply : Type} → Access reply → Prop where
  | card {reply : Type} (update : CardInfo → reply × CardInfo) : Local (.card update)
  | setBusFreq (freq : Nat) : Local (.setBusFreq freq)
  | maintain (operation : Maintenance) (address : Nat) : Local (.maintain operation address)
  | loadByte (address : Nat) : Local (.loadByte address)
  | busWidth (width : Nat) : Local (.emit (.busWidth width))
  | opClk (freq : Nat) : Local (.emit (.opClk freq))

theorem issue_local (operation : Maintenance) (address : Nat) :
    Program.Within @Local (issue operation address) :=
  .lift (.maintain operation address)

theorem getCard_local {reply : Type} (field : CardInfo → reply) :
    Program.Within @Local (getCard field) :=
  .lift (.card _)

theorem setCard_local (change : CardInfo → CardInfo) : Program.Within @Local (setCard change) :=
  .lift (.card _)

theorem setOpClk_local (freq : Nat) : Program.Within @Local (setOpClk freq) :=
  .perform (.setBusFreq freq) fun _ => .perform (.opClk freq) fun _ => .done

theorem noteHighSpeed_local (group : Byte) : Program.Within @Local (noteHighSpeed group) :=
  .ite (setCard_local _) .done

theorem loadWord_local (address : Nat) : Program.Within @Local (loadWord address) :=
  .perform (.loadByte _) fun _ => .perform (.loadByte _) fun _ =>
    .perform (.loadByte _) fun _ => .perform (.loadByte _) fun _ => .done

theorem blockAddress_local (block : Word) : Program.Within @Local (blockAddress block) := by
  apply (getCard_local _).bind
  intro highCap
  exact .ite .done ((getCard_local _).bind fun _ => .done)

/-- The accesses of the waits for a command and for its transfer, which read no flags
but the relevant ones. -/
inductive Waits (relevant : Flag → Prop) : {reply : Type} → Access reply → Prop where
  | awaitFlags (first second : Flag) : relevant first → relevant second →
      Waits relevant (.awaitFlags first second)
  | loadFlag (flag : Flag) : relevant flag → Waits relevant (.loadFlag flag)
  | pollCallback (timeOut : Word) : relevant .callbackOccured →
      Waits relevant (.pollCallback timeOut)
  | clearFlag (flag : Flag) : Waits relevant (.storeFlag flag false)
  | loadDmaEnable : Waits relevant .loadDmaEnable
  | loadCmd : Waits relevant .loadCmd
  | getResp : Waits relevant .getResp
  | clearStatus (bits : Word) : Waits relevant (.emit (.clearStatus bits))
  | setDto (ticks : Nat) : Waits relevant (.emit (.setDto ticks))

/-- A counter that is not used up counts down. -/
theorem toNat_pred {word : Word} (positive : word ≠ 0) : (word - 1).toNat + 1 = word.toNat := by
  bv_omega

theorem dataPresent_eq {c : Cmd} (flags : Word) (same : c.flags = flags) :
    c.dataPresent = decide (flags &&& 0x40 ≠ 0) := by
  rw [Cmd.dataPresent, same]

theorem Waits.mono {relevant more : Flag → Prop} {reply : Type} {request : Access reply}
    (waits : Waits relevant request) (widens : ∀ flag, relevant flag → more flag) :
    Waits more request := by
  cases waits with
  | awaitFlags first second isFirst isSecond =>
      exact .awaitFlags first second (widens _ isFirst) (widens _ isSecond)
  | loadFlag flag isRelevant => exact .loadFlag flag (widens _ isRelevant)
  | pollCallback timeOut isRelevant => exact .pollCallback timeOut (widens _ isRelevant)
  | clearFlag flag => exact .clearFlag flag
  | loadDmaEnable => exact .loadDmaEnable
  | loadCmd => exact .loadCmd
  | getResp => exact .getResp
  | clearStatus bits => exact .clearStatus bits
  | setDto ticks => exact .setDto ticks

/-- The flags that the wait for any command reads. -/
def commandFlags (flag : Flag) : Prop := flag = .cmdComp ∨ flag = .cmdTimeout

/-- Those that the wait for its transfer reads too, up to the callback. -/
def transferFlags (flag : Flag) : Prop := flag ≠ .callbackOccured

/-- Every flag. -/
def anyFlag (_ : Flag) : Prop := True

theorem transferFlags_xferComp : transferFlags .xferComp := nofun

theorem transferFlags_dataTimeout : transferFlags .dataTimeout := nofun

theorem commandFlags_transferFlags (flag : Flag) (isCommand : commandFlags flag) :
    transferFlags flag := by
  rcases isCommand with rfl | rfl
  · exact nofun
  · exact nofun

section Waits

variable {relevant : Flag → Prop}

theorem takeFlag_waits {flag : Flag} (isRelevant : relevant flag) :
    Program.Within (Waits relevant) (takeFlag flag) := by
  apply Program.Within.perform (.loadFlag flag isRelevant)
  intro set
  exact .ite (.perform (.clearFlag flag) fun _ => .done) .done

theorem getCmdStatus_waits : Program.Within (Waits commandFlags) mmc0GetCmdStatus := by
  apply Program.Within.perform (.awaitFlags _ _ (.inl rfl) (.inr rfl))
  intro _
  apply (takeFlag_waits (.inl rfl)).bind
  intro _
  exact (takeFlag_waits (.inr rfl)).bind fun _ => .done

theorem prepareData_waits (c : Cmd) : Program.Within (Waits commandFlags) (prepareData c) :=
  .ite (.perform (.clearStatus _) fun _ => .perform (.setDto _) fun _ => .done) .done

theorem readResp_waits (c : Cmd) (status : Bool) :
    Program.Within (Waits commandFlags) (readResp c status) :=
  .ite (.perform .getResp fun _ => .done) .done

/-- The loop that polls for the callback comes to an end. -/
theorem pollLoop_waits (callback : relevant .callbackOccured) (timeOut : Word) :
    Program.Within (Waits relevant) (.iterate pollRound timeOut) := by
  induction bound : timeOut.toNat using Nat.strongRecOn generalizing timeOut with
  | ind bound inductionHypothesis =>
      apply Program.Within.loop
      apply Program.Within.perform (.pollCallback timeOut callback)
      intro occured
      change Program.Within _ (Program.bind (if occured then _ else _) _)
      by_cases found : occured = true
      · rw [if_pos found]
        exact .done
      · rw [if_neg found]
        change Program.Within _ (Program.bind (if timeOut = 0 then _ else _) _)
        by_cases spent : timeOut = 0
        · rw [if_pos spent]
          exact .done
        · rw [if_neg spent]
          exact inductionHypothesis _ (bound ▸ Nat.lt_of_succ_le (toNat_pred spent).le) _ rfl

theorem awaitCallback_waits (callback : relevant .callbackOccured) (command : Word)
    (status : Bool) : Program.Within (Waits relevant) (awaitCallback command status) := by
  apply Program.Within.ite _ .done
  apply (pollLoop_waits callback _).bind
  intro timeOut
  exact .perform (.clearFlag _) fun _ => .done

/-- `mmc0_get_xfer_status` makes no other accesses but the store to `dmaEnable`. -/
theorem getXferStatus_within {allowed : {reply : Type} → Access reply → Prop}
    (waits : ∀ {reply : Type} (request : Access reply), Waits anyFlag request →
      allowed request) (clears : allowed (.storeDmaEnable false)) :
    Program.Within @allowed mmc0GetXferStatus := by
  have every : ∀ {relevant : Flag → Prop} {result : Type} {code : Routine result},
      Program.Within (Waits relevant) code → Program.Within @allowed code :=
    fun within => within.mono fun request used => waits request (used.mono fun _ _ => trivial)
  apply Program.Within.perform (waits _ (.awaitFlags _ _ trivial trivial))
  intro _
  apply (every (takeFlag_waits transferFlags_xferComp)).bind
  intro completed
  apply (every (takeFlag_waits transferFlags_dataTimeout)).bind
  intro timedOut
  apply Program.Within.perform (waits _ .loadCmd)
  intro command
  have isAny : anyFlag .callbackOccured := trivial
  apply (every (awaitCallback_waits isAny command _)).bind
  intro status
  exact .perform clears fun _ => .done

end Waits

/-- A command without data that does not suspend the bus. -/
def Cmd.Plain (c : Cmd) : Prop := c.flags &&& 0x42 = 0

theorem plain {c : Cmd} (flags : Word) (same : c.flags = flags) (none : flags &&& 0x42 = 0) :
    c.Plain := by
  rw [Cmd.Plain, same, none]

theorem Cmd.Plain.dataPresent {c : Cmd} (isPlain : c.Plain) : c.dataPresent = false := by
  have masked : c.flags &&& 0x40 = c.flags &&& 0x42 &&& 0x40 := by
    rw [BitVec.and_assoc]
    rfl
  rw [dataPresent_eq _ rfl, masked, show c.flags &&& 0x42 = 0 from isPlain]
  rfl

theorem Cmd.Plain.noStop {c : Cmd} (isPlain : c.Plain) : c.flags &&& 0x2 = 0 := by
  have masked : c.flags &&& 0x2 = c.flags &&& 0x42 &&& 0x2 := by
    rw [BitVec.and_assoc]
    rfl
  rw [masked, show c.flags &&& 0x42 = 0 from isPlain]
  rfl

/-- The word of a plain command has neither the DMA bit nor the data bit. -/
theorem Cmd.Plain.word_de {c : Cmd} (isPlain : c.Plain) : c.word &&& cmdDe = 0 := by
  have index : (c.idx <<< 0x18) &&& cmdDe = 0 := by
    apply BitVec.eq_of_toNat_eq
    simp [cmdDe, BitVec.toNat_shiftLeft]
    omega
  have type : cmdType c.flags &&& cmdDe = 0 := by
    unfold cmdType
    rw [if_neg (not_not.mpr isPlain.noStop)]
    split
    · decide
    · split <;> decide
  have rsp : rspType c.flags &&& cmdDe = 0 := by
    unfold rspType
    split
    · decide
    · split
      · decide
      · split <;> decide
  have dir : cmdDir c.flags &&& cmdDe = 0 := by
    unfold cmdDir
    split <;> decide
  unfold Cmd.word
  rw [isPlain.dataPresent]
  simp only [BitVec.and_or_distrib_right, index, type, rsp, dir]
  rfl

theorem or_and_ne_zero {left right mask : Word} (bits : right &&& mask ≠ 0) :
    (left ||| right) &&& mask ≠ 0 := by
  rw [BitVec.and_or_distrib_right]
  intro none
  exact bits (BitVec.or_eq_zero_iff.mp none).2

/-- The word of a command with data has the data bit. -/
theorem Cmd.word_dp {c : Cmd} (data : c.dataPresent = true) (de : Word) :
    (c.word ||| de) &&& cmdDp ≠ 0 := by
  unfold Cmd.word
  rw [data, BitVec.or_comm]
  exact or_and_ne_zero (or_and_ne_zero (by decide))

/-- The commands for blocks have data. -/
theorem blockCmd_dataPresent {direction several single address nblks : Word}
    (known : direction = sdCmdRspRead ∨ direction = sdCmdRspWrite) :
    (blockCmd direction several single address nblks).dataPresent = true := by
  unfold blockCmd
  rcases known with rfl | rfl
  · split
    · exact dataPresent_eq (sdCmdRspRead ||| sdCmdRspData ||| sdCmdRspAbort) rfl
    · exact dataPresent_eq (sdCmdRspRead ||| sdCmdRspData) rfl
  · split
    · exact dataPresent_eq (sdCmdRspWrite ||| sdCmdRspData ||| sdCmdRspAbort) rfl
    · exact dataPresent_eq (sdCmdRspWrite ||| sdCmdRspData) rfl

/-- What a proof about the calls has to provide: `resting` holds between transfers,
and `armed` from the set-up of a transfer to its command. -/
structure Respects (contract : Contract Access State) (resting armed : State → Prop) :
    Prop where
  stable : contract.Stable none resting
  safe : ∀ current, resting current → contract.safe current
  quiet : ∀ {result : Type} {code : Routine result}, Program.Within @Local code →
    contract.Preserves resting code
  armedQuiet : ∀ {result : Type} {code : Routine result}, Program.Within @Local code →
    contract.Preserves armed code
  command : ∀ c : Cmd, c.Plain → contract.Preserves resting (mmc0CmdSend c)
  setup : ∀ channel ptr blkSize nBlks,
    contract.Leads resting armed (mmcXferSetup channel ptr blkSize nBlks)
  data : ∀ c : Cmd, c.dataPresent = true → contract.Leads armed resting (sendData c)
  stop : contract.Preserves resting mmcStopCmdSend

namespace Respects

variable {contract : Contract Access State} {resting armed : State → Prop}
variable (respects : Respects contract resting armed)
include respects

theorem done {result : Type} (value : result) :
    contract.Preserves resting (.done value : Routine result) :=
  respects.quiet .done

theorem orFail {code : Routine (Bool × Cmd)} {next : Cmd → Routine Bool}
    (first : contract.Preserves resting code)
    (others : ∀ c, contract.Preserves resting (next c)) :
    contract.Preserves resting (orFail code next) := by
  apply Contract.Leads.bind first
  rintro ⟨status, c⟩
  exact .ite (fun _ => others c) fun _ => respects.done false

theorem appCmdSend (c : Cmd) (isPlain : c.Plain) :
    contract.Preserves resting (mmcAppCmdSend c) := by
  apply Contract.Leads.bind (respects.quiet (getCard_local _))
  intro rca
  apply Contract.Leads.bind (respects.command _ (plain 0 rfl (by decide)))
  rintro ⟨status, _⟩
  exact .ite (fun _ => respects.command c isPlain) fun _ => respects.done _

theorem transfer {c : Cmd} {next : Routine Bool} (data : c.dataPresent = true)
    (others : contract.Preserves resting next) :
    contract.Leads armed resting (transfer c next) := by
  apply Contract.Leads.bind (respects.data c data)
  intro status
  exact .ite (fun _ => others) fun _ => respects.done false

/-- `MMCBusWidthSet`. -/
theorem busWidthSet : contract.Preserves resting mmcBusWidthSet := by
  apply Contract.Leads.bind (respects.quiet (getCard_local _))
  intro busWidth
  apply respects.orFail (respects.appCmdSend _ (plain 0 rfl (by decide)))
  intro c
  exact respects.quiet (.perform (.busWidth _) fun _ => .done)

/-- `MMCTranSpeedSet`. -/
theorem tranSpeedSet (dataBuffer : Nat) :
    contract.Preserves resting (mmcTranSpeedSet dataBuffer) := by
  apply Contract.Leads.bind (respects.setup _ _ _ _)
  intro _
  apply respects.transfer (by decide)
  apply Contract.Leads.bind (respects.quiet (flushBuff_within issue_local _ _))
  intro _
  apply Contract.Leads.bind (respects.quiet (getCard_local _))
  intro speed
  apply Contract.Leads.bind (respects.quiet (.lift (.loadByte _)))
  intro group
  apply Contract.Leads.bind (respects.quiet (noteHighSpeed_local group))
  intro _
  exact respects.quiet (setOpClk_local _)

/-- The loop of `MMCCardInit` ends when its counter is used up, if not before. -/
theorem powerUpLoop (start : Word × Cmd) :
    contract.Preserves resting (.iterate powerUpRound start) := by
  apply Contract.Leads.countdown (fun carried => carried.1.toNat) respects.stable
    respects.stable respects.safe respects.safe
  rintro ⟨retry, c⟩ current holds
  apply (respects.appCmdSend _ (plain 0 rfl (by decide)) current holds).bind
  rintro ⟨_, c⟩ after kept
  change contract.Ensures _ (if _ then _ else if _ then _ else _) after
  split
  · exact .of_done respects.stable kept respects.safe fun _ still => ⟨nofun, fun _ _ => still⟩
  · split
    · exact .of_done respects.stable kept respects.safe fun _ still =>
        ⟨nofun, fun _ _ => still⟩
    · next positive =>
        apply Contract.Ensures.of_done respects.stable kept respects.safe
        intro last still
        constructor
        · rintro next ⟨⟩
          exact ⟨Nat.lt_of_succ_le (toNat_pred positive).le, still⟩
        · exact nofun

theorem setCard (change : CardInfo → CardInfo) : contract.Preserves resting (setCard change) :=
  respects.quiet (setCard_local change)

theorem getCard {reply : Type} (field : CardInfo → reply) :
    contract.Preserves resting (getCard field) :=
  respects.quiet (getCard_local field)

theorem reset : contract.Preserves resting mmcCardReset :=
  respects.command _ (plain sdCmdRspNone rfl (by decide))

theorem powerUp {next : Cmd → Routine Bool}
    (others : ∀ c, contract.Preserves resting (next c)) :
    contract.Preserves resting (powerUp next) := by
  apply Contract.Leads.bind (respects.setCard _)
  intro _
  apply respects.orFail respects.reset
  intro _
  apply Contract.Leads.bind (respects.command _ (plain 0 rfl (by decide)))
  rintro ⟨_, c⟩
  apply respects.orFail (respects.appCmdSend _ (plain 0 rfl (by decide)))
  intro c
  apply Contract.Leads.bind (respects.powerUpLoop _)
  rintro ⟨retry, c⟩
  apply Contract.Leads.ite
  · intro _
    exact respects.done false
  · intro _
    exact Contract.Leads.bind (respects.setCard _) fun _ => others c

theorem readRegisters {next : Cmd → Routine Bool}
    (others : ∀ c, contract.Preserves resting (next c)) (c : Cmd) :
    contract.Preserves resting (readRegisters c next) := by
  apply Contract.Leads.bind (respects.command _ (plain sdCmdRsp136Bits rfl (by decide)))
  rintro ⟨found, c⟩
  apply Contract.Leads.bind (respects.setCard _)
  intro _
  apply Contract.Leads.ite _ fun _ => respects.done false
  intro _
  apply Contract.Leads.bind (respects.command _ (plain 0 rfl (by decide)))
  rintro ⟨addressed, c⟩
  apply Contract.Leads.bind (respects.setCard _)
  intro _
  apply Contract.Leads.ite _ fun _ => respects.done false
  intro _
  apply Contract.Leads.bind (respects.getCard _)
  intro rca
  apply Contract.Leads.bind (respects.command _ (plain sdCmdRsp136Bits rfl (by decide)))
  rintro ⟨described, c⟩
  apply Contract.Leads.bind (respects.setCard _)
  intro _
  apply Contract.Leads.ite _ fun _ => respects.done false
  intro _
  exact Contract.Leads.bind (respects.setCard _) fun _ => others c

theorem setBlockLen {next : Cmd → Routine Bool}
    (others : ∀ c, contract.Preserves resting (next c)) (c : Cmd) :
    contract.Preserves resting (setBlockLen c next) := by
  apply Contract.Leads.bind (respects.getCard _)
  intro highCap
  apply Contract.Leads.ite _ fun _ => others c
  intro _
  apply respects.orFail (respects.command _ (plain sdCmdRspNone rfl (by decide)))
  intro c
  exact Contract.Leads.bind (respects.setCard _) fun _ => others c

theorem readScr (dataBuffer : Nat) (c : Cmd) :
    contract.Preserves resting (readScr dataBuffer c) := by
  apply Contract.Leads.bind (respects.getCard _)
  intro rca
  apply respects.orFail (respects.command _ (plain sdCmdRspBusy rfl (by decide)))
  intro c
  apply Contract.Leads.bind (respects.getCard _)
  intro rca
  apply respects.orFail (respects.command _ (plain 0 rfl (by decide)))
  intro c
  apply Contract.Leads.bind (respects.setup _ _ _ _)
  intro _
  apply Contract.Leads.bind (respects.armedQuiet (getCard_local _))
  intro rca
  apply respects.transfer (dataPresent_eq (sdCmdRspRead ||| sdCmdRspData) rfl)
  apply respects.quiet
  apply (flushBuff_within issue_local _ _).bind
  intro _
  apply (loadWord_local _).bind
  intro low
  apply (setCard_local _).bind
  intro _
  apply (loadWord_local _).bind
  intro high
  apply (setCard_local _).bind
  intro _
  exact (setCard_local _).bind fun _ => .done

/-- `MMCCardInit`. -/
theorem cardInit (dataBuffer : Nat) : contract.Preserves resting (mmcCardInit dataBuffer) := by
  apply Contract.Leads.bind (respects.setCard _)
  intro _
  apply respects.orFail respects.reset
  intro _
  apply respects.orFail (respects.appCmdSend _ (plain 0 rfl (by decide)))
  intro _
  apply respects.powerUp
  apply respects.readRegisters
  apply respects.setBlockLen
  exact respects.readScr dataBuffer

theorem stopSeveral {nblks : Word} {next : Routine Bool}
    (others : contract.Preserves resting next) :
    contract.Preserves resting (stopSeveral nblks next) := by
  apply Contract.Leads.ite _ fun _ => others
  intro _
  apply Contract.Leads.bind respects.stop
  intro status
  exact .ite (fun _ => others) fun _ => respects.done false

/-- `MMCWriteCmdSend`. -/
theorem writeCmdSend (ptr : Nat) (block nblks : Word) :
    contract.Preserves resting (mmcWriteCmdSend ptr block nblks) := by
  apply Contract.Leads.bind (respects.quiet (blockAddress_local block))
  intro address
  apply Contract.Leads.bind (respects.quiet (cleanBuff_within issue_local _ _))
  intro _
  apply Contract.Leads.bind (respects.setup _ _ _ _)
  intro _
  exact respects.transfer (blockCmd_dataPresent (.inr rfl)) (respects.stopSeveral (respects.done true))

/-- `MMCReadCmdSend`. -/
theorem readCmdSend (ptr : Nat) (block nblks : Word) :
    contract.Preserves resting (mmcReadCmdSend ptr block nblks) := by
  apply Contract.Leads.bind (respects.quiet (blockAddress_local block))
  intro address
  apply Contract.Leads.bind (respects.setup _ _ _ _)
  intro _
  apply respects.transfer (blockCmd_dataPresent (.inl rfl))
  apply respects.stopSeveral
  apply respects.quiet
  exact (flushBuff_within issue_local _ _).bind fun _ => .done

end Respects

end BbbEth.Mmc
