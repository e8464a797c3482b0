import BbbEth.Mmc.Poweron

/-!
# What a transfer leaves behind

`MMCXferSetup` enables a DMA channel and sets `dmaEnable`; only
`mmc0_get_xfer_status` clears `dmaEnable`, and only the DMA callback disables the
channel.  Where every command of a transfer completes, and its callback comes
while it is polled for, nothing is left of a transfer when a call returns.
-/

namespace BbbEth.Mmc

open BbbEth.Interference BbbEth.Coherence State Routine

/-- Every command word without data present has its DMA bit clear. -/
def CommandsOk (state : State) : Prop :=
  ∀ word arg nblk, .command word arg nblk ∈ state.history →
    word &&& cmdDp = 0 → word &&& cmdDe = 0

/-- A transfer that is set up does not meet a command timeout, and its callback is
there at the last poll. -/
def InTime : {reply : Type} → Access reply → State → Prop
  | _, .awaitFlags .cmdComp _, state =>
      state.dmaEnable = true → state.flag .cmdTimeout = false
  | _, .loadFlag .cmdTimeout, state =>
      state.dmaEnable = true → state.flag .cmdTimeout = false
  | _, .pollCallback timeOut, state => timeOut = 0 → state.flag .callbackOccured = true
  | _, _, _ => True

/-- The schedules in which transfers are in time, and the card stays during them. -/
def timely : Condition where
  admits := InTime
  removable state := state.dmaEnable = false
  delivers _ _ := True

/-- What the environment, and the accesses that set nothing up, may change. -/
structure Calm (before after : State) : Prop where
  dmaEnable : after.dmaEnable = before.dmaEnable
  commands : ∀ word arg nblk, .command word arg nblk ∈ after.history →
    .command word arg nblk ∈ before.history
  cmd : before.dmaEnable = true → after.cmd = before.cmd
  enabled : ∀ channel, after.enabled channel = true → before.enabled channel = true
  callback : after.flag .callbackOccured = true → before.flag .callbackOccured = true ∨
    ∃ channel, before.enabled channel = true ∧ after.enabled channel = false

namespace Calm

variable {before middle after : State}

theorem refl (state : State) : Calm state state :=
  ⟨rfl, fun _ _ _ member => member, fun _ => rfl, fun _ on => on, .inl⟩

theorem trans (first : Calm before middle) (second : Calm middle after) :
    Calm before after where
  dmaEnable := second.dmaEnable.trans first.dmaEnable
  commands word arg nblk member := first.commands _ _ _ (second.commands word arg nblk member)
  cmd on := (second.cmd (first.dmaEnable.trans on)).trans (first.cmd on)
  enabled channel on := first.enabled channel (second.enabled channel on)
  callback set := by
    rcases second.callback set with still | ⟨channel, on, off⟩
    · rcases first.callback still with old | ⟨channel, on, off⟩
      · exact .inl old
      · refine .inr ⟨channel, on, ?_⟩
        rw [← Bool.not_eq_true] at off ⊢
        exact fun again => off (second.enabled channel again)
    · exact .inr ⟨channel, first.enabled channel on, off⟩

theorem record {event : Event} (other : ∀ word arg nblk, event ≠ .command word arg nblk) :
    Calm before (before.record event) where
  dmaEnable := rfl
  commands word arg nblk member := by
    rcases List.mem_cons.mp member with same | old
    · exact absurd same.symm (other word arg nblk)
    · exact old
  cmd _ := rfl
  enabled _ on := on
  callback := .inl

theorem setFlag {flag : Flag} {value : Bool}
    (quiet : flag = .callbackOccured → value = false) : Calm before (before.setFlag flag value) where
  dmaEnable := rfl
  commands _ _ _ member := member
  cmd _ := rfl
  enabled _ on := on
  callback set := by
    by_cases same : flag = .callbackOccured
    · subst same
      rw [setFlag_flag, quiet rfl] at set
      cases set
    · left
      rwa [setFlag_flag_of_ne (Ne.symm same)] at set

theorem raise {flag : Flag} (other : flag ≠ .callbackOccured) :
    Calm before (before.raise flag) :=
  (setFlag fun same => absurd same other).trans (record nofun)

theorem raiseIf {status bits : Word} {flag : Flag} (other : flag ≠ .callbackOccured) :
    Calm before (before.raiseIf status bits flag) := by
  unfold State.raiseIf
  split
  · exact raise other
  · exact refl _

theorem raiseErrors {status : Word} : Calm before (before.raiseErrors status) := by
  unfold State.raiseErrors
  split
  · exact (raiseIf (by decide)).trans (raiseIf (by decide))
  · exact refl _

theorem removeCard {status : Word}
    (removable : status &&& statCRem ≠ 0 → before.dmaEnable = false) :
    Calm before (before.removeCard status) := by
  unfold State.removeCard
  split
  · next removed =>
      refine ⟨rfl, fun _ _ _ member => member, fun on => ?_, fun _ on => on, nofun⟩
      rw [removable removed] at on
      cases on
  · exact refl _

theorem mmc0Isr {status : Word}
    (removable : status &&& statCRem ≠ 0 → before.dmaEnable = false) :
    Calm before (before.mmc0Isr status) := by
  have raised : Calm before ((before.raiseIf status statCmdComp .cmdComp).raiseErrors status
      |>.raiseIf status statTrnfComp .xferComp) :=
    ((raiseIf (by decide)).trans raiseErrors).trans (raiseIf (by decide))
  exact raised.trans (removeCard fun removed => raised.dmaEnable.trans (removable removed))

/-- The callback of a channel disables it. -/
theorem ofCallback {channel : Channel} (on : before.enabled channel = true) :
    Calm before (before.callback channel) where
  dmaEnable := rfl
  commands word arg nblk member := by
    rcases List.mem_cons.mp member with same | old
    · cases same
    · exact old
  cmd _ := rfl
  enabled other still := by
    by_cases same : other = channel
    · rw [same]
      exact on
    · simpa [State.callback, State.raise, State.record, State.setFlag, same] using still
  callback _ := .inr ⟨channel, on, by simp [State.callback]⟩

theorem environment (step : Environment timely before after) : Calm before after := by
  cases step with
  | isr status removable => exact mmc0Isr removable
  | callback channel on => exact ofCallback on
  | deliver value _ _ => exact ⟨rfl, fun _ _ _ member => member, fun _ => rfl, fun _ on => on, .inl⟩
  | drift cached _ => exact ⟨rfl, fun _ _ _ member => member, fun _ => rfl, fun _ on => on, .inl⟩
  | device rsp clockStable =>
      exact ⟨rfl, fun _ _ _ member => member, fun _ => rfl, fun _ on => on, .inl⟩

theorem seeFlag {flag : Flag} : Calm before (before.seeFlag flag).2 := by
  unfold State.seeFlag
  split
  · exact record nofun
  · exact refl _

end Calm

/-- The accesses that set nothing up and send no command. -/
inductive Harmless : {reply : Type} → Access reply → Prop where
  | quiet {reply : Type} {request : Access reply} : Local request → Harmless request
  | waits {reply : Type} {request : Access reply} : Waits anyFlag request →
      Harmless request
  | setPaRam (channel : Channel) (entry : PaRamEntry) : Harmless (.setPaRam channel entry)
  | blkLen (length : Nat) : Harmless (.emit (.blkLen length))

theorem Harmless.calm {reply : Type} {request : Access reply} (harmless : Harmless request)
    (state : State) : Calm state (State.perform request state).2 := by
  cases harmless with
  | quiet quiet =>
      cases quiet with
      | card update => exact ⟨rfl, fun _ _ _ member => member, fun _ => rfl, fun _ on => on, .inl⟩
      | setBusFreq freq => exact .refl _
      | maintain operation address =>
          exact ⟨rfl, fun _ _ _ member => member, fun _ => rfl, fun _ on => on, .inl⟩
      | loadByte address => exact .refl _
      | busWidth width => exact .record nofun
      | opClk freq => exact .record nofun
  | waits waits =>
      cases waits with
      | awaitFlags first second _ _ =>
          change Calm state (if state.flag first then _ else _)
          split
          · exact .seeFlag
          · exact .seeFlag
      | loadFlag flag _ => exact .seeFlag
      | pollCallback timeOut _ => exact .seeFlag
      | clearFlag flag => exact .setFlag fun _ => rfl
      | loadDmaEnable => exact .refl _
      | loadCmd => exact .refl _
      | getResp => exact .refl _
      | clearStatus bits => exact .record nofun
      | setDto ticks => exact .record nofun
  | setPaRam channel entry =>
      exact ⟨rfl, fun _ _ _ member => member, fun _ => rfl, fun _ on => on, .inl⟩
  | blkLen length => exact .record nofun

theorem harmless_of_waits {relevant : Flag → Prop} {result : Type} {code : Routine result}
    (within : Program.Within (Waits relevant) code) : Program.Within @Harmless code :=
  within.mono fun _ waits => .waits (waits.mono fun _ _ => trivial)

/-! ## The phases of a transfer -/

/-- Nothing is set up. -/
structure Quiet (state : State) : Prop where
  commands : CommandsOk state
  dmaEnable : state.dmaEnable = false
  enabled : ∀ channel, state.enabled channel = false

/-- At most one channel is enabled, and none once the callback has come. -/
structure Signalled (state : State) : Prop where
  commands : CommandsOk state
  unique : ∀ first second, state.enabled first = true → state.enabled second = true →
    first = second
  callback : state.flag .callbackOccured = true → ∀ channel, state.enabled channel = false

/-- A transfer is set up. -/
structure Armed (state : State) : Prop extends Signalled state where
  dmaEnable : state.dmaEnable = true

/-- Its command is written. -/
structure Sent (state : State) : Prop extends Armed state where
  cmd : state.cmd &&& cmdDp ≠ 0

/-- Its callback has come. -/
structure Drained (state : State) : Prop where
  commands : CommandsOk state
  enabled : ∀ channel, state.enabled channel = false

/-- An assertion that survives what the environment does. -/
def Lasts (assertion : State → Prop) : Prop :=
  ∀ before after, Calm before after → assertion before → assertion after

theorem CommandsOk.lasts : Lasts CommandsOk := fun _ _ calm ok word arg nblk member =>
  ok word arg nblk (calm.commands word arg nblk member)

theorem Calm.disabled {before after : State} (calm : Calm before after)
    (off : ∀ channel, before.enabled channel = false) (channel : Channel) :
    after.enabled channel = false := by
  rw [← Bool.not_eq_true]
  intro on
  exact absurd ((calm.enabled channel on).symm.trans (off channel)) (by decide)

theorem Quiet.lasts : Lasts Quiet := fun _ _ calm quiet =>
  ⟨CommandsOk.lasts _ _ calm quiet.commands, calm.dmaEnable.trans quiet.dmaEnable,
    calm.disabled quiet.enabled⟩

theorem Drained.lasts : Lasts Drained := fun _ _ calm drained =>
  ⟨CommandsOk.lasts _ _ calm drained.commands, calm.disabled drained.enabled⟩

theorem Signalled.lasts : Lasts Signalled := by
  intro before after calm signalled
  constructor
  · exact CommandsOk.lasts _ _ calm signalled.commands
  · intro first second onFirst onSecond
    exact signalled.unique _ _ (calm.enabled _ onFirst) (calm.enabled _ onSecond)
  · intro set
    rcases calm.callback set with old | ⟨channel, on, off⟩
    · exact calm.disabled (signalled.callback old)
    · intro other
      rw [← Bool.not_eq_true]
      intro still
      rw [signalled.unique _ _ (calm.enabled other still) on, off] at still
      cases still

theorem Armed.lasts : Lasts Armed := fun _ _ calm armed =>
  ⟨Signalled.lasts _ _ calm armed.toSignalled, calm.dmaEnable.trans armed.dmaEnable⟩

theorem Sent.lasts : Lasts Sent := fun _ _ calm sent =>
  ⟨Armed.lasts _ _ calm sent.toArmed, calm.cmd sent.dmaEnable ▸ sent.cmd⟩

section Contract

variable (dataBuffer : Nat)

/-- What is shown of every state: the command words are in order. -/
def teardown : Contract Access State :=
  ⟨(mmcSystem dataBuffer timely).toSetting, CommandsOk, fun _ _ => True, False⟩

variable {dataBuffer} {assertion : State → Prop}

theorem Lasts.stable (lasts : Lasts assertion) (pending : Option (Pending Access)) :
    (teardown dataBuffer).Stable pending assertion :=
  fun _ _ holds step => lasts _ _ (.environment step) holds

/-- Harmless accesses keep it as well. -/
theorem Lasts.keeps (lasts : Lasts assertion)
    (commands : ∀ state, assertion state → CommandsOk state) :
    (teardown dataBuffer).Keeps @Harmless assertion where
  stable := lasts.stable
  safe := commands
  guarantee _ _ _ _ _ := trivial
  moves _ state harmless holds _ := lasts _ _ (harmless.calm state) holds

/-! ### The end of a transfer -/

/-- The loop that polls for the callback ends with it. -/
theorem pollLoop_leads (lasts : Lasts assertion)
    (commands : ∀ state, assertion state → CommandsOk state)
    (leaves : ∀ state, assertion state → state.flag .callbackOccured = true → Drained state)
    (timeOut : Word) :
    (teardown dataBuffer).Leads assertion Drained (.iterate pollRound timeOut) := by
  apply Contract.Leads.countdown BitVec.toNat (lasts.stable none) (Drained.lasts.stable none)
    commands fun _ drained => drained.commands
  intro timeOut current holds
  apply Contract.Ensures.of_perform (lasts.stable _) holds commands fun _ _ _ => trivial
  intro before kept admitted
  have calm := Harmless.calm (.waits (.pollCallback timeOut trivial)) before
  change (teardown dataBuffer).Ensures _ (if before.flag .callbackOccured then _ else _)
    (before.seeFlag .callbackOccured).2
  by_cases occured : before.flag .callbackOccured = true
  · rw [if_pos occured]
    apply Contract.Ensures.of_done (Drained.lasts.stable none)
      (Drained.lasts _ _ calm (leaves before kept occured)) fun _ drained => drained.commands
    intro after drained
    exact ⟨nofun, fun _ _ => drained⟩
  · have positive : timeOut ≠ 0 := fun last => occured (admitted.2 last)
    rw [if_neg occured]
    change (teardown dataBuffer).Ensures _ (if timeOut = 0 then _ else _) _
    rw [if_neg positive]
    apply Contract.Ensures.of_done (lasts.stable none) (lasts _ _ calm kept) commands
    intro after still
    constructor
    · rintro next ⟨⟩
      exact ⟨Nat.lt_of_succ_le (toNat_pred positive).le, still⟩
    · exact nofun

/-- `mmc0_get_xfer_status` leaves nothing set up. -/
theorem getXferStatus_leads (lasts : Lasts assertion)
    (commands : ∀ state, assertion state → CommandsOk state)
    (leaves : ∀ state, assertion state → state.flag .callbackOccured = true → Drained state)
    (bypass : ∀ state, assertion state → state.cmd &&& cmdDp = 0 → Drained state) :
    (teardown dataBuffer).Leads assertion Quiet mmc0GetXferStatus := by
  have keeps : (teardown dataBuffer).Keeps @Harmless assertion := lasts.keeps commands
  have drained : (teardown dataBuffer).Keeps @Harmless Drained :=
    Drained.lasts.keeps fun _ drained => drained.commands
  have ends : ∀ status : Bool, (teardown dataBuffer).Leads Drained Quiet
      (.perform (.storeDmaEnable false) fun _ => .done status) := by
    intro status current holds
    apply Contract.Ensures.of_perform (Drained.lasts.stable _) holds
      (fun _ drained => drained.commands) fun _ _ _ => trivial
    intro before kept _
    exact .of_done (Quiet.lasts.stable none) ⟨kept.commands, rfl, kept.enabled⟩
      (fun _ quiet => quiet.commands) fun _ quiet => quiet
  apply Contract.Leads.bind
    (keeps.preserves (.lift (.waits (.awaitFlags _ _ trivial trivial))))
  intro _
  apply Contract.Leads.bind
    (keeps.preserves (harmless_of_waits (takeFlag_waits transferFlags_xferComp)))
  intro completed
  apply Contract.Leads.bind
    (keeps.preserves (harmless_of_waits (takeFlag_waits transferFlags_dataTimeout)))
  intro timedOut current holds
  apply Contract.Ensures.of_perform (lasts.stable _) holds commands fun _ _ _ => trivial
  intro before kept _
  change (teardown dataBuffer).Ensures _ (awaitCallback before.cmd _ >>= fun status =>
    .perform (.storeDmaEnable false) fun _ => .done status) before
  unfold awaitCallback
  by_cases data : before.cmd &&& cmdDp = 0
  · rw [if_neg (not_not.mpr data)]
    exact ends _ before (bypass before kept data)
  · rw [if_pos data, Program.bind_assoc]
    apply (pollLoop_leads lasts commands leaves _ before kept).bind
    intro timeOut after signalled
    rw [Program.bind_assoc]
    exact (drained.preserves (.lift (.waits (.clearFlag _)))).bind (fun _ => ends _) after signalled

/-! ### Commands -/

/-- Writing a command word that is in order. -/
theorem CommandsOk.sendCmd {state : State} (ok : CommandsOk state) {word arg nblk : Word}
    (inOrder : word &&& cmdDp = 0 → word &&& cmdDe = 0) :
    CommandsOk (State.perform (.sendCmd word arg nblk) state).2 := by
  intro other _ _ member
  rcases List.mem_cons.mp member with same | old
  · cases same
    exact inOrder
  · exact ok _ _ _ old

/-- Writing the word of a command, where `de` is the state of `dmaEnable`. -/
theorem writeCmd_leads {next : State → Prop} {c : Cmd} {de : Bool}
    (lasts : Lasts assertion) (commands : ∀ state, assertion state → CommandsOk state)
    (lastsNext : Lasts next) (commandsNext : ∀ state, next state → CommandsOk state)
    (enables : ∀ state, assertion state → state.dmaEnable = de)
    (writes : ∀ state nblk, assertion state →
      next (State.perform (.sendCmd (c.word ||| if de then cmdDe else 0) c.arg nblk) state).2) :
    (teardown dataBuffer).Leads assertion next (writeCmd c) := by
  intro current holds
  apply Contract.Ensures.of_perform (lasts.stable _) holds commands fun _ _ _ => trivial
  intro before kept _
  have loaded : ((teardown dataBuffer).perform .loadDmaEnable before).1 = de :=
    enables before kept
  rw [loaded]
  apply Contract.Ensures.of_perform (lasts.stable _) kept commands fun _ _ _ => trivial
  intro after still _
  exact .of_done (lastsNext.stable none) (writes after _ still) commandsNext fun _ held => held

/-- A plain command leaves nothing set up. -/
theorem plain_preserves {c : Cmd} (isPlain : c.Plain) :
    (teardown dataBuffer).Preserves Quiet (mmc0CmdSend c) := by
  have commands : ∀ state, Quiet state → CommandsOk state := fun _ quiet => quiet.commands
  have keeps : (teardown dataBuffer).Keeps @Harmless Quiet := Quiet.lasts.keeps commands
  apply Contract.Leads.bind (keeps.preserves (harmless_of_waits (prepareData_waits c)))
  intro _
  apply Contract.Leads.bind (writeCmd_leads Quiet.lasts commands Quiet.lasts commands
    (fun _ quiet => quiet.dmaEnable) _)
  · intro _
    exact (keeps.preserves (harmless_of_waits getCmdStatus_waits)).bind
      fun status => keeps.preserves (harmless_of_waits (readResp_waits c status))
  · intro state nblk quiet
    refine ⟨quiet.commands.sendCmd fun _ => ?_, quiet.dmaEnable, quiet.enabled⟩
    rw [if_neg (by decide), BitVec.and_or_distrib_right, isPlain.word_de]
    rfl

/-- While a transfer is set up, no interrupt clears a flag. -/
theorem Environment.flag_of_set {before after : State} {flag : Flag}
    (step : Environment timely before after) (on : before.dmaEnable = true)
    (set : before.flag flag = true) : after.flag flag = true := by
  have raiseIf : ∀ (state : State) (status bits : Word) (other : Flag),
      state.flag flag = true → (state.raiseIf status bits other).flag flag = true := by
    intro state status bits other held
    unfold State.raiseIf
    split
    · exact raise_flag_of_set held
    · exact held
  cases step with
  | isr status removable =>
      have stays : ¬ status &&& statCRem ≠ 0 := by
        intro removed
        have off : before.dmaEnable = false := removable removed
        rw [on] at off
        cases off
      unfold State.mmc0Isr State.removeCard
      rw [if_neg stays]
      apply raiseIf
      unfold State.raiseErrors
      split
      · exact raiseIf _ _ _ _ (raiseIf _ _ _ _ (raiseIf _ _ _ _ set))
      · exact raiseIf _ _ _ _ set
  | callback channel _ => exact raise_flag_of_set set
  | deliver value _ _ => exact set
  | drift cached _ => exact set
  | device rsp clockStable => exact set

/-- The command of a transfer is complete. -/
structure Completed (state : State) : Prop extends Sent state where
  cmdComp : state.flag .cmdComp = true

theorem Completed.stable (pending : Option (Pending Access)) :
    (teardown dataBuffer).Stable pending Completed := fun _ _ completed step =>
  ⟨Sent.lasts _ _ (.environment step) completed.toSent,
    step.flag_of_set completed.dmaEnable completed.cmdComp⟩

theorem Sent.safe (state : State) (sent : Sent state) : CommandsOk state := sent.commands

/-- The wait for a command that meets no timeout. -/
theorem getCmdStatus_sent {current : State} (sent : Sent current) :
    (teardown dataBuffer).Ensures (fun status after => status = true ∧ Sent after)
      mmc0GetCmdStatus current := by
  apply Contract.Ensures.of_perform (Sent.lasts.stable _) sent Sent.safe fun _ _ _ => trivial
  rintro before sent ⟨spins, inTime⟩
  have complete : before.flag .cmdComp = true := by
    rcases spins with set | timedOut
    · exact set
    · rw [inTime sent.dmaEnable] at timedOut
      cases timedOut
  have seen : ((teardown dataBuffer).perform (.awaitFlags .cmdComp .cmdTimeout) before).2 =
      (before.seeFlag .cmdComp).2 := if_pos complete
  rw [seen]
  have completed : Completed (before.seeFlag .cmdComp).2 :=
    ⟨Sent.lasts _ _ .seeFlag sent, by rw [seeFlag_flag, complete]⟩
  apply Contract.Ensures.of_perform (Completed.stable _) completed
    (fun _ completed => completed.commands) fun _ _ _ => trivial
  intro next completed _
  change (teardown dataBuffer).Ensures _ (Program.bind (if next.flag .cmdComp then _ else _) _) _
  rw [if_pos completed.cmdComp]
  apply Contract.Ensures.of_perform (Sent.lasts.stable _)
    (Sent.lasts _ _ .seeFlag completed.toSent) Sent.safe fun _ _ _ => trivial
  intro cleared sent _
  apply Contract.Ensures.of_perform (Sent.lasts.stable _)
    (Sent.lasts _ _ (.setFlag fun _ => rfl) sent) Sent.safe fun _ _ _ => trivial
  rintro last sent ⟨_, inTime⟩
  change (teardown dataBuffer).Ensures _ (Program.bind (if last.flag .cmdTimeout then _ else _) _) _
  have inTime : last.flag .cmdTimeout = false := inTime sent.dmaEnable
  rw [if_neg (by rw [inTime]; decide)]
  exact .of_done (Sent.lasts.stable none) (Sent.lasts _ _ .seeFlag sent) Sent.safe
    fun _ still => ⟨rfl, still⟩

/-- The command of a transfer and the wait for its data leave nothing set up. -/
theorem sendData_leads {c : Cmd} (data : c.dataPresent = true) :
    (teardown dataBuffer).Leads Armed Quiet (sendData c) := by
  have commands : ∀ state, Armed state → CommandsOk state := fun _ armed => armed.commands
  have keepsArmed : (teardown dataBuffer).Keeps @Harmless Armed := Armed.lasts.keeps commands
  have written : (teardown dataBuffer).Leads Armed Sent (writeCmd c) := by
    apply writeCmd_leads Armed.lasts commands Sent.lasts Sent.safe fun _ armed => armed.dmaEnable
    intro state nblk armed
    have present := c.word_dp data cmdDe
    exact ⟨⟨⟨armed.commands.sendCmd fun absent => absurd absent present, armed.unique,
      armed.callback⟩, armed.dmaEnable⟩, present⟩
  have transferred : (teardown dataBuffer).Leads Sent Quiet mmc0GetXferStatus :=
    getXferStatus_leads Sent.lasts Sent.safe
      (fun _ sent set => ⟨sent.commands, sent.callback set⟩)
      (fun _ sent absent => absurd absent sent.cmd)
  unfold sendData orFail mmc0CmdSend
  rw [Program.bind_assoc]
  apply Contract.Leads.bind (keepsArmed.preserves (harmless_of_waits (prepareData_waits c)))
  intro _
  rw [Program.bind_assoc]
  apply Contract.Leads.bind written
  intro _ current sent
  rw [Program.bind_assoc]
  apply (getCmdStatus_sent sent).bind
  rintro _ after ⟨rfl, still⟩
  apply Contract.Ensures.of_perform (Sent.lasts.stable _) still Sent.safe fun _ _ _ => trivial
  intro before kept _
  exact transferred before kept

/-! ### Setting up a transfer -/

/-- Nothing is set up, and the callback flag is clear. -/
structure Ready (state : State) : Prop extends Quiet state where
  callback : state.flag .callbackOccured = false

theorem Ready.lasts : Lasts Ready := by
  intro before after calm ready
  constructor
  · exact Quiet.lasts _ _ calm ready.toQuiet
  · rw [← Bool.not_eq_true]
    intro set
    rcases calm.callback set with old | ⟨channel, on, _⟩
    · exact absurd (old.symm.trans ready.callback) (by decide)
    · exact absurd (on.symm.trans (ready.enabled channel)) (by decide)

theorem Ready.safe (state : State) (ready : Ready state) : CommandsOk state := ready.commands

theorem Signalled.safe (state : State) (signalled : Signalled state) : CommandsOk state :=
  signalled.commands

/-- A channel that is enabled while the callback flag is clear. -/
theorem enable_leads (channel : Channel) (entry : PaRamEntry) :
    (teardown dataBuffer).Leads Ready Signalled (do
      .lift (.setPaRam channel entry)
      .lift (.enableTransfer channel) : Routine Unit) := by
  have keeps : (teardown dataBuffer).Keeps @Harmless Ready := Ready.lasts.keeps Ready.safe
  apply Contract.Leads.bind (keeps.preserves (.lift (.setPaRam channel entry)))
  intro _ current holds
  apply Contract.Ensures.of_perform (Ready.lasts.stable _) holds Ready.safe fun _ _ _ => trivial
  intro before ready _
  have only : ∀ other, Function.update before.enabled channel true other = true →
      other = channel := by
    intro other on
    by_contra apart
    rw [Function.update_of_ne apart, ready.enabled other] at on
    cases on
  have signalled : Signalled (State.perform (.enableTransfer channel) before).2 := by
    constructor
    · exact ready.commands
    · intro first second onFirst onSecond
      exact (only first onFirst).trans (only second onSecond).symm
    · intro set
      exact absurd (set.symm.trans ready.callback) (by decide)
  exact .of_done (Signalled.lasts.stable none) signalled Signalled.safe fun _ held => held

/-- `MMCXferSetup`. -/
theorem xferSetup_leads (channel : Channel) (ptr blkSize nBlks : Nat) :
    (teardown dataBuffer).Leads Quiet Armed (mmcXferSetup channel ptr blkSize nBlks) := by
  have keepsArmed : (teardown dataBuffer).Keeps @Harmless Armed :=
    Armed.lasts.keeps fun _ armed => armed.commands
  have keepsReady : (teardown dataBuffer).Keeps @Harmless Ready := Ready.lasts.keeps Ready.safe
  have cleared : (teardown dataBuffer).Leads Quiet Ready
      (.lift (.storeFlag .callbackOccured false)) := by
    intro current holds
    apply Contract.Ensures.of_perform (Quiet.lasts.stable _) holds
      (fun _ quiet => quiet.commands) fun _ _ _ => trivial
    intro before quiet _
    have ready : Ready (before.setFlag .callbackOccured false) :=
      ⟨Quiet.lasts _ _ (.setFlag fun _ => rfl) quiet, setFlag_flag⟩
    exact .of_done (Ready.lasts.stable none) ready Ready.safe fun _ held => held
  have enabled : (teardown dataBuffer).Leads Signalled Armed
      (.lift (.storeDmaEnable true)) := by
    intro current holds
    apply Contract.Ensures.of_perform (Signalled.lasts.stable _) holds Signalled.safe
      fun _ _ _ => trivial
    intro before signalled _
    have armed : Armed { before with dmaEnable := true } :=
      ⟨⟨signalled.commands, signalled.unique, signalled.callback⟩, rfl⟩
    exact .of_done (Armed.lasts.stable none) armed (fun _ armed => armed.commands)
      fun _ held => held
  apply Contract.Leads.bind cleared
  intro _
  apply Contract.Leads.bind (keepsReady.preserves (.lift (.waits (.clearFlag _))))
  intro _
  have setUp : (teardown dataBuffer).Leads Ready Signalled
      (mmcDmaSetup channel ptr blkSize nBlks) := by
    cases channel with
    | mmc0Tx => exact enable_leads _ _
    | mmc0Rx => exact enable_leads _ _
  apply Contract.Leads.bind setUp
  intro _
  apply Contract.Leads.bind enabled
  intro _
  exact keepsArmed.preserves (.lift (.blkLen _))

/-- Stopping a transfer leaves nothing set up. -/
theorem stop_preserves : (teardown dataBuffer).Preserves Quiet mmcStopCmdSend := by
  apply Contract.Leads.bind (plain_preserves (plain sdCmdRspBusy rfl (by decide)))
  intro _
  exact getXferStatus_leads Quiet.lasts (fun _ quiet => quiet.commands)
    (fun _ quiet _ => ⟨quiet.commands, quiet.enabled⟩)
    (fun _ quiet _ => ⟨quiet.commands, quiet.enabled⟩)

variable (dataBuffer) in
theorem teardown_respects : Respects (teardown dataBuffer) Quiet Armed where
  stable := Quiet.lasts.stable none
  safe _ quiet := quiet.commands
  quiet within := (Quiet.lasts.keeps fun _ quiet => quiet.commands).preserves
    (within.mono fun _ quiet => .quiet quiet)
  armedQuiet within := (Armed.lasts.keeps fun _ armed => armed.commands).preserves
    (within.mono fun _ quiet => .quiet quiet)
  command _ isPlain := plain_preserves isPlain
  setup := xferSetup_leads
  data _ present := sendData_leads present
  stop := stop_preserves

end Contract

/-! ## Every run -/

/-- At every return of a call nothing is left set up, and no command without data uses
DMA. -/
structure TornDown (system : System Access State) : Prop where
  dmaEnable : ∀ state, system.Idle state → state.dmaEnable = false
  enabled : ∀ state, system.Idle state → ∀ channel, state.enabled channel = false
  commands : ∀ config, system.Reachable config → CommandsOk config.state

theorem teardown_invariant (dataBuffer : Nat) :
    (mmcSystem dataBuffer timely).Invariant CommandsOk (fun _ _ => True) Quiet := by
  apply (teardown_respects dataBuffer).invariant
  intro state started
  refine ⟨?_, started.dmaEnable, started.enabled⟩
  intro word arg nblk member
  rw [started.history] at member
  cases member

/-- In every run in which transfers are in time, they are torn down. -/
theorem mmcCalls_tornDown (dataBuffer : Nat) : TornDown (mmcSystem dataBuffer timely) where
  dmaEnable _ idle := ((teardown_invariant dataBuffer).of_idle idle).dmaEnable
  enabled _ idle := ((teardown_invariant dataBuffer).of_idle idle).enabled
  commands _ reachable := (teardown_invariant dataBuffer).of_reachable reachable

/-! ## A transfer that is not torn down -/

/-- The schedule in which every command meets a timeout. -/
def alwaysTimeout (dataBuffer : Nat) :
    Schedule (mmcSystem dataBuffer .none).toSetting where
  ahead
    | .awaitFlags .cmdComp _, state => state.mmc0Isr (statErr ||| statCmdTimeout)
    | _, state => state
  follows request current := by
    split
    · exact .single (.isr _ _ fun _ => trivial)
    · exact .refl

/-- A read whose command meets a timeout leaves DMA enabled. -/
theorem mmcCalls_not_tornDown : ¬ TornDown (mmcSystem 0x80000000 .none) := by
  intro claim
  have computed : ((alwaysTimeout 0x80000000).run @spins 40
      (mmcReadCmdSend 0x80001000 0 1 >>= fun _ => .done ()) started).map
        (fun outcome => outcome.2.dmaEnable) = some true := by
    rfl
  rcases Option.map_eq_some_iff.mp computed with ⟨⟨_, after⟩, run, enabled⟩
  have idle := idle_of_run (.initial started_started) (.readCmdSend 0x80001000 0 1) run
  exact absurd (enabled.symm.trans (claim.dmaEnable after idle)) (by decide)

end BbbEth.Mmc
