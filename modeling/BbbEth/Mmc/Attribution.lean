import BbbEth.Mmc.Poweron

/-!
# Which command a status belongs to

The flags are set by interrupts and stay set until a wait that sees them clears
them.  A wait attributes what it sees to the last command; this is right where no
command is written while a flag is set that its wait reads.
-/

namespace BbbEth.Mmc

open BbbEth.Interference BbbEth.Coherence State Routine

/-- The events since the last command was written. -/
def sinceCommand : List Event → List Event
  | [] => []
  | .command _ _ _ :: _ => []
  | event :: earlier => event :: sinceCommand earlier

/-- Whatever was seen had been raised since the last command was written. -/
def Attributed : List Event → Prop
  | [] => True
  | .saw flag :: earlier => .raised flag ∈ sinceCommand earlier ∧ Attributed earlier
  | _ :: earlier => Attributed earlier

instance : DecidablePred Attributed
  | [] => .isTrue trivial
  | .saw flag :: earlier =>
      have := instDecidablePredListEventAttributed earlier
      inferInstanceAs (Decidable (.raised flag ∈ sinceCommand earlier ∧ Attributed earlier))
  | .command _ _ _ :: earlier => instDecidablePredListEventAttributed earlier
  | .raised _ :: earlier => instDecidablePredListEventAttributed earlier
  | .clearStatus _ :: earlier => instDecidablePredListEventAttributed earlier
  | .setDto _ :: earlier => instDecidablePredListEventAttributed earlier
  | .blkLen _ :: earlier => instDecidablePredListEventAttributed earlier
  | .busWidth _ :: earlier => instDecidablePredListEventAttributed earlier
  | .opClk _ :: earlier => instDecidablePredListEventAttributed earlier

/-- Whether the transfer status of a command is awaited: that of a command with data,
and that of CMD12. -/
def awaitsTransfer (word : Word) : Prop := word &&& cmdDp ≠ 0 ∨ word >>> 24 = 12

/-- No flag is set that the wait for the command reads. -/
structure Unset (word : Word) (state : State) : Prop where
  cmdComp : state.flag .cmdComp = false
  cmdTimeout : state.flag .cmdTimeout = false
  xferComp : awaitsTransfer word → state.flag .xferComp = false
  dataTimeout : awaitsTransfer word → state.flag .dataTimeout = false
  callback : word &&& cmdDp ≠ 0 → state.flag .callbackOccured = false

/-- The schedules in which no command is written while an old flag is set. -/
def fresh : Condition where
  admits
    | .sendCmd word _ _, state => Unset word state
    | _, _ => True
  removable _ := True
  delivers _ _ := True

/-- A flag that is set was raised since the last command was written. -/
def Current (state : State) (flag : Flag) : Prop :=
  state.flag flag = true → .raised flag ∈ sinceCommand state.history

/-- What the environment, and the accesses that neither read a flag nor write a
command, may change. -/
structure Follows (before after : State) : Prop where
  since : ∀ event, event ∈ sinceCommand before.history → event ∈ sinceCommand after.history
  attributed : Attributed before.history → Attributed after.history
  flag : ∀ flag, after.flag flag = true →
    before.flag flag = true ∨ .raised flag ∈ sinceCommand after.history
  cmd : after.cmd &&& cmdDp ≠ 0 → before.cmd &&& cmdDp ≠ 0

namespace Follows

variable {before middle after : State}

theorem refl (state : State) : Follows state state :=
  ⟨fun _ member => member, fun holds => holds, fun _ set => .inl set, fun data => data⟩

theorem trans (first : Follows before middle) (second : Follows middle after) :
    Follows before after where
  since event member := second.since _ (first.since event member)
  attributed holds := second.attributed (first.attributed holds)
  flag flag set := by
    rcases second.flag flag set with old | raised
    · rcases first.flag flag old with older | raised
      · exact .inl older
      · exact .inr (second.since _ raised)
    · exact .inr raised
  cmd data := first.cmd (second.cmd data)

theorem raise {flag : Flag} : Follows before (before.raise flag) where
  since _ member := List.mem_cons_of_mem _ member
  attributed holds := holds
  flag other set := by
    by_cases same : other = flag
    · subst same
      exact .inr (List.mem_cons_self ..)
    · rw [raise_flag_of_ne same] at set
      exact .inl set
  cmd data := data

theorem raiseIf {status bits : Word} {flag : Flag} :
    Follows before (before.raiseIf status bits flag) := by
  unfold State.raiseIf
  split
  · exact raise
  · exact refl _

theorem raiseErrors {status : Word} : Follows before (before.raiseErrors status) := by
  unfold State.raiseErrors
  split
  · exact raiseIf.trans raiseIf
  · exact refl _

theorem removeCard {status : Word} : Follows before (before.removeCard status) := by
  unfold State.removeCard
  split
  · refine ⟨fun _ member => member, fun holds => holds, nofun, fun data => ?_⟩
    exact absurd (show (0 : Word) &&& cmdDp = 0 by decide) data
  · exact refl _

theorem mmc0Isr {status : Word} : Follows before (before.mmc0Isr status) :=
  ((raiseIf.trans raiseErrors).trans raiseIf).trans removeCard

theorem environment {condition : Condition}
    (step : Environment condition before after) : Follows before after := by
  cases step with
  | isr status _ => exact mmc0Isr
  | callback channel _ =>
      exact ⟨raise.since, raise.attributed, raise.flag, fun data => data⟩
  | deliver value _ _ =>
      exact ⟨fun _ member => member, fun holds => holds, fun _ set => .inl set, fun data => data⟩
  | drift cached _ =>
      exact ⟨fun _ member => member, fun holds => holds, fun _ set => .inl set, fun data => data⟩
  | device rsp clockStable =>
      exact ⟨fun _ member => member, fun holds => holds, fun _ set => .inl set, fun data => data⟩

/-- Reading a flag that is current. -/
theorem seeFlag {flag : Flag} (current : Current before flag) :
    Follows before (before.seeFlag flag).2 := by
  unfold State.seeFlag
  split
  · next set =>
      refine ⟨fun _ member => List.mem_cons_of_mem _ member, fun holds => ⟨current set, holds⟩,
        fun _ still => .inl still, fun data => data⟩
  · exact refl _

theorem clearFlag {flag : Flag} : Follows before (before.setFlag flag false) where
  since _ member := member
  attributed holds := holds
  flag other set := by
    by_cases same : other = flag
    · subst same
      rw [setFlag_flag] at set
      cases set
    · rw [setFlag_flag_of_ne same] at set
      exact .inl set
  cmd data := data

theorem current {flag : Flag} (follows : Follows before after)
    (holds : Current before flag) : Current after flag := by
  intro set
  rcases follows.flag flag set with old | raised
  · exact follows.since _ (holds old)
  · exact raised

end Follows

/-- The accesses that write no command, and read no flags but the relevant ones. -/
inductive Uses (relevant : Flag → Prop) : {reply : Type} → Access reply → Prop where
  | quiet {reply : Type} {request : Access reply} : Local request → Uses relevant request
  | waits {reply : Type} {request : Access reply} : Waits relevant request →
      Uses relevant request
  | storeDmaEnable (value : Bool) : Uses relevant (.storeDmaEnable value)
  | setPaRam (channel : Channel) (entry : PaRamEntry) : Uses relevant (.setPaRam channel entry)
  | enableTransfer (channel : Channel) : Uses relevant (.enableTransfer channel)
  | blkLen (length : Nat) : Uses relevant (.emit (.blkLen length))

/-- What holds while a wait reads some of the flags. -/
structure Reading (relevant : Flag → Prop) (state : State) : Prop where
  attributed : Attributed state.history
  current : ∀ flag, relevant flag → Current state flag

theorem Uses.follows {relevant : Flag → Prop} {reply : Type} {request : Access reply}
    (uses : Uses relevant request) {state : State} (reading : Reading relevant state) :
    Follows state (State.perform request state).2 := by
  have emitted : ∀ event, (∀ flag, event ≠ .saw flag) →
      (∀ word arg nblk, event ≠ .command word arg nblk) →
      Follows state (state.record event) := by
    intro event notSaw notCommand
    constructor
    · intro other member
      cases event with
      | command word arg nblk => exact absurd rfl (notCommand word arg nblk)
      | _ => exact List.mem_cons_of_mem _ member
    · intro holds
      cases event with
      | saw flag => exact absurd rfl (notSaw flag)
      | _ => exact holds
    · exact fun _ set => .inl set
    · exact fun data => data
  cases uses with
  | quiet quiet =>
      cases quiet with
      | card update =>
          exact ⟨fun _ member => member, fun holds => holds, fun _ set => .inl set,
            fun data => data⟩
      | setBusFreq freq => exact .refl _
      | maintain operation address =>
          exact ⟨fun _ member => member, fun holds => holds, fun _ set => .inl set,
            fun data => data⟩
      | loadByte address => exact .refl _
      | busWidth width => exact emitted _ nofun nofun
      | opClk freq => exact emitted _ nofun nofun
  | waits waits =>
      cases waits with
      | awaitFlags first second isFirst isSecond =>
          change Follows state (if state.flag first then _ else _)
          split
          · exact .seeFlag (reading.current _ isFirst)
          · exact .seeFlag (reading.current _ isSecond)
      | loadFlag flag isRelevant => exact .seeFlag (reading.current _ isRelevant)
      | pollCallback timeOut isRelevant => exact .seeFlag (reading.current _ isRelevant)
      | clearFlag flag => exact .clearFlag
      | loadDmaEnable => exact .refl _
      | loadCmd => exact .refl _
      | getResp => exact .refl _
      | clearStatus bits => exact emitted _ nofun nofun
      | setDto ticks => exact emitted _ nofun nofun
  | storeDmaEnable value =>
      exact ⟨fun _ member => member, fun holds => holds, fun _ set => .inl set, fun data => data⟩
  | setPaRam channel entry =>
      exact ⟨fun _ member => member, fun holds => holds, fun _ set => .inl set, fun data => data⟩
  | enableTransfer channel =>
      exact ⟨fun _ member => member, fun holds => holds, fun _ set => .inl set, fun data => data⟩
  | blkLen length => exact emitted _ nofun nofun

/-- The transfer status of the last command is awaited. -/
structure Awaiting (state : State) : Prop extends Reading transferFlags state where
  callback : state.cmd &&& cmdDp ≠ 0 → Current state .callbackOccured

/-- An assertion that survives what the environment does. -/
def Endures (assertion : State → Prop) : Prop :=
  ∀ before after, Follows before after → assertion before → assertion after

theorem Reading.endures (relevant : Flag → Prop) : Endures (Reading relevant) :=
  fun _ _ follows reading => ⟨follows.attributed reading.attributed,
    fun flag isRelevant => follows.current (reading.current flag isRelevant)⟩

theorem Awaiting.endures : Endures Awaiting := fun _ _ follows awaiting =>
  ⟨Reading.endures _ _ _ follows awaiting.toReading,
    fun data => follows.current (awaiting.callback (follows.cmd data))⟩

theorem Reading.mono {relevant fewer : Flag → Prop} {state : State}
    (reading : Reading relevant state) (implies : ∀ flag, fewer flag → relevant flag) :
    Reading fewer state :=
  ⟨reading.attributed, fun flag isFewer => reading.current flag (implies flag isFewer)⟩

section Contract

variable (dataBuffer : Nat)

/-- What is shown of every state: its history is in order. -/
def attribution : Contract Access State :=
  ⟨(mmcSystem dataBuffer fresh).toSetting, fun state => Attributed state.history,
    fun _ _ => True, False⟩

variable {dataBuffer} {assertion : State → Prop} {relevant : Flag → Prop}

theorem Endures.stable (endures : Endures assertion) (pending : Option (Pending Access)) :
    (attribution dataBuffer).Stable pending assertion :=
  fun _ _ holds step => endures _ _ (.environment step) holds

theorem Endures.keeps (endures : Endures assertion)
    (reads : ∀ state, assertion state → Reading relevant state) :
    (attribution dataBuffer).Keeps (Uses relevant) assertion where
  stable := endures.stable
  safe _ holds := (reads _ holds).attributed
  guarantee _ _ _ _ _ := trivial
  moves _ state uses holds _ := endures _ _ (uses.follows (reads state holds)) holds

/-! ## The routines -/

theorem uses_of_waits {result : Type} {code : Routine result}
    (within : Program.Within (Waits relevant) code) : Program.Within (Uses relevant) code :=
  within.mono fun _ waits => .waits waits

/-- Writing a command word while no flag is set that its wait reads. -/
theorem Unset.awaiting {state : State} {word arg nblk : Word} (unset : Unset word state)
    (awaited : awaitsTransfer word) (attributed : Attributed state.history) :
    Awaiting (State.perform (.sendCmd word arg nblk) state).2 := by
  refine ⟨⟨attributed, fun flag isTransfer set => ?_⟩, fun data set => ?_⟩
  · have clear : state.flag flag = false := by
      cases flag with
      | callbackOccured => exact absurd rfl isTransfer
      | xferComp => exact unset.xferComp awaited
      | dataTimeout => exact unset.dataTimeout awaited
      | cmdComp => exact unset.cmdComp
      | cmdTimeout => exact unset.cmdTimeout
    exact absurd (set.symm.trans clear) (by decide)
  · exact absurd (set.symm.trans (unset.callback data)) (by decide)

theorem Unset.reading {state : State} {word arg nblk : Word} (unset : Unset word state)
    (attributed : Attributed state.history) :
    Reading commandFlags (State.perform (.sendCmd word arg nblk) state).2 := by
  refine ⟨attributed, fun flag isCommand set => ?_⟩
  have clear : state.flag flag = false := by
    rcases isCommand with rfl | rfl
    · exact unset.cmdComp
    · exact unset.cmdTimeout
  exact absurd (set.symm.trans clear) (by decide)

/-- Writing the word of a command leads to what holds once it is written. -/
theorem writeCmd_attribution {next : State → Prop} {c : Cmd} (endures : Endures next)
    (reads : ∀ state, next state → Attributed state.history)
    (writes : ∀ state (de : Bool) nblk, Unset (c.word ||| if de then cmdDe else 0) state →
      Attributed state.history →
      next (State.perform (.sendCmd (c.word ||| if de then cmdDe else 0) c.arg nblk) state).2) :
    (attribution dataBuffer).Leads (Reading commandFlags) next (writeCmd c) := by
  have stable : ∀ pending, (attribution dataBuffer).Stable pending (Reading commandFlags) :=
    (Reading.endures commandFlags).stable
  intro current holds
  apply Contract.Ensures.of_perform (stable _) holds (fun _ reading => reading.attributed)
    fun _ _ _ => trivial
  intro before reading _
  apply Contract.Ensures.of_perform (stable _) reading (fun _ reading => reading.attributed)
    fun _ _ _ => trivial
  intro after still admitted
  exact .of_done (endures.stable none) (writes after _ _ admitted.2 still.attributed) reads
    fun _ held => held

/-- `MMC0CmdSend`. -/
theorem cmdSend_attribution (c : Cmd) :
    (attribution dataBuffer).Preserves (Reading commandFlags) (mmc0CmdSend c) := by
  have endures := Reading.endures commandFlags
  have keeps : (attribution dataBuffer).Keeps (Uses commandFlags) (Reading commandFlags) :=
    endures.keeps fun _ reading => reading
  apply Contract.Leads.bind (keeps.preserves (uses_of_waits (prepareData_waits c)))
  intro _
  apply Contract.Leads.bind (writeCmd_attribution endures (fun _ reading => reading.attributed)
    fun _ _ _ unset attributed => unset.reading attributed)
  intro _
  apply Contract.Leads.bind (keeps.preserves (uses_of_waits getCmdStatus_waits))
  intro status
  exact keeps.preserves (uses_of_waits (readResp_waits c status))

/-- `MMC0CmdSend`, for a command whose transfer status is awaited. -/
theorem cmdSend_awaiting {c : Cmd}
    (awaited : ∀ de : Bool, awaitsTransfer (c.word ||| if de then cmdDe else 0)) :
    (attribution dataBuffer).Leads (Reading commandFlags) Awaiting (mmc0CmdSend c) := by
  have keeps : (attribution dataBuffer).Keeps (Uses commandFlags) (Reading commandFlags) :=
    (Reading.endures commandFlags).keeps fun _ reading => reading
  have keepsAwaiting : (attribution dataBuffer).Keeps (Uses commandFlags) Awaiting :=
    Awaiting.endures.keeps fun _ awaiting =>
      awaiting.toReading.mono commandFlags_transferFlags
  apply Contract.Leads.bind (keeps.preserves (uses_of_waits (prepareData_waits c)))
  intro _
  apply Contract.Leads.bind (writeCmd_attribution Awaiting.endures
    (fun _ awaiting => awaiting.attributed)
    fun _ de _ unset attributed => unset.awaiting (awaited de) attributed)
  intro _
  apply Contract.Leads.bind (keepsAwaiting.preserves (uses_of_waits getCmdStatus_waits))
  intro status
  exact keepsAwaiting.preserves (uses_of_waits (readResp_waits c status))

/-- `mmc0_get_xfer_status`. -/
theorem getXferStatus_attribution :
    (attribution dataBuffer).Leads Awaiting (Reading commandFlags) mmc0GetXferStatus := by
  have keeps : (attribution dataBuffer).Keeps (Uses transferFlags) Awaiting :=
    Awaiting.endures.keeps fun _ awaiting => awaiting.toReading
  have keepsAll : (attribution dataBuffer).Keeps (Uses anyFlag) (Reading anyFlag) :=
    (Reading.endures _).keeps fun _ reading => reading
  have ends : ∀ (every : Flag → Prop) (status : Bool),
      (∀ flag, commandFlags flag → every flag) →
      (attribution dataBuffer).Leads (Reading every) (Reading commandFlags)
        (.perform (.storeDmaEnable false) fun _ => .done status) := by
    intro every status covers current holds
    have kept : (attribution dataBuffer).Keeps (Uses every) (Reading every) :=
      (Reading.endures every).keeps fun _ reading => reading
    apply (kept.preserves (.perform (.storeDmaEnable false) fun _ => .done) current holds).mono
    exact fun _ _ reading => reading.mono covers
  apply Contract.Leads.bind (keeps.preserves
    (.lift (.waits (.awaitFlags _ _ transferFlags_xferComp transferFlags_dataTimeout))))
  intro _
  apply Contract.Leads.bind
    (keeps.preserves (uses_of_waits (takeFlag_waits transferFlags_xferComp)))
  intro completed
  apply Contract.Leads.bind
    (keeps.preserves (uses_of_waits (takeFlag_waits transferFlags_dataTimeout)))
  intro timedOut current holds
  apply Contract.Ensures.of_perform (Awaiting.endures.stable _) holds
    (fun _ awaiting => awaiting.attributed) fun _ _ _ => trivial
  intro before awaiting _
  change (attribution dataBuffer).Ensures _ (awaitCallback before.cmd _ >>= fun status =>
    .perform (.storeDmaEnable false) fun _ => .done status) before
  unfold awaitCallback
  by_cases data : before.cmd &&& cmdDp = 0
  · rw [if_neg (not_not.mpr data)]
    exact ends _ _ commandFlags_transferFlags before awaiting.toReading
  · rw [if_pos data, Program.bind_assoc]
    have reading : Reading anyFlag before := by
      refine ⟨awaiting.attributed, fun flag _ => ?_⟩
      by_cases isCallback : flag = .callbackOccured
      · exact isCallback ▸ awaiting.callback data
      · exact awaiting.current flag isCallback
    have isAny : anyFlag .callbackOccured := trivial
    apply Contract.Leads.bind
      (keepsAll.preserves (uses_of_waits (pollLoop_waits isAny _))) _ before reading
    intro timeOut
    rw [Program.bind_assoc]
    apply Contract.Leads.bind (keepsAll.preserves (.lift (.waits (.clearFlag _))))
    intro _
    exact ends _ _ fun _ _ => trivial

variable (dataBuffer) in
theorem attribution_respects :
    Respects (attribution dataBuffer) (Reading commandFlags) (Reading commandFlags) := by
  have keeps : (attribution dataBuffer).Keeps (Uses commandFlags) (Reading commandFlags) :=
    (Reading.endures commandFlags).keeps fun _ reading => reading
  constructor
  · exact (Reading.endures commandFlags).stable none
  · exact fun _ reading => reading.attributed
  · exact fun within => keeps.preserves (within.mono fun _ quiet => .quiet quiet)
  · exact fun within => keeps.preserves (within.mono fun _ quiet => .quiet quiet)
  · exact fun c _ => cmdSend_attribution c
  · intro channel ptr blkSize nBlks
    apply keeps.preserves
    apply Program.Within.perform (.waits (.clearFlag _))
    intro _
    apply Program.Within.perform (.waits (.clearFlag _))
    intro _
    have setUp : Program.Within (Uses commandFlags) (mmcDmaSetup channel ptr blkSize nBlks) := by
      cases channel with
      | mmc0Tx => exact .perform (.setPaRam _ _) fun _ => .lift (.enableTransfer _)
      | mmc0Rx => exact .perform (.setPaRam _ _) fun _ => .lift (.enableTransfer _)
    apply setUp.bind
    intro _
    exact .perform (.storeDmaEnable true) fun _ => .lift (.blkLen _)
  · intro c data
    have awaited : ∀ de : Bool, awaitsTransfer (c.word ||| if de then cmdDe else 0) :=
      fun de => .inl (c.word_dp data _)
    apply Contract.Leads.bind (cmdSend_awaiting awaited)
    rintro ⟨status, c⟩
    apply Contract.Leads.ite
    · intro _
      exact getXferStatus_attribution
    · intro _ current awaiting
      exact .of_done (Awaiting.endures.stable none) awaiting
        (fun _ awaiting => awaiting.attributed)
        fun _ still => still.toReading.mono commandFlags_transferFlags
  · apply Contract.Leads.bind (cmdSend_awaiting _)
    · intro _
      exact getXferStatus_attribution
    · intro de
      right
      cases de <;> decide

end Contract

/-! ## Every run -/

/-- In every run, a wait sees only flags that were raised since the last command was
written. -/
def StatusAttributed (system : System Access State) : Prop :=
  ∀ config, system.Reachable config → Attributed config.state.history

/-- It does so in every run in which no command is written while an old flag is set. -/
theorem mmcCalls_attributed (dataBuffer : Nat) :
    StatusAttributed (mmcSystem dataBuffer fresh) := by
  have rules := (attribution_respects dataBuffer).invariant (by
    intro state started
    refine ⟨?_, fun flag _ set => absurd (set.symm.trans (started.flags flag)) (by decide)⟩
    rw [started.history]
    trivial)
  exact fun _ reachable => rules.of_reachable reachable

/-! ## A read that fails at once -/

/-- The number of commands that were written. -/
def commandsWritten (history : List Event) : Nat :=
  (history.filter fun event => match event with
    | .command _ _ _ => true
    | _ => false).length

/-- The schedule in which the first command meets a timeout, with a status word that
has the data timeout as well, and the others are complete; the callback comes when it
is polled for. -/
def firstTimeout (dataBuffer : Nat) :
    Schedule (mmcSystem dataBuffer .none).toSetting where
  ahead
    | .awaitFlags .cmdComp _, state =>
        if commandsWritten state.history = 1 then
          state.mmc0Isr (statErr ||| statCmdTimeout ||| statDataTimeout)
        else
          state.mmc0Isr statCmdComp
    | .pollCallback _, state =>
        if state.enabled .mmc0Rx = true then state.callback .mmc0Rx else state
    | _, state => state
  follows request current := by
    cases request with
    | awaitFlags first second =>
        cases first with
        | cmdComp =>
            dsimp only
            split
            · exact .single (.isr _ _ fun _ => trivial)
            · exact .single (.isr _ _ fun _ => trivial)
        | _ => exact .refl
    | pollCallback timeOut =>
        dsimp only
        split
        · next enabled => exact .single (.callback _ _ enabled)
        · exact .refl
    | _ => exact .refl

/-- The second read fails through the data timeout that came with the first. -/
theorem mmcCalls_not_attributed : ¬ StatusAttributed (mmcSystem 0x80000000 .none) := by
  intro claim
  have computed : ((firstTimeout 0x80000000).run @spins 40
      (mmcReadCmdSend 0x80001000 0 1 >>= fun _ => .done ()) started).bind
        (fun first => ((firstTimeout 0x80000000).run @spins 40
          (mmcReadCmdSend 0x80001000 0 1 >>= fun _ => .done ()) first.2).map
            fun second => decide (Attributed second.2.history)) = some false := by
    rfl
  rcases Option.bind_eq_some_iff.mp computed with ⟨⟨_, middle⟩, first, others⟩
  rcases Option.map_eq_some_iff.mp others with ⟨⟨_, after⟩, second, wrong⟩
  have idle := idle_of_run (.initial started_started) (.readCmdSend 0x80001000 0 1) first
  have last := idle_of_run idle (.readCmdSend 0x80001000 0 1) second
  exact of_decide_eq_false wrong (claim _ last)

end BbbEth.Mmc
