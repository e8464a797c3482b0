import BbbEth.Mmc.Coherence
import BbbEth.Mmc.Poweron

/-!
# A dirty line that is written back too late

If a line of the buffer is dirty when `MMCReadCmdSend` is called, the cache may
write it back after the DMA engine has stored its bytes, and the processor reads
the old bytes of the line.
-/

namespace BbbEth.Mmc

open BbbEth.Interference BbbEth.Coherence State Routine

/-- The receive channel stores so many bytes. -/
def deliverMany (data : Nat → Byte) : Nat → State → State
  | 0, state => state
  | count + 1, state => deliverMany data count (state.deliver (data state.moved))

section Deliver

variable {data : Nat → Byte} {ptr length : Nat}

/-- Storing bytes changes the memory, and counts them. -/
theorem deliverMany_eq (data : Nat → Byte) (count : Nat) (state : State) :
    ∃ memory, deliverMany data count state =
      { state with
        moved := state.moved + count
        cached := { state.cached with memory := memory } } := by
  induction count generalizing state with
  | zero => exact ⟨_, rfl⟩
  | succ count inductionHypothesis =>
      rcases inductionHypothesis (state.deliver (data state.moved)) with ⟨memory, same⟩
      refine ⟨memory, ?_⟩
      rw [deliverMany, same]
      simp only [State.deliver, Cached.deposit]
      rw [Nat.add_right_comm, Nat.add_assoc state.moved count 1]

theorem deliverMany_interferes (count : Nat) {state : State}
    (enabled : state.enabled .mmc0Rx = true) (dest : (state.paRam .mmc0Rx).destAddr = ptr)
    (fits : state.moved + count ≤ length) :
    Relation.ReflTransGen (Environment (reading data ptr length)) state
      (deliverMany data count state) := by
  induction count generalizing state with
  | zero => exact .refl
  | succ count inductionHypothesis =>
      have short : state.moved < length := by omega
      have fits : state.moved + 1 + count ≤ length := by omega
      have others : Relation.ReflTransGen (Environment (reading data ptr length))
          (state.deliver (data state.moved))
          (deliverMany data count (state.deliver (data state.moved))) :=
        inductionHypothesis enabled dest fits
      exact .head (.deliver state _ enabled ⟨dest, short, rfl⟩) others

end Deliver

/-- What happens before a wait for a transfer: the engine stores the rest of the bytes,
the line is evicted, and the transfer completes. -/
def completeLate (data : Nat → Byte) (length line : Nat) (state : State) : State :=
  let stored := deliverMany data (length - state.moved) state
  { stored with cached := stored.cached.evict lineOf line }.callback .mmc0Rx

/-- Whether a flag is left over from before. -/
def leftOver (state : State) : Bool :=
  [Flag.callbackOccured, .xferComp, .dataTimeout, .cmdComp, .cmdTimeout].any state.flag

/-- Flags that are left over are cleared as `mmc0_isr` does it for another card. -/
def forget (state : State) : State :=
  if leftOver state then state.mmc0Isr statCRem else state

theorem forget_cached (state : State) : (forget state).cached = state.cached := by
  unfold forget
  split
  · rfl
  · rfl

theorem forget_flag (state : State) (flag : Flag) : (forget state).flag flag = false := by
  unfold forget
  split
  · rfl
  · next none =>
      simp only [leftOver, List.any_cons, List.any_nil, Bool.or_false, Bool.or_eq_true,
        not_or, Bool.not_eq_true] at none
      cases flag with
      | callbackOccured => exact none.1
      | xferComp => exact none.2.1
      | dataTimeout => exact none.2.2.1
      | cmdComp => exact none.2.2.2.1
      | cmdTimeout => exact none.2.2.2.2

/-- The schedule in which every command and every transfer completes, and the line is
evicted between the last byte and the maintenance of the cache. -/
def evictLate (data : Nat → Byte) (ptr length line : Nat) :
    Schedule (readSetting data ptr length) where
  ahead
    | .card _, state => forget state
    | .awaitFlags .cmdComp _, state => state.mmc0Isr statCmdComp
    | .awaitFlags .xferComp _, state =>
        if state.enabled .mmc0Rx = true ∧ (state.paRam .mmc0Rx).destAddr = ptr ∧
            state.moved ≤ length then
          (completeLate data length line state).mmc0Isr statTrnfComp
        else
          state.mmc0Isr statTrnfComp
    | _, state => state
  follows request current := by
    cases request with
    | card update =>
        dsimp only [forget]
        split
        · exact .single (.isr _ _ fun _ => trivial)
        · exact .refl
    | awaitFlags first second =>
        cases first with
        | cmdComp => exact .single (.isr _ _ fun _ => trivial)
        | xferComp =>
            dsimp only
            split
            · next poised =>
                rcases poised with ⟨enabled, dest, fits⟩
                have stores : Relation.ReflTransGen (Environment (reading data ptr length)) current
                    (deliverMany data (length - current.moved) current) :=
                  deliverMany_interferes _ enabled dest (by omega)
                rcases deliverMany_eq data (length - current.moved) current with ⟨memory, same⟩
                have stillEnabled : (deliverMany data (length - current.moved) current).enabled
                    .mmc0Rx = true := by
                  rw [same]
                  exact enabled
                apply ((stores.tail (.drift _ _ (.evict _ line))).tail
                  (.callback _ .mmc0Rx stillEnabled)).tail
                exact .isr _ _ fun _ => trivial
            · exact .single (.isr _ _ fun _ => trivial)
        | _ => exact .refl
    | _ => exact .refl

/-- Two states that differ in flags, in the card structure and in the history only. -/
structure Core (before after : State) : Prop where
  cached : after.cached = before.cached
  enabled : after.enabled = before.enabled
  paRam : after.paRam = before.paRam
  moved : after.moved = before.moved
  cmd : after.cmd = before.cmd

theorem Core.refl (state : State) : Core state state := ⟨rfl, rfl, rfl, rfl, rfl⟩

theorem Core.trans {first second third : State} (left : Core first second)
    (right : Core second third) : Core first third :=
  ⟨right.cached.trans left.cached, right.enabled.trans left.enabled,
    right.paRam.trans left.paRam, right.moved.trans left.moved, right.cmd.trans left.cmd⟩

theorem Core.seeFlag (state : State) (flag : Flag) : Core state (state.seeFlag flag).2 := by
  unfold State.seeFlag
  split
  · exact ⟨rfl, rfl, rfl, rfl, rfl⟩
  · exact .refl _

theorem awaitFlags_first {state : State} {first second : Flag}
    (set : state.flag first = true) :
    (State.perform (.awaitFlags first second) state).2 = (state.seeFlag first).2 := by
  change (if state.flag first then (state.seeFlag first).2 else (state.seeFlag second).2) = _
  exact if_pos set

/-- No flag is set. -/
structure Settled (origin state : State) : Prop extends Core origin state where
  flag : ∀ flag, state.flag flag = false

section Reaches

variable {data : Nat → Byte} {ptr length line : Nat} {origin state : State}

theorem reaches_perform {reply result : Type} {post : result → State → Prop}
    {request : Access reply} {rest : reply → Routine result}
    (spins : Spins request ((evictLate data ptr length line).ahead request state))
    (others : (evictLate data ptr length line).Reaches post
      (rest (State.perform request ((evictLate data ptr length line).ahead request state)).1)
      (State.perform request ((evictLate data ptr length line).ahead request state)).2) :
    (evictLate data ptr length line).Reaches post (.perform request rest) state :=
  Schedule.Reaches.perform ⟨spins, trivial⟩ others

/-- `takeFlag` returns the flag, and clears it. -/
theorem takeFlag_reaches (state : State) (flag : Flag) : (evictLate data ptr length line).Reaches
    (fun value after => value = state.flag flag ∧
      after.flag = Function.update state.flag flag false ∧ Core state after)
    (takeFlag flag) state := by
  refine reaches_perform trivial ?_
  change (evictLate data ptr length line).Reaches _ (if state.flag flag then _ else _)
    (state.seeFlag flag).2
  by_cases set : state.flag flag = true
  · rw [if_pos set]
    refine reaches_perform trivial ?_
    apply Schedule.Reaches.done
    refine ⟨set.symm, ?_, (Core.seeFlag state flag).trans ⟨rfl, rfl, rfl, rfl, rfl⟩⟩
    change Function.update (state.seeFlag flag).2.flag flag false = _
    rw [seeFlag_flag]
  · rw [if_neg set]
    have clear : state.flag flag = false := by
      rwa [Bool.not_eq_true] at set
    apply Schedule.Reaches.done
    refine ⟨clear.symm, ?_, Core.seeFlag state flag⟩
    rw [seeFlag_flag, ← clear, Function.update_eq_self]

/-- Every command completes. -/
theorem getCmdStatus_reaches (settled : Settled origin state) :
    (evictLate data ptr length line).Reaches
      (fun value after => value = true ∧ Settled origin after) mmc0GetCmdStatus state := by
  have raised : (state.raise .cmdComp).flag .cmdComp = true := raise_flag
  refine reaches_perform (.inl raised) ?_
  have seen : (State.perform (.awaitFlags .cmdComp .cmdTimeout) (state.raise .cmdComp)).2 =
      ((state.raise .cmdComp).seeFlag .cmdComp).2 := awaitFlags_first raised
  change (evictLate data ptr length line).Reaches _ _
    (State.perform (.awaitFlags .cmdComp .cmdTimeout) (state.raise .cmdComp)).2
  rw [seen]
  apply (takeFlag_reaches _ .cmdComp).bind
  rintro _ first ⟨rfl, firstFlag, firstCore⟩
  apply (takeFlag_reaches first .cmdTimeout).bind
  rintro _ second ⟨rfl, secondFlag, secondCore⟩
  rw [seeFlag_flag] at firstFlag ⊢
  have timeout : first.flag .cmdTimeout = false := by
    rw [firstFlag, Function.update_of_ne (by decide), raise_flag_of_ne (by decide)]
    exact settled.flag _
  rw [raised, timeout]
  apply Schedule.Reaches.done
  refine ⟨rfl, ?_, fun flag => ?_⟩
  · have raising : Core state (state.raise .cmdComp) := ⟨rfl, rfl, rfl, rfl, rfl⟩
    have seeing : Core state ((state.raise .cmdComp).seeFlag .cmdComp).2 :=
      raising.trans (Core.seeFlag _ _)
    exact settled.toCore.trans ((seeing.trans firstCore).trans secondCore)
  · rw [secondFlag, firstFlag]
    by_cases isTimeout : flag = .cmdTimeout
    · rw [isTimeout, Function.update_self]
    · rw [Function.update_of_ne isTimeout]
      by_cases isComp : flag = .cmdComp
      · rw [isComp, Function.update_self]
      · rw [Function.update_of_ne isComp, raise_flag_of_ne isComp]
        exact settled.flag _

/-- What a wait for a transfer meets. -/
structure Done (origin state : State) : Prop extends Core origin state where
  xferComp : state.flag .xferComp = true
  callback : state.flag .callbackOccured = decide (origin.cmd &&& cmdDp ≠ 0)
  others : ∀ flag, flag ≠ .xferComp → flag ≠ .callbackOccured → state.flag flag = false

/-- The callback is found at the first poll. -/
theorem awaitCallback_reaches (clear : ∀ flag, flag ≠ .callbackOccured → state.flag flag = false)
    (callback : state.flag .callbackOccured = decide (state.cmd &&& cmdDp ≠ 0)) :
    (evictLate data ptr length line).Reaches
      (fun value after => value = true ∧ Settled state after)
      (awaitCallback state.cmd true) state := by
  unfold awaitCallback
  by_cases present : state.cmd &&& cmdDp ≠ 0
  · have set : state.flag .callbackOccured = true := by
      rw [callback]
      exact decide_eq_true present
    rw [if_pos present]
    apply Schedule.Reaches.loop
    refine reaches_perform trivial ?_
    change (evictLate data ptr length line).Reaches _
      (Program.bind (if state.flag .callbackOccured then _ else _) _)
      (state.seeFlag .callbackOccured).2
    rw [if_pos set]
    refine reaches_perform trivial ?_
    apply Schedule.Reaches.done
    refine ⟨rfl, (Core.seeFlag state .callbackOccured).trans ⟨rfl, rfl, rfl, rfl, rfl⟩,
      fun flag => ?_⟩
    change Function.update (state.seeFlag .callbackOccured).2.flag .callbackOccured false flag = _
    rw [seeFlag_flag]
    by_cases same : flag = .callbackOccured
    · rw [same, Function.update_self]
    · rw [Function.update_of_ne same, clear flag same]
  · rw [if_neg present]
    apply Schedule.Reaches.done
    refine ⟨rfl, .refl _, fun flag => ?_⟩
    by_cases same : flag = .callbackOccured
    · rw [same, callback]
      exact decide_eq_false present
    · exact clear flag same

/-- Every transfer completes. -/
theorem getXferStatus_reaches
    (done : Done origin ((evictLate data ptr length line).ahead
      (.awaitFlags .xferComp .dataTimeout) state)) :
    (evictLate data ptr length line).Reaches
      (fun value after => value = true ∧ Settled origin after) mmc0GetXferStatus state := by
  refine reaches_perform (.inl done.xferComp) ?_
  generalize (evictLate data ptr length line).ahead (.awaitFlags .xferComp .dataTimeout) state =
    waiting at done
  have seen : (State.perform (.awaitFlags .xferComp .dataTimeout) waiting).2 =
      (waiting.seeFlag .xferComp).2 := awaitFlags_first done.xferComp
  rw [seen]
  apply (takeFlag_reaches _ .xferComp).bind
  rintro _ first ⟨rfl, firstFlag, firstCore⟩
  apply (takeFlag_reaches first .dataTimeout).bind
  rintro _ second ⟨rfl, secondFlag, secondCore⟩
  rw [seeFlag_flag] at firstFlag ⊢
  have timeout : first.flag .dataTimeout = false := by
    rw [firstFlag, Function.update_of_ne (by decide)]
    exact done.others _ (by decide) (by decide)
  rw [done.xferComp, timeout]
  have core : Core origin second :=
    ((done.toCore.trans (Core.seeFlag _ _)).trans firstCore).trans secondCore
  have clear : ∀ flag, flag ≠ .callbackOccured → second.flag flag = false := by
    intro flag other
    rw [secondFlag, firstFlag]
    by_cases isTimeout : flag = .dataTimeout
    · rw [isTimeout, Function.update_self]
    · rw [Function.update_of_ne isTimeout]
      by_cases isComp : flag = .xferComp
      · rw [isComp, Function.update_self]
      · rw [Function.update_of_ne isComp]
        exact done.others flag isComp other
  have callback : second.flag .callbackOccured = decide (second.cmd &&& cmdDp ≠ 0) := by
    rw [secondFlag, firstFlag, Function.update_of_ne (by decide),
      Function.update_of_ne (by decide), done.callback, core.cmd]
  refine reaches_perform trivial ?_
  apply (awaitCallback_reaches clear callback).bind
  rintro _ third ⟨rfl, settled⟩
  refine reaches_perform trivial ?_
  apply Schedule.Reaches.done
  exact ⟨rfl, (core.trans settled.toCore).trans ⟨rfl, rfl, rfl, rfl, rfl⟩, settled.flag⟩

/-- A command completes, and leaves its word in the CMD register. -/
theorem cmdSend_reaches (c : Cmd) (clear : ∀ flag, state.flag flag = false) :
    (evictLate data ptr length line).Reaches
      (fun value after => value.1 = true ∧ ∃ dmaEnable : Bool,
        Settled { state with cmd := c.word ||| if dmaEnable then cmdDe else 0 } after)
      (mmc0CmdSend c) state := by
  have prepared : (evictLate data ptr length line).Reaches (fun _ after => Settled state after)
      (prepareData c) state := by
    unfold prepareData
    split
    · refine reaches_perform trivial (reaches_perform trivial (.done ?_))
      exact ⟨⟨rfl, rfl, rfl, rfl, rfl⟩, clear⟩
    · exact .done ⟨.refl state, clear⟩
  apply prepared.bind
  intro _ ready settled
  have written : (evictLate data ptr length line).Reaches (fun _ after => ∃ dmaEnable : Bool,
      Settled { state with cmd := c.word ||| if dmaEnable then cmdDe else 0 } after)
      (writeCmd c) ready := by
    refine reaches_perform trivial (reaches_perform trivial (.done ⟨ready.dmaEnable, ?_⟩))
    exact ⟨⟨settled.cached, settled.enabled, settled.paRam, settled.moved, rfl⟩, settled.flag⟩
  apply written.bind
  rintro _ sent ⟨dmaEnable, sends⟩
  apply (getCmdStatus_reaches sends).bind
  rintro _ complete ⟨rfl, completes⟩
  refine reaches_perform trivial (.done ⟨rfl, dmaEnable, ?_⟩)
  exact completes

/-- The flags are clear once the card structure is read. -/
theorem blockAddress_reaches (state : State) (block : Word) :
    (evictLate data ptr length line).Reaches
      (fun _ after => after.cached = state.cached ∧ ∀ flag, after.flag flag = false)
      (blockAddress block) state := by
  refine reaches_perform trivial ?_
  change (evictLate data ptr length line).Reaches _
    (if (forget state).card.highCap ≠ 0 then _ else _) (forget state)
  split
  · exact .done ⟨forget_cached state, forget_flag state⟩
  · refine reaches_perform trivial (.done ⟨?_, forget_flag _⟩)
    exact (forget_cached _).trans (forget_cached state)

end Reaches

/-! ## The run -/

section Run

variable {data : Nat → Byte} {ptr length line address : Nat} {bytes : Nat → Byte}
variable {state : State}

/-- The transfer is set up, and the line is dirty. -/
structure Poised (ptr line : Nat) (bytes : Nat → Byte) (state : State) : Prop where
  flag : ∀ flag, state.flag flag = false
  dirty : state.cached.copies line = some ⟨true, bytes⟩
  enabled : state.enabled .mmc0Rx = true
  dest : (state.paRam .mmc0Rx).destAddr = ptr
  moved : state.moved = 0

/-- The transfer is over, and the memory has the old byte. -/
structure Stale (length address : Nat) (byte : Byte) (state : State) : Prop where
  flag : ∀ flag, state.flag flag = false
  memory : state.cached.memory address = byte
  absent : state.cached.copies (lineOf address) = none
  disabled : state.enabled .mmc0Rx = false
  moved : state.moved = length

theorem Poised.settled {origin : State} {word : Word} (poised : Poised ptr line bytes origin)
    (settled : Settled { origin with cmd := word } state) : Poised ptr line bytes state where
  flag := settled.flag
  dirty := settled.cached ▸ poised.dirty
  enabled := settled.enabled ▸ poised.enabled
  dest := settled.paRam ▸ poised.dest
  moved := settled.moved ▸ poised.moved

theorem Stale.settled {origin : State} {byte : Byte} (stale : Stale length address byte origin)
    (cached : state.cached = origin.cached) (enabled : state.enabled = origin.enabled)
    (moved : state.moved = origin.moved) (flag : ∀ flag, state.flag flag = false) :
    Stale length address byte state where
  flag := flag
  memory := cached ▸ stale.memory
  absent := cached ▸ stale.absent
  disabled := enabled ▸ stale.disabled
  moved := moved ▸ stale.moved

theorem callback_disabled (state : State) (channel : Channel) :
    (state.callback channel).enabled channel = false :=
  Function.update_self ..

/-- The line is evicted while the routine waits for the transfer. -/
theorem completeLate_stale (data : Nat → Byte) (length : Nat)
    (poised : Poised ptr (lineOf address) bytes state) :
    (completeLate data length (lineOf address) state).cached.memory address = bytes address ∧
    (completeLate data length (lineOf address) state).cached.copies (lineOf address) = none ∧
    (completeLate data length (lineOf address) state).enabled .mmc0Rx = false ∧
    (completeLate data length (lineOf address) state).moved = length ∧
    (completeLate data length (lineOf address) state).cmd = state.cmd ∧
    (completeLate data length (lineOf address) state).flag =
      Function.update state.flag .callbackOccured true := by
  unfold completeLate
  rcases deliverMany_eq data (length - state.moved) state with ⟨memory, same⟩
  rw [same]
  have counted : state.moved + (length - state.moved) = length := by
    rw [poised.moved, Nat.zero_add, Nat.sub_zero]
  exact ⟨Cached.memory_evict_of_dirty rfl poised.dirty, Cached.copies_discard,
    callback_disabled _ _, counted, rfl, rfl⟩

variable (data ptr length) in
/-- `MMCXferSetup`. -/
theorem xferSetup_reaches (nBlks : Nat) (dirty : state.cached.copies line = some ⟨true, bytes⟩)
    (clear : ∀ flag, state.flag flag = false) :
    (evictLate data ptr length line).Reaches (fun _ => Poised ptr line bytes)
      (mmcXferSetup .mmc0Rx ptr 512 nBlks) state := by
  have stillClear : ∀ flag, ((state.setFlag .callbackOccured false).setFlag .xferComp false).flag
      flag = false := by
    intro flag
    change Function.update (Function.update state.flag .callbackOccured false) .xferComp false
      flag = false
    rw [Function.update_apply, Function.update_apply, clear, ite_self, ite_self]
  refine reaches_perform trivial (reaches_perform trivial (reaches_perform trivial
    (reaches_perform trivial (reaches_perform trivial (reaches_perform trivial (.done ?_))))))
  constructor
  · exact stillClear
  · exact dirty
  · change Function.update state.enabled Channel.mmc0Rx true .mmc0Rx = true
    exact Function.update_self ..
  · exact congrArg PaRamEntry.destAddr (Function.update_self Channel.mmc0Rx _ state.paRam)
  · rfl

/-- The command for the blocks and its transfer. -/
theorem sendData_reaches {c : Cmd} (present : c.dataPresent = true)
    (poised : Poised ptr (lineOf address) bytes state) :
    (evictLate data ptr length (lineOf address)).Reaches
      (fun value after => value = true ∧ Stale length address (bytes address) after)
      (sendData c) state := by
  apply (cmdSend_reaches c poised.flag).bind
  rintro ⟨_, sent⟩ ready ⟨rfl, dmaEnable, settled⟩
  have readyPoised : Poised ptr (lineOf address) bytes ready := poised.settled settled
  have hasData : ready.cmd &&& cmdDp ≠ 0 := by
    rw [settled.cmd]
    exact c.word_dp present _
  have waits : (evictLate data ptr length (lineOf address)).ahead
      (.awaitFlags .xferComp .dataTimeout) ready =
        (completeLate data length (lineOf address) ready).raise .xferComp :=
    if_pos ⟨readyPoised.enabled, readyPoised.dest, readyPoised.moved ▸ Nat.zero_le _⟩
  have late := completeLate_stale data length readyPoised
  rcases late with ⟨memory, absent, disabled, moved, cmd, flag⟩
  have done : Done ((completeLate data length (lineOf address) ready).raise .xferComp)
      ((evictLate data ptr length (lineOf address)).ahead
        (.awaitFlags .xferComp .dataTimeout) ready) := by
    rw [waits]
    refine ⟨.refl _, raise_flag, ?_, fun other notXfer notCallback => ?_⟩
    · rw [raise_flag_of_ne (by decide), flag, Function.update_self]
      change true = decide ((completeLate data length (lineOf address) ready).cmd &&& cmdDp ≠ 0)
      rw [cmd]
      exact (decide_eq_true hasData).symm
    · rw [raise_flag_of_ne notXfer, flag, Function.update_of_ne notCallback]
      exact readyPoised.flag other
  apply (getXferStatus_reaches done).mono
  rintro value after ⟨succeeds, transferred⟩
  exact ⟨succeeds, transferred.flag, transferred.cached ▸ memory, transferred.cached ▸ absent,
    transferred.enabled ▸ disabled, transferred.moved.trans moved⟩

/-- The command that stops a transfer has no data. -/
theorem stop_noData (dmaEnable : Bool) :
    (({ Cmd.blank with idx := 12, flags := sdCmdRspBusy, arg := 0 } : Cmd).word |||
      if dmaEnable then cmdDe else 0) &&& cmdDp = 0 := by
  cases dmaEnable with
  | false => decide
  | true => decide

/-- `MMCStopCmdSend`. -/
theorem stopCmdSend_reaches {byte : Byte} (stale : Stale length address byte state) :
    (evictLate data ptr length line).Reaches
      (fun value after => value = true ∧ Stale length address byte after)
      mmcStopCmdSend state := by
  apply (cmdSend_reaches _ stale.flag).bind
  rintro _ ready ⟨_, dmaEnable, settled⟩
  have readyStale : Stale length address byte ready :=
    stale.settled settled.cached settled.enabled settled.moved settled.flag
  have noData : ready.cmd &&& cmdDp = 0 := settled.cmd ▸ stop_noData dmaEnable
  have waits : (evictLate data ptr length line).ahead (.awaitFlags .xferComp .dataTimeout) ready =
      ready.raise .xferComp :=
    if_neg fun ⟨enabled, _⟩ => absurd (enabled.symm.trans readyStale.disabled) (by decide)
  have done : Done (ready.raise .xferComp)
      ((evictLate data ptr length line).ahead (.awaitFlags .xferComp .dataTimeout) ready) := by
    rw [waits]
    refine ⟨.refl _, raise_flag, ?_, fun other notXfer _ => ?_⟩
    · rw [raise_flag_of_ne (by decide), readyStale.flag]
      exact (decide_eq_false (not_not.mpr noData)).symm
    · rw [raise_flag_of_ne notXfer]
      exact readyStale.flag other
  apply (getXferStatus_reaches done).mono
  rintro value after ⟨succeeds, transferred⟩
  exact ⟨succeeds, readyStale.settled transferred.cached transferred.enabled transferred.moved
    transferred.flag⟩

/-- The accesses that maintain the cache. -/
inductive OfCache : {reply : Type} → Access reply → Prop where
  | maintain (operation : Maintenance) (target : Nat) : OfCache (.maintain operation target)

/-- Maintenance of the cache comes too late. -/
theorem flushBuff_reaches {byte : Byte} (stale : Stale length address byte state)
    (begin size : Nat) : (evictLate data ptr length line).Reaches
      (fun _ => Stale length address byte) (cp15DCacheFlushBuff issue begin size) state := by
  have issues : ∀ operation target,
      Program.Within @OfCache (issue operation target) :=
    fun operation target => .lift (.maintain operation target)
  apply Schedule.Reaches.within ?_ ?_ (flushBuff_within issues begin size) stale
  · intro reply request before used _
    cases used with
    | maintain operation target => exact ⟨trivial, trivial⟩
  · intro reply request before used kept
    cases used with
    | maintain operation target =>
        exact ⟨kept.flag,
          (Cached.memory_maintain (Cached.not_dirty_of_absent kept.absent)).trans kept.memory,
          Cached.copies_maintain_of_absent kept.absent, kept.disabled, kept.moved⟩

variable (data ptr length) in
/-- A read of blocks that leaves an old byte in the memory. -/
theorem mmcReadCmdSend_reaches (block nblks : Word)
    (dirty : state.cached.copies (lineOf address) = some ⟨true, bytes⟩) :
    (evictLate data ptr length (lineOf address)).Reaches
      (fun value after => value = true ∧ Stale length address (bytes address) after)
      (mmcReadCmdSend ptr block nblks) state := by
  apply (blockAddress_reaches state block).bind
  rintro target known ⟨cached, clear⟩
  apply (xferSetup_reaches data ptr length nblks.toNat (cached ▸ dirty) clear).bind
  intro _ ready poised
  apply (sendData_reaches (blockCmd_dataPresent (.inl rfl)) poised).bind
  rintro _ transferred ⟨rfl, stale⟩
  rw [if_pos rfl]
  have flushed : ∀ {current : State}, Stale length address (bytes address) current →
      (evictLate data ptr length (lineOf address)).Reaches
        (fun value after => value = true ∧ Stale length address (bytes address) after) (do
          cp15DCacheFlushBuff issue ptr (512 * nblks.toNat)
          .done true) current := by
    intro current kept
    apply (flushBuff_reaches kept _ _).bind
    intro _ after still
    exact .done ⟨rfl, still⟩
  unfold stopSeveral
  by_cases several : 1 < nblks
  · rw [if_pos several]
    apply (stopCmdSend_reaches stale).bind
    rintro _ stopped ⟨rfl, kept⟩
    exact flushed kept
  · rw [if_neg several]
    exact flushed stale

end Run

/-! ## When reads are coherent -/

/-- A read of blocks that succeeds, with all bytes delivered, leaves the bytes to the
processor, and changes nothing else. -/
def ReadsCoherently (ptr : Nat) (block nblks : Word) (start : State) : Prop :=
  ∀ data after, (readSetting data ptr (512 * nblks.toNat)).Returns
      (mmcReadCmdSend ptr block nblks) start true after →
    after.moved = 512 * nblks.toNat →
    ReadsDelivered data ptr (512 * nblks.toNat) start after

/-- A dirty line of the buffer is enough to lose a byte. -/
theorem not_readsCoherently {ptr : Nat} {block nblks : Word} {start : State} {line : Nat}
    (overlaps : Overlaps ptr (512 * nblks.toNat) line) (dirty : start.cached.Dirty line) :
    ¬ ReadsCoherently ptr block nblks start := by
  intro claim
  rcases overlaps with ⟨address, above, below, rfl⟩
  rcases Cached.dirty_or_clean start.cached (lineOf address) with ⟨bytes, found⟩ | clean
  · -- The engine delivers other bytes than those in the cache.
    rcases (mmcReadCmdSend_reaches (fun offset => bytes (ptr + offset) + 1) ptr
      (512 * nblks.toNat) block nblks found).returns with ⟨_, after, returns, rfl, stale⟩
    have delivered := (claim _ after returns stale.moved).inside (address - ptr) (by omega)
    rw [Nat.add_sub_cancel' above, Cached.read_of_absent stale.absent, stale.memory] at delivered
    exact absurd delivered (by simp)
  · exact clean dirty

/-- Reads are coherent if and only if no line of the buffer is dirty at the call. -/
theorem readsCoherently_iff_noneDirty (ptr : Nat) (block nblks : Word) (start : State)
    (positive : 1 ≤ nblks.toNat) (agree : CleanAgree start) :
    ReadsCoherently ptr block nblks start ↔ NoneDirty ptr (512 * nblks.toNat) start := by
  constructor
  · intro coherent line overlaps dirty
    exact not_readsCoherently overlaps dirty coherent
  · intro clean data after returns moved
    exact (mmcReadCmdSend_delivered data ptr block positive agree clean).post_of_returns returns
      rfl moved

theorem started_cleanAgree : CleanAgree started := by
  intro line copy found
  cases found

/-- The state after `mmc0_start`, a store to a buffer that was written back, and a store behind
the buffer that was not. -/
def mixed : State :=
  { started with
    cached := ((started.cached.store lineOf 0x80001010 0x41).writeBack lineOf
      (lineOf 0x80001010)).store lineOf 0x80001300 0x42 }

/-- The read of a block is coherent with a clean copy of a line of the buffer, and a dirty one
elsewhere. -/
theorem mixed_readsCoherently :
    mixed.cached.Dirty (lineOf 0x80001300) ∧ ReadsCoherently 0x80001001 0 1 mixed := by
  have agree : CleanAgree mixed := fun line =>
    Cached.agrees_store (Cached.agrees_writeBack (Cached.agrees_store (started_cleanAgree line)))
  have clean : NoneDirty 0x80001001 (512 * 1) mixed := by
    rintro _ ⟨address, above, below, rfl⟩
    refine Cached.not_dirty_store_of_ne ?_
      (Cached.not_dirty_writeBack_store (Cached.not_dirty_of_absent rfl))
    unfold lineOf lineSize
    omega
  exact ⟨Cached.dirty_store,
    (readsCoherently_iff_noneDirty 0x80001001 0 1 mixed (by decide) agree).mpr clean⟩

/-- The state after `mmc0_start` and a store before the first byte of a buffer. -/
def written : State :=
  { started with cached := started.cached.store lineOf 0x80001000 0x41 }

/-- The first line of a buffer that is not aligned is dirty when the read begins. -/
theorem not_readsCoherently_written : ¬ ∀ (ptr : Nat) (block nblks : Word) (start : State),
    1 ≤ nblks.toNat → CleanAgree start → ReadsCoherently ptr block nblks start := by
  intro claim
  have dirty : written.cached.Dirty (lineOf 0x80001000) := Cached.dirty_store
  have agree : CleanAgree written := fun _ => Cached.agrees_store (started_cleanAgree _)
  have overlaps : Overlaps 0x80001001 (512 * (1 : Word).toNat) (lineOf 0x80001000) :=
    ⟨0x80001001, by decide, by decide, by decide⟩
  exact not_readsCoherently overlaps dirty (claim 0x80001001 0 1 written (by decide) agree)

end BbbEth.Mmc
