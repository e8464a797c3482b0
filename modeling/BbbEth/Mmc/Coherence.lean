import BbbEth.Mmc.System
import BbbEth.Interference.Schedule

/-!
# What the processor reads after a read of blocks

`MMCReadCmdSend` maintains the cache only after the transfer.  A line of the buffer
that is dirty when it is called may be written back over the bytes that the DMA
engine stored; where no line of the buffer is dirty, the processor reads what the
engine stored, and nothing else changes.
-/

namespace BbbEth.Mmc

open BbbEth.Interference BbbEth.Coherence State Routine

section Buffer

variable (data : Nat → Byte) (ptr length : Nat)

/-- The engine stores the given bytes, in turn, at the buffer of the transfer. -/
def reading : Condition where
  admits _ _ := True
  removable _ := True
  delivers state value := (state.paRam .mmc0Rx).destAddr = ptr ∧ state.moved < length ∧
    value = data state.moved

/-- The driver while it reads the blocks. -/
abbrev readSetting : Setting Access State := (mmcSystem 0 (reading data ptr length)).toSetting

/-- A clean copy of a line has the bytes of the memory. -/
def CleanAgree (state : State) : Prop := ∀ line, state.cached.Agrees lineOf line

/-- No line of the buffer is dirty. -/
def NoneDirty (state : State) : Prop :=
  ∀ line, Overlaps ptr length line → ¬ state.cached.Dirty line

/-- The processor reads the bytes that were delivered, and outside of the buffer what
it read before. -/
structure ReadsDelivered (before after : State) : Prop where
  inside : ∀ offset, offset < length →
    after.cached.read lineOf (ptr + offset) = data offset
  outside : ∀ address, address < ptr ∨ ptr + length ≤ address →
    after.cached.read lineOf address = before.cached.read lineOf address

/-- What is known while the blocks are read: `armed` tells whether the transfer is set
up, and `flushed` which lines are invalidated. -/
structure Underway (start : State) (armed : Prop) (flushed : Nat → Prop)
    (state : State) : Prop where
  clean : ∀ line, Overlaps ptr length line → ¬ state.cached.Dirty line
  gone : ∀ line, flushed line → Overlaps ptr length line → state.cached.copies line = none
  stored : armed → ∀ offset, offset < state.moved → offset < length →
    state.cached.memory (ptr + offset) = data offset
  around : ∀ address, Overlaps ptr length (lineOf address) →
    address < ptr ∨ ptr + length ≤ address →
    state.cached.memory address = start.cached.read lineOf address
  agrees : ∀ line, ¬ Overlaps ptr length line → state.cached.Agrees lineOf line
  outside : ∀ address, ¬ Overlaps ptr length (lineOf address) →
    state.cached.read lineOf address = start.cached.read lineOf address

variable {data ptr length} {start before after : State} {armed : Prop}
variable {flushed : Nat → Prop}

theorem overlaps_inside {offset : Nat} (inside : offset < length) :
    Overlaps ptr length (lineOf (ptr + offset)) :=
  ⟨ptr + offset, Nat.le_add_right _ _, Nat.add_lt_add_left inside _, rfl⟩

namespace Underway

/-- A change of neither the memory nor what was moved. -/
theorem congr (underway : Underway data ptr length start armed flushed before)
    (cached : after.cached = before.cached) (moved : after.moved = before.moved) :
    Underway data ptr length start armed flushed after := by
  constructor
  · rw [cached]
    exact underway.clean
  · rw [cached]
    exact underway.gone
  · rw [cached, moved]
    exact underway.stored
  · rw [cached]
    exact underway.around
  · rw [cached]
    exact underway.agrees
  · rw [cached]
    exact underway.outside

theorem drift {cached : Cached Nat Nat Byte}
    (underway : Underway data ptr length start armed flushed before)
    (drift : Cached.Drift lineOf before.cached cached) :
    Underway data ptr length start armed flushed { before with cached := cached } where
  clean line overlaps := drift.not_dirty (underway.clean line overlaps)
  gone line done overlaps := drift.absent (underway.gone line done overlaps)
  stored isArmed offset moved inside := by
    rw [drift.memory (underway.clean _ (overlaps_inside inside))]
    exact underway.stored isArmed offset moved inside
  around address overlaps apart := by
    rw [drift.memory (underway.clean _ overlaps)]
    exact underway.around address overlaps apart
  agrees line apart := drift.agrees (underway.agrees line apart)
  outside address apart := by
    rw [drift.read (underway.agrees _ apart)]
    exact underway.outside address apart

theorem deliver (underway : Underway data ptr length start armed flushed before)
    (dest : (before.paRam .mmc0Rx).destAddr = ptr) (short : before.moved < length) :
    Underway data ptr length start armed flushed (before.deliver (data before.moved)) := by
  have overlaps : Overlaps ptr length (lineOf (ptr + before.moved)) := overlaps_inside short
  constructor
  · exact underway.clean
  · exact underway.gone
  · intro isArmed offset moved inside
    rw [State.deliver, dest]
    by_cases last : offset = before.moved
    · rw [last]
      exact Cached.memory_deposit
    · have earlier : offset < before.moved + 1 := moved
      rw [← underway.stored isArmed offset (by omega) inside]
      exact Cached.memory_deposit_of_ne (by omega)
  · intro address overlapped apart
    rw [State.deliver, dest, ← underway.around address overlapped apart]
    exact Cached.memory_deposit_of_ne (by omega)
  · intro line apart
    rw [State.deliver, dest]
    exact Cached.agrees_deposit (fun same => apart (same ▸ overlaps)) (underway.agrees line apart)
  · intro address apart
    rw [State.deliver, dest, ← underway.outside address apart]
    exact Cached.read_deposit fun same => apart (same ▸ overlaps)

theorem maintain {operation : Maintenance} {line : Nat}
    (underway : Underway data ptr length start armed flushed before)
    (overlapping : Overlaps ptr length line) (invalidates : operation ≠ .clean) :
    Underway data ptr length start armed (fun other => other = line ∨ flushed other)
      { before with cached := before.cached.maintain lineOf operation line } where
  clean other overlaps := Cached.not_dirty_maintain_of (underway.clean other overlaps)
  gone other done overlaps := by
    rcases done with same | done
    · rw [same]
      exact Cached.copies_maintain invalidates
    · exact Cached.copies_maintain_of_absent (underway.gone other done overlaps)
  stored isArmed offset moved inside := by
    rw [Cached.memory_maintain (underway.clean _ (overlaps_inside inside))]
    exact underway.stored isArmed offset moved inside
  around address overlaps apart := by
    rw [Cached.memory_maintain (underway.clean _ overlaps)]
    exact underway.around address overlaps apart
  agrees other apart := Cached.agrees_maintain (underway.agrees other apart)
  outside address apart := by
    have different : lineOf address ≠ line := fun same => apart (same ▸ overlapping)
    exact (Cached.read_maintain_of_ne different).trans (underway.outside address apart)

/-- The transfer is set up anew. -/
theorem enable (underway : Underway data ptr length start armed flushed before) :
    Underway data ptr length start True flushed
      (State.perform (.enableTransfer .mmc0Rx) before).2 where
  clean := underway.clean
  gone := underway.gone
  stored _ _ moved _ := absurd moved (Nat.not_lt_zero _)
  around := underway.around
  agrees := underway.agrees
  outside := underway.outside

/-- Once every byte is stored and every line invalidated. -/
theorem readsDelivered (underway : Underway data ptr length start True flushed before)
    (all : ∀ line, Overlaps ptr length line → flushed line) (moved : before.moved = length) :
    ReadsDelivered data ptr length start before where
  inside offset inside := by
    have overlaps : Overlaps ptr length (lineOf (ptr + offset)) := overlaps_inside inside
    rw [Cached.read_of_absent (underway.gone _ (all _ overlaps) overlaps)]
    exact underway.stored trivial offset (moved ▸ inside) inside
  outside address apart := by
    by_cases overlaps : Overlaps ptr length (lineOf address)
    · rw [Cached.read_of_absent (underway.gone _ (all _ overlaps) overlaps)]
      exact underway.around address overlaps apart
    · exact underway.outside address overlaps

theorem initial (agree : CleanAgree start) (clean : NoneDirty ptr length start) :
    Underway data ptr length start False (fun _ => False) start where
  clean := clean
  gone _ none _ := none.elim
  stored none := none.elim
  around _ overlaps _ :=
    (Cached.read_of_agrees (agree _) (clean _ overlaps)).symm
  agrees line _ := agree line
  outside _ _ := rfl

end Underway

/-! ## The routine -/

/-- Accesses that leave the memory, the cache and what was moved alone. -/
inductive Apart : {reply : Type} → Access reply → Prop where
  | card {reply : Type} (update : CardInfo → reply × CardInfo) : Apart (.card update)
  | waits {reply : Type} {request : Access reply} : Waits anyFlag request → Apart request
  | storeFlag (flag : Flag) (value : Bool) : Apart (.storeFlag flag value)
  | storeDmaEnable (value : Bool) : Apart (.storeDmaEnable value)
  | setPaRam (channel : Channel) (entry : PaRamEntry) : Apart (.setPaRam channel entry)
  | sendCmd (word arg nblk : Word) : Apart (.sendCmd word arg nblk)
  | blkLen (length : Nat) : Apart (.emit (.blkLen length))

theorem seeFlag_memory (state : State) (flag : Flag) :
    (state.seeFlag flag).2.cached = state.cached ∧ (state.seeFlag flag).2.moved = state.moved := by
  unfold State.seeFlag
  split
  · exact ⟨rfl, rfl⟩
  · exact ⟨rfl, rfl⟩

theorem Apart.memory {reply : Type} {request : Access reply} (apart : Apart request)
    (state : State) : (State.perform request state).2.cached = state.cached ∧
      (State.perform request state).2.moved = state.moved := by
  cases apart with
  | waits waits =>
      cases waits with
      | awaitFlags first second _ _ =>
          change (if state.flag first then (state.seeFlag first).2
            else (state.seeFlag second).2).cached = _ ∧ (if state.flag first then
              (state.seeFlag first).2 else (state.seeFlag second).2).moved = _
          split
          · exact seeFlag_memory state first
          · exact seeFlag_memory state second
      | loadFlag flag _ => exact seeFlag_memory state flag
      | pollCallback timeOut _ => exact seeFlag_memory state .callbackOccured
      | _ => exact ⟨rfl, rfl⟩
  | _ => exact ⟨rfl, rfl⟩

/-- Every access of the routine but the set-up of the channel and the maintenance of the
cache. -/
theorem cmdSend_apart (c : Cmd) : Program.Within @Apart (mmc0CmdSend c) := by
  have waits : ∀ {result : Type} {code : Routine result},
      Program.Within (Waits commandFlags) code → Program.Within @Apart code :=
    fun within => within.mono fun _ used => .waits (used.mono fun _ _ => trivial)
  apply (waits (prepareData_waits c)).bind
  intro _
  apply Program.Within.bind
    (.perform (.waits .loadDmaEnable) fun _ => .lift (.sendCmd _ _ _))
  intro _
  apply (waits getCmdStatus_waits).bind
  intro status
  exact waits (readResp_waits c status)

theorem getXferStatus_apart : Program.Within @Apart mmc0GetXferStatus :=
  getXferStatus_within (fun _ waits => .waits waits) (.storeDmaEnable false)

theorem blockAddress_apart (block : Word) : Program.Within @Apart (blockAddress block) := by
  apply Program.Within.perform (.card _)
  intro highCap
  exact .ite .done (.perform (.card _) fun _ => .done)

theorem sendData_apart (c : Cmd) : Program.Within @Apart (sendData c) := by
  apply (cmdSend_apart c).bind
  rintro ⟨status, _⟩
  exact .ite getXferStatus_apart .done

theorem stopCmdSend_apart : Program.Within @Apart mmcStopCmdSend :=
  (cmdSend_apart _).bind fun _ => getXferStatus_apart

variable (data ptr length) in
/-- The setting, with nothing demanded on the way. -/
def coherence : Contract Access State :=
  ⟨readSetting data ptr length, fun _ => True, fun _ _ => True, False⟩

theorem underway_stable (pending : Option (Pending Access)) :
    (coherence data ptr length).Stable pending (Underway data ptr length start armed flushed) := by
  intro before after underway step
  cases step with
  | isr status _ =>
      rcases before.mmc0Isr_eq status with ⟨flag, cmd, history, same⟩
      rw [same]
      exact underway.congr rfl rfl
  | callback channel _ => exact underway.congr rfl rfl
  | deliver value _ allowed =>
      rcases allowed with ⟨dest, short, rfl⟩
      exact underway.deliver dest short
  | drift cached drifts => exact underway.drift drifts
  | device rsp clockStable => exact underway.congr rfl rfl

theorem underway_keeps : (coherence data ptr length).Keeps @Apart
    (Underway data ptr length start armed flushed) where
  stable := underway_stable
  safe _ _ := trivial
  guarantee _ _ _ _ _ := trivial
  moves _ state apart underway _ := underway.congr (apart.memory state).1 (apart.memory state).2

theorem underway_maintains : Maintains (coherence data ptr length) issue (Overlaps ptr length)
    fun finished => Underway data ptr length start True finished where
  stable _ := underway_stable none
  safe _ _ _ := trivial
  issues operation line finished current overlaps invalidates underway := by
    apply Contract.Ensures.of_perform (underway_stable _) underway (fun _ _ => trivial)
      fun _ _ _ => trivial
    intro before kept _
    have maintained : Underway data ptr length start True
        (fun other => other = line ∨ finished other)
        ((coherence data ptr length).perform (.maintain operation (line * lineSize)) before).2 := by
      change Underway data ptr length start True _ { before with
        cached := before.cached.maintain lineOf operation (lineOf (line * lineSize)) }
      rw [lineOf_mul]
      exact kept.maintain overlaps invalidates
    exact .of_done (underway_stable none) maintained (fun _ _ => trivial) fun _ held => held

theorem xferSetup_underway (nBlks : Nat) :
    (coherence data ptr length).Leads (Underway data ptr length start False flushed)
      (Underway data ptr length start True flushed) (mmcXferSetup .mmc0Rx ptr 512 nBlks) := by
  apply Contract.Leads.bind (underway_keeps.preserves (.lift (.storeFlag _ _)))
  intro _
  apply Contract.Leads.bind (underway_keeps.preserves (.lift (.storeFlag _ _)))
  intro _
  have enabled : (coherence data ptr length).Leads (Underway data ptr length start False flushed)
      (Underway data ptr length start True flushed) (mmcDmaSetup .mmc0Rx ptr 512 nBlks) := by
    apply Contract.Leads.bind (underway_keeps.preserves (.lift (.setPaRam _ _)))
    intro _ current holds
    apply Contract.Ensures.of_perform (underway_stable _) holds (fun _ _ => trivial)
      fun _ _ _ => trivial
    intro before underway _
    exact .of_done (underway_stable none) underway.enable (fun _ _ => trivial) fun _ held => held
  apply Contract.Leads.bind enabled
  intro _
  exact underway_keeps.preserves (.perform (.storeDmaEnable true) fun _ => .lift (.blkLen _))

/-- The end of the routine. -/
theorem flush_delivered {nblks : Word} (positive : 1 ≤ nblks.toNat) :
    (coherence data ptr (512 * nblks.toNat)).Leads
      (Underway data ptr (512 * nblks.toNat) start True flushed)
      (fun state => state.moved = 512 * nblks.toNat →
        ReadsDelivered data ptr (512 * nblks.toNat) start state) (do
        cp15DCacheFlushBuff issue ptr (512 * nblks.toNat)
        .done true) := by
  intro current underway
  apply (underway_maintains.flushBuff (by omega) underway).bind
  rintro _ after ⟨all, covers, kept⟩
  exact .of_done (underway_stable none) kept (fun _ _ => trivial) fun _ still moved =>
    still.readsDelivered (fun line overlaps => covers line (.inr overlaps)) moved

variable (data ptr) in
/-- Where no line of the buffer is dirty, a read that succeeds, with all bytes delivered,
leaves them to the processor. -/
theorem mmcReadCmdSend_delivered (block : Word) {nblks : Word} (positive : 1 ≤ nblks.toNat)
    (agree : CleanAgree start) (clean : NoneDirty ptr (512 * nblks.toNat) start) :
    (coherence data ptr (512 * nblks.toNat)).Ensures (fun value after => value = true →
      after.moved = 512 * nblks.toNat → ReadsDelivered data ptr (512 * nblks.toNat) start after)
      (mmcReadCmdSend ptr block nblks) start := by
  have failed : ∀ {after : State},
      Underway data ptr (512 * nblks.toNat) start True (fun _ => False) after →
      (coherence data ptr (512 * nblks.toNat)).Ensures (fun value after => value = true →
        after.moved = 512 * nblks.toNat →
        ReadsDelivered data ptr (512 * nblks.toNat) start after) (.done false) after :=
    fun kept => .of_done (underway_stable none) kept (fun _ _ => trivial) nofun
  have flushed : ∀ {after : State},
      Underway data ptr (512 * nblks.toNat) start True (fun _ => False) after →
      (coherence data ptr (512 * nblks.toNat)).Ensures (fun value after => value = true →
        after.moved = 512 * nblks.toNat →
        ReadsDelivered data ptr (512 * nblks.toNat) start after) (do
          cp15DCacheFlushBuff issue ptr (512 * nblks.toNat)
          .done true) after :=
    fun kept => (flush_delivered positive _ kept).mono fun _ _ delivered _ => delivered
  apply (underway_keeps.ensures (blockAddress_apart block) (Underway.initial agree clean)).bind
  intro address _ underway
  apply (xferSetup_underway _ _ underway).bind
  intro _ _ armed
  apply (underway_keeps.ensures (sendData_apart _) armed).bind
  intro status _ sent
  by_cases succeeds : status = true
  · rw [if_pos succeeds]
    unfold stopSeveral
    by_cases several : 1 < nblks
    · rw [if_pos several]
      apply (underway_keeps.ensures stopCmdSend_apart sent).bind
      intro stopped _ kept
      by_cases stops : stopped = true
      · rw [if_pos stops]
        exact flushed kept
      · rw [if_neg stops]
        exact failed kept
    · rw [if_neg several]
      exact flushed sent
  · rw [if_neg succeeds]
    exact failed sent

end Buffer

end BbbEth.Mmc
