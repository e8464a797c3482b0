import BbbEth.Interference.Results
import BbbEth.Mmc.Driver

/-!
# The wait for a transfer

`mmc0_get_xfer_status` with all rounds of its loop over the two transfer flags.  The flags belong to
the interrupt routines: a stream for each flag says what a read of it gives.
-/

namespace BbbEth.Mmc

open BbbEth.Interference Server Routine

/-! ## The routine -/

/-- One round of `while ((xferCompFlag == 0) && (dataTimeout == 0))`. -/
def spinRound (_ : Unit) : Routine (Unit ⊕ Unit) := do
  let completed ← .lift (.loadFlag .xferComp)
  if completed then
    .done (.inr ())
  else do
    let timedOut ← .lift (.loadFlag .dataTimeout)
    if timedOut then .done (.inr ()) else .done (.inl ())

/-- The part of `mmc0_get_xfer_status` behind that loop. -/
def xferStatus : Routine Bool := do
  let completed ← takeFlag .xferComp
  let timedOut ← takeFlag .dataTimeout
  let command ← .lift .loadCmd
  let status ← awaitCallback command (completed && !timedOut)
  .lift (.storeDmaEnable false)
  .done status

theorem mmc0GetXferStatus_eq : mmc0GetXferStatus =
    Program.lift (.awaitFlags .xferComp .dataTimeout) >>= fun _ => xferStatus := rfl

/-- `mmc0_get_xfer_status` with the rounds that find both flags clear. -/
def mmc0GetXferStatusSpinning : Routine Bool := .iterate spinRound () >>= fun _ => xferStatus

/-! ## What is observed -/

/-- What each read of a flag gives. -/
abbrev Observed := Flag → Nat → Bool

/-- The reads of each flag so far, and its value behind the last access of the routine. -/
structure Watch where
  reads : Flag → Nat
  flag : Flag → Bool

namespace Watch

variable (watch : Watch)

/-- A flag is read. -/
def see (flag : Flag) (value : Bool) : Watch where
  reads := Function.update watch.reads flag (watch.reads flag + 1)
  flag := Function.update watch.flag flag value

/-- A flag is stored. -/
def put (flag : Flag) (value : Bool) : Watch :=
  { watch with flag := Function.update watch.flag flag value }

/-- What the accesses of the routine are answered. -/
def answers (values : Observed) (command : Word) :
    {reply : Type} → Access reply → Watch → reply → Watch → Prop
  | _, .loadFlag flag, watch, value, next =>
      value = values flag (watch.reads flag) ∧ next = watch.see flag value
  | _, .pollCallback _, watch, value, next =>
      value = values .callbackOccured (watch.reads .callbackOccured) ∧
        next = watch.see .callbackOccured value
  | _, .storeFlag flag value, watch, _, next => next = watch.put flag value
  | _, .loadCmd, watch, value, next => value = command ∧ next = watch
  | _, .storeDmaEnable _, watch, _, next => next = watch
  | _, _, _, _, _ => False

end Watch

/-- The flags and the CMD register. -/
def watched (values : Observed) (command : Word) : Server Access Watch :=
  ⟨Watch.answers values command⟩

section Answers

variable {values : Observed} {command : Word} {watch after : Watch}

@[simp] theorem watched_loadFlag {flag : Flag} {value : Bool} :
    (watched values command).answers (.loadFlag flag) watch value after ↔
      value = values flag (watch.reads flag) ∧ after = watch.see flag value := Iff.rfl

@[simp] theorem watched_pollCallback {timeOut : Word} {value : Bool} :
    (watched values command).answers (.pollCallback timeOut) watch value after ↔
      value = values .callbackOccured (watch.reads .callbackOccured) ∧
        after = watch.see .callbackOccured value := Iff.rfl

@[simp] theorem watched_storeFlag {flag : Flag} {stored : Bool} {value : Unit} :
    (watched values command).answers (.storeFlag flag stored) watch value after ↔
      after = watch.put flag stored := Iff.rfl

@[simp] theorem watched_loadCmd {value : Word} :
    (watched values command).answers .loadCmd watch value after ↔
      value = command ∧ after = watch := Iff.rfl

@[simp] theorem watched_storeDmaEnable {stored : Bool} {value : Unit} :
    (watched values command).answers (.storeDmaEnable stored) watch value after ↔
      after = watch := Iff.rfl

end Answers

section Watches

variable {watch : Watch} {flag other : Flag} {value : Bool}

/-- A flag is read and cleared if it was set. -/
def Watch.take (watch : Watch) (flag : Flag) : Watch := watch.see flag false

@[simp] theorem put_see : (watch.see flag true).put flag false = watch.take flag := by
  simp [Watch.see, Watch.put, Watch.take]

@[simp] theorem reads_see : (watch.see flag value).reads flag = watch.reads flag + 1 :=
  Function.update_self ..

@[simp] theorem flag_see : (watch.see flag value).flag flag = value := Function.update_self ..

theorem reads_see_of_ne (apart : other ≠ flag) :
    (watch.see flag value).reads other = watch.reads other := Function.update_of_ne apart ..

theorem flag_see_of_ne (apart : other ≠ flag) :
    (watch.see flag value).flag other = watch.flag other := Function.update_of_ne apart ..

@[simp] theorem flag_put : (watch.put flag value).flag flag = value := Function.update_self ..

theorem flag_put_of_ne (apart : other ≠ flag) :
    (watch.put flag value).flag other = watch.flag other := Function.update_of_ne apart ..

end Watches

section Taking

variable {values : Observed} {command : Word} {watch after : Watch}

/-- Whatever a flag is, it is clear when it was taken. -/
theorem watched_takeFlag {flag : Flag} {value : Bool} :
    (watched values command).Results (takeFlag flag) watch value after ↔
      value = values flag (watch.reads flag) ∧ after = watch.take flag := by
  cases set : values flag (watch.reads flag) with
  | true => simp [takeFlag, set]
  | false => simp [takeFlag, set, Watch.take]

end Taking

/-! ## The loop over the transfer flags -/

/-- The round that ends the loop. -/
structure WaitEnds (values : Observed) (round : Nat) : Prop where
  set : values .xferComp round = true ∨ values .dataTimeout round = true
  clear : ∀ earlier < round,
    values .xferComp earlier = false ∧ values .dataTimeout earlier = false

/-- How often `dataTimeout` is read in the loop. -/
def timeoutReads (values : Observed) (round : Nat) : Nat :=
  if values .xferComp round = true then round else round + 1

/-- A watch in the loop. -/
structure Spinning (values : Observed) (before : Watch) (round : Nat) (watch : Watch) : Prop where
  clear : ∀ earlier < round,
    values .xferComp earlier = false ∧ values .dataTimeout earlier = false
  xferComp : watch.reads .xferComp = round
  dataTimeout : watch.reads .dataTimeout = round
  polls : watch.reads .callbackOccured = before.reads .callbackOccured
  callback : watch.flag .callbackOccured = before.flag .callbackOccured

/-- A watch behind the loop. -/
structure Spun (values : Observed) (before : Watch) (round : Nat) (watch : Watch) : Prop where
  ends : WaitEnds values round
  xferComp : watch.reads .xferComp = round + 1
  dataTimeout : watch.reads .dataTimeout = timeoutReads values round
  polls : watch.reads .callbackOccured = before.reads .callbackOccured
  callback : watch.flag .callbackOccured = before.flag .callbackOccured

section Spin

variable {values : Observed} {command : Word} {before watch after : Watch} {round : Nat}

/-- A round ends the loop, or goes on. -/
theorem watched_spinRound {outcome : Unit ⊕ Unit} (spinning : Spinning values before round watch)
    (run : (watched values command).Results (spinRound ()) watch outcome after) :
    (outcome = .inr () ∧ Spun values before round after) ∨
      (outcome = .inl () ∧ Spinning values before (round + 1) after) := by
  have apart : Flag.dataTimeout ≠ .xferComp ∧ Flag.callbackOccured ≠ .xferComp ∧
      Flag.xferComp ≠ .dataTimeout ∧ Flag.callbackOccured ≠ .dataTimeout := by decide
  rcases apart with ⟨apart₁, apart₂, apart₃, apart₄⟩
  simp only [spinRound, Program.bind_lift, results_perform, watched_loadFlag, spinning.xferComp]
    at run
  rcases run with ⟨completed, middle, ⟨same, rfl⟩, run⟩
  cases completed with
  | true =>
      rcases results_done.mp run with ⟨rfl, rfl⟩
      refine .inl ⟨rfl, ⟨.inl same.symm, spinning.clear⟩, ?_, ?_, ?_, ?_⟩
      · rw [reads_see, spinning.xferComp]
      · rw [reads_see_of_ne apart₁, spinning.dataTimeout, timeoutReads, if_pos same.symm]
      · rw [reads_see_of_ne apart₂, spinning.polls]
      · rw [flag_see_of_ne apart₂, spinning.callback]
  | false =>
      simp only [Bool.false_eq_true, if_false, results_perform, watched_loadFlag,
        reads_see_of_ne apart₁, spinning.dataTimeout] at run
      rcases run with ⟨timedOut, middle, ⟨same', rfl⟩, run⟩
      have reads : ((watch.see .xferComp false).see .dataTimeout timedOut).reads .xferComp =
            round + 1 ∧
          ((watch.see .xferComp false).see .dataTimeout timedOut).reads .dataTimeout =
            round + 1 ∧
          ((watch.see .xferComp false).see .dataTimeout timedOut).reads .callbackOccured =
            before.reads .callbackOccured ∧
          ((watch.see .xferComp false).see .dataTimeout timedOut).flag .callbackOccured =
            before.flag .callbackOccured := by
        refine ⟨?_, ?_, ?_, ?_⟩
        · rw [reads_see_of_ne apart₃, reads_see, spinning.xferComp]
        · rw [reads_see, reads_see_of_ne apart₁, spinning.dataTimeout]
        · rw [reads_see_of_ne apart₄, reads_see_of_ne apart₂, spinning.polls]
        · rw [flag_see_of_ne apart₄, flag_see_of_ne apart₂, spinning.callback]
      rcases reads with ⟨xferComp, dataTimeout, polls, callback⟩
      cases timedOut with
      | true =>
          rcases results_done.mp run with ⟨rfl, rfl⟩
          refine .inl ⟨rfl, ⟨.inr same'.symm, spinning.clear⟩, xferComp, ?_, polls, callback⟩
          rw [dataTimeout, timeoutReads, if_neg (by rw [← same]; decide)]
      | false =>
          rcases results_done.mp run with ⟨rfl, rfl⟩
          refine .inr ⟨rfl, fun earlier less => ?_, xferComp, dataTimeout, polls, callback⟩
          rcases Nat.lt_succ_iff_lt_or_eq.mp less with less | rfl
          · exact spinning.clear earlier less
          · exact ⟨same.symm, same'.symm⟩

/-- The loop ends in the first round that finds a flag set. -/
theorem watched_spin (started : Spinning values before 0 watch)
    (run : (watched values command).Results (.iterate spinRound ()) watch () after) :
    ∃ round, Spun values before round after := by
  refine Results.leaves (fun _ watch => ∃ round, Spinning values before round watch)
    (fun _ watch => ∃ round, Spun values before round watch) run ⟨0, started⟩ ?_
  rintro ⟨⟩ watch outcome next ⟨round, spinning⟩ run
  rcases watched_spinRound spinning run with ⟨rfl, spun⟩ | ⟨rfl, spinning⟩
  · exact ⟨round, spun⟩
  · exact ⟨round + 1, spinning⟩

theorem watched_spinRound_completes :
    ∃ outcome after, (watched values command).Results (spinRound ()) watch outcome after := by
  simp only [spinRound, Program.bind_lift, results_perform, watched_loadFlag]
  cases completed : values .xferComp (watch.reads .xferComp) with
  | true => exact ⟨_, _, true, _, ⟨rfl, rfl⟩, results_done.mpr ⟨rfl, rfl⟩⟩
  | false =>
      cases timedOut : values .dataTimeout ((watch.see .xferComp false).reads .dataTimeout) with
      | true =>
          exact ⟨_, _, false, _, ⟨rfl, rfl⟩, results_perform.mpr ⟨true, _, ⟨timedOut.symm, rfl⟩,
            results_done.mpr ⟨rfl, rfl⟩⟩⟩
      | false =>
          exact ⟨_, _, false, _, ⟨rfl, rfl⟩, results_perform.mpr ⟨false, _, ⟨timedOut.symm, rfl⟩,
            results_done.mpr ⟨rfl, rfl⟩⟩⟩

/-- The loop comes to an end. -/
theorem watched_spin_ends {last : Nat} (ends : WaitEnds values last) (le : round ≤ last)
    (spinning : Spinning values before round watch) :
    ∃ after, (watched values command).Results (.iterate spinRound ()) watch () after := by
  generalize size : last - round = left
  induction left using Nat.strongRecOn generalizing round watch with
  | ind left inductionHypothesis =>
      have completes : ∃ outcome next,
          (watched values command).Results (spinRound ()) watch outcome next :=
        watched_spinRound_completes
      rcases completes with ⟨outcome, next, run⟩
      rcases watched_spinRound spinning run with ⟨rfl, _⟩ | ⟨rfl, spinning'⟩
      · exact ⟨next, results_iterate.mpr (.inr run)⟩
      · have more : round ≠ last := by
          rintro rfl
          rcases spinning'.clear round (Nat.lt_succ_self _) with ⟨clear, clear'⟩
          rcases ends.set with set | set
          · rw [clear] at set
            cases set
          · rw [clear'] at set
            cases set
        rcases inductionHypothesis _ (by omega) (by omega) spinning' rfl with ⟨after, others⟩
        exact ⟨after, results_iterate.mpr (.inl ⟨_, _, run, others⟩)⟩

end Spin

/-! ## The polls for the callback -/

/-- What the polls leave, when `count` of them found the flag clear before the last one. -/
structure PollsEnd (values : Observed) (timeOut left : Word) (watch after : Watch) (count : Nat) :
    Prop where
  budget : count ≤ timeOut.toNat
  clear : ∀ earlier < count,
    values .callbackOccured (watch.reads .callbackOccured + earlier) = false
  reads : after.reads .callbackOccured = watch.reads .callbackOccured + count + 1
  kept : ∀ flag, flag ≠ .callbackOccured →
    after.reads flag = watch.reads flag ∧ after.flag flag = watch.flag flag
  seen : values .callbackOccured (watch.reads .callbackOccured + count) = true →
    left.toNat + count = timeOut.toNat
  exhausted : values .callbackOccured (watch.reads .callbackOccured + count) = false →
    count = timeOut.toNat ∧ left = -1

section Polls

variable {values : Observed} {command : Word} {watch after : Watch} {timeOut left : Word}

theorem watched_pollRound {outcome : Word ⊕ Word} :
    (watched values command).Results (pollRound timeOut) watch outcome after ↔
      after = watch.see .callbackOccured
          (values .callbackOccured (watch.reads .callbackOccured)) ∧
        outcome = if values .callbackOccured (watch.reads .callbackOccured) then .inr timeOut
          else if timeOut = 0 then .inr (timeOut - 1) else .inl (timeOut - 1) := by
  cases seen : values .callbackOccured (watch.reads .callbackOccured) with
  | true => simp [pollRound, seen, and_comm]
  | false =>
      by_cases zero : timeOut = 0#32
      · simp [pollRound, seen, zero, and_comm]
      · simp [pollRound, seen, zero, and_comm]

/-- A poll that finds the flag clear, before the others. -/
theorem PollsEnd.cons {count : Nat} (more : timeOut ≠ 0)
    (clear : values .callbackOccured (watch.reads .callbackOccured) = false)
    (others : PollsEnd values (timeOut - 1) left (watch.see .callbackOccured false) after count) :
    PollsEnd values timeOut left watch after (count + 1) := by
  have fewer : (timeOut - 1).toNat + 1 = timeOut.toNat := by bv_omega
  have next : ∀ number, (watch.see .callbackOccured false).reads .callbackOccured + number =
      watch.reads .callbackOccured + (number + 1) := by
    intro number
    rw [reads_see]
    omega
  constructor
  · have budget := others.budget
    omega
  · intro earlier less
    cases earlier with
    | zero => exact clear
    | succ earlier =>
        rw [← next]
        exact others.clear earlier (Nat.lt_of_succ_lt_succ less)
  · rw [others.reads, next]
  · intro flag apart
    rcases others.kept flag apart with ⟨reads, value⟩
    exact ⟨reads.trans (reads_see_of_ne apart), value.trans (flag_see_of_ne apart)⟩
  · intro seen
    rw [← next] at seen
    have counter := others.seen seen
    omega
  · intro unseen
    rw [← next] at unseen
    rcases others.exhausted unseen with ⟨whole, wrapped⟩
    exact ⟨by omega, wrapped⟩

theorem watched_polls
    (run : (watched values command).Results (.iterate pollRound timeOut) watch left after) :
    ∃ count, PollsEnd values timeOut left watch after count := by
  generalize size : timeOut.toNat = rounds
  induction rounds using Nat.strongRecOn generalizing timeOut watch with
  | ind rounds inductionHypothesis =>
      rcases results_iterate.mp run with ⟨later, middle, round, others⟩ | round
      · rcases watched_pollRound.mp round with ⟨rfl, outcome⟩
        split_ifs at outcome with seen zero
        cases outcome
        rw [Bool.not_eq_true] at seen
        rw [seen] at others
        rcases inductionHypothesis (timeOut - 1).toNat (by bv_omega) others rfl with ⟨count, ends⟩
        exact ⟨count + 1, ends.cons zero seen⟩
      · rcases watched_pollRound.mp round with ⟨rfl, outcome⟩
        have kept : ∀ flag, flag ≠ .callbackOccured → ∀ value,
            (watch.see .callbackOccured value).reads flag = watch.reads flag ∧
              (watch.see .callbackOccured value).flag flag = watch.flag flag :=
          fun flag apart value => ⟨reads_see_of_ne apart, flag_see_of_ne apart⟩
        refine ⟨0, Nat.zero_le _, nofun, reads_see, fun flag apart => kept flag apart _, ?_, ?_⟩
        · intro seen
          rw [Nat.add_zero] at seen
          rw [if_pos seen] at outcome
          cases outcome
          rfl
        · intro unseen
          split_ifs at outcome with seen zero
          · rw [Nat.add_zero, seen] at unseen
            cases unseen
          · cases outcome
            rw [zero]
            exact ⟨rfl, rfl⟩

theorem watched_polls_end (timeOut : Word) (watch : Watch) : ∃ left after,
    (watched values command).Results (.iterate pollRound timeOut) watch left after := by
  generalize size : timeOut.toNat = rounds
  induction rounds using Nat.strongRecOn generalizing timeOut watch with
  | ind rounds inductionHypothesis =>
      by_cases seen : values .callbackOccured (watch.reads .callbackOccured) = true
      · exact ⟨_, _, results_iterate.mpr (.inr (watched_pollRound.mpr ⟨rfl, (if_pos seen).symm⟩))⟩
      by_cases zero : timeOut = 0
      · exact ⟨_, _, results_iterate.mpr (.inr (watched_pollRound.mpr
          ⟨rfl, ((if_neg seen).trans (if_pos zero)).symm⟩))⟩
      · rcases inductionHypothesis (timeOut - 1).toNat (by bv_omega) (timeOut - 1)
          (watch.see .callbackOccured (values .callbackOccured (watch.reads .callbackOccured))) rfl
          with ⟨left, after, others⟩
        exact ⟨left, after, results_iterate.mpr (.inl ⟨_, _, watched_pollRound.mpr
          ⟨rfl, ((if_neg seen).trans (if_neg zero)).symm⟩, others⟩)⟩

end Polls

/-! ## The verdict -/

/-- A flag was found set by one of the reads. -/
def Watch.Saw (values : Observed) (watch : Watch) (flag : Flag) : Prop :=
  ∃ number < watch.reads flag, values flag number = true

/-- A watch that nothing was read in. -/
def Watch.start (flag : Flag → Bool) : Watch := ⟨fun _ => 0, flag⟩

/-- What the routine is to answer, for the flags as they are observed and as they are before. -/
structure Answers (values : Observed) (command : Word) (flag : Flag → Bool) : Prop where
  ends : (∃ number, values .xferComp number = true ∨ values .dataTimeout number = true) →
    ∃ value after, (watched values command).Results mmc0GetXferStatusSpinning (.start flag) value
      after
  verdict : command &&& cmdDp ≠ 0 → ∀ value after,
    (watched values command).Results mmc0GetXferStatusSpinning (.start flag) value after →
      (value = true ↔ after.Saw values .xferComp ∧ ¬ after.Saw values .dataTimeout ∧
        after.Saw values .callbackOccured)
  clear : ∀ value after,
    (watched values command).Results mmc0GetXferStatusSpinning (.start flag) value after →
      after.flag .xferComp = false ∧ after.flag .dataTimeout = false ∧
        after.flag .callbackOccured = false

/-- The first poll that finds the callback. -/
structure FirstSeen (values : Observed) (poll : Nat) : Prop where
  seen : values .callbackOccured poll = true
  clear : ∀ earlier < poll, values .callbackOccured earlier = false

/-- How the callback may come, where the transfer flag is `awaited` when the loop ends and `tested`
at its test. -/
structure Timely (values : Observed) (awaited tested : Bool) : Prop where
  within : ∀ poll < 0xFFFF, FirstSeen values poll → tested = awaited
  last : FirstSeen values 0xFFFF → awaited = false
  exhausted : (∀ poll ≤ 0xFFFF, values .callbackOccured poll = false) → tested = false

/-- The observations for which the routine answers as it is to. -/
def Favourable (values : Observed) (command : Word) (flag : Flag → Bool) : Prop :=
  ∀ round, WaitEnds values round →
    if command &&& cmdDp ≠ 0 then
      values .dataTimeout (timeoutReads values round) = true ∨
        Timely values (values .xferComp round) (values .xferComp (round + 1))
    else
      flag .callbackOccured = false

section Verdict

variable {values : Observed} {command : Word} {watch after : Watch} {value : Bool}
  {flag : Flag → Bool} {round : Nat}

theorem watched_awaitCallback {status : Bool} :
    (watched values command).Results (awaitCallback command status) watch value after ↔
      if command &&& cmdDp ≠ 0 then
        ∃ left polled, (watched values command).Results (.iterate pollRound 0xFFFF) watch left
            polled ∧
          after = polled.put .callbackOccured false ∧ value = if left = 0 then false else status
      else
        after = watch ∧ value = status := by
  unfold awaitCallback
  by_cases data : command &&& cmdDp ≠ 0
  · rw [if_pos data, if_pos data, results_bind]
    simp [and_comm]
  · rw [if_neg data, if_neg data, results_done, and_comm]

/-- The part of the routine behind the loop. -/
theorem watched_xferStatus :
    (watched values command).Results xferStatus watch value after ↔
      (watched values command).Results
        (awaitCallback command (values .xferComp (watch.reads .xferComp) &&
          !values .dataTimeout (watch.reads .dataTimeout)))
        ((watch.take .xferComp).take .dataTimeout) value after := by
  have apart : (watch.take .xferComp).reads .dataTimeout = watch.reads .dataTimeout :=
    reads_see_of_ne (by decide)
  simp only [xferStatus, results_bind, watched_takeFlag, Program.bind_lift, results_perform,
    watched_loadCmd, watched_storeDmaEnable, results_done]
  constructor
  · rintro ⟨_, _, ⟨rfl, rfl⟩, _, _, ⟨rfl, rfl⟩, _, _, ⟨rfl, rfl⟩, status, waited, waits, _, _, rfl,
      rfl, rfl⟩
    rwa [apart] at waits
  · intro waits
    rw [← apart] at waits
    exact ⟨_, _, ⟨rfl, rfl⟩, _, _, ⟨rfl, rfl⟩, _, _, ⟨rfl, rfl⟩, _, _, waits, (), _, rfl, rfl, rfl⟩

/-- The two flags that are read and cleared. -/
theorem take_take (watch : Watch) : ((watch.take .xferComp).take .dataTimeout).reads .xferComp =
      watch.reads .xferComp + 1 ∧
    ((watch.take .xferComp).take .dataTimeout).reads .dataTimeout =
      watch.reads .dataTimeout + 1 ∧
    ((watch.take .xferComp).take .dataTimeout).reads .callbackOccured =
      watch.reads .callbackOccured ∧
    ((watch.take .xferComp).take .dataTimeout).flag .xferComp = false ∧
    ((watch.take .xferComp).take .dataTimeout).flag .dataTimeout = false ∧
    ((watch.take .xferComp).take .dataTimeout).flag .callbackOccured =
      watch.flag .callbackOccured := by
  simp [Watch.take, Watch.see, Function.update]

/-- A watch behind the whole routine, of a command with data. -/
structure Judged (values : Observed) (round count : Nat) (value : Bool) (after : Watch) : Prop where
  ends : WaitEnds values round
  xferComp : after.reads .xferComp = round + 2
  dataTimeout : after.reads .dataTimeout = timeoutReads values round + 1
  callback : after.reads .callbackOccured = count + 1
  flags : after.flag .xferComp = false ∧ after.flag .dataTimeout = false ∧
    after.flag .callbackOccured = false
  budget : count ≤ 0xFFFF
  clear : ∀ earlier < count, values .callbackOccured earlier = false
  exhausted : values .callbackOccured count = false → count = 0xFFFF
  value : value = (values .xferComp (round + 1) &&
    !values .dataTimeout (timeoutReads values round) &&
      !(values .callbackOccured count && decide (count = 0xFFFF)))

theorem judged_of_data (data : command &&& cmdDp ≠ 0)
    (run : (watched values command).Results mmc0GetXferStatusSpinning (.start flag) value after) :
    ∃ round count, Judged values round count value after := by
  have started : Spinning values (.start flag) 0 (.start flag) := ⟨nofun, rfl, rfl, rfl, rfl⟩
  rcases results_bind.mp run with ⟨⟨⟩, spun, spins, waits⟩
  rcases watched_spin started spins with ⟨round, ends, xferComp, dataTimeout, polls, _⟩
  rw [watched_xferStatus, xferComp, dataTimeout, watched_awaitCallback, if_pos data] at waits
  rcases waits with ⟨left, polled, polling, rfl, rfl⟩
  rcases watched_polls polling with ⟨count, budget, clear, reads, kept, seen, exhausted⟩
  rcases take_take spun with ⟨reads₁, reads₂, reads₃, flag₁, flag₂, _⟩
  have zero : spun.reads .callbackOccured = 0 := polls
  simp only [reads₃, zero, Nat.zero_add] at clear reads seen exhausted
  rcases kept .xferComp (by decide) with ⟨kept₁, kept₂⟩
  rcases kept .dataTimeout (by decide) with ⟨kept₃, kept₄⟩
  refine ⟨round, count, ends, ?_, ?_, reads, ⟨?_, ?_, ?_⟩, budget, clear, ?_, ?_⟩
  · exact kept₁.trans (by rw [reads₁, xferComp])
  · exact kept₃.trans (by rw [reads₂, dataTimeout])
  · exact (flag_put_of_ne (by decide)).trans (kept₂.trans flag₁)
  · exact (flag_put_of_ne (by decide)).trans (kept₄.trans flag₂)
  · exact flag_put
  · exact fun unseen => (exhausted unseen).1
  · cases found : values .callbackOccured count with
    | true =>
        have counter : left.toNat + count = 0xFFFF := seen found
        by_cases last : count = 0xFFFF
        · rw [last] at counter
          have zero : left = 0 := BitVec.eq_of_toNat_eq (by simpa using counter)
          rw [if_pos zero, decide_eq_true last]
          simp
        · have more : left ≠ 0 := by
            rintro rfl
            exact last (by simpa using counter)
          rw [if_neg more, decide_eq_false last]
          simp
    | false =>
        have wrapped : left ≠ 0 := by
          rw [(exhausted found).2]
          decide
        rw [if_neg wrapped]
        simp

/-- The flags behind the routine, of a command without data. -/
theorem flags_of_no_data (none : ¬ command &&& cmdDp ≠ 0)
    (run : (watched values command).Results mmc0GetXferStatusSpinning (.start flag) value after) :
    (∃ round, WaitEnds values round) ∧ after.flag .xferComp = false ∧
      after.flag .dataTimeout = false ∧ after.flag .callbackOccured = flag .callbackOccured := by
  have started : Spinning values (.start flag) 0 (.start flag) := ⟨nofun, rfl, rfl, rfl, rfl⟩
  rcases results_bind.mp run with ⟨⟨⟩, spun, spins, waits⟩
  rcases watched_spin started spins with ⟨round, ends, _, _, _, callback⟩
  rw [watched_xferStatus, watched_awaitCallback, if_neg none] at waits
  rcases waits with ⟨rfl, _⟩
  rcases take_take spun with ⟨_, _, _, flag₁, flag₂, flag₃⟩
  exact ⟨⟨round, ends⟩, flag₁, flag₂, flag₃.trans callback⟩

/-- The routine returns where the loop ends. -/
theorem returns_of_waitEnds (ends : WaitEnds values round) : ∃ value after,
    (watched values command).Results mmc0GetXferStatusSpinning (.start flag) value after := by
  have started : Spinning values (.start flag) 0 (.start flag) := ⟨nofun, rfl, rfl, rfl, rfl⟩
  have spins : ∃ spun, (watched values command).Results (.iterate spinRound ()) (.start flag) ()
      spun := watched_spin_ends ends (Nat.zero_le _) started
  rcases spins with ⟨spun, spins⟩
  have waits : ∃ value after, (watched values command).Results xferStatus spun value after := by
    simp only [watched_xferStatus, watched_awaitCallback]
    by_cases data : command &&& cmdDp ≠ 0
    · simp only [if_pos data]
      have polls : ∃ left polled, (watched values command).Results (.iterate pollRound 0xFFFF)
          ((spun.take .xferComp).take .dataTimeout) left polled := watched_polls_end ..
      rcases polls with ⟨left, polled, polls⟩
      exact ⟨_, _, left, polled, polls, rfl, rfl⟩
    · simp only [if_neg data]
      exact ⟨_, _, rfl, rfl⟩
  rcases waits with ⟨value, after, waits⟩
  exact ⟨value, after, results_bind.mpr ⟨(), spun, spins, waits⟩⟩

/-- The loop ends if a flag is set. -/
theorem exists_waitEnds
    (set : ∃ number, values .xferComp number = true ∨ values .dataTimeout number = true) :
    ∃ round, WaitEnds values round := by
  refine ⟨Nat.find set, Nat.find_spec set, fun earlier less => ?_⟩
  have clear := Nat.find_min set less
  rw [not_or, Bool.not_eq_true, Bool.not_eq_true] at clear
  exact clear

theorem FirstSeen.unique {poll other : Nat} (first : FirstSeen values poll)
    (second : FirstSeen values other) : poll = other := by
  rcases Nat.lt_trichotomy poll other with below | same | above
  · exact absurd first.seen (by rw [second.clear poll below]; decide)
  · exact same
  · exact absurd second.seen (by rw [first.clear other above]; decide)

section Seen

variable {count : Nat} (judged : Judged values round count value after)

include judged

theorem Judged.saw_xferComp : after.Saw values .xferComp ↔
    values .xferComp round = true ∨ values .xferComp (round + 1) = true := by
  constructor
  · rintro ⟨number, less, set⟩
    rw [judged.xferComp] at less
    by_cases below : number < round
    · rw [(judged.ends.clear number below).1] at set
      cases set
    · have near : number = round ∨ number = round + 1 := by omega
      rcases near with rfl | rfl
      · exact .inl set
      · exact .inr set
  · rintro (set | set)
    · exact ⟨round, by rw [judged.xferComp]; omega, set⟩
    · exact ⟨round + 1, by rw [judged.xferComp]; omega, set⟩

theorem Judged.saw_dataTimeout : after.Saw values .dataTimeout ↔
    values .xferComp round = false ∨ values .dataTimeout (timeoutReads values round) = true := by
  have reads := judged.dataTimeout
  constructor
  · rintro ⟨number, less, set⟩
    rw [reads] at less
    by_cases below : number < round
    · rw [(judged.ends.clear number below).2] at set
      cases set
    · cases awaited : values .xferComp round with
      | false => exact .inl rfl
      | true =>
          rw [timeoutReads, if_pos awaited] at less ⊢
          have last : number = round := by omega
          exact .inr (last ▸ set)
  · intro set
    cases awaited : values .xferComp round with
    | false =>
        rcases judged.ends.set with absurd | set
        · rw [awaited] at absurd
          cases absurd
        · refine ⟨round, ?_, set⟩
          rw [reads, timeoutReads, if_neg (by rw [awaited]; decide)]
          omega
    | true =>
        rcases set with absurd | set
        · rw [awaited] at absurd
          cases absurd
        · exact ⟨_, by rw [reads]; omega, set⟩

theorem Judged.saw_callback :
    after.Saw values .callbackOccured ↔ values .callbackOccured count = true := by
  constructor
  · rintro ⟨number, less, set⟩
    rw [judged.callback] at less
    by_cases below : number < count
    · rw [judged.clear number below] at set
      cases set
    · have last : number = count := by omega
      exact last ▸ set
  · exact fun set => ⟨count, by rw [judged.callback]; omega, set⟩

/-- The polls that were made decide whether the callback is timely. -/
theorem Judged.timely_iff {awaited tested : Bool} : Timely values awaited tested ↔
    if values .callbackOccured count = true then
      if count = 0xFFFF then awaited = false else tested = awaited
    else
      tested = false := by
  have budget := judged.budget
  by_cases seen : values .callbackOccured count = true
  · have first : FirstSeen values count := ⟨seen, judged.clear⟩
    have found : ∃ poll ≤ 0xFFFF, values .callbackOccured poll ≠ false :=
      ⟨count, budget, by rw [seen]; decide⟩
    rw [if_pos seen]
    constructor
    · rintro ⟨within, last, _⟩
      split
      · rename_i final
        exact last (final ▸ first)
      · exact within count (by omega) first
    · intro decided
      refine ⟨fun poll less other => ?_, fun other => ?_, fun none => ?_⟩
      · rwa [if_neg (by rw [first.unique other]; omega)] at decided
      · rwa [if_pos (first.unique other)] at decided
      · rcases found with ⟨poll, le, some⟩
        exact absurd (none poll le) some
  · rw [if_neg seen]
    rw [Bool.not_eq_true] at seen
    have none : ∀ poll ≤ 0xFFFF, values .callbackOccured poll = false := by
      intro poll le
      have final := judged.exhausted seen
      rcases Nat.lt_or_eq_of_le (final ▸ le) with less | rfl
      · exact judged.clear poll less
      · exact seen
    constructor
    · rintro ⟨_, _, exhausted⟩
      exact exhausted none
    · intro decided
      refine ⟨fun poll less other => ?_, fun other => ?_, fun _ => decided⟩
      · exact absurd other.seen (by rw [none poll (by omega)]; decide)
      · exact absurd other.seen (by rw [none _ (le_refl _)]; decide)

end Seen

/-- The routine judges as it is to exactly if the observations are favourable. -/
theorem Judged.verdict_iff {count : Nat} (judged : Judged values round count value after) :
    (value = true ↔ after.Saw values .xferComp ∧ ¬ after.Saw values .dataTimeout ∧
        after.Saw values .callbackOccured) ↔
      values .dataTimeout (timeoutReads values round) = true ∨
        Timely values (values .xferComp round) (values .xferComp (round + 1)) := by
  rw [judged.saw_xferComp, judged.saw_dataTimeout, judged.saw_callback, judged.timely_iff,
    judged.value]
  generalize values .dataTimeout (timeoutReads values round) = timedOut
  generalize values .xferComp round = awaited
  generalize values .xferComp (round + 1) = tested
  generalize values .callbackOccured count = seen
  by_cases last : count = 0xFFFF
  · cases timedOut <;> cases awaited <;> cases tested <;> cases seen <;> simp [last]
  · cases timedOut <;> cases awaited <;> cases tested <;> cases seen <;> simp [last]

theorem WaitEnds.unique {other : Nat} (first : WaitEnds values round)
    (second : WaitEnds values other) : round = other := by
  have apart : ∀ {early late : Nat}, WaitEnds values early → WaitEnds values late →
      ¬ early < late := by
    intro early late ends ends' less
    rcases ends'.clear early less with ⟨clear, clear'⟩
    rcases ends.set with set | set
    · rw [clear] at set
      cases set
    · rw [clear'] at set
      cases set
  exact Nat.le_antisymm (not_lt.mp (apart second first)) (not_lt.mp (apart first second))

end Verdict

/-- The routine answers as it is to exactly if the observations are favourable. -/
theorem answers_iff (values : Observed) (command : Word) (flag : Flag → Bool) :
    Answers values command flag ↔ Favourable values command flag := by
  constructor
  · intro answers round ends
    rcases returns_of_waitEnds ends with ⟨value, after, run⟩
    by_cases data : command &&& cmdDp ≠ 0
    · rw [if_pos data]
      rcases judged_of_data data run with ⟨round', count, judged⟩
      rw [ends.unique judged.ends]
      exact judged.verdict_iff.mp (answers.verdict data value after run)
    · rw [if_neg data]
      rcases flags_of_no_data data run with ⟨_, _, _, kept⟩
      rw [← kept]
      exact (answers.clear value after run).2.2
  · intro favourable
    constructor
    · intro set
      rcases exists_waitEnds set with ⟨round, ends⟩
      exact returns_of_waitEnds ends
    · intro data value after run
      rcases judged_of_data data run with ⟨round, count, judged⟩
      have decided := favourable round judged.ends
      rw [if_pos data] at decided
      exact judged.verdict_iff.mpr decided
    · intro value after run
      by_cases data : command &&& cmdDp ≠ 0
      · rcases judged_of_data data run with ⟨round, count, judged⟩
        exact judged.flags
      · rcases flags_of_no_data data run with ⟨⟨round, ends⟩, clear, clear', kept⟩
        have decided := favourable round ends
        rw [if_neg data] at decided
        exact ⟨clear, clear', kept.trans decided⟩

/-- A transfer that completes at once, without a callback. -/
def withoutCallback : Observed
  | .xferComp, _ => true
  | _, _ => false

/-- The routine answers that the transfer succeeded. -/
theorem not_answers : ¬ Answers withoutCallback cmdDp fun _ => false := by
  intro answers
  have ends : WaitEnds withoutCallback 0 := ⟨.inl rfl, nofun⟩
  have data : cmdDp &&& cmdDp ≠ 0 := by decide
  have returns : ∃ value after, (watched withoutCallback cmdDp).Results mmc0GetXferStatusSpinning
      (.start fun _ => false) value after := returns_of_waitEnds ends
  rcases returns with ⟨value, after, run⟩
  rcases judged_of_data data run with ⟨round, count, judged⟩
  rcases judged.verdict_iff.mp (answers.verdict data value after run) with timedOut | timely
  · cases timedOut
  · cases timely.exhausted fun _ _ => rfl

end BbbEth.Mmc
