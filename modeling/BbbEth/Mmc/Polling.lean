import BbbEth.Mmc.Clock

/-!
# Polls with a budget

The routines of `mmc_hwif.c` that poll a status register until a counter runs out, and take their
report from the counter.  A stream says what each load gives.
-/

namespace BbbEth.Mmc

open BbbEth.Loops

def mmcSysconfig : Word := 0x110
def mmcSysstatus : Word := 0x114
def mmcHctl : Word := 0x228
def mmcSysctl : Word := 0x22C

def sysconfigSoftreset : Word := 0x00000002
def sysstatusResetdone : Word := 0x00000001
def hctlSdbp : Word := 0x00000100
def mmcBusPowerOn : Word := 0x1 <<< 8

/-- The addresses that were loaded from, and what was stored. -/
structure Bus where
  loads : List Word
  stores : List (Word × Word)

namespace Bus

/-- A load through `HWREG`. -/
def load (reply : Nat → Word) (address : Word) (bus : Bus) : Word × Bus :=
  (reply bus.loads.length, { bus with loads := bus.loads ++ [address] })

/-- `HWREG(address) = (HWREG(address) & ~clear) | set`. -/
def modify (reply : Nat → Word) (address clear set : Word) (bus : Bus) : Bus :=
  let (word, bus) := bus.load reply address
  { bus with stores := bus.stores ++ [(address, (word &&& ~~~clear) ||| set)] }

end Bus

/-- A round of `do { if (...) break; } while(timeout--)`. -/
def timeoutRound (reply : Nat → Word) (address : Word) (awaited : Word → Bool) :
    Word × Bus → (Word × Bus) ⊕ (Word × Bus)
  | (timeout, bus) =>
      let (word, bus) := bus.load reply address
      if awaited word then .inr (timeout, bus)
      -- the counter is decremented behind the last test, too
      else if timeout = 0 then .inr (timeout - 1, bus)
      else .inl (timeout - 1, bus)

/-- The report that is taken from the counter. -/
def reportOf (timeout : Word) : Int := if timeout = 0 then -1 else 0

/-- A loop of polls, with the report. -/
def poll (reply : Nat → Word) (address : Word) (awaited : Word → Bool) (timeout : Word)
    (count : Nat) (bus : Bus) : Option (Int × Bus) := do
  let (timeout, bus) ← run (timeoutRound reply address awaited) count (timeout, bus)
  some (reportOf timeout, bus)

/-- The condition that `MMCSoftReset` waits for. -/
def resetDone (word : Word) : Bool := word &&& sysstatusResetdone = sysstatusResetdone

/-- The condition that `MMCLinesReset` waits for. -/
def linesSet (flag word : Word) : Bool := word &&& flag = flag

/-- The condition that `MMCBusPower` waits for. -/
def powered (word : Word) : Bool := word &&& hctlSdbp ≠ 0

/-- `MMCSoftReset`. -/
def mmcSoftReset (reply : Nat → Word) (baseAddr : Word) (count : Nat) (bus : Bus) :
    Option (Int × Bus) :=
  poll reply (baseAddr + mmcSysstatus) resetDone 0xFFFF count
    (bus.modify reply (baseAddr + mmcSysconfig) 0 sysconfigSoftreset)

/-- `MMCLinesReset`. -/
def mmcLinesReset (reply : Nat → Word) (baseAddr flag : Word) (count : Nat) (bus : Bus) :
    Option (Int × Bus) :=
  poll reply (baseAddr + mmcSysctl) (linesSet flag) 0xFFFF count
    (bus.modify reply (baseAddr + mmcSysctl) 0 flag)

/-- `MMCBusPower`. -/
def mmcBusPower (reply : Nat → Word) (baseAddr pwr : Word) (count : Nat) (bus : Bus) :
    Option (Int × Bus) :=
  let bus := bus.modify reply (baseAddr + mmcHctl) hctlSdbp pwr
  if pwr = mmcBusPowerOn then
    poll reply (baseAddr + mmcHctl) powered 0xFFFFF count bus
  else
    some (reportOf 0xFFFFF, bus)

/-! ## Reports -/

/-- A routine that has polled from a load on, at most once more than its budget, reports whether
one of its polls was awaited. -/
structure PollsRight (reply : Nat → Word) (awaited : Word → Bool) (first budget : Nat)
    (outcome : Int × Bus) : Prop where
  few : outcome.2.loads.length ≤ first + (budget + 1)
  succeeds : outcome.1 = 0 ↔ ∃ read, first ≤ read ∧ read < outcome.2.loads.length ∧
    awaited (reply read) = true
  fails : outcome.1 ≠ 0 → outcome.1 = -1

/-- The routines come to an end with the right reports.  Their polls begin behind the load of the
register that they change. -/
structure Reported (reset lines power : Nat → Word) (stable : Nat → Bool)
    (baseAddr flag retry : Word) (bus : Bus) (sysctl : Sysctl) : Prop where
  softReset : ∃ outcome, (∃ count, mmcSoftReset reset baseAddr count bus = some outcome) ∧
    PollsRight reset resetDone (bus.loads.length + 1) 0xFFFF outcome
  linesReset : ∃ outcome, (∃ count, mmcLinesReset lines baseAddr flag count bus = some outcome) ∧
    PollsRight lines (linesSet flag) (bus.loads.length + 1) 0xFFFF outcome
  busPower : ∃ outcome,
    (∃ count, mmcBusPower power baseAddr mmcBusPowerOn count bus = some outcome) ∧
      PollsRight power powered (bus.loads.length + 1) 0xFFFFF outcome
  intClock : ∃ status after,
    (∃ count, mmcIsIntClockStable stable count retry sysctl = some (status, after)) ∧
      (status = 1 ↔ ∃ read, sysctl.reads ≤ read ∧ read < after.reads ∧ stable read = true)

section Polls

variable {reply : Nat → Word} {address timeout : Word} {awaited : Word → Bool} {bus : Bus}
  {later : Nat} {outcome : Word × Bus}

/-- The bus behind a number of polls. -/
def Bus.polled (address : Word) (count : Nat) (bus : Bus) : Bus :=
  { bus with loads := bus.loads ++ List.replicate count address }

theorem length_polled :
    (bus.polled address later).loads.length = bus.loads.length + later := by
  rw [Bus.polled, List.length_append, List.length_replicate]

theorem polled_succ : bus.polled address (later + 1) =
    { bus with loads := (bus.polled address later).loads ++ [address] } := by
  rw [Bus.polled, Bus.polled, List.replicate_succ', List.append_assoc]

theorem timeoutRound_polled :
    timeoutRound reply address awaited (timeout, bus.polled address later) =
      if awaited (reply (bus.loads.length + later)) = true then
        .inr (timeout, bus.polled address (later + 1))
      else if timeout = 0 then .inr (timeout - 1, bus.polled address (later + 1))
      else .inl (timeout - 1, bus.polled address (later + 1)) := by
  rw [polled_succ, ← @length_polled address bus later]
  rfl

/-- The loop goes on behind polls that are not awaited. -/
theorem ends_polled (none : ∀ before < later, awaited (reply (bus.loads.length + before)) = false)
    (le : later ≤ timeout.toNat)
    (ends : Ends (timeoutRound reply address awaited)
      (timeout - BitVec.ofNat 32 later, bus.polled address later) outcome) :
    Ends (timeoutRound reply address awaited) (timeout, bus) outcome := by
  induction later with
  | zero =>
      rw [Bus.polled, List.replicate_zero, List.append_nil] at ends
      rwa [BitVec.sub_zero] at ends
  | succ later inductionHypothesis =>
      apply inductionHypothesis (fun before less => none before (Nat.lt_succ_of_lt less))
        (Nat.le_of_succ_le le)
      have round := @timeoutRound_polled reply address (timeout - BitVec.ofNat 32 later) awaited bus
        later
      have more : timeout - BitVec.ofNat 32 later ≠ 0 := by
        intro zero
        bv_omega
      rw [none later (Nat.lt_succ_self later), if_neg Bool.false_ne_true, if_neg more] at round
      refine .next round ?_
      have next : timeout - BitVec.ofNat 32 later - 1 = timeout - BitVec.ofNat 32 (later + 1) := by
        bv_omega
      rwa [next]

/-- The first poll that is awaited ends the loop. -/
theorem ends_found (found : awaited (reply (bus.loads.length + later)) = true)
    (none : ∀ before < later, awaited (reply (bus.loads.length + before)) = false)
    (le : later ≤ timeout.toNat) : Ends (timeoutRound reply address awaited) (timeout, bus)
      (timeout - BitVec.ofNat 32 later, bus.polled address (later + 1)) := by
  refine ends_polled none le (.last ?_)
  rw [timeoutRound_polled, if_pos found]

/-- Without one, the counter runs below zero. -/
theorem ends_exhausted
    (none : ∀ later ≤ timeout.toNat, awaited (reply (bus.loads.length + later)) = false) :
    Ends (timeoutRound reply address awaited) (timeout, bus)
      (-1, bus.polled address (timeout.toNat + 1)) := by
  have zero : timeout - BitVec.ofNat 32 timeout.toNat = 0 := by bv_omega
  refine ends_polled (fun before less => none before less.le) le_rfl ?_
  rw [zero]
  apply Ends.last
  rw [timeoutRound_polled, none _ le_rfl, if_neg Bool.false_ne_true, if_pos rfl]
  rfl

theorem reportOf_eq_zero : reportOf timeout = 0 ↔ timeout ≠ 0 := by
  unfold reportOf
  split
  · rename_i zero
    exact iff_of_false (by decide) (not_not.mpr zero)
  · rename_i nonzero
    exact iff_of_true rfl nonzero

/-- The report of a loop that ends. -/
theorem poll_iff {left : Word} {after : Bus} {report : Int × Bus}
    (ends : Ends (timeoutRound reply address awaited) (timeout, bus) (left, after)) :
    (∃ count, poll reply address awaited timeout count bus = some report) ↔
      report = (reportOf left, after) := by
  constructor
  · rintro ⟨count, polls⟩
    unfold poll at polls
    cases ran : run (timeoutRound reply address awaited) count (timeout, bus) with
    | none =>
        rw [ran] at polls
        cases polls
    | some last =>
        have same : last = (left, after) := Ends.unique ⟨count, ran⟩ ends
        rw [ran, same] at polls
        exact (Option.some.inj polls).symm
  · rintro rfl
    rcases ends with ⟨count, ran⟩
    refine ⟨count, ?_⟩
    rw [poll, ran]
    rfl

/-- A loop of polls has the right report exactly if a poll before the last one is awaited. -/
theorem poll_right_iff (reply : Nat → Word) (address : Word) (awaited : Word → Bool)
    (timeout : Word) (bus : Bus) :
    (∃ report, (∃ count, poll reply address awaited timeout count bus = some report) ∧
      PollsRight reply awaited bus.loads.length timeout.toNat report) ↔
      ∃ later < timeout.toNat, awaited (reply (bus.loads.length + later)) = true := by
  by_cases found : ∃ later, later ≤ timeout.toNat ∧
      awaited (reply (bus.loads.length + later)) = true
  · have first := Nat.find_spec found
    have none : ∀ before < Nat.find found,
        awaited (reply (bus.loads.length + before)) = false := by
      intro before less
      have fails := Nat.find_min found less
      exact Bool.not_eq_true _ |>.mp fun now => fails ⟨less.le.trans first.1, now⟩
    have ends := @ends_found reply address timeout awaited bus _ first.2 none first.1
    simp only [poll_iff ends, exists_eq_left]
    constructor
    · intro right
      refine ⟨Nat.find found, first.1.lt_of_ne fun last => ?_, first.2⟩
      have some := right.succeeds.mpr
        ⟨_, Nat.le_add_right .., by rw [length_polled]; omega, first.2⟩
      rw [reportOf_eq_zero] at some
      exact some (by bv_omega)
    · rintro ⟨later, less, now⟩
      have least := Nat.find_min' found ⟨less.le, now⟩
      have zero : reportOf (timeout - BitVec.ofNat 32 (Nat.find found)) = 0 := by
        rw [reportOf_eq_zero]
        intro zero
        bv_omega
      refine ⟨?_, ?_, fun nonzero => absurd zero nonzero⟩
      · rw [length_polled]
        omega
      · refine iff_of_true zero ⟨_, Nat.le_add_right .., ?_, first.2⟩
        rw [length_polled]
        omega
  · have none : ∀ later ≤ timeout.toNat, awaited (reply (bus.loads.length + later)) = false :=
      fun later le => Bool.not_eq_true _ |>.mp fun now => found ⟨later, le, now⟩
    simp only [poll_iff (ends_exhausted none), exists_eq_left]
    refine iff_of_false (fun right => ?_) fun ⟨later, less, now⟩ => found ⟨later, less.le, now⟩
    rcases right.succeeds.mp rfl with ⟨read, least, less, now⟩
    rw [length_polled] at less
    refine found ⟨read - bus.loads.length, by omega, ?_⟩
    rwa [Nat.add_sub_cancel' least]

end Polls

section Routines

variable {stable : Nat → Bool}

/-- The status of the clock is what one of the polls has seen. -/
theorem stable_polled (retry : Word) (sysctl : Sysctl) : ∃ status after,
    Ends (stableRound stable) (retry, sysctl) (status, after) ∧
      (status = 1 ↔ ∃ read, sysctl.reads ≤ read ∧ read < after.reads ∧ stable read = true) := by
  induction left : retry.toNat generalizing retry sysctl with
  | zero =>
      have zero : retry = 0 := BitVec.eq_of_toNat_eq left
      have round : stableRound stable (retry, sysctl) = _ := stableRound_eq retry
      rw [if_pos (.inr zero)] at round
      refine ⟨_, _, .last round, ?_⟩
      by_cases now : stable sysctl.reads = true
      · rw [if_pos now]
        exact iff_of_true rfl ⟨_, le_rfl, Nat.lt_succ_self _, now⟩
      · rw [if_neg now]
        refine iff_of_false (by decide) ?_
        rintro ⟨read, least, less, seen⟩
        rw [Nat.le_antisymm (Nat.le_of_lt_succ less) least] at seen
        exact now seen
  | succ left' inductionHypothesis =>
      have round : stableRound stable (retry, sysctl) = _ := stableRound_eq retry
      by_cases now : stable sysctl.reads = true
      · rw [if_pos (.inl now), if_pos now] at round
        exact ⟨_, _, .last round, iff_of_true rfl ⟨_, le_rfl, Nat.lt_succ_self _, now⟩⟩
      · have more : retry ≠ 0 := by
          rintro rfl
          cases left
        rw [if_neg (not_or.mpr ⟨now, more⟩)] at round
        rcases inductionHypothesis (retry - 1) { sysctl with reads := sysctl.reads + 1 }
          (by bv_omega) with ⟨status, after, ends, seen⟩
        refine ⟨status, after, ends.next round, seen.trans ⟨?_, ?_⟩⟩
        · rintro ⟨read, least, less, found⟩
          exact ⟨read, Nat.le_of_succ_le least, less, found⟩
        · rintro ⟨read, least, less, found⟩
          refine ⟨read, Nat.lt_of_le_of_ne least ?_, less, found⟩
          rintro rfl
          exact now found

theorem length_modify (reply : Nat → Word) (address clear set : Word) (bus : Bus) :
    (bus.modify reply address clear set).loads.length = bus.loads.length + 1 :=
  List.length_append

/-- The reports are right exactly if each of the three conditions was true on a poll before the last
one that the budget allows. -/
theorem reported_iff (reset lines power : Nat → Word) (stable : Nat → Bool)
    (baseAddr flag retry : Word) (bus : Bus) (sysctl : Sysctl) :
    Reported reset lines power stable baseAddr flag retry bus sysctl ↔
      (∃ later < 0xFFFF, resetDone (reset (bus.loads.length + 1 + later)) = true) ∧
      (∃ later < 0xFFFF, linesSet flag (lines (bus.loads.length + 1 + later)) = true) ∧
      ∃ later < 0xFFFFF, powered (power (bus.loads.length + 1 + later)) = true := by
  have softReset := poll_right_iff reset (baseAddr + mmcSysstatus) resetDone 0xFFFF
    (bus.modify reset (baseAddr + mmcSysconfig) 0 sysconfigSoftreset)
  have linesReset := poll_right_iff lines (baseAddr + mmcSysctl) (linesSet flag) 0xFFFF
    (bus.modify lines (baseAddr + mmcSysctl) 0 flag)
  have busPower := poll_right_iff power (baseAddr + mmcHctl) powered 0xFFFFF
    (bus.modify power (baseAddr + mmcHctl) hctlSdbp mmcBusPowerOn)
  rw [length_modify] at softReset linesReset busPower
  constructor
  · intro reported
    exact ⟨softReset.mp reported.softReset, linesReset.mp reported.linesReset,
      busPower.mp reported.busPower⟩
  · rintro ⟨reset, lines, power⟩
    exact ⟨softReset.mpr reset, linesReset.mpr lines, busPower.mpr power,
      stable_polled retry sysctl⟩

/-- A reset that never ends is reported as done. -/
theorem not_reported : ¬ ∀ (reset lines power : Nat → Word) (stable : Nat → Bool)
    (baseAddr flag retry : Word) (bus : Bus) (sysctl : Sysctl),
    Reported reset lines power stable baseAddr flag retry bus sysctl := by
  intro claim
  have never := poll_right_iff (fun _ => 0) (0 + mmcSysstatus) resetDone 0xFFFF
    (Bus.modify (fun _ => 0) (0 + mmcSysconfig) 0 sysconfigSoftreset ⟨[], []⟩)
  rcases never.mp (claim (fun _ => 0) (fun _ => 0) (fun _ => 0) (fun _ => false) 0 0 0 ⟨[], []⟩
    ⟨0, 0⟩).softReset with ⟨_, _, done⟩
  exact absurd done (by decide)

end Routines

end BbbEth.Mmc
