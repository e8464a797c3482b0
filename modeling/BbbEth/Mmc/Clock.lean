import BbbEth.Loops.Loop
import BbbEth.Registers.Field
import BbbEth.Mmc.State

/-!
# `MMCSetBusFreq`

The routine over the SYSCTL register, whose stability bit belongs to the hardware: a stream says
whether it is set at each read.
-/

namespace BbbEth.Mmc

open BbbEth.Loops BbbEth.Registers

def sysctlIce : Word := 0x00000001
def sysctlIcs : Word := 0x00000002
def sysctlCen : Word := 0x00000004
def sysctlClkd : Word := 0x0000FFC0
def intClockOn : Word := 0x1 <<< 0

/-- The CLKD field. -/
def clkdField : Field := ⟨6, 10⟩

/-- The register, with the number of times it was read. -/
structure Sysctl where
  bits : Word
  reads : Nat

namespace Sysctl

/-- `HWREG(baseAddr + MMC_SYSCTL)`. -/
def load (stable : Nat → Bool) (sysctl : Sysctl) : Word × Sysctl :=
  ((sysctl.bits &&& ~~~sysctlIcs) ||| (if stable sysctl.reads then sysctlIcs else 0),
    { sysctl with reads := sysctl.reads + 1 })

/-- A write, which leaves the stability bit. -/
def store (value : Word) (sysctl : Sysctl) : Sysctl :=
  { sysctl with bits := (value &&& ~~~sysctlIcs) ||| (sysctl.bits &&& sysctlIcs) }

/-- `HWREG(baseAddr + MMC_SYSCTL) = (HWREG(baseAddr + MMC_SYSCTL) & ~clear) | set`. -/
def modify (stable : Nat → Bool) (clear set : Word) (sysctl : Sysctl) : Sysctl :=
  let (word, sysctl) := sysctl.load stable
  sysctl.store ((word &&& ~~~clear) ||| set)

end Sysctl

/-- A round of the loop of `MMCIsIntClockStable`. -/
def stableRound (stable : Nat → Bool) :
    Word × Sysctl → (Word × Sysctl) ⊕ (Word × Sysctl)
  | (retry, sysctl) =>
      let (word, sysctl) := sysctl.load stable
      let status := (word &&& sysctlIcs) >>> 1
      if status = 1 ∨ retry = 0 then .inr (status, sysctl) else .inl (retry - 1, sysctl)

/-- `MMCIsIntClockStable`. -/
def mmcIsIntClockStable (stable : Nat → Bool) (count : Nat) (retry : Word) (sysctl : Sysctl) :
    Option (Word × Sysctl) :=
  run (stableRound stable) count (retry, sysctl)

/-- `MMCIntClock`, with whether it returns 0. -/
def mmcIntClock (stable : Nat → Bool) (count : Nat) (pwr : Word) (sysctl : Sysctl) :
    Option (Bool × Sysctl) :=
  let sysctl := sysctl.modify stable sysctlIce pwr
  if pwr = intClockOn then do
    let (status, sysctl) ← mmcIsIntClockStable stable count 0xFFFF sysctl
    some (status ≠ 0, sysctl)
  else
    some (true, sysctl)

/-- The first divisor. -/
def firstDivisor (freqIn freqOut : Word) : Word :=
  let clkd := freqIn / freqOut
  let clkd := if clkd < 2 then 2 else clkd
  if 1023 < clkd then 1023 else clkd

/-- A round of the loop that does not cross the frequency. -/
def divisorRound (freqIn freqOut clkd : Word) : Word ⊕ Option Word :=
  if freqOut < freqIn / clkd then
    if clkd = 1023 then .inr none else .inl (clkd + 1)
  else
    .inr (some clkd)

/-- `MMCSetBusFreq`, with whether it returns 0. -/
def mmcSetBusFreq (stable : Nat → Bool) (count : Nat) (freqIn freqOut bypass : Word)
    (sysctl : Sysctl) : Option (Bool × Sysctl) := do
  let (on, sysctl) ← mmcIntClock stable count intClockOn sysctl
  if ¬ on then
    some (false, sysctl)
  else if bypass = 0 then
    match ← run (divisorRound freqIn freqOut) count (firstDivisor freqIn freqOut) with
    | none => some (false, sysctl)
    | some clkd =>
        let sysctl := sysctl.modify stable sysctlClkd (clkd <<< 6)
        let (status, sysctl) ← mmcIsIntClockStable stable count 0xFFFF sysctl
        if status = 0 then
          some (false, sysctl)
        else
          some (true, sysctl.modify stable 0 sysctlCen)
  else
    some (true, sysctl)

section Register

variable {stable : Nat → Bool} {sysctl : Sysctl}

theorem ics_iff (index : Nat) : sysctlIcs.getLsbD index = decide (index = 1) := by
  by_cases inside : index < 32
  · revert index
    decide
  · rw [BitVec.getLsbD_of_ge _ _ (by omega), decide_eq_false (by omega)]

theorem getLsbD_load {index : Nat} (inside : index < 32) :
    (sysctl.load stable).1.getLsbD index =
      if index = 1 then stable sysctl.reads else sysctl.bits.getLsbD index := by
  have status : (if stable sysctl.reads then sysctlIcs else 0).getLsbD index =
      (decide (index = 1) && stable sysctl.reads) := by
    cases stable sysctl.reads with
    | true => rw [if_pos rfl, ics_iff, Bool.and_true]
    | false =>
        rw [if_neg Bool.false_ne_true, Bool.and_false]
        exact BitVec.getLsbD_zero
  rw [Sysctl.load, BitVec.getLsbD_or, BitVec.getLsbD_and, BitVec.getLsbD_not, ics_iff, status]
  by_cases hardware : index = 1
  · simp [hardware]
  · simp [hardware, inside]

theorem getLsbD_store {value : Word} {index : Nat} (inside : index < 32) :
    (sysctl.store value).bits.getLsbD index =
      if index = 1 then sysctl.bits.getLsbD index else value.getLsbD index := by
  rw [Sysctl.store, BitVec.getLsbD_or, BitVec.getLsbD_and, BitVec.getLsbD_and, BitVec.getLsbD_not,
    ics_iff]
  by_cases hardware : index = 1
  · simp [hardware]
  · simp [hardware, inside]

/-- A change of other bits is a change of the register. -/
theorem modify_bits {clear set : Word} (cleared : clear.getLsbD 1 = false)
    (added : set.getLsbD 1 = false) :
    (sysctl.modify stable clear set).bits = (sysctl.bits &&& ~~~clear) ||| set := by
  apply BitVec.eq_of_getLsbD_eq
  intro index inside
  rw [Sysctl.modify, getLsbD_store inside]
  by_cases hardware : index = 1
  · rw [if_pos hardware, BitVec.getLsbD_or, BitVec.getLsbD_and, BitVec.getLsbD_not, hardware,
      cleared, added]
    simp [Sysctl.load]
  · have same : (sysctl.load stable).1.getLsbD index = _ := getLsbD_load inside
    rw [if_neg hardware] at same ⊢
    rw [BitVec.getLsbD_or, BitVec.getLsbD_or, BitVec.getLsbD_and, BitVec.getLsbD_and, same]

/-- The status that a read gives. -/
theorem status_load : ((sysctl.load stable).1 &&& sysctlIcs) >>> 1 =
    if stable sysctl.reads then 1 else 0 := by
  have bit : (sysctl.load stable).1.getLsbD 1 = _ := getLsbD_load (by decide)
  rw [if_pos rfl] at bit
  apply BitVec.eq_of_getLsbD_eq
  intro index inside
  rw [BitVec.getLsbD_ushiftRight, BitVec.getLsbD_and, ics_iff]
  by_cases first : index = 0
  · subst first
    rw [bit]
    cases stable sysctl.reads <;> rfl
  · cases stable sysctl.reads <;> simp [first]

theorem stableRound_eq (retry : Word) : stableRound stable (retry, sysctl) =
    if stable sysctl.reads ∨ retry = 0 then
      .inr (if stable sysctl.reads then 1 else 0, { sysctl with reads := sysctl.reads + 1 })
    else .inl (retry - 1, { sysctl with reads := sysctl.reads + 1 }) := by
  have one : ((if stable sysctl.reads then 1 else 0) : Word) = 1 ↔ stable sysctl.reads := by
    cases stable sysctl.reads <;> decide
  have round : stableRound stable (retry, sysctl) =
    let status := ((sysctl.load stable).1 &&& sysctlIcs) >>> 1
    if status = 1 ∨ retry = 0 then .inr (status, (sysctl.load stable).2)
      else .inl (retry - 1, (sysctl.load stable).2) := rfl
  rw [round, status_load]
  simp only [one]
  rfl

/-- A poll that finds the clock stable, after some reads. -/
theorem stable_ends {retry : Word} {later : Nat} (found : stable (sysctl.reads + later) = true)
    (le : later ≤ retry.toNat) :
    ∃ reads, Ends (stableRound stable) (retry, sysctl) (1, { sysctl with reads := reads }) := by
  induction later generalizing retry sysctl with
  | zero =>
      have now : stable sysctl.reads = true := found
      have round : stableRound stable (retry, sysctl) = _ := stableRound_eq retry
      rw [if_pos (.inl now), if_pos now] at round
      exact ⟨_, .last round⟩
  | succ later inductionHypothesis =>
      have round : stableRound stable (retry, sysctl) = _ := stableRound_eq retry
      by_cases now : stable sysctl.reads = true
      · rw [if_pos (.inl now), if_pos now] at round
        exact ⟨_, .last round⟩
      · have more : retry ≠ 0 := by
          rintro rfl
          exact absurd le (Nat.not_succ_le_zero _)
        have found' : stable (sysctl.reads + 1 + later) = true := by
          rwa [Nat.add_assoc, Nat.add_comm 1 later]
        rw [if_neg (not_or.mpr ⟨now, more⟩)] at round
        have fewer : later ≤ (retry - 1).toNat := by bv_omega
        rcases @inductionHypothesis ⟨sysctl.bits, sysctl.reads + 1⟩ _ found' fewer with
          ⟨reads, ends⟩
        exact ⟨reads, ends.next round⟩

end Register

section Divisor

variable {freqIn freqOut clkd : Word}

/-- What the loop for the divisor ends with. -/
structure Divisor (freqIn freqOut clkd : Word) : Prop where
  atLeast : 2 ≤ clkd.toNat
  atMost : clkd.toNat ≤ 1023
  /-- At most one step beyond the quotient. -/
  near : clkd.toNat ≤ max 2 (freqIn.toNat / freqOut.toNat + 1)

/-- A divisor that crosses the frequency is not beyond the quotient. -/
theorem le_quotient (positive : 0 < freqOut.toNat) {divisor : Nat} (large : 2 ≤ divisor)
    (crosses : freqOut.toNat < freqIn.toNat / divisor) :
    divisor ≤ freqIn.toNat / freqOut.toNat := by
  rw [Nat.le_div_iff_mul_le positive, Nat.mul_comm]
  rw [Nat.lt_div_iff_mul_lt (by omega)] at crosses
  omega

theorem crosses_iff : freqOut < freqIn / clkd ↔ freqOut.toNat < freqIn.toNat / clkd.toNat := by
  rw [BitVec.lt_def, BitVec.toNat_udiv]

/-- The next divisor. -/
theorem Divisor.next (divisor : Divisor freqIn freqOut clkd) (positive : 0 < freqOut.toNat)
    (crosses : freqOut.toNat < freqIn.toNat / clkd.toNat) (more : clkd ≠ 1023) :
    Divisor freqIn freqOut (clkd + 1) := by
  have less : clkd.toNat ≠ 1023 := fun same => more (BitVec.eq_of_toNat_eq same)
  have atMost := divisor.atMost
  have atLeast := divisor.atLeast
  have quotient := le_quotient positive atLeast crosses
  have next : (clkd + 1).toNat = clkd.toNat + 1 := by bv_omega
  exact ⟨by omega, by omega, by omega⟩

/-- The loop ends with a divisor that does not cross the frequency, unless none does. -/
theorem divisor_ends (positive : 0 < freqOut.toNat) (divisor : Divisor freqIn freqOut clkd) :
    ∃ found, Ends (divisorRound freqIn freqOut) clkd found ∧
      (found = none ↔ freqOut.toNat < freqIn.toNat / 1023) ∧
      ∀ clkd, found = some clkd →
        Divisor freqIn freqOut clkd ∧ freqIn.toNat / clkd.toNat ≤ freqOut.toNat := by
  have atLeast := divisor.atLeast
  have least : freqIn.toNat / 1023 ≤ freqIn.toNat / clkd.toNat :=
    Nat.div_le_div_left divisor.atMost (by omega)
  generalize left : 1023 - clkd.toNat = steps
  induction steps using Nat.strongRecOn generalizing clkd with
  | ind steps inductionHypothesis =>
      by_cases crosses : freqOut < freqIn / clkd
      · have crosses' := crosses_iff.mp crosses
        by_cases last : clkd = 1023
        · refine ⟨none, .last (by rw [divisorRound, if_pos crosses, if_pos last]), ?_, nofun⟩
          rw [last] at crosses'
          exact ⟨fun _ => crosses', fun _ => rfl⟩
        · have next := divisor.next positive crosses' last
          have atMost := divisor.atMost
          have less : clkd.toNat ≠ 1023 := fun same => last (BitVec.eq_of_toNat_eq same)
          have step : (clkd + 1).toNat = clkd.toNat + 1 := by bv_omega
          have least' : freqIn.toNat / 1023 ≤ freqIn.toNat / (clkd + 1).toNat :=
            Nat.div_le_div_left next.atMost (by omega)
          rcases inductionHypothesis _ (by omega) next next.atLeast least' rfl with
            ⟨found, ends, fails, finds⟩
          have goes : divisorRound freqIn freqOut clkd = .inl (clkd + 1) := by
            rw [divisorRound, if_pos crosses, if_neg last]
          exact ⟨found, ends.next goes, fails, finds⟩
      · refine ⟨some clkd, .last (by rw [divisorRound, if_neg crosses]), ?_, ?_⟩
        · rw [crosses_iff] at crosses
          exact ⟨nofun, fun fails => absurd (fails.trans_le least) crosses⟩
        · rintro _ ⟨⟩
          rw [crosses_iff] at crosses
          exact ⟨divisor, not_lt.mp crosses⟩

/-- The first divisor is the quotient, within bounds. -/
theorem firstDivisor_divisor : Divisor freqIn freqOut (firstDivisor freqIn freqOut) := by
  have quotient : (freqIn / freqOut).toNat = freqIn.toNat / freqOut.toNat := BitVec.toNat_udiv
  have two : (2 : Word).toNat = 2 := rfl
  have most : (1023 : Word).toNat = 1023 := rfl
  have value : (firstDivisor freqIn freqOut).toNat =
      min 1023 (max 2 (freqIn.toNat / freqOut.toNat)) := by
    simp only [firstDivisor, BitVec.lt_def]
    split_ifs <;> omega
  exact ⟨by omega, by omega, by omega⟩

end Divisor

section Result

variable {stable : Nat → Bool} {freqIn freqOut : Word} {sysctl : Sysctl}

/-- What the register holds after a divisor is programmed and the clock to the card enabled. -/
def programmed (bits clkd : Word) : Word :=
  (((((bits &&& ~~~sysctlIce) ||| intClockOn) &&& ~~~sysctlClkd) ||| (clkd <<< 6)) &&& ~~~0) |||
    sysctlCen

/-- What the routine promises of the register if it succeeds. -/
structure Clocks (freqIn freqOut : Word) (before after : Word) : Prop where
  atLeast : 2 ≤ (clkdField.get after).toNat
  atMost : (clkdField.get after).toNat ≤ 1023
  below : freqIn.toNat / (clkdField.get after).toNat ≤ freqOut.toNat
  near : (clkdField.get after).toNat ≤ max 2 (freqIn.toNat / freqOut.toNat + 1)
  others : ∀ index, ¬ clkdField.Covers index → index ≠ 0 → index ≠ 2 →
    after.getLsbD index = before.getLsbD index

theorem clkd_iff (index : Nat) : sysctlClkd.getLsbD index = decide (clkdField.Covers index) := by
  by_cases inside : index < 32
  · revert index
    decide
  · rw [BitVec.getLsbD_of_ge _ _ (by omega), decide_eq_false]
    rintro ⟨_, less⟩
    exact inside (less.trans (by decide))

/-- The divisor is what the field has. -/
theorem get_programmed {bits clkd : Word} (small : clkd.toNat ≤ 1023) :
    (clkdField.get (programmed bits clkd)).toNat = clkd.toNat := by
  have clear : clkdField.get (((bits &&& ~~~sysctlIce) ||| intClockOn) &&& ~~~sysctlClkd) = 0 := by
    apply Field.get_eq_zero
    intro index covers
    rw [BitVec.getLsbD_and, BitVec.getLsbD_not, clkd_iff, decide_eq_true covers]
    simp
  have ones : clkdField.get (~~~(0 : Word)) = BitVec.allOnes 10 := rfl
  have cen : clkdField.get sysctlCen = 0 := rfl
  have divisor : (clkdField.get (clkd <<< 6)).toNat = clkd.toNat :=
    Field.toNat_get_shift (by decide) (Nat.lt_succ_of_le small)
  have field : clkdField.get (programmed bits clkd) = clkdField.get (clkd <<< 6) := by
    rw [programmed, Field.get_or, Field.get_and, Field.get_or, clear, ones, cen]
    exact (BitVec.or_zero ..).trans ((BitVec.and_allOnes ..).trans (BitVec.zero_or ..))
  rw [field, divisor]

theorem getLsbD_divisor {clkd : Word} (small : clkd.toNat ≤ 1023) {index : Nat}
    (outside : ¬ clkdField.Covers index) : (clkd <<< 6).getLsbD index = false := by
  by_cases below : index < 6
  · rw [BitVec.getLsbD_shiftLeft, decide_eq_true below]
    simp
  · have above : 6 + 10 ≤ index := by
      by_contra inside
      exact outside ⟨not_lt.mp below, not_le.mp inside⟩
    exact Field.getLsbD_shift (Nat.lt_succ_of_le small) above

/-- The other bits are as they were. -/
theorem getLsbD_programmed {bits clkd : Word} (small : clkd.toNat ≤ 1023) {index : Nat}
    (outside : ¬ clkdField.Covers index) (ice : index ≠ 0) (cen : index ≠ 2) :
    (programmed bits clkd).getLsbD index = bits.getLsbD index := by
  by_cases inside : index < 32
  · have off : sysctlIce.getLsbD index = false := by
      have off : ∀ index < 32, index ≠ 0 → sysctlIce.getLsbD index = false := by decide
      exact off index inside ice
    have off' : sysctlCen.getLsbD index = false := by
      have off : ∀ index < 32, index ≠ 2 → sysctlCen.getLsbD index = false := by decide
      exact off index inside cen
    have on : intClockOn = sysctlIce := rfl
    have none : (0 : Word).getLsbD index = false := BitVec.getLsbD_zero
    simp only [programmed, on, BitVec.getLsbD_or, BitVec.getLsbD_and, BitVec.getLsbD_not, off, off',
      clkd_iff, none, getLsbD_divisor small outside, decide_eq_false outside, decide_eq_true inside,
      Bool.not_false, Bool.and_true, Bool.or_false]
  · rw [BitVec.getLsbD_of_ge _ _ (not_lt.mp inside), BitVec.getLsbD_of_ge _ _ (not_lt.mp inside)]

/-- The clock is on and stable after some polls. -/
theorem mmcIsIntClockStable_eventually
    (stabilizes : ∀ read, ∃ later < 0x10000, stable (read + later)) (sysctl : Sysctl) :
    ∃ reads count, ∀ many, count ≤ many → mmcIsIntClockStable stable many 0xFFFF sysctl =
      some (1, { sysctl with reads := reads }) := by
  rcases stabilizes sysctl.reads with ⟨later, less, found⟩
  rcases stable_ends found (Nat.le_of_lt_succ less : later ≤ (0xFFFF : Word).toNat) with
    ⟨reads, ends⟩
  exact ⟨reads, ends.eventually⟩

theorem clear_or (bits : Word) :
    (bits &&& ~~~sysctlIce) ||| sysctlIce = bits ||| sysctlIce := by
  apply BitVec.eq_of_getLsbD_eq
  intro index inside
  rw [BitVec.getLsbD_or, BitVec.getLsbD_or, BitVec.getLsbD_and, BitVec.getLsbD_not]
  cases sysctlIce.getLsbD index <;> simp [inside]

section Runs

variable {count : Nat} {bypass clkd : Word} {on polled : Sysctl}

theorem mmcSetBusFreq_bypass
    (started : mmcIntClock stable count intClockOn sysctl = some (true, on))
    (bypassed : bypass ≠ 0) :
    mmcSetBusFreq stable count freqIn freqOut bypass sysctl = some (true, on) := by
  rw [mmcSetBusFreq, started]
  simp only [Option.bind_eq_bind, Option.bind_some, if_neg bypassed]
  rfl

theorem mmcSetBusFreq_none (started : mmcIntClock stable count intClockOn sysctl = some (true, on))
    (divides : run (divisorRound freqIn freqOut) count (firstDivisor freqIn freqOut) = some none) :
    mmcSetBusFreq stable count freqIn freqOut 0 sysctl = some (false, on) := by
  rw [mmcSetBusFreq, started]
  simp only [Option.bind_eq_bind, Option.bind_some, divides]
  rfl

theorem mmcSetBusFreq_some (started : mmcIntClock stable count intClockOn sysctl = some (true, on))
    (divides : run (divisorRound freqIn freqOut) count (firstDivisor freqIn freqOut) =
      some (some clkd))
    (stays : mmcIsIntClockStable stable count 0xFFFF (on.modify stable sysctlClkd (clkd <<< 6)) =
      some (1, polled)) :
    mmcSetBusFreq stable count freqIn freqOut 0 sysctl =
      some (true, polled.modify stable 0 sysctlCen) := by
  rw [mmcSetBusFreq, started]
  simp only [Option.bind_eq_bind, Option.bind_some, divides, stays]
  rfl

end Runs

theorem clocks_programmed {bits clkd : Word} (divisor : Divisor freqIn freqOut clkd)
    (below : freqIn.toNat / clkd.toNat ≤ freqOut.toNat) :
    Clocks freqIn freqOut bits (programmed bits clkd) := by
  have field : (clkdField.get (programmed bits clkd)).toNat = _ := get_programmed divisor.atMost
  constructor
  · rw [field]
    exact divisor.atLeast
  · rw [field]
    exact divisor.atMost
  · rw [field]
    exact below
  · rw [field]
    exact divisor.near
  · exact fun _ => getLsbD_programmed divisor.atMost

/-- The routine ends, sets the clock to the card, and fails exactly if the largest divisor is too
small for the frequency. -/
theorem mmcSetBusFreq_ends (freqIn : Word) {freqOut : Word} (bypass : Word) (sysctl : Sysctl)
    (positive : 1 ≤ freqOut.toNat)
    (stabilizes : ∀ read, ∃ later < 0x10000, stable (read + later)) :
    ∃ set after, (∃ count, mmcSetBusFreq stable count freqIn freqOut bypass sysctl =
        some (set, after)) ∧
      (set = true → bypass = 0 → Clocks freqIn freqOut sysctl.bits after.bits) ∧
      (set = false ↔ bypass = 0 ∧ freqOut.toNat < freqIn.toNat / 1023) ∧
      (set = false → after.bits = sysctl.bits ||| sysctlIce) := by
  have iceBits : (sysctl.modify stable sysctlIce intClockOn).bits =
      (sysctl.bits &&& ~~~sysctlIce) ||| intClockOn := modify_bits rfl rfl
  rcases mmcIsIntClockStable_eventually stabilizes (sysctl.modify stable sysctlIce intClockOn) with
    ⟨reads, count, polled⟩
  have started : ∀ many, count ≤ many → mmcIntClock stable many intClockOn sysctl =
      some (true, { sysctl.modify stable sysctlIce intClockOn with reads := reads }) := by
    intro many le
    rw [mmcIntClock, if_pos rfl, polled many le]
    rfl
  by_cases passes : bypass = 0
  · subst passes
    have divisor : Divisor freqIn freqOut _ := firstDivisor_divisor
    rcases divisor_ends positive divisor with ⟨found, ends, fails, finds⟩
    rcases ends.eventually with ⟨count', divides⟩
    cases found with
    | none =>
        have run := mmcSetBusFreq_none (started _ (le_max_left count count'))
          (divides _ (le_max_right ..))
        have fails' := fails.mp rfl
        exact ⟨false, _, ⟨_, run⟩, nofun, ⟨fun _ => ⟨rfl, fails'⟩, fun _ => rfl⟩,
          fun _ => iceBits.trans (clear_or ..)⟩
    | some clkd =>
        rcases finds clkd rfl with ⟨divisor, below⟩
        rcases mmcIsIntClockStable_eventually stabilizes _ with ⟨reads', count'', stays⟩
        have run := mmcSetBusFreq_some (started (max count (max count' count'')) (le_max_left ..))
          (divides _ ((le_max_left ..).trans (le_max_right ..)))
          (stays _ ((le_max_right ..).trans (le_max_right ..)))
        refine ⟨true, _, ⟨_, run⟩, fun _ _ => ?_, ⟨nofun, fun crosses => ?_⟩, nofun⟩
        · have off : (clkd <<< 6).getLsbD 1 = false :=
            getLsbD_divisor divisor.atMost (by decide)
          rw [modify_bits rfl rfl]
          change Clocks _ _ _ (((Sysctl.modify _ _ _ _).bits &&& _) ||| _)
          rw [modify_bits rfl off]
          change Clocks _ _ _ (((((Sysctl.modify _ _ _ _).bits &&& _) ||| _) &&& _) ||| _)
          rw [iceBits]
          exact clocks_programmed divisor below
        · exact absurd (fails.mpr crosses.2) nofun
  · exact ⟨true, _, ⟨_, mmcSetBusFreq_bypass (started _ le_rfl) passes⟩,
      fun _ zero => absurd zero passes, ⟨nofun, fun fails => absurd fails.1 passes⟩, nofun⟩

/-- A clock that is stable at every third read. -/
def sampleStable (read : Nat) : Bool := read % 3 = 2

/-- 400 kHz are set from 96 MHz. -/
theorem mmcSetBusFreq_slow : ∃ after,
    (∃ count, mmcSetBusFreq sampleStable count 96000000 400000 0 ⟨0, 0⟩ = some (true, after)) ∧
      Clocks 96000000 400000 0 after.bits := by
  have positive : 1 ≤ (400000 : Word).toNat := by decide
  have stabilizes : ∀ read, ∃ later < 0x10000, sampleStable (read + later) = true :=
    fun read => ⟨2 * (read + 1) % 3, by omega, decide_eq_true (by omega)⟩
  rcases mmcSetBusFreq_ends 96000000 0 ⟨0, 0⟩ positive stabilizes with
    ⟨set, after, runs, clocks, fails, -⟩
  cases set with
  | false => exact absurd (fails.mp rfl).2 (by decide)
  | true => exact ⟨after, runs, clocks rfl rfl⟩

end Result

end BbbEth.Mmc
