import BbbEth.Cpsw.Phy.Ports

/-!
# When a port is set up

A port is set up as it was asked for exactly if the PHY is there and answers, the link is reported
where the routines look for it last, and the in-band bit is not left from another mode.
-/

namespace BbbEth.Phy

variable {port : Port} {answers : Nat → Word} {unset : Nat → Half} {phyAddr : Word}
variable {log : List Transaction} {macControl alive : Word} {mode : Mode} {start count : Nat}

/-! ## Modes in MACCONTROL -/

/-- The in-band bit is not left from another mode. -/
def Mode.Replaces (mode : Mode) (macControl : Word) : Prop :=
  macControl &&& cpswSliverInband ≠ 0 → mode.bits &&& cpswSliverInband ≠ 0

theorem Mode.bits_mask (mode : Mode) : mode.bits &&& modeMask = mode.bits := by
  cases mode <;> decide

theorem enabled_set {word : Word} :
    cpswSlRgmiiEnable word &&& macControlRgmii = macControlRgmii := by
  unfold cpswSlRgmiiEnable
  apply BitVec.eq_of_getLsbD_eq
  intro index _
  rw [BitVec.getLsbD_and, BitVec.getLsbD_or]
  cases macControlRgmii.getLsbD index <;> simp

theorem mask_set {word : Word} : cpswSlRgmiiEnable word &&& modeMask = word &&& modeMask := by
  have apart : macControlRgmii &&& modeMask = 0 := by decide
  unfold cpswSlRgmiiEnable
  rw [BitVec.and_or_distrib_right, apart]
  exact BitVec.or_zero

/-- The mode that is set is the one in MACCONTROL exactly if it replaces the one before. -/
theorem bits_iff : cpswSlTransferModeSet mode.bits macControl &&& modeMask = mode.bits ↔
    mode.Replaces macControl := by
  constructor
  · intro same inband
    rw [inband_iff] at inband ⊢
    have bit := congrArg (BitVec.getLsbD · 18) same
    have kept : (macControlGig ||| macControlFullDuplex).getLsbD 18 = false := by decide
    have inside : modeMask.getLsbD 18 = true := by decide
    unfold cpswSlTransferModeSet at bit
    simp only [BitVec.getLsbD_and, BitVec.getLsbD_or, BitVec.getLsbD_not, inband, kept,
      inside] at bit
    simpa using bit.symm
  · intro replaces
    rw [set_iff.mpr replaces, BitVec.and_or_distrib_right, BitVec.and_assoc, mode.bits_mask,
      BitVec.and_comm (~~~modeMask)]
    have none : modeMask &&& ~~~modeMask = 0 := by decide
    rw [none]
    exact (congrArg (· ||| mode.bits) BitVec.and_zero).trans BitVec.zero_or

/-! ## Links -/

theorem linkHeard_iff {index : Nat} : linkHeard answers index = true ↔
    ∃ data, acknowledged (answers index) = some data ∧ data &&& phyLinkStatus ≠ 0 := by
  unfold linkHeard
  cases acknowledged (answers index) with
  | none => simp
  | some data => simp

/-- Behind a look that does not report the link a port does not run. -/
theorem not_runs (unheard : linkHeard answers (start + count) = false) :
    ¬ mode.Runs (log ++ polls phyAddr answers start (count + 1)) macControl := by
  rintro ⟨_, _, data, heard, up⟩
  rw [getLast?_polls] at heard
  cases unheard.symm.trans (linkHeard_iff.mpr ⟨data, heard, up⟩)

/-- A port that has been set and enabled runs exactly if the mode replaces the one before and the
last look reports the link. -/
theorem runs_iff : mode.Runs (log ++ polls phyAddr answers start (count + 1))
    (cpswSlRgmiiEnable (cpswSlTransferModeSet mode.bits macControl)) ↔
      mode.Replaces macControl ∧ linkHeard answers (start + count) = true := by
  constructor
  · rintro ⟨bits, _, data, heard, up⟩
    rw [mask_set] at bits
    rw [getLast?_polls] at heard
    exact ⟨bits_iff.mp bits, linkHeard_iff.mpr ⟨data, heard, up⟩⟩
  · rintro ⟨replaces, heard⟩
    obtain ⟨data, said, up⟩ := linkHeard_iff.mp heard
    exact ⟨mask_set.trans (bits_iff.mpr replaces), enabled_set, data, getLast?_polls.trans said, up⟩

/-- A call that does not see the link has not heard of it. -/
theorem LinkDown.unheard {look : Nat} (down : LinkDown answers unset start) (within : look < 1001) :
    linkHeard answers (start + look) = false :=
  (Bool.or_eq_false_iff.mp (down look within)).1

/-! ## The looks behind the reset -/

/-- Where the looks behind the reset end: there is no link, or there is one, and it is seen again
or is not. -/
inductive Settles (answers : Nat → Word) (unset : Nat → Half) (start : Nat) : Nat → Prop where
  | down (down : LinkDown answers unset start) : Settles answers unset start (start + 1001)
  | lost {reads : Nat} (up : LinkUp answers unset start reads)
      (never : Unlinked answers unset (start + (reads + 1))) :
      Settles answers unset start (start + (reads + 1) + 1001 * 200)
  | again {reads calls looks : Nat} (up : LinkUp answers unset start reads)
      (linked : Linked answers unset (start + (reads + 1)) calls looks) :
      Settles answers unset start (start + (reads + 1) + (1001 * calls + (looks + 1)))

theorem Settles.unique {place other : Nat} (settles : Settles answers unset start place)
    (second : Settles answers unset start other) : place = other := by
  cases settles with
  | down down =>
      cases second with
      | down => rfl
      | lost up => exact absurd down up.not_down
      | again up => exact absurd down up.not_down
  | lost up never =>
      cases second with
      | down down => exact absurd down up.not_down
      | lost again => rw [up.unique again]
      | again again linked =>
          rw [← up.unique again] at linked
          exact absurd never linked.not_unlinked
  | again up linked =>
      cases second with
      | down down => exact absurd down up.not_down
      | lost again never =>
          rw [← up.unique again] at never
          exact absurd never linked.not_unlinked
      | again again more =>
          rw [← up.unique again] at more
          obtain ⟨rfl, rfl⟩ := linked.unique more
          rw [up.unique again]

/-- The looks come to an end. -/
theorem awaitLink_settles : ∃ last, Settles answers unset log.length last.length ∧
    awaitLink phyAddr ⟨answers, unset, log⟩ = ⟨answers, unset, last⟩ := by
  rcases @linkDown_or_up answers unset log.length with down | ⟨reads, up⟩
  · refine ⟨log ++ polls phyAddr answers log.length 1001, ?_, ?_⟩
    · rw [List.length_append, length_polls]
      exact .down down
    · unfold awaitLink
      rw [phyLinkStatusGet_down down]
      rfl
  · have behind : (log ++ polls phyAddr answers log.length (reads + 1)).length =
        log.length + (reads + 1) := by rw [List.length_append, length_polls]
    have runs : awaitLink phyAddr ⟨answers, unset, log⟩ = (frcStatWait phyAddr 200
        ⟨answers, unset, log ++ polls phyAddr answers log.length (reads + 1)⟩).2 := by
      unfold awaitLink
      rw [phyLinkStatusGet_up up]
      rfl
    rcases @unlinked_or_linked answers unset (log.length + (reads + 1)) with
      never | ⟨calls, looks, linked⟩
    · refine ⟨log ++ polls phyAddr answers log.length (reads + 1 + 1001 * 200), ?_, ?_⟩
      · rw [List.length_append, length_polls, ← Nat.add_assoc]
        exact .lost up never
      · rw [runs, frcStatWait_down (by rw [behind]; exact never), calls_append]
    · refine ⟨log ++ polls phyAddr answers log.length
        (reads + 1 + (1001 * calls + (looks + 1))), ?_, ?_⟩
      · rw [List.length_append, length_polls, ← Nat.add_assoc]
        exact .again up linked
      · rw [runs, frcStatWait_up linked.within (by rw [behind]; exact linked.before)
          (by rw [behind]; exact linked.up), calls_append]

/-! ## Forced ports -/

section Forced

variable {speed duplex : Word} {rounds : Nat}

/-- When a port is forced: the PHY is there and its reset ends, and behind the write of its control
register one of 200 calls sees the link, in a read that reports it. -/
structure Port.Forces (port : Port) (speed alive macControl : Word) (answers : Nat → Word)
    (unset : Nat → Half) (reads place calls looks : Nat) : Prop where
  present : port.present alive = true
  slow : speed ≠ selectSpeed1000
  resets : Resets answers 1 reads
  settles : Settles answers unset (2 + reads) place
  linked : Linked answers unset (place + 1) calls looks
  heard : linkHeard answers (place + 1 + 1001 * calls + looks) = true
  replaces : macControl &&& cpswSliverInband ≠ 0 → speed = selectSpeed10

/-- A mode of 10 or 100 Mbps, with what the routine writes for it. -/
theorem forcedMode_slow (slow : speed = selectSpeed10 ∨ speed = selectSpeed100) :
    ∃ mode : Mode, forcedMode speed duplex = some mode ∧
      speedVal speed ||| duplexVal duplex = mode.control ∧
      forcedTransferMode speed duplex = mode.bits ∧
      ∀ macControl, mode.Replaces macControl ↔
        (macControl &&& cpswSliverInband ≠ 0 → speed = selectSpeed10) := by
  rcases slow with rfl | rfl
  · by_cases full : duplex = 1
    · refine ⟨.slowFull, ?_, ?_, ?_, fun _ => ?_⟩
      · rw [forcedMode, if_pos rfl, if_pos full]
      · rw [duplexVal, if_pos full]
        decide
      · rw [forcedTransferMode, if_neg (by decide), if_pos full]
        decide
      · exact iff_of_true (fun _ => by decide) fun _ => rfl
    · refine ⟨.slowHalf, ?_, ?_, ?_, fun _ => ?_⟩
      · rw [forcedMode, if_pos rfl, if_neg full]
      · rw [duplexVal, if_neg full]
        decide
      · rw [forcedTransferMode, if_neg (by decide), if_neg full]
        decide
      · exact iff_of_true (fun _ => by decide) fun _ => rfl
  · by_cases full : duplex = 1
    · refine ⟨.fastFull, ?_, ?_, ?_, fun _ => ?_⟩
      · rw [forcedMode, if_neg (by decide), if_pos rfl, if_pos full]
      · rw [duplexVal, if_pos full]
        decide
      · rw [forcedTransferMode, if_neg (by decide), if_pos full]
        decide
      · exact imp_congr_right fun _ => iff_of_false (by decide) (by decide)
    · refine ⟨.fastHalf, ?_, ?_, ?_, fun _ => ?_⟩
      · rw [forcedMode, if_neg (by decide), if_pos rfl, if_neg full]
      · rw [duplexVal, if_neg full]
        decide
      · rw [forcedTransferMode, if_neg (by decide), if_neg full]
        decide
      · exact imp_congr_right fun _ => iff_of_false (by decide) (by decide)

/-- The log behind the write. -/
def writtenLog (phyAddr : Word) (answers : Nat → Word) (control : Half)
    (log : List Transaction) : List Transaction :=
  log ++ [⟨writeCommand phyAddr phyBcr control, answers log.length⟩]

theorem length_writtenLog {control : Half} :
    (writtenLog phyAddr answers control log).length = log.length + 1 :=
  List.length_append

/-- The log behind the write of the control register, and some looks. -/
def configuredLog (phyAddr : Word) (answers : Nat → Word) (control : Half)
    (log : List Transaction) (looks : Nat) : List Transaction :=
  writtenLog phyAddr answers control log ++ polls phyAddr answers (log.length + 1) looks

theorem written_configuredLog {control : Half} {looks : Nat} :
    latest (writtenTo 0) (configuredLog phyAddr answers control log looks) = some control := by
  have bcr : phyBcr.setWidth 5 = 0 := by decide
  unfold configuredLog writtenLog
  rw [latest_append, latest_append, latest_singleton, writtenTo_writeCommand bcr,
    latest_none fun _ => writtenTo_polls]
  rfl

theorem configureLink_eq {frcStatCnt : Nat} {after : Bus}
    (waits : frcStatWait port.phyAddr 200 ⟨answers, unset, writtenLog port.phyAddr answers
      (speedVal speed ||| duplexVal duplex) log⟩ = (frcStatCnt, after)) :
    configureLink port speed duplex ⟨answers, unset, log⟩ macControl =
      if frcStatCnt ≠ 0 then
        (errOk, after, cpswSlRgmiiEnable
          (cpswSlTransferModeSet (forcedTransferMode speed duplex) macControl))
      else (errConn, after, macControl) := by
  have writes : mdioPhyRegWrite port.phyAddr phyBcr (speedVal speed ||| duplexVal duplex)
      ⟨answers, unset, log⟩ = ⟨answers, unset, writtenLog port.phyAddr answers
        (speedVal speed ||| duplexVal duplex) log⟩ := rfl
  unfold configureLink phyConfigure
  rw [writes]
  dsimp only
  rw [if_pos rfl, waits]

/-- A configuration behind which the link is seen. -/
theorem configureLink_linked {calls looks : Nat}
    (linked : Linked answers unset (log.length + 1) calls looks) :
    configureLink port speed duplex ⟨answers, unset, log⟩ macControl =
      (errOk, ⟨answers, unset, configuredLog port.phyAddr answers
        (speedVal speed ||| duplexVal duplex) log (1001 * calls + looks + 1)⟩,
        cpswSlRgmiiEnable
          (cpswSlTransferModeSet (forcedTransferMode speed duplex) macControl)) := by
  rw [← @length_writtenLog answers port.phyAddr log] at linked
  have waits := @frcStatWait_up answers unset port.phyAddr _ _ _ _ linked.within linked.before
    linked.up
  rw [length_writtenLog] at waits
  rw [configureLink_eq waits]
  exact if_pos (Nat.sub_ne_zero_of_lt linked.within)

theorem configureLink_unlinked (never : Unlinked answers unset (log.length + 1)) :
    configureLink port speed duplex ⟨answers, unset, log⟩ macControl =
      (errConn, ⟨answers, unset, configuredLog port.phyAddr answers
        (speedVal speed ||| duplexVal duplex) log (1001 * 200)⟩, macControl) := by
  rw [← @length_writtenLog answers port.phyAddr log] at never
  have waits := @frcStatWait_down answers unset port.phyAddr _ _ never
  rw [length_writtenLog] at waits
  exact configureLink_eq waits

/-- Behind the reset a port of 10 or 100 Mbps is forced exactly if the link is reported and the
mode replaces the one before. -/
theorem forced_configureLink (slow : speed = selectSpeed10 ∨ speed = selectSpeed100) :
    Forced speed duplex
      (configureLink port speed duplex ⟨answers, unset, log⟩ macControl).2.1.log
      (configureLink port speed duplex ⟨answers, unset, log⟩ macControl).2.2 ↔
        (∃ calls looks, Linked answers unset (log.length + 1) calls looks ∧
          linkHeard answers (log.length + 1 + 1001 * calls + looks) = true) ∧
        (macControl &&& cpswSliverInband ≠ 0 → speed = selectSpeed10) := by
  obtain ⟨mode, forced, control, bits, replaces⟩ := @forcedMode_slow speed duplex slow
  rcases @unlinked_or_linked answers unset (log.length + 1) with never | ⟨calls, looks, linked⟩
  · rw [configureLink_unlinked never]
    refine iff_of_false ?_ fun both => ?_
    · rintro ⟨_, _, _, runs⟩
      have last : log.length + 1 + 1001 * 199 + 1000 = log.length + 1 + 200199 := by omega
      have unheard := (never 199 (by decide)).unheard (show 1000 < 1001 by decide)
      rw [last] at unheard
      exact not_runs unheard runs
    · obtain ⟨_, _, linked, _⟩ := both.1
      exact linked.not_unlinked never
  · rw [configureLink_linked linked, control, bits]
    have exact : (∃ calls looks, Linked answers unset (log.length + 1) calls looks ∧
        linkHeard answers (log.length + 1 + 1001 * calls + looks) = true) ↔
          linkHeard answers (log.length + 1 + (1001 * calls + looks)) = true := by
      rw [← Nat.add_assoc]
      constructor
      · rintro ⟨other, more, second, heard⟩
        obtain ⟨rfl, rfl⟩ := linked.unique second
        exact heard
      · exact fun heard => ⟨calls, looks, linked, heard⟩
    rw [exact, ← replaces, and_comm]
    constructor
    · rintro ⟨other, same, _, runs⟩
      obtain rfl : mode = other := Option.some.inj (forced.symm.trans same)
      exact runs_iff.mp runs
    · exact fun both => ⟨mode, forced, written_configuredLog, runs_iff.mpr both⟩

/-- With more rounds for the reset the result is the same. -/
theorem cpswifPhyForced_more {bus : Bus} {more : Nat} {done : Err × Bus × Word}
    (ends : cpswifPhyForced rounds port speed duplex alive bus macControl = some done) :
    cpswifPhyForced (rounds + more) port speed duplex alive bus macControl = some done := by
  unfold cpswifPhyForced at ends ⊢
  cases reset : phyReset port.phyAddr rounds bus with
  | none =>
      rw [reset] at ends
      split at ends
      · rwa [if_pos ‹_›]
      · rw [if_neg ‹_›]
        split at ends
        · rwa [if_pos ‹_›]
        · cases ends
  | some ended =>
      have longer : phyReset port.phyAddr (rounds + more) bus = some ended := resetWait_more reset
      rw [longer]
      rwa [reset] at ends

theorem not_forced {after : Word} (unheard : log.getLast?.bind (readOf 1) = none) :
    ¬ Forced speed duplex log after := by
  rintro ⟨_, _, _, _, _, data, heard, _⟩
  cases unheard.symm.trans heard

/-- A port is forced exactly under the condition. -/
theorem forces_iff (duplex : Word) (inRange : speed = selectSpeed10 ∨ speed = selectSpeed100 ∨
    speed = selectSpeed1000) :
    (∃ rounds err bus after, cpswifPhyForced rounds port speed duplex alive
        ⟨answers, unset, []⟩ macControl = some (err, bus, after) ∧
      Forced speed duplex bus.log after) ↔
        ∃ reads place calls looks,
          port.Forces speed alive macControl answers unset reads place calls looks := by
  constructor
  · rintro ⟨rounds, err, bus, after, runs, forced⟩
    unfold cpswifPhyForced at runs
    split at runs
    next =>
      obtain ⟨_, rfl, rfl⟩ := runs
      exact absurd forced (not_forced rfl)
    next present =>
      split at runs
      next =>
        obtain ⟨_, rfl, rfl⟩ := runs
        exact absurd forced (not_forced rfl)
      next slow =>
        split at runs
        next => cases runs
        next failed =>
          obtain ⟨_, rfl, rfl⟩ := runs
          exact absurd forced (not_forced (resetWait_failed failed))
        next ended =>
          obtain ⟨reads, log, resets, length, rfl⟩ := phyReset_ended ended
          obtain ⟨last, settles, waits⟩ := @awaitLink_settles answers unset port.phyAddr log
          rw [waits] at runs
          have ran := Option.some.inj runs
          have exact := @forced_configureLink port answers unset last macControl speed duplex
            (or_assoc.mpr inRange |>.resolve_right slow)
          rw [ran] at exact
          obtain ⟨⟨calls, looks, linked, heard⟩, replaces⟩ := exact.mp forced
          rw [length] at settles
          exact ⟨reads, last.length, calls, looks, Bool.eq_true_of_not_eq_false present, slow,
            resets, settles, linked, heard, replaces⟩
  · rintro ⟨reads, place, calls, looks, forces⟩
    obtain ⟨log, length, ended⟩ := @phyReset_ends answers unset port.phyAddr _ forces.resets
    obtain ⟨last, settles, waits⟩ := @awaitLink_settles answers unset port.phyAddr log
    rw [length] at settles
    obtain rfl := forces.settles.unique settles
    have forced := (@forced_configureLink port answers unset last macControl speed duplex
      (or_assoc.mpr inRange |>.resolve_right forces.slow)).mpr
        ⟨⟨calls, looks, forces.linked, forces.heard⟩, forces.replaces⟩
    refine ⟨reads + 2, (configureLink port speed duplex ⟨answers, unset, last⟩ macControl).1,
      _, _, ?_, forced⟩
    unfold cpswifPhyForced
    rw [if_neg (by rw [forces.present]; decide), if_neg forces.slow, ended]
    dsimp only
    rw [waits]

end Forced

/-! ## Negotiated ports -/

section Negotiated

variable {config : Word} {looks reads : Nat} {offer : Offer}

/-- The number of transactions before the link is looked for. -/
def Offer.place (offer : Offer) (looks : Nat) : Nat :=
  10 + looks + if offer.gbps ≠ 0 then 1 else 0

/-- When a port is negotiated: the PHY is there, the negotiation is started and looks complete, the
selection and the partner have a common mode, and the call behind that sees the link in a read that
reports it. -/
structure Port.Agrees (port : Port) (config alive macControl : Word) (answers : Nat → Word)
    (unset : Nat → Half) (looks reads : Nat) : Prop where
  present : port.present alive = true
  ends : Ends answers unset looks
  mode : ∃ mode, ((port.selection config).heard answers looks).highest = some mode ∧
    mode.Replaces macControl
  up : LinkUp answers unset ((port.selection config).place looks) reads
  heard : linkHeard answers ((port.selection config).place looks + reads) = true

/-! ### Abilities -/

theorem highest_none {abilities : Abilities} (none : ∀ mode, abilities.common mode = false) :
    abilities.highest = .none := by
  unfold Abilities.highest
  rw [List.find?_eq_none]
  intro mode _
  rw [none mode]
  exact Bool.false_ne_true

/-- Nothing is common with a partner that has not been heard. -/
theorem highest_unheard (partner : latest (readOf 5) log = none)
    (gigPartner : latest (readOf 10) log = none) : (abilities log).highest = none := by
  have silent : (abilities log).partner = 0 := congrArg (Option.getD · 0) partner
  have gigSilent : (abilities log).gigPartner = 0 := congrArg (Option.getD · 0) gigPartner
  refine highest_none fun mode => ?_
  cases mode with
  | gigFull =>
      refine decide_eq_false fun both => both.2 ?_
      rw [gigSilent]
      exact BitVec.zero_and
  | _ =>
      refine decide_eq_false fun both => both.2 ?_
      rw [silent]
      exact BitVec.zero_and

/-- Looks at the link do not change what is known of both. -/
theorem abilities_polls :
    abilities (log ++ polls phyAddr answers start count) = abilities log := by
  have written : ∀ register, latest (writtenTo register) (log ++ polls phyAddr answers start count) =
      latest (writtenTo register) log := by
    intro register
    rw [latest_append, latest_none fun _ => writtenTo_polls, Option.none_or]
  have heard : ∀ register, register ≠ 1 → latest (readOf register)
      (log ++ polls phyAddr answers start count) = latest (readOf register) log := by
    intro register other
    rw [latest_append, latest_none fun _ => readOf_polls other, Option.none_or]
  unfold abilities
  rw [written, written, heard 5 (by decide), heard 10 (by decide)]

/-- `adv_val` has the bits of the modes that are selected. -/
theorem selectedAdv_and (slow : mode ≠ .gigFull) :
    selectedAdv config &&& mode.ability ≠ 0 ↔ config &&& mode.select ≠ 0 := by
  have all : ∀ slowHalf slowFull fastHalf fastFull : Bool,
      ∀ value, value = (if slowHalf then phy10Bt else 0) ||| (if slowFull then phy10BtFd else 0) |||
        (if fastHalf then phy100Btx else 0) ||| (if fastFull then phy100BtxFd else 0) →
      (value &&& phy10Bt ≠ 0 ↔ slowHalf = true) ∧ (value &&& phy10BtFd ≠ 0 ↔ slowFull = true) ∧
        (value &&& phy100Btx ≠ 0 ↔ fastHalf = true) ∧
          (value &&& phy100BtxFd ≠ 0 ↔ fastFull = true) := by
    rintro slowHalf slowFull fastHalf fastFull value rfl
    revert slowHalf slowFull fastHalf fastFull
    decide
  have bits := all (decide (config &&& select10Half ≠ 0)) (decide (config &&& select10Full ≠ 0))
    (decide (config &&& select100Half ≠ 0)) (decide (config &&& select100Full ≠ 0))
    (selectedAdv config) (by simp only [decide_eq_true_eq]; rfl)
  simp only [decide_eq_true_eq] at bits
  cases mode with
  | gigFull => exact absurd rfl slow
  | fastFull => exact bits.2.2.2
  | fastHalf => exact bits.2.2.1
  | slowFull => exact bits.2.1
  | slowHalf => exact bits.1

/-- Exactly the selected modes are offered. -/
theorem advertises_selection {abilities : Abilities} {rest gigRest : Half}
    (adv : abilities.adv = rest &&& ~~~phyAdvValMask ||| (port.selection config).adv)
    (gigAdv : abilities.gigAdv = gigRest &&& ~~~phyGigAdvValMask ||| (port.selection config).gigAdv)
    (mode : Mode) : abilities.advertises mode = port.wants config mode := by
  unfold Abilities.advertises Port.wants
  by_cases gigabit : mode = .gigFull
  · subst gigabit
    rw [if_pos rfl, gigAdv, masked_and (by decide)]
    refine decide_eq_decide.mpr ?_
    change (if _ then phy1000BtFd else 0) &&& phy1000BtFd ≠ 0 ↔ _
    by_cases both : port.phyGbps ≠ 0 ∧ config &&& select1000Full ≠ 0
    · rw [if_pos both]
      exact iff_of_true (by decide) ⟨both.2, fun _ => both.1⟩
    · rw [if_neg both]
      exact iff_of_false (by decide) fun wanted => both ⟨wanted.2 rfl, wanted.1⟩
  · have inside : ~~~phyAdvValMask &&& mode.ability = 0 := by
      revert gigabit
      cases mode <;> decide
    rw [if_neg gigabit, adv, masked_and inside]
    refine decide_eq_decide.mpr ((selectedAdv_and gigabit).trans (and_iff_left ?_).symm)
    exact fun same => absurd same gigabit

theorem Offer.Conversation.length (said : offer.Conversation phyAddr answers looks log) :
    log.length = offer.place looks := by
  obtain ⟨enabled, rest, gigRest, restart, rfl⟩ := said
  unfold conversation questions Offer.place
  rw [List.length_append, List.length_append, length_polls, List.length_cons]
  change 8 + (looks + 1) + ((if offer.gbps ≠ 0 then _ else _ : List Transaction).length + 1) = _
  split
  · rw [List.length_singleton]
    omega
  · rw [List.length_nil]
    omega

theorem Offer.Conversation.advertises
    (said : (port.selection config).Conversation phyAddr answers looks log) (mode : Mode) :
    (abilities log).advertises mode = port.wants config mode := by
  obtain ⟨enabled, rest, gigRest, restart, rfl⟩ := said
  exact advertises_selection
    (congrArg (Option.getD · 0) (written_conversation.trans advertised_negotiation))
    (congrArg (Option.getD · 0) (written_conversation.trans gigAdvertised_negotiation)) mode

/-- A port for which the partner has not been heard is not negotiated. -/
theorem not_negotiated {after : Word} (partner : latest (readOf 5) log = none)
    (gigPartner : latest (readOf 10) log = none) : ¬ port.Negotiated config log after := by
  rintro ⟨_, mode, highest, _⟩
  cases (highest_unheard partner gigPartner).symm.trans highest

/-! ### Runs -/

/-- The end of a run, behind a log. -/
theorem verifyLink_up {linkstat : Err} (up : LinkUp answers unset log.length reads) :
    verifyLink port linkstat ⟨answers, unset, log⟩ macControl = (linkstat,
      ⟨answers, unset, log ++ polls port.phyAddr answers log.length (reads + 1)⟩,
      cpswSlRgmiiEnable macControl) := by
  unfold verifyLink
  rw [phyLinkStatusGet_up up]
  rfl

theorem verifyLink_down {linkstat : Err} (down : LinkDown answers unset log.length) :
    verifyLink port linkstat ⟨answers, unset, log⟩ macControl = (linkstat,
      ⟨answers, unset, log ++ polls port.phyAddr answers log.length 1001⟩, macControl) := by
  unfold verifyLink
  rw [phyLinkStatusGet_down down]
  rfl

/-- The end of a run adds looks at the link. -/
theorem verifyLink_log {linkstat : Err} : ∃ count,
    (verifyLink port linkstat ⟨answers, unset, log⟩ macControl).2.1.log =
      log ++ polls port.phyAddr answers log.length count := by
  rcases @linkDown_or_up answers unset log.length with down | ⟨reads, up⟩
  · exact ⟨1001, by rw [verifyLink_down down]⟩
  · exact ⟨reads + 1, by rw [verifyLink_up up]⟩

/-- Behind a negotiation that looks complete. -/
theorem negotiated_verifyLink (present : port.present alive = true)
    (ends : Ends answers unset looks)
    (said : (port.selection config).Conversation port.phyAddr answers looks log) :
    (∃ reads, port.Agrees config alive macControl answers unset looks reads) ↔
      port.Negotiated config
        (verifyLink port errOk ⟨answers, unset, log⟩ (cpswSlTransferModeSet
          (((port.selection config).heard answers looks).highest.elim 0 Mode.bits)
          macControl)).2.1.log
        (verifyLink port errOk ⟨answers, unset, log⟩ (cpswSlTransferModeSet
          (((port.selection config).heard answers looks).highest.elim 0 Mode.bits)
          macControl)).2.2 := by
  rcases @linkDown_or_up answers unset log.length with down | ⟨reads, up⟩
  · rw [verifyLink_down down]
    refine iff_of_false ?_ ?_
    · rintro ⟨reads, agrees⟩
      have up := agrees.up
      rw [← said.length] at up
      exact up.not_down down
    · rintro ⟨_, mode, _, runs⟩
      exact not_runs (down.unheard (show 1000 < 1001 by decide)) runs
  · rw [verifyLink_up up]
    constructor
    · rintro ⟨other, agrees⟩
      obtain ⟨mode, highest, replaces⟩ := agrees.mode
      have second := agrees.up
      have heard := agrees.heard
      rw [← said.length] at second heard
      obtain rfl := up.unique second
      refine ⟨fun mode => ?_, mode, ?_, ?_⟩
      · rw [abilities_polls]
        exact said.advertises mode
      · rw [abilities_polls, said.highest, highest]
      · rw [highest]
        exact runs_iff.mpr ⟨replaces, heard⟩
    · rintro ⟨_, mode, highest, runs⟩
      rw [abilities_polls, said.highest] at highest
      rw [highest] at runs
      obtain ⟨replaces, heard⟩ := runs_iff.mp runs
      exact ⟨reads, present, ends, ⟨mode, highest, replaces⟩, said.length ▸ up, said.length ▸ heard⟩

/-- Of 1000 Mbps in half duplex mode nothing is offered. -/
theorem highest_half :
    ((port.selection select1000Half).heard answers looks).highest = none := by
  have adv : (port.selection select1000Half).adv = 0 := by
    change selectedAdv select1000Half = 0
    decide
  have gigAdv : (port.selection select1000Half).gigAdv = 0 :=
    if_neg fun both => absurd both.2 (by decide)
  refine highest_none fun mode => ?_
  cases mode with
  | gigFull =>
      refine decide_eq_false fun both => both.1 ?_
      change (port.selection select1000Half).gigAdv &&& _ = 0
      rw [gigAdv]
      exact BitVec.zero_and
  | _ =>
      refine decide_eq_false fun both => both.1 ?_
      change (port.selection select1000Half).adv &&& _ = 0
      rw [adv]
      exact BitVec.zero_and

/-- A port is negotiated exactly under the condition. -/
theorem agrees_iff :
    port.Negotiated config
        (cpswifPhyAutoneg port config alive ⟨answers, unset, []⟩ macControl).2.1.log
        (cpswifPhyAutoneg port config alive ⟨answers, unset, []⟩ macControl).2.2 ↔
      ∃ looks reads, port.Agrees config alive macControl answers unset looks reads := by
  unfold cpswifPhyAutoneg
  by_cases present : port.present alive = true
  swap
  · rw [if_pos (Bool.eq_false_iff.mpr present)]
    exact iff_of_false (not_negotiated rfl rfl) fun ⟨_, _, agrees⟩ => present agrees.present
  rw [if_neg (by rw [present]; decide)]
  by_cases half : config = select1000Half
  · rw [if_pos half]
    refine iff_of_false (not_negotiated rfl rfl) ?_
    rintro ⟨looks, _, agrees⟩
    obtain ⟨mode, highest, _⟩ := agrees.mode
    rw [half, highest_half] at highest
    cases highest
  rw [if_neg half]
  by_cases started : Started answers
  swap
  · obtain ⟨log, fails, quiet⟩ : ∃ log, phyAutoNegotiate port.phyAddr (port.selection config).adv
        (port.selection config).gigAdv ⟨answers, unset, []⟩ = (false, ⟨answers, unset, log⟩) ∧ _ :=
      phyAutoNegotiate_fails started
    dsimp only
    rw [fails]
    refine iff_of_false ?_ fun ⟨_, _, agrees⟩ => started agrees.ends.started
    obtain ⟨count, said⟩ := @verifyLink_log port answers unset log macControl errConn
    have unheard : ∀ register, register ≠ 0 → register ≠ 1 → latest (readOf register)
        (log ++ polls port.phyAddr answers log.length count) = none := by
      intro register bcr status
      rw [latest_append, latest_none fun _ => readOf_polls status,
        latest_none fun transaction among => quiet transaction among register bcr]
      rfl
    refine not_negotiated ?_ ?_
    · exact (congrArg (latest _) said).trans (unheard 5 (by decide) (by decide))
    · exact (congrArg (latest _) said).trans (unheard 10 (by decide) (by decide))
  by_cases some : ∃ looks, Ends answers unset looks
  · obtain ⟨looks, ends⟩ := some
    obtain ⟨begun, waited, autNegCnt, status, log, starts, waits, left, asks, said⟩ :=
      (port.selection config).negotiates port.phyAddr ends
    have exact := @negotiated_verifyLink port answers unset log macControl alive config looks
      present ends said
    dsimp only
    rw [starts]
    simp only [waits, asks]
    rw [if_pos trivial, if_pos left, Offer.transferMode_heard, ← exact]
    constructor
    · exact fun agrees => ⟨looks, agrees⟩
    · rintro ⟨other, reads, agrees⟩
      rw [ends.unique agrees.ends]
      exact ⟨reads, agrees⟩
  · obtain ⟨begun, log, starts, waits, _, unheard⟩ :=
      (port.selection config).waits port.phyAddr started (not_exists.mp some)
    dsimp only
    rw [starts]
    simp only [waits]
    rw [if_pos trivial, if_neg (not_not.mpr rfl)]
    refine iff_of_false (not_negotiated ?_ ?_) fun ⟨looks, _, agrees⟩ => some ⟨looks, agrees.ends⟩
    · exact unheard 5 (by decide) (by decide) (by decide) (by decide)
    · exact unheard 10 (by decide) (by decide) (by decide) (by decide)

end Negotiated

end BbbEth.Phy
