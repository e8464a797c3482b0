import BbbEth.Cpsw.Phy.Negotiation

/-!
# The link of a port

The routines of `phy.c` that reset a PHY, set its mode and look for its link.  A look at the link
reads the status, up to 1001 times in a call; a read that is not acknowledged leaves the local, so
that only the first one of a call can see a link that nobody has reported.
-/

namespace BbbEth.Phy

def phySoftreset : Half := 0x8000
def phyLinkStatus : Half := 0x0004
def phySpeed100Mbps : Half := 0x2000
def phyFullDuplex : Half := 0x0100

section Routines

variable (phyAddr : Word)

/-- The loop of `PhyReset`, for some rounds, with what the local has.  A PHY that needs more of
them is still waited for. -/
def resetWait : Nat → Half → Bus → Option (Bool × Bus)
  | 0, _, _ => none
  | rounds + 1, data, bus =>
      if data &&& phySoftreset ≠ 0 then
        let (status, data, bus) := mdioPhyRegRead phyAddr phyBcr data bus
        if status = false then some (false, bus) else resetWait rounds data bus
      else some (true, bus)

/-- `PhyReset`. -/
def phyReset (rounds : Nat) (bus : Bus) : Option (Bool × Bus) :=
  resetWait phyAddr rounds phySoftreset (mdioPhyRegWrite phyAddr phyBcr phySoftreset bus)

/-- `PhyConfigure`. -/
def phyConfigure (speed duplexMode : Half) (bus : Bus) : Bool × Bus :=
  (true, mdioPhyRegWrite phyAddr phyBcr (speed ||| duplexMode) bus)

/-- The loop of `PhyLinkStatusGet`, with what is left of `retries` and what the local has. -/
def linkWait : Nat → Half → Bus → Bool × Bus
  | 0, _, bus => (false, bus)
  | retries + 1, linkStatus, bus =>
      let (_, linkStatus, bus) := mdioPhyRegRead phyAddr phyBsr linkStatus bus
      if linkStatus &&& phyLinkStatus ≠ 0 then (true, bus) else linkWait retries linkStatus bus

/-- `PhyLinkStatusGet`. -/
def phyLinkStatusGet (retries : Nat) (bus : Bus) : Bool × Bus :=
  linkWait phyAddr (retries + 1) bus.garbage bus

/-- The loop that waits for the link, with what is left of `frc_stat_cnt`. -/
def frcStatWait : Nat → Bus → Nat × Bus
  | 0, bus => (0, bus)
  | frcStatCnt + 1, bus =>
      let (frcStat, bus) := phyLinkStatusGet phyAddr 1000 bus
      if frcStat then (frcStatCnt + 1, bus) else frcStatWait frcStatCnt bus

end Routines

variable {answers : Nat → Word} {unset : Nat → Half} {phyAddr : Word} {log : List Transaction}

/-! ## The reset -/

/-- The reset has ended at one of the reads: all are acknowledged, and the last one says that the
bit is clear. -/
structure Resets (answers : Nat → Word) (start reads : Nat) : Prop where
  done : ∃ data, acknowledged (answers (start + reads)) = some data ∧ data &&& phySoftreset = 0
  before : ∀ earlier < reads, ∃ data, acknowledged (answers (start + earlier)) = some data ∧
    data &&& phySoftreset ≠ 0

theorem resets_succ_iff {start reads : Nat} : Resets answers start (reads + 1) ↔
    (∃ data, acknowledged (answers start) = some data ∧ data &&& phySoftreset ≠ 0) ∧
      Resets answers (start + 1) reads := by
  constructor
  · rintro ⟨done, before⟩
    refine ⟨before 0 (Nat.succ_pos reads), ?_, fun earlier less => ?_⟩
    · rw [Nat.add_right_comm]
      exact done
    · rw [Nat.add_right_comm]
      exact before (earlier + 1) (Nat.succ_lt_succ less)
  · rintro ⟨first, done, before⟩
    rw [Nat.add_right_comm] at done
    refine ⟨done, fun earlier less => ?_⟩
    cases earlier with
    | zero => exact first
    | succ earlier =>
        have heard := before earlier (Nat.lt_of_succ_lt_succ less)
        rw [Nat.add_right_comm] at heard
        exact heard

/-- The log behind a read of the control register. -/
def afterBcr (phyAddr : Word) (answers : Nat → Word) (log : List Transaction) : List Transaction :=
  log ++ [⟨readCommand phyAddr phyBcr, answers log.length⟩]

theorem length_afterBcr : (afterBcr phyAddr answers log).length = log.length + 1 :=
  List.length_append

/-- A round of the wait that is acknowledged. -/
theorem resetWait_round {data value : Half} {rounds : Nat} (set : data &&& phySoftreset ≠ 0)
    (heard : acknowledged (answers log.length) = some value) :
    resetWait phyAddr (rounds + 1) data ⟨answers, unset, log⟩ =
      resetWait phyAddr rounds value ⟨answers, unset, afterBcr phyAddr answers log⟩ := by
  have answer : acknowledged (Bus.answer ⟨answers, unset, log⟩) = some value := heard
  change (if _ then _ else _) = _
  rw [if_pos set, mdioPhyRegRead_eq, answer]
  rfl

theorem resetWait_unheard {data : Half} {rounds : Nat} (set : data &&& phySoftreset ≠ 0)
    (unheard : acknowledged (answers log.length) = none) :
    resetWait phyAddr (rounds + 1) data ⟨answers, unset, log⟩ =
      some (false, ⟨answers, unset, afterBcr phyAddr answers log⟩) := by
  have answer : acknowledged (Bus.answer ⟨answers, unset, log⟩) = none := unheard
  change (if _ then _ else _) = _
  rw [if_pos set, mdioPhyRegRead_eq, answer]
  rfl

theorem resetWait_clear {data : Half} {rounds : Nat} {bus : Bus}
    (clear : data &&& phySoftreset = 0) :
    resetWait phyAddr (rounds + 1) data bus = some (true, bus) :=
  if_neg (not_not.mpr clear)

/-- A wait that sees the bit clear. -/
theorem resetWait_ends {data : Half} {reads : Nat} (set : data &&& phySoftreset ≠ 0)
    (resets : Resets answers log.length reads) :
    ∃ last, last.length = log.length + reads + 1 ∧
      resetWait phyAddr (reads + 2) data ⟨answers, unset, log⟩ =
        some (true, ⟨answers, unset, last⟩) := by
  induction reads generalizing data log with
  | zero =>
      obtain ⟨value, heard, clear⟩ := resets.done
      exact ⟨_, length_afterBcr, (resetWait_round set heard).trans (resetWait_clear clear)⟩
  | succ reads inductionHypothesis =>
      obtain ⟨⟨value, heard, still⟩, rest⟩ := resets_succ_iff.mp resets
      rw [← @length_afterBcr answers phyAddr] at rest
      obtain ⟨last, length, runs⟩ := inductionHypothesis still rest
      refine ⟨last, ?_, (resetWait_round set heard).trans runs⟩
      rw [length, length_afterBcr]
      omega

/-- A wait that has ended well has seen the bit clear. -/
theorem resetWait_ended {data : Half} {rounds : Nat} {after : Bus}
    (set : data &&& phySoftreset ≠ 0)
    (ended : resetWait phyAddr rounds data ⟨answers, unset, log⟩ = some (true, after)) :
    ∃ reads last, Resets answers log.length reads ∧ last.length = log.length + reads + 1 ∧
      after = ⟨answers, unset, last⟩ := by
  induction rounds generalizing data log with
  | zero => cases ended
  | succ rounds inductionHypothesis =>
      cases heard : acknowledged (answers log.length) with
      | none => cases (resetWait_unheard set heard).symm.trans ended
      | some value =>
          rw [resetWait_round set heard] at ended
          by_cases clear : value &&& phySoftreset = 0
          · cases rounds with
            | zero => cases ended
            | succ rounds =>
                rw [resetWait_clear clear] at ended
                obtain ⟨_, rfl⟩ := Prod.mk.inj (Option.some.inj ended)
                exact ⟨0, _, ⟨⟨value, heard, clear⟩, fun _ less => absurd less (Nat.not_lt_zero _)⟩,
                  length_afterBcr, rfl⟩
          · obtain ⟨reads, last, resets, length, same⟩ := inductionHypothesis clear ended
            rw [length_afterBcr] at resets length
            refine ⟨reads + 1, last, resets_succ_iff.mpr ⟨⟨value, heard, clear⟩, resets⟩, ?_, same⟩
            rw [length]
            omega

/-- A wait that has failed has read the control register last. -/
theorem resetWait_failed {data : Half} {rounds : Nat} {after : Bus}
    (failed : resetWait phyAddr rounds data ⟨answers, unset, log⟩ = some (false, after)) :
    after.log.getLast?.bind (readOf 1) = none := by
  have bcr : phyBcr.setWidth 5 ≠ 1 := by decide
  induction rounds generalizing data log with
  | zero => cases failed
  | succ rounds inductionHypothesis =>
      by_cases clear : data &&& phySoftreset = 0
      · cases (resetWait_clear clear).symm.trans failed
      · cases heard : acknowledged (answers log.length) with
        | none =>
            obtain ⟨_, rfl⟩ := Prod.mk.inj (Option.some.inj
              ((resetWait_unheard clear heard).symm.trans failed))
            unfold afterBcr
            rw [List.getLast?_concat]
            exact readOf_other bcr
        | some value => exact inductionHypothesis ((resetWait_round clear heard).symm.trans failed)

/-- With more rounds the result is the same. -/
theorem resetWait_more {data : Half} {rounds more : Nat} {ended : Bool × Bus}
    (runs : resetWait phyAddr rounds data ⟨answers, unset, log⟩ = some ended) :
    resetWait phyAddr (rounds + more) data ⟨answers, unset, log⟩ = some ended := by
  induction rounds generalizing data log with
  | zero => cases runs
  | succ rounds inductionHypothesis =>
      rw [Nat.add_right_comm]
      by_cases clear : data &&& phySoftreset = 0
      · rw [resetWait_clear clear] at runs ⊢
        exact runs
      · cases heard : acknowledged (answers log.length) with
        | none =>
            rw [resetWait_unheard clear heard] at runs ⊢
            exact runs
        | some value =>
            rw [resetWait_round clear heard] at runs ⊢
            exact inductionHypothesis runs

/-- A reset that ends. -/
theorem phyReset_ends {reads : Nat} (resets : Resets answers 1 reads) :
    ∃ log, log.length = 2 + reads ∧
      phyReset phyAddr (reads + 2) ⟨answers, unset, []⟩ = some (true, ⟨answers, unset, log⟩) := by
  have set : phySoftreset &&& phySoftreset ≠ 0 := by decide
  obtain ⟨last, length, runs⟩ := @resetWait_ends answers unset phyAddr
    [⟨writeCommand phyAddr phyBcr phySoftreset, answers 0⟩] phySoftreset reads set resets
  refine ⟨last, length.trans ?_, runs⟩
  change 1 + reads + 1 = 2 + reads
  omega

/-- A reset that has ended well. -/
theorem phyReset_ended {rounds : Nat} {after : Bus}
    (ended : phyReset phyAddr rounds ⟨answers, unset, []⟩ = some (true, after)) :
    ∃ reads log, Resets answers 1 reads ∧ log.length = 2 + reads ∧
      after = ⟨answers, unset, log⟩ := by
  have set : phySoftreset &&& phySoftreset ≠ 0 := by decide
  obtain ⟨reads, last, resets, length, same⟩ := resetWait_ended set ended
  refine ⟨reads, last, resets, length.trans ?_, same⟩
  change 1 + reads + 1 = 2 + reads
  omega

/-! ## Looks at the link -/

/-- A read that is acknowledged reports the link. -/
def linkHeard (answers : Nat → Word) (index : Nat) : Bool :=
  (acknowledged (answers index)).any fun data => data &&& phyLinkStatus ≠ 0

/-- A read of a call sees the link: it reports the link, or it is the first one, is not
acknowledged, and the bit is in the local that has not been set. -/
def linkSeen (answers : Nat → Word) (unset : Nat → Half) (start look : Nat) : Bool :=
  linkHeard answers (start + look) ||
    (look = 0 ∧ acknowledged (answers start) = none ∧ unset start &&& phyLinkStatus ≠ 0 : Bool)

/-- A call sees the link at one of its reads. -/
structure LinkUp (answers : Nat → Word) (unset : Nat → Half) (start reads : Nat) : Prop where
  within : reads < 1001
  seen : linkSeen answers unset start reads = true
  before : ∀ earlier < reads, linkSeen answers unset start earlier = false

/-- No read of a call sees the link. -/
def LinkDown (answers : Nat → Word) (unset : Nat → Half) (start : Nat) : Prop :=
  ∀ look < 1001, linkSeen answers unset start look = false

variable {start : Nat}

theorem linkDown_or_up :
    LinkDown answers unset start ∨ ∃ reads, LinkUp answers unset start reads := by
  by_cases sees : ∃ look, look < 1001 ∧ linkSeen answers unset start look = true
  · refine .inr ⟨Nat.find sees, (Nat.find_spec sees).1, (Nat.find_spec sees).2, ?_⟩
    intro earlier less
    have not := Nat.find_min sees less
    have within := less.trans (Nat.find_spec sees).1
    exact Bool.eq_false_iff.mpr fun seen => not ⟨within, seen⟩
  · exact .inl fun look within => Bool.eq_false_iff.mpr fun seen => sees ⟨look, within, seen⟩

theorem LinkUp.not_down {reads : Nat} (up : LinkUp answers unset start reads) :
    ¬ LinkDown answers unset start :=
  fun down => Bool.false_ne_true ((down reads up.within).symm.trans up.seen)

theorem LinkUp.unique {reads other : Nat} (up : LinkUp answers unset start reads)
    (second : LinkUp answers unset start other) : reads = other := by
  rcases Nat.lt_trichotomy reads other with less | same | less
  · cases up.seen.symm.trans (second.before reads less)
  · exact same
  · cases second.seen.symm.trans (up.before other less)

/-- The first read of a call looks at the local where it is not acknowledged. -/
theorem linkSeen_zero : linkSeen answers unset start 0 = true ↔
    (acknowledged (answers start)).getD (unset start) &&& phyLinkStatus ≠ 0 := by
  unfold linkSeen linkHeard
  rw [Nat.add_zero]
  cases acknowledged (answers start) with
  | none => simp
  | some data => simp

theorem linkSeen_succ {look : Nat} :
    linkSeen answers unset start (look + 1) = linkHeard answers (start + 1 + look) := by
  unfold linkSeen
  rw [Nat.add_right_comm start 1 look]
  simp [Nat.add_assoc]

/-- A read with a clear local sees what is reported. -/
theorem getD_link {data : Half} {index : Nat} (clear : data &&& phyLinkStatus = 0) :
    (acknowledged (answers index)).getD data &&& phyLinkStatus ≠ 0 ↔
      linkHeard answers index = true := by
  unfold linkHeard
  cases acknowledged (answers index) with
  | none => simp [clear]
  | some value => simp

/-- A round of the loop. -/
theorem linkWait_succ {retries : Nat} {data : Half} :
    linkWait phyAddr (retries + 1) data ⟨answers, unset, log⟩ =
      if (acknowledged (answers log.length)).getD data &&& phyLinkStatus ≠ 0 then
        (true, ⟨answers, unset, log ++ polls phyAddr answers log.length 1⟩)
      else linkWait phyAddr retries ((acknowledged (answers log.length)).getD data)
        ⟨answers, unset, log ++ polls phyAddr answers log.length 1⟩ := by
  rw [linkWait, mdioPhyRegRead_eq]
  rfl

theorem linkWait_up {retries reads : Nat} {data : Half} (clear : data &&& phyLinkStatus = 0)
    (within : reads < retries) (heard : linkHeard answers (log.length + reads) = true)
    (before : ∀ earlier < reads, linkHeard answers (log.length + earlier) = false) :
    linkWait phyAddr retries data ⟨answers, unset, log⟩ =
      (true, ⟨answers, unset, log ++ polls phyAddr answers log.length (reads + 1)⟩) := by
  induction retries generalizing data log reads with
  | zero => exact absurd within (Nat.not_lt_zero _)
  | succ retries inductionHypothesis =>
      rw [linkWait_succ]
      cases reads with
      | zero => exact if_pos ((getD_link clear).mpr heard)
      | succ reads =>
          have unheard := before 0 (Nat.succ_pos reads)
          have still : (acknowledged (answers log.length)).getD data &&& phyLinkStatus = 0 := by
            by_contra set
            cases unheard.symm.trans ((getD_link clear).mp set)
          rw [if_neg (not_not.mpr still), ← look_append (reads + 1)]
          refine inductionHypothesis still (Nat.lt_of_succ_lt_succ within) ?_ fun earlier less => ?_
          · rw [length_look, Nat.add_right_comm]
            exact heard
          · rw [length_look, Nat.add_right_comm]
            exact before (earlier + 1) (Nat.succ_lt_succ less)

theorem linkWait_down {retries : Nat} {data : Half} (clear : data &&& phyLinkStatus = 0)
    (never : ∀ look < retries, linkHeard answers (log.length + look) = false) :
    linkWait phyAddr retries data ⟨answers, unset, log⟩ =
      (false, ⟨answers, unset, log ++ polls phyAddr answers log.length retries⟩) := by
  induction retries generalizing data log with
  | zero =>
      unfold polls
      rw [List.range'_zero, List.map_nil, List.append_nil]
      rfl
  | succ retries inductionHypothesis =>
      have unheard := never 0 (Nat.succ_pos retries)
      have still : (acknowledged (answers log.length)).getD data &&& phyLinkStatus = 0 := by
        by_contra set
        cases unheard.symm.trans ((getD_link clear).mp set)
      rw [linkWait_succ, if_neg (not_not.mpr still), ← look_append retries]
      refine inductionHypothesis still fun look less => ?_
      rw [length_look, Nat.add_right_comm]
      exact never (look + 1) (Nat.succ_lt_succ less)

/-- A call that sees the link. -/
theorem phyLinkStatusGet_up {reads : Nat} (up : LinkUp answers unset log.length reads) :
    phyLinkStatusGet phyAddr 1000 ⟨answers, unset, log⟩ =
      (true, ⟨answers, unset, log ++ polls phyAddr answers log.length (reads + 1)⟩) := by
  change linkWait phyAddr (1000 + 1) (unset log.length) _ = _
  rw [linkWait_succ]
  cases reads with
  | zero => exact if_pos (linkSeen_zero.mp up.seen)
  | succ reads =>
      have clear : (acknowledged (answers log.length)).getD (unset log.length) &&& phyLinkStatus =
          0 := by
        by_contra set
        cases (up.before 0 (Nat.succ_pos reads)).symm.trans (linkSeen_zero.mpr set)
      rw [if_neg (not_not.mpr clear), ← look_append (reads + 1)]
      refine linkWait_up clear (Nat.lt_of_succ_lt_succ up.within) ?_ fun earlier less => ?_
      · rw [length_look]
        exact linkSeen_succ.symm.trans up.seen
      · rw [length_look]
        exact linkSeen_succ.symm.trans (up.before (earlier + 1) (Nat.succ_lt_succ less))

/-- A call that does not see the link. -/
theorem phyLinkStatusGet_down (down : LinkDown answers unset log.length) :
    phyLinkStatusGet phyAddr 1000 ⟨answers, unset, log⟩ =
      (false, ⟨answers, unset, log ++ polls phyAddr answers log.length 1001⟩) := by
  have clear : (acknowledged (answers log.length)).getD (unset log.length) &&& phyLinkStatus =
      0 := by
    by_contra set
    cases (down 0 (by decide)).symm.trans (linkSeen_zero.mpr set)
  change linkWait phyAddr (1000 + 1) (unset log.length) _ = _
  rw [linkWait_succ, if_neg (not_not.mpr clear), ← look_append 1000]
  refine linkWait_down clear fun look less => ?_
  rw [length_look]
  exact linkSeen_succ.symm.trans (down (look + 1) (Nat.succ_lt_succ less))

/-! ## Calls one behind the other -/

/-- One of 200 calls sees the link: behind some that do not, at one of its reads. -/
structure Linked (answers : Nat → Word) (unset : Nat → Half) (start calls reads : Nat) :
    Prop where
  within : calls < 200
  before : ∀ earlier < calls, LinkDown answers unset (start + 1001 * earlier)
  up : LinkUp answers unset (start + 1001 * calls) reads

/-- None of 200 calls sees the link. -/
def Unlinked (answers : Nat → Word) (unset : Nat → Half) (start : Nat) : Prop :=
  ∀ call < 200, LinkDown answers unset (start + 1001 * call)

theorem unlinked_or_linked :
    Unlinked answers unset start ∨ ∃ calls reads, Linked answers unset start calls reads := by
  classical
  by_cases sees : ∃ call, call < 200 ∧ ¬ LinkDown answers unset (start + 1001 * call)
  · obtain ⟨reads, up⟩ := linkDown_or_up.resolve_left (Nat.find_spec sees).2
    refine .inr ⟨Nat.find sees, reads, (Nat.find_spec sees).1, fun earlier less => ?_, up⟩
    by_contra down
    exact Nat.find_min sees less ⟨less.trans (Nat.find_spec sees).1, down⟩
  · exact .inl fun call within => by_contra fun down => sees ⟨call, within, down⟩

theorem Linked.not_unlinked {calls reads : Nat} (linked : Linked answers unset start calls reads) :
    ¬ Unlinked answers unset start :=
  fun never => linked.up.not_down (never calls linked.within)

theorem Linked.unique {calls reads other otherReads : Nat}
    (linked : Linked answers unset start calls reads)
    (second : Linked answers unset start other otherReads) :
    calls = other ∧ reads = otherReads := by
  rcases Nat.lt_trichotomy calls other with less | rfl | less
  · exact absurd (second.before calls less) linked.up.not_down
  · exact ⟨rfl, linked.up.unique second.up⟩
  · exact absurd (linked.before other less) second.up.not_down

theorem polls_append {count more : Nat} : polls phyAddr answers start count ++
    polls phyAddr answers (start + count) more = polls phyAddr answers start (count + more) := by
  unfold polls
  rw [← List.map_append, List.range'_append_1]

/-- Looks and those behind them. -/
theorem calls_append {count more : Nat} : log ++ polls phyAddr answers log.length count ++
    polls phyAddr answers (log ++ polls phyAddr answers log.length count).length more =
      log ++ polls phyAddr answers log.length (count + more) := by
  rw [List.append_assoc, List.length_append, length_polls, polls_append]

/-- The position behind some calls. -/
theorem length_calls {calls : Nat} : (log ++ polls phyAddr answers log.length 1001).length +
    1001 * calls = log.length + 1001 * (calls + 1) := by
  rw [List.length_append, length_polls]
  omega

theorem frcStatWait_up {frcStatCnt calls reads : Nat} (within : calls < frcStatCnt)
    (before : ∀ earlier < calls, LinkDown answers unset (log.length + 1001 * earlier))
    (up : LinkUp answers unset (log.length + 1001 * calls) reads) :
    frcStatWait phyAddr frcStatCnt ⟨answers, unset, log⟩ = (frcStatCnt - calls,
      ⟨answers, unset, log ++ polls phyAddr answers log.length (1001 * calls + (reads + 1))⟩) := by
  induction frcStatCnt generalizing calls log with
  | zero => exact absurd within (Nat.not_lt_zero _)
  | succ frcStatCnt inductionHypothesis =>
      unfold frcStatWait
      cases calls with
      | zero =>
          rw [phyLinkStatusGet_up up, Nat.mul_zero, Nat.zero_add]
          rfl
      | succ calls =>
          have first : LinkDown answers unset log.length := before 0 (Nat.succ_pos calls)
          have behind : 1001 * (calls + 1) + (reads + 1) = 1001 + (1001 * calls + (reads + 1)) := by
            omega
          rw [phyLinkStatusGet_down first, Nat.add_sub_add_right, behind, ← calls_append]
          refine inductionHypothesis (Nat.lt_of_succ_lt_succ within) (fun earlier less => ?_) ?_
          · rw [length_calls]
            exact before (earlier + 1) (Nat.succ_lt_succ less)
          · rw [length_calls]
            exact up

theorem frcStatWait_down {frcStatCnt : Nat}
    (never : ∀ call < frcStatCnt, LinkDown answers unset (log.length + 1001 * call)) :
    frcStatWait phyAddr frcStatCnt ⟨answers, unset, log⟩ = (0,
      ⟨answers, unset, log ++ polls phyAddr answers log.length (1001 * frcStatCnt)⟩) := by
  induction frcStatCnt generalizing log with
  | zero =>
      unfold polls
      rw [Nat.mul_zero, List.range'_zero, List.map_nil, List.append_nil]
      rfl
  | succ frcStatCnt inductionHypothesis =>
      have first : LinkDown answers unset log.length := never 0 (Nat.succ_pos frcStatCnt)
      have behind : 1001 * (frcStatCnt + 1) = 1001 + 1001 * frcStatCnt := by omega
      unfold frcStatWait
      rw [phyLinkStatusGet_down first, behind, ← calls_append]
      refine inductionHypothesis fun call less => ?_
      rw [length_calls]
      exact never (call + 1) (Nat.succ_lt_succ less)

/-- The last look is the last transaction. -/
theorem getLast?_polls {count : Nat} :
    (log ++ polls phyAddr answers start (count + 1)).getLast?.bind (readOf 1) =
      acknowledged (answers (start + count)) := by
  have bsr : phyBsr.setWidth 5 = 1 := by decide
  have last : polls phyAddr answers start (count + 1) =
      polls phyAddr answers start count ++
        [⟨readCommand phyAddr phyBsr, answers (start + count)⟩] :=
    polls_append.symm
  rw [last, ← List.append_assoc, List.getLast?_concat]
  exact readOf_readCommand bsr

end BbbEth.Phy
