import BbbEth.Cpsw.Phy.Autoneg

/-!
# What a negotiation says and hears

The transactions of a run: eight to start the negotiation, one for each look at the status, and
one or two for the abilities of the partner.
-/

namespace BbbEth.Phy

variable {answers : Nat → Word} {unset : Nat → Half} {phyAddr : Word}

/-! ## The start -/

/-- The transactions that start a negotiation. -/
def negotiation (phyAddr : Word) (answers : Nat → Word) (enabled adv gigAdv restart : Half) :
    List Transaction :=
  [⟨readCommand phyAddr phyBcr, answers 0⟩, ⟨writeCommand phyAddr phyBcr enabled, answers 1⟩,
    ⟨readCommand phyAddr phyBcr, answers 2⟩, ⟨readCommand phyAddr phyAutonegAdv, answers 3⟩,
    ⟨writeCommand phyAddr phyAutonegAdv adv, answers 4⟩,
    ⟨readCommand phyAddr phy1000BtControl, answers 5⟩,
    ⟨writeCommand phyAddr phy1000BtControl gigAdv, answers 6⟩,
    ⟨writeCommand phyAddr phyBcr restart, answers 7⟩]

section Start

variable {enabled adv gigAdv restart : Half}

/-- The start does not look at the status or the partner. -/
theorem readOf_negotiation {register : BitVec 5} (bcr : register ≠ 0) (advertises : register ≠ 4)
    (control : register ≠ 9) {transaction : Transaction}
    (among : transaction ∈ negotiation phyAddr answers enabled adv gigAdv restart) :
    readOf register transaction = none := by
  unfold negotiation at among
  simp only [List.mem_cons, List.not_mem_nil, or_false] at among
  rcases among with rfl | rfl | rfl | rfl | rfl | rfl | rfl | rfl
  · exact readOf_other bcr.symm
  · exact readOf_writeCommand
  · exact readOf_other bcr.symm
  · exact readOf_other advertises.symm
  · exact readOf_writeCommand
  · exact readOf_other control.symm
  · exact readOf_writeCommand
  · exact readOf_writeCommand

theorem advertised_negotiation :
    latest (writtenTo 4) (negotiation phyAddr answers enabled adv gigAdv restart) = some adv := by
  have bcr : phyBcr.setWidth 5 ≠ 4 := by decide
  have control : phy1000BtControl.setWidth 5 ≠ 4 := by decide
  have advertises : phyAutonegAdv.setWidth 5 = 4 := by decide
  unfold negotiation latest
  simp only [List.filterMap_cons, writtenTo_readCommand, writtenTo_other bcr,
    writtenTo_other control, writtenTo_writeCommand advertises]
  rfl

theorem gigAdvertised_negotiation :
    latest (writtenTo 9) (negotiation phyAddr answers enabled adv gigAdv restart) =
      some gigAdv := by
  have bcr : phyBcr.setWidth 5 ≠ 9 := by decide
  have advertises : phyAutonegAdv.setWidth 5 ≠ 9 := by decide
  have control : phy1000BtControl.setWidth 5 = 9 := by decide
  unfold negotiation latest
  simp only [List.filterMap_cons, writtenTo_readCommand, writtenTo_other bcr,
    writtenTo_other advertises, writtenTo_writeCommand control]
  rfl

end Start

/-- A negotiation is started if both reads of the control register are acknowledged. -/
structure Started (answers : Nat → Word) : Prop where
  first : (acknowledged (answers 0)).isSome = true
  second : (acknowledged (answers 2)).isSome = true

theorem phyAutoNegotiate_started {adv gigAdv : Half} (started : Started answers) :
    ∃ enabled rest gigRest restart,
      phyAutoNegotiate phyAddr adv gigAdv ⟨answers, unset, []⟩ =
        (true, ⟨answers, unset, negotiation phyAddr answers enabled
          (rest &&& ~~~phyAdvValMask ||| adv) (gigRest &&& ~~~phyGigAdvValMask ||| gigAdv)
          restart⟩) := by
  unfold phyAutoNegotiate
  simp only [mdioPhyRegRead_eq]
  rw [if_neg (by exact ne_of_eq_of_ne started.first (by decide)),
    if_neg (by exact ne_of_eq_of_ne started.second (by decide))]
  exact ⟨_, _, _, _, rfl⟩

/-- Otherwise there are reads and writes of the control register only. -/
theorem phyAutoNegotiate_fails {adv gigAdv : Half} (fails : ¬ Started answers) :
    ∃ log, phyAutoNegotiate phyAddr adv gigAdv ⟨answers, unset, []⟩ =
      (false, ⟨answers, unset, log⟩) ∧
        ∀ transaction ∈ log, ∀ register ≠ 0, readOf register transaction = none := by
  unfold phyAutoNegotiate
  simp only [mdioPhyRegRead_eq]
  by_cases first : (acknowledged (answers 0)).isSome = true
  · have second : (acknowledged (answers 2)).isSome = false :=
      Bool.eq_false_iff.mpr fun second => fails ⟨first, second⟩
    rw [if_neg (by exact ne_of_eq_of_ne first (by decide)), if_pos (by exact second)]
    refine ⟨_, rfl, fun transaction among register other => ?_⟩
    rcases List.mem_append.mp among with early | last
    · rcases List.mem_pair.mp early with rfl | rfl
      · exact readOf_other other.symm
      · exact readOf_writeCommand
    · rw [List.mem_singleton.mp last]
      exact readOf_other other.symm
  · rw [if_pos (by exact Bool.eq_false_iff.mpr first)]
    refine ⟨_, rfl, fun transaction among register other => ?_⟩
    rw [List.mem_singleton.mp among]
    exact readOf_other other.symm

/-! ## The wait -/

/-- What a look at the status sees: what is acknowledged, or what the local has. -/
def statusSeen (answers : Nat → Word) (unset : Nat → Half) (index : Nat) : Half :=
  (acknowledged (answers index)).getD (unset index)

/-- The negotiation looks complete. -/
def looksComplete (answers : Nat → Word) (unset : Nat → Half) (index : Nat) : Bool :=
  statusSeen answers unset index &&& phyAutonegStatus = phyAutonegComplete

/-- The transactions for looks at the status. -/
def polls (phyAddr : Word) (answers : Nat → Word) (start count : Nat) : List Transaction :=
  (List.range' start count).map fun index => ⟨readCommand phyAddr phyBsr, answers index⟩

theorem length_polls {start count : Nat} :
    (polls phyAddr answers start count).length = count := by
  unfold polls
  rw [List.length_map, List.length_range']

theorem phyAutoNegStatusGet_eq {log : List Transaction} :
    phyAutoNegStatusGet phyAddr ⟨answers, unset, log⟩ =
      (looksComplete answers unset log.length,
        ⟨answers, unset, log ++ polls phyAddr answers log.length 1⟩) := by
  unfold phyAutoNegStatusGet
  simp only [mdioPhyRegRead_eq]
  rfl

section Wait

variable {autNegCnt : Nat} {log : List Transaction}

theorem length_look : (log ++ polls phyAddr answers log.length 1).length = log.length + 1 := by
  rw [List.length_append, length_polls]

/-- A look and those behind it. -/
theorem look_append (count : Nat) : log ++ polls phyAddr answers log.length 1 ++
    polls phyAddr answers (log ++ polls phyAddr answers log.length 1).length count =
      log ++ polls phyAddr answers log.length (count + 1) := by
  rw [length_look, List.append_assoc]
  rfl

/-- The wait ends at the first look at which the negotiation looks complete. -/
theorem autNegWait_ends {looks : Nat} (within : looks < autNegCnt)
    (complete : looksComplete answers unset (log.length + looks) = true)
    (before : ∀ earlier < looks, looksComplete answers unset (log.length + earlier) = false) :
    autNegWait phyAddr autNegCnt ⟨answers, unset, log⟩ = (autNegCnt - looks,
      ⟨answers, unset, log ++ polls phyAddr answers log.length (looks + 1)⟩) := by
  induction autNegCnt generalizing log looks with
  | zero => exact absurd within (Nat.not_lt_zero _)
  | succ autNegCnt inductionHypothesis =>
      unfold autNegWait
      rw [phyAutoNegStatusGet_eq]
      cases looks with
      | zero =>
          rw [Nat.add_zero] at complete
          rw [complete]
          rfl
      | succ looks =>
          have first : looksComplete answers unset log.length = false :=
            before 0 (Nat.succ_pos looks)
          rw [first, Nat.add_sub_add_right, ← look_append (looks + 1)]
          refine inductionHypothesis (Nat.lt_of_succ_lt_succ within) ?_ fun earlier less => ?_
          · rw [length_look, Nat.add_right_comm]
            exact complete
          · rw [length_look, Nat.add_right_comm]
            exact before (earlier + 1) (Nat.succ_lt_succ less)

/-- Without such a look nothing is left of the count. -/
theorem autNegWait_never
    (never : ∀ look < autNegCnt, looksComplete answers unset (log.length + look) = false) :
    autNegWait phyAddr autNegCnt ⟨answers, unset, log⟩ =
      (0, ⟨answers, unset, log ++ polls phyAddr answers log.length autNegCnt⟩) := by
  induction autNegCnt generalizing log with
  | zero =>
      unfold polls
      rw [List.range'_zero, List.map_nil, List.append_nil]
      rfl
  | succ autNegCnt inductionHypothesis =>
      have first : looksComplete answers unset log.length = false :=
        never 0 (Nat.succ_pos autNegCnt)
      unfold autNegWait
      rw [phyAutoNegStatusGet_eq, first, ← look_append autNegCnt]
      refine inductionHypothesis fun look less => ?_
      rw [length_look, Nat.add_right_comm]
      exact never (look + 1) (Nat.succ_lt_succ less)

end Wait

/-- No look at the status says anything about another register. -/
theorem readOf_polls {register : BitVec 5} (other : register ≠ 1) {start count : Nat}
    {transaction : Transaction} (among : transaction ∈ polls phyAddr answers start count) :
    readOf register transaction = none := by
  rcases List.mem_map.mp among with ⟨index, _, rfl⟩
  exact readOf_other other.symm

theorem writtenTo_polls {register : BitVec 5} {start count : Nat} {transaction : Transaction}
    (among : transaction ∈ polls phyAddr answers start count) :
    writtenTo register transaction = none := by
  rcases List.mem_map.mp among with ⟨index, _, rfl⟩
  exact writtenTo_readCommand

/-! ## The partner -/

/-- The transactions for the abilities of the partner. -/
def questions (phyAddr : Word) (answers : Nat → Word) (gbps : Half) (start : Nat) :
    List Transaction :=
  ⟨readCommand phyAddr phyLinkPartnerAblty, answers start⟩ ::
    if gbps ≠ 0 then [⟨readCommand phyAddr phy1000BtStatus, answers (start + 1)⟩] else []

/-- What is taken for the partner's ability of 1000 Mbps. -/
def gbpsSeen (answers : Nat → Word) (gbps : Half) (index : Nat) : Half :=
  if gbps ≠ 0 then (acknowledged (answers index)).getD gbps else gbps

/-- Two transactions. -/
theorem transact_transact {log : List Transaction} {first second : Word} :
    (Bus.transact ⟨answers, unset, log⟩ first).transact second = ⟨answers, unset,
      log ++ [⟨first, answers log.length⟩, ⟨second, answers (log.length + 1)⟩]⟩ := by
  unfold Bus.transact Bus.answer
  rw [List.append_assoc, List.length_append]
  rfl

theorem phyPartnerAbilityGet_eq {ptner gbps : Half} {log : List Transaction} :
    ∃ status, phyPartnerAbilityGet phyAddr ptner gbps ⟨answers, unset, log⟩ =
      (status, (acknowledged (answers log.length)).getD ptner,
        gbpsSeen answers gbps (log.length + 1),
        ⟨answers, unset, log ++ questions phyAddr answers gbps log.length⟩) := by
  unfold phyPartnerAbilityGet gbpsSeen questions
  simp only [mdioPhyRegRead_eq]
  by_cases asked : gbps ≠ 0
  · have later : (Bus.transact ⟨answers, unset, log⟩ (readCommand phyAddr
        phyLinkPartnerAblty)).answer = answers (log.length + 1) := by
      unfold Bus.transact Bus.answer
      rw [List.length_append]
      rfl
    refine ⟨(acknowledged (answers log.length)).isSome ||
      (acknowledged (answers (log.length + 1))).isSome, ?_⟩
    rw [if_pos asked, if_pos asked, if_pos asked, transact_transact, later]
    rfl
  · rw [if_neg asked, if_neg asked, if_neg asked]
    exact ⟨_, rfl⟩

section Questions

variable {gbps : Half} {start : Nat}

theorem readOf_questions_status {transaction : Transaction}
    (among : transaction ∈ questions phyAddr answers gbps start) :
    readOf 1 transaction = none := by
  have partner : phyLinkPartnerAblty.setWidth 5 ≠ 1 := by decide
  have gigabit : phy1000BtStatus.setWidth 5 ≠ 1 := by decide
  unfold questions at among
  rcases List.mem_cons.mp among with rfl | rest
  · exact readOf_other partner
  · split at rest
    · rw [List.mem_singleton.mp rest]
      exact readOf_other gigabit
    · cases rest

theorem writtenTo_questions {register : BitVec 5} {transaction : Transaction}
    (among : transaction ∈ questions phyAddr answers gbps start) :
    writtenTo register transaction = none := by
  unfold questions at among
  rcases List.mem_cons.mp among with rfl | rest
  · exact writtenTo_readCommand
  · split at rest
    · rw [List.mem_singleton.mp rest]
      exact writtenTo_readCommand
    · cases rest

theorem partner_questions : latest (readOf 5) (questions phyAddr answers gbps start) =
    acknowledged (answers start) := by
  have partner : phyLinkPartnerAblty.setWidth 5 = 5 := by decide
  have gigabit : phy1000BtStatus.setWidth 5 ≠ 5 := by decide
  unfold questions
  rw [← List.singleton_append, latest_append, latest_singleton, readOf_readCommand partner,
    latest_none, Option.none_or]
  intro transaction among
  split at among
  · rw [List.mem_singleton.mp among]
    exact readOf_other gigabit
  · cases among

theorem gigPartner_questions : latest (readOf 10) (questions phyAddr answers gbps start) =
    if gbps ≠ 0 then acknowledged (answers (start + 1)) else none := by
  have partner : phyLinkPartnerAblty.setWidth 5 ≠ 10 := by decide
  have gigabit : phy1000BtStatus.setWidth 5 = 10 := by decide
  unfold questions
  rw [← List.singleton_append, latest_append, latest_singleton, readOf_other partner,
    Option.or_none]
  split
  · rw [latest_singleton, readOf_readCommand gigabit]
  · rfl

end Questions

end BbbEth.Phy
