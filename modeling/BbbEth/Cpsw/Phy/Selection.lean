import BbbEth.Cpsw.Phy.Negotiation

/-!
# The mode of a link

What has been advertised and what the partner is able to do is in the transactions of a run.  The
highest mode that both have is to be in MACCONTROL behind a negotiation that has been reported
complete; otherwise there is an error and MACCONTROL stays.
-/

namespace BbbEth.Phy

/-! ## Common modes -/

/-- The modes of a link. -/
inductive Mode where
  | gigFull
  | fastFull
  | fastHalf
  | slowFull
  | slowHalf
  deriving DecidableEq

/-- The modes from the highest. -/
def Mode.all : List Mode := [.gigFull, .fastFull, .fastHalf, .slowFull, .slowHalf]

/-- The bits of a mode in MACCONTROL. -/
def Mode.bits : Mode → Word
  | .gigFull => cpswSliverGigFullDuplex
  | .fastFull => cpswSliverNonGigFullDuplex
  | .fastHalf => cpswSliverNonGigHalfDuplex
  | .slowFull => cpswSliverInband ||| cpswSliverNonGigFullDuplex
  | .slowHalf => cpswSliverInband ||| cpswSliverNonGigHalfDuplex

/-- The bits of MACCONTROL for the speed, the duplex and the in-band mode. -/
def modeMask : Word := macControlGig ||| macControlFullDuplex ||| macControlExtEn

/-- What is advertised, and what the partner is able to do. -/
structure Abilities where
  adv : Half
  gigAdv : Half
  partner : Half
  gigPartner : Half

namespace Abilities

/-- Both have an ability. -/
def both (abilities : Abilities) (ability : Half) : Bool :=
  abilities.adv &&& ability ≠ 0 ∧ abilities.partner &&& ability ≠ 0

/-- Both have a mode. -/
def common (abilities : Abilities) : Mode → Bool
  | .gigFull => abilities.gigAdv &&& phy1000BtFd ≠ 0 ∧
      abilities.gigPartner &&& phyLinkPartner1000BtFd ≠ 0
  | .fastFull => abilities.both phy100BtxFd
  | .fastHalf => abilities.both phy100Btx
  | .slowFull => abilities.both phy10BtFd
  | .slowHalf => abilities.both phy10Bt

/-- The highest mode that both have. -/
def highest (abilities : Abilities) : Option Mode := Mode.all.find? abilities.common

end Abilities

/-! ## What a run says -/

/-- A status that has been acknowledged says that the negotiation is complete. -/
def Complete (log : List Transaction) : Prop :=
  ∃ transaction ∈ log, ∃ data, readOf 1 transaction = some data ∧
    data &&& phyAutonegStatus = phyAutonegComplete

/-- The abilities that have been written and that have been acknowledged last. -/
def abilities (log : List Transaction) : Abilities where
  adv := (latest (writtenTo 4) log).getD 0
  gigAdv := (latest (writtenTo 9) log).getD 0
  partner := (latest (readOf 5) log).getD 0
  gigPartner := (latest (readOf 10) log).getD 0

/-- There is no error exactly if the negotiation has been reported complete and there is a common
mode, MACCONTROL has the bits of the highest then, and stays otherwise. -/
structure Selected (err : Err) (log : List Transaction) (before after : Word) : Prop where
  accepts : err = errOk ↔ Complete log ∧ (abilities log).highest.isSome = true
  sets : err = errOk → ∀ mode, (abilities log).highest = some mode →
    after = before &&& ~~~modeMask ||| mode.bits
  stays : err ≠ errOk → after = before

/-- `cpswif_autoneg_config` selects the mode. -/
def Selects (port : Port) (answers : Nat → Word) (unset : Nat → Half) (macControl : Word) : Prop :=
  let (err, bus, after) := cpswifAutonegConfig port ⟨answers, unset, []⟩ macControl
  Selected err bus.log macControl after

/-! ## The condition -/

variable {port : Port} {answers : Nat → Word} {unset : Nat → Half} {macControl : Word}
variable {looks : Nat}

/-- What is advertised, and what stands for the partner's ability of 1000 Mbps before it is asked:
the partner is asked for it exactly if it is advertised. -/
structure Offer where
  adv : Half
  gigAdv : Half
  gbps : Half
  gigabit : gbps = 0 ∧ gigAdv = 0 ∨ gbps = 1 ∧ gigAdv = phy1000BtFd

/-- The offer of `cpswif_autoneg_config`. -/
def Port.offer (port : Port) : Offer where
  adv := advVal
  gigAdv := port.gigAdvVal
  gbps := port.gbps
  gigabit := by
    unfold Port.gbps Port.gigAdvVal
    by_cases gigabit : port.phyGbps = 1
    · exact .inr ⟨if_pos gigabit, if_pos gigabit⟩
    · exact .inl ⟨if_neg gigabit, if_neg gigabit⟩

/-- The abilities of both for an offer, where the partner is asked after some looks. -/
def Offer.heard (offer : Offer) (answers : Nat → Word) (looks : Nat) : Abilities where
  adv := offer.adv
  gigAdv := offer.gigAdv
  partner := (acknowledged (answers (9 + looks))).getD 0
  gigPartner := if offer.gbps ≠ 0 then (acknowledged (answers (10 + looks))).getD 0 else 0

/-- The negotiation is started, and looks complete after some looks at the status. -/
structure Ends (answers : Nat → Word) (unset : Nat → Half) (looks : Nat) : Prop where
  started : Started answers
  within : looks < 200
  complete : looksComplete answers unset (8 + looks) = true
  before : ∀ earlier < looks, looksComplete answers unset (8 + earlier) = false

/-- The abilities of both, where the partner is asked after some looks. -/
def Port.offered (port : Port) (answers : Nat → Word) (looks : Nat) : Abilities where
  adv := advVal
  gigAdv := port.gigAdvVal
  partner := (acknowledged (answers (9 + looks))).getD 0
  gigPartner := if port.phyGbps = 1 then (acknowledged (answers (10 + looks))).getD 0 else 0

/-- The status that looks complete is acknowledged, there is a common mode, and the in-band mode
is not set before unless it is part of the mode. -/
structure Agreed (port : Port) (answers : Nat → Word) (macControl : Word) (looks : Nat) :
    Prop where
  status : (acknowledged (answers (8 + looks))).isSome = true
  mode : (port.offered answers looks).highest.isSome = true
  inband : ∀ mode, (port.offered answers looks).highest = some mode →
    macControl &&& cpswSliverInband ≠ 0 → mode.bits &&& cpswSliverInband ≠ 0

theorem Port.heard_offer : port.offer.heard answers looks = port.offered answers looks := by
  have asked : port.gbps ≠ 0 ↔ port.phyGbps = 1 := by
    unfold Port.gbps
    by_cases gigabit : port.phyGbps = 1
    · exact iff_of_true (ne_of_eq_of_ne (if_pos gigabit) (by decide)) gigabit
    · exact iff_of_false (fun differs => differs (if_neg gigabit)) gigabit
  unfold Offer.heard Port.offered
  change Abilities.mk _ _ _ (if port.gbps ≠ 0 then _ else _) = _
  simp only [asked]
  rfl

theorem Ends.unique {other : Nat} (ends : Ends answers unset looks)
    (second : Ends answers unset other) : looks = other := by
  rcases Nat.lt_trichotomy looks other with less | same | less
  · cases ends.complete.symm.trans (second.before looks less)
  · exact same
  · cases second.complete.symm.trans (ends.before other less)

/-! ## Bits of abilities -/

section Bits

variable {ability value : Half}

/-- A bit of a word. -/
theorem and_bit_ne_zero {bit : Nat} (single : ability = BitVec.twoPow 16 bit) (inside : bit < 16) :
    value &&& ability ≠ 0 ↔ value.getLsbD bit = true := by
  rw [single, BitVec.and_twoPow]
  cases value.getLsbD bit with
  | true =>
      refine iff_of_true (fun zero => ?_) rfl
      have bits := congrArg (BitVec.getLsbD · bit) zero
      simp [inside] at bits
  | false => exact iff_of_false (fun differs => differs rfl) Bool.false_ne_true

/-- Both words have a bit. -/
theorem and_and_ne_zero {other : Half} {bit : Nat} (single : ability = BitVec.twoPow 16 bit)
    (inside : bit < 16) :
    value &&& other &&& ability ≠ 0 ↔ value &&& ability ≠ 0 ∧ other &&& ability ≠ 0 := by
  rw [and_bit_ne_zero single inside, and_bit_ne_zero single inside, and_bit_ne_zero single inside,
    BitVec.getLsbD_and, Bool.and_eq_true]

/-- The 1 that stands for an ability that is not known has none of the bits. -/
theorem getD_and {heard : Option Half} (apart : 1 &&& ability = 0) :
    heard.getD 1 &&& ability = heard.getD 0 &&& ability := by
  cases heard with
  | none =>
      rw [Option.getD_none, Option.getD_none, apart]
      exact BitVec.zero_and.symm
  | some value => rfl

/-- A mask that is cleared and set again has the bits that are set. -/
theorem masked_and {rest mask : Half} (inside : ~~~mask &&& ability = 0) :
    (rest &&& ~~~mask ||| value) &&& ability = value &&& ability := by
  rw [BitVec.and_or_distrib_right, BitVec.and_assoc, inside]
  exact (congrArg (· ||| value &&& ability) BitVec.and_zero).trans BitVec.zero_or

end Bits

/-! ## Modes and words -/

/-- Abilities that agree on the bits have the same modes. -/
theorem highest_congr {first second : Abilities}
    (same : ∀ mode, first.common mode = second.common mode) : first.highest = second.highest :=
  congrArg Mode.all.find? (funext same)

/-- The word for the abilities, if the partner's bits are those of the abilities. -/
theorem transferMode_eq {abilities : Abilities} {adv partner gbps : Half}
    (gigabit : gbps &&& phyLinkPartner1000BtFd ≠ 0 ↔ abilities.common .gigFull = true)
    (both : ∀ ability bit, ability = BitVec.twoPow 16 bit → bit < 16 → 1 &&& ability = 0 →
      (adv &&& partner &&& ability ≠ 0 ↔ abilities.both ability = true)) :
    transferMode adv partner gbps = abilities.highest.elim 0 Mode.bits := by
  have fastFull : _ ↔ abilities.common .fastFull = true :=
    both phy100BtxFd 8 (by decide) (by decide) (by decide)
  have fastHalf : _ ↔ abilities.common .fastHalf = true :=
    both phy100Btx 7 (by decide) (by decide) (by decide)
  have slowFull : _ ↔ abilities.common .slowFull = true :=
    both phy10BtFd 6 (by decide) (by decide) (by decide)
  have slowHalf : _ ↔ abilities.common .slowHalf = true :=
    both phy10Bt 5 (by decide) (by decide) (by decide)
  unfold transferMode Abilities.highest Mode.all
  simp only [gigabit, fastFull, fastHalf, slowFull, slowHalf, List.find?_cons]
  cases abilities.common .gigFull with
  | true => rfl
  | false =>
      cases abilities.common .fastFull with
      | true => rfl
      | false =>
          cases abilities.common .fastHalf with
          | true => rfl
          | false =>
              cases abilities.common .slowFull with
              | true => rfl
              | false =>
                  cases abilities.common .slowHalf with
                  | true => rfl
                  | false => rfl

/-- The word that is set is that of the highest mode that both have. -/
theorem Offer.transferMode_heard {offer : Offer} :
    transferMode offer.adv ((acknowledged (answers (9 + looks))).getD 1)
      (gbpsSeen answers offer.gbps (10 + looks)) =
        (offer.heard answers looks).highest.elim 0 Mode.bits := by
  refine transferMode_eq ?_ fun ability bit single inside apart => ?_
  · change _ ↔ decide (_ ∧ _) = true
    rw [decide_eq_true_iff]
    unfold Offer.heard gbpsSeen
    rcases offer.gigabit with ⟨zero, none⟩ | ⟨one, some⟩
    · simp only [zero, none]
      rw [if_neg (by decide)]
      decide
    · simp only [one, some]
      rw [if_pos (by decide), if_pos (by decide), getD_and (by decide)]
      exact (and_iff_right (by decide)).symm
  · unfold Abilities.both Offer.heard
    rw [decide_eq_true_iff, and_and_ne_zero single inside, getD_and apart]

theorem inband_iff {word : Word} : word &&& cpswSliverInband ≠ 0 ↔ word.getLsbD 18 = true := by
  have bit : cpswSliverInband = BitVec.twoPow 32 18 := by decide
  rw [bit, BitVec.and_twoPow]
  cases word.getLsbD 18 with
  | true => exact iff_of_true (by decide) rfl
  | false => exact iff_of_false (fun differs => differs rfl) (by decide)

/-- MACCONTROL has exactly the bits of a mode if the in-band bit was clear or is to be set. -/
theorem set_iff {mode : Word} : cpswSlTransferModeSet mode macControl =
    macControl &&& ~~~modeMask ||| mode ↔
      (macControl &&& cpswSliverInband ≠ 0 → mode &&& cpswSliverInband ≠ 0) := by
  rw [inband_iff, inband_iff]
  unfold cpswSlTransferModeSet
  constructor
  · intro same inband
    have bit := congrArg (BitVec.getLsbD · 18) same
    have clear : modeMask.getLsbD 18 = true := by decide
    have stays : (macControlGig ||| macControlFullDuplex).getLsbD 18 = false := by decide
    simp only [BitVec.getLsbD_or, BitVec.getLsbD_and, BitVec.getLsbD_not, inband, clear,
      stays] at bit
    simpa using bit
  · intro inband
    apply BitVec.eq_of_getLsbD_eq
    intro index inside
    rw [BitVec.getLsbD_or, BitVec.getLsbD_or, BitVec.getLsbD_and, BitVec.getLsbD_and]
    by_cases last : index = 18
    · subst last
      cases set : mode.getLsbD 18 with
      | true => rw [Bool.or_true, Bool.or_true]
      | false =>
          have clear : macControl.getLsbD 18 = false :=
            Bool.eq_false_iff.mpr fun holds => absurd (inband holds) (Bool.eq_false_iff.mp set)
          rw [clear, Bool.false_and, Bool.false_and]
    · have extEn : macControlExtEn.getLsbD index = false := by
        rw [show macControlExtEn = BitVec.twoPow 32 18 by decide, BitVec.getLsbD_twoPow]
        exact decide_eq_false fun same => last same.symm
      have same : modeMask.getLsbD index =
          (macControlGig ||| macControlFullDuplex).getLsbD index := by
        unfold modeMask
        rw [BitVec.getLsbD_or, extEn, Bool.or_false]
      rw [BitVec.getLsbD_not, BitVec.getLsbD_not, same]

/-! ## Runs -/

section Runs

variable {phyAddr : Word} {enabled adv gigAdv restart gbps : Half}

/-- The transactions of a run that gets to the partner. -/
def conversation (phyAddr : Word) (answers : Nat → Word)
    (enabled adv gigAdv restart gbps : Half) (looks : Nat) : List Transaction :=
  negotiation phyAddr answers enabled adv gigAdv restart ++
    polls phyAddr answers 8 (looks + 1) ++ questions phyAddr answers gbps (9 + looks)

/-- A look that is acknowledged and complete. -/
theorem look_of_complete {count : Nat} (complete : Complete (polls phyAddr answers 8 count)) :
    ∃ look < count, looksComplete answers unset (8 + look) = true ∧
      (acknowledged (answers (8 + look))).isSome = true := by
  rcases complete with ⟨transaction, among, data, heard, complete⟩
  rcases List.mem_map.mp among with ⟨index, inside, rfl⟩
  rw [readOf_readCommand (by decide)] at heard
  have most := (List.mem_range'_1.mp inside).2
  obtain ⟨look, rfl⟩ := Nat.exists_eq_add_of_le (List.mem_range'_1.mp inside).1
  refine ⟨look, by omega, ?_, Option.isSome_iff_exists.mpr ⟨data, heard⟩⟩
  unfold looksComplete statusSeen
  rw [heard]
  exact decide_eq_true complete

theorem complete_append {log more : List Transaction} :
    Complete (log ++ more) ↔ Complete log ∨ Complete more := by
  unfold Complete
  simp only [List.mem_append, or_and_right, exists_or]

/-- Without a look at the status nothing is complete. -/
theorem not_complete {log : List Transaction}
    (without : ∀ transaction ∈ log, readOf 1 transaction = none) : ¬ Complete log := by
  rintro ⟨transaction, among, data, heard, _⟩
  cases (without transaction among).symm.trans heard

theorem complete_conversation (ends : Ends answers unset looks) :
    Complete (conversation phyAddr answers enabled adv gigAdv restart gbps looks) ↔
      (acknowledged (answers (8 + looks))).isSome = true := by
  have start : ¬ Complete (negotiation phyAddr answers enabled adv gigAdv restart) :=
    not_complete fun _ => readOf_negotiation (by decide) (by decide) (by decide)
  have partner : ¬ Complete (questions phyAddr answers gbps (9 + looks)) :=
    not_complete fun _ => readOf_questions_status
  unfold conversation
  rw [complete_append, complete_append, or_iff_left partner, or_iff_right start]
  constructor
  · intro complete
    obtain ⟨look, less, seen, status⟩ : ∃ look < looks + 1, looksComplete answers unset
        (8 + look) = true ∧ (acknowledged (answers (8 + look))).isSome = true :=
      look_of_complete complete
    have last : look = looks := by
      by_contra other
      cases seen.symm.trans (ends.before look (by omega))
    rwa [last] at status
  · intro status
    rcases Option.isSome_iff_exists.mp status with ⟨data, heard⟩
    refine ⟨_, List.mem_map_of_mem (List.mem_range'_1.mpr ⟨Nat.le_add_right 8 looks, by omega⟩),
      data, (readOf_readCommand (by decide)).trans heard, ?_⟩
    have complete := ends.complete
    unfold looksComplete statusSeen at complete
    rw [heard] at complete
    exact of_decide_eq_true complete

/-- What was said of a register at the start is not said again. -/
theorem written_conversation {register : BitVec 5} :
    latest (writtenTo register)
        (conversation phyAddr answers enabled adv gigAdv restart gbps looks) =
      latest (writtenTo register)
        (negotiation phyAddr answers enabled adv gigAdv restart) := by
  unfold conversation
  rw [latest_append, latest_append, latest_none fun _ => writtenTo_questions,
    latest_none fun _ => writtenTo_polls, Option.none_or, Option.none_or]

/-- The partner is heard at the end only. -/
theorem heard_conversation {register : BitVec 5} (status : register ≠ 1) (bcr : register ≠ 0)
    (advertises : register ≠ 4) (control : register ≠ 9) :
    latest (readOf register)
        (conversation phyAddr answers enabled adv gigAdv restart gbps looks) =
      latest (readOf register) (questions phyAddr answers gbps (9 + looks)) := by
  unfold conversation
  rw [latest_append, latest_append,
    latest_none fun _ => readOf_negotiation bcr advertises control,
    latest_none fun _ => readOf_polls status, Option.none_or, Option.or_none]

/-- Other bits in the registers of what is advertised do not matter. -/
theorem highest_told {told heard : Abilities} {rest gigRest : Half}
    (adv : told.adv = rest &&& ~~~phyAdvValMask ||| heard.adv)
    (gigAdv : told.gigAdv = gigRest &&& ~~~phyGigAdvValMask ||| heard.gigAdv)
    (partner : told.partner = heard.partner) (gigPartner : told.gigPartner = heard.gigPartner) :
    told.highest = heard.highest := by
  have both : ∀ ability, ~~~phyAdvValMask &&& ability = 0 →
      told.both ability = heard.both ability := by
    intro ability inside
    unfold Abilities.both
    rw [adv, partner, masked_and inside]
  refine highest_congr fun mode => ?_
  cases mode with
  | gigFull =>
      change decide (_ ∧ _) = decide (_ ∧ _)
      rw [gigAdv, gigPartner, masked_and (by decide)]
  | fastFull => exact both phy100BtxFd (by decide)
  | fastHalf => exact both phy100Btx (by decide)
  | slowFull => exact both phy10BtFd (by decide)
  | slowHalf => exact both phy10Bt (by decide)

/-- The highest mode of a run is that of what is heard. -/
theorem highest_conversation {offer : Offer} {rest gigRest : Half} :
    (abilities (conversation phyAddr answers enabled (rest &&& ~~~phyAdvValMask ||| offer.adv)
      (gigRest &&& ~~~phyGigAdvValMask ||| offer.gigAdv) restart offer.gbps looks)).highest =
        (offer.heard answers looks).highest := by
  apply highest_told
  · exact congrArg (Option.getD · 0) (written_conversation.trans advertised_negotiation)
  · exact congrArg (Option.getD · 0) (written_conversation.trans gigAdvertised_negotiation)
  · change (latest (readOf 5) (conversation ..)).getD 0 = _
    rw [heard_conversation (by decide) (by decide) (by decide) (by decide), partner_questions]
    rfl
  · change (latest (readOf 10) (conversation ..)).getD 0 = _
    rw [heard_conversation (by decide) (by decide) (by decide) (by decide), gigPartner_questions]
    unfold Offer.heard
    by_cases asked : offer.gbps ≠ 0
    · simp only [if_pos asked]
      rw [Nat.add_right_comm]
    · simp only [if_neg asked]
      rfl

end Runs

/-- A run in which no routine fails. -/
theorem cpswifAutonegConfig_eq {bus started waited asked : Bus} {autNegCnt : Nat} {status : Bool}
    {partner gbps : Half}
    (starts : phyAutoNegotiate port.phyAddr advVal port.gigAdvVal bus = (true, started))
    (waits : autNegWait port.phyAddr 200 started = (autNegCnt, waited)) (left : autNegCnt ≠ 0)
    (asks : phyPartnerAbilityGet port.phyAddr 1 port.gbps waited =
      (status, partner, gbps, asked)) :
    cpswifAutonegConfig port bus macControl =
      (errOk, asked, cpswSlTransferModeSet (transferMode advVal partner gbps) macControl) := by
  unfold cpswifAutonegConfig
  rw [starts]
  simp only [waits, asks]
  rw [if_pos trivial, if_pos left]

/-- The transactions of a negotiation that gets to the partner. -/
def Offer.Conversation (offer : Offer) (phyAddr : Word) (answers : Nat → Word) (looks : Nat)
    (log : List Transaction) : Prop :=
  ∃ enabled rest gigRest restart, log = conversation phyAddr answers enabled
    (rest &&& ~~~phyAdvValMask ||| offer.adv) (gigRest &&& ~~~phyGigAdvValMask ||| offer.gigAdv)
    restart offer.gbps looks

theorem Offer.Conversation.complete {offer : Offer} {phyAddr : Word} {log : List Transaction}
    (said : offer.Conversation phyAddr answers looks log) (ends : Ends answers unset looks) :
    Complete log ↔ (acknowledged (answers (8 + looks))).isSome = true := by
  obtain ⟨enabled, rest, gigRest, restart, rfl⟩ := said
  exact complete_conversation ends

theorem Offer.Conversation.highest {offer : Offer} {phyAddr : Word} {log : List Transaction}
    (said : offer.Conversation phyAddr answers looks log) :
    (abilities log).highest = (offer.heard answers looks).highest := by
  obtain ⟨enabled, rest, gigRest, restart, rfl⟩ := said
  exact highest_conversation

/-- The wait and the questions behind the start of a negotiation. -/
theorem Offer.negotiates (offer : Offer) (phyAddr : Word) (ends : Ends answers unset looks) :
    ∃ started waited autNegCnt status log,
      phyAutoNegotiate phyAddr offer.adv offer.gigAdv ⟨answers, unset, []⟩ = (true, started) ∧
      autNegWait phyAddr 200 started = (autNegCnt, waited) ∧ autNegCnt ≠ 0 ∧
      phyPartnerAbilityGet phyAddr 1 offer.gbps waited =
        (status, (acknowledged (answers (9 + looks))).getD 1,
          gbpsSeen answers offer.gbps (10 + looks), ⟨answers, unset, log⟩) ∧
      offer.Conversation phyAddr answers looks log := by
  obtain ⟨enabled, rest, gigRest, restart, starts⟩ : ∃ enabled rest gigRest restart,
      phyAutoNegotiate phyAddr offer.adv offer.gigAdv ⟨answers, unset, []⟩ = (true, _) :=
    phyAutoNegotiate_started ends.started
  generalize start : negotiation phyAddr answers enabled (rest &&& ~~~phyAdvValMask ||| offer.adv)
    (gigRest &&& ~~~phyGigAdvValMask ||| offer.gigAdv) restart = log at starts
  have eight : log.length = 8 := by
    rw [← start]
    rfl
  have waits : autNegWait phyAddr 200 ⟨answers, unset, log⟩ = (200 - looks,
      ⟨answers, unset, log ++ polls phyAddr answers log.length (looks + 1)⟩) := by
    refine autNegWait_ends ends.within ?_ ?_
    · rw [eight]
      exact ends.complete
    · rw [eight]
      exact ends.before
  rw [eight] at waits
  have length : (log ++ polls phyAddr answers 8 (looks + 1)).length = 9 + looks := by
    rw [List.length_append, length_polls, eight]
    omega
  obtain ⟨status, asks⟩ : ∃ status, phyPartnerAbilityGet phyAddr 1 offer.gbps
      ⟨answers, unset, log ++ polls phyAddr answers 8 (looks + 1)⟩ = (status, _) :=
    phyPartnerAbilityGet_eq
  rw [length, Nat.add_right_comm] at asks
  refine ⟨_, _, _, status, _, starts, waits, Nat.sub_ne_zero_of_lt ends.within, asks, enabled,
    rest, gigRest, restart, ?_⟩
  rw [← start]
  rfl

/-- A run whose negotiation looks complete sets the mode. -/
theorem run_ends (ends : Ends answers unset looks) : ∃ log,
    cpswifAutonegConfig port ⟨answers, unset, []⟩ macControl = (errOk, ⟨answers, unset, log⟩,
      cpswSlTransferModeSet ((port.offered answers looks).highest.elim 0 Mode.bits)
        macControl) ∧
      (Complete log ↔ (acknowledged (answers (8 + looks))).isSome = true) ∧
      (abilities log).highest = (port.offered answers looks).highest := by
  obtain ⟨started, waited, autNegCnt, status, log, starts, waits, left, asks, said⟩ :=
    port.offer.negotiates port.phyAddr ends
  rw [← Port.heard_offer]
  refine ⟨log, ?_, said.complete ends, said.highest⟩
  rw [cpswifAutonegConfig_eq starts waits left asks, ← Offer.transferMode_heard]
  rfl

/-- The first look that is complete ends the wait. -/
theorem never_complete (started : Started answers) (never : ∀ looks, ¬ Ends answers unset looks) :
    ∀ look < 200, looksComplete answers unset (8 + look) = false := by
  intro look
  induction look using Nat.strong_induction_on with
  | _ look inductionHypothesis =>
      intro within
      refine Bool.eq_false_iff.mpr fun complete => never look ⟨started, within, complete, ?_⟩
      exact fun earlier less => inductionHypothesis earlier less (less.trans within)

/-- A wait that never sees the negotiation complete. -/
theorem Offer.waits (offer : Offer) (phyAddr : Word) (started : Started answers)
    (never : ∀ looks, ¬ Ends answers unset looks) :
    ∃ begun log, phyAutoNegotiate phyAddr offer.adv offer.gigAdv ⟨answers, unset, []⟩ =
        (true, begun) ∧
      autNegWait phyAddr 200 begun = (0, ⟨answers, unset, log⟩) ∧ ¬ Complete log ∧
      ∀ register : BitVec 5, register ≠ 0 → register ≠ 1 → register ≠ 4 → register ≠ 9 →
        latest (readOf register) log = none := by
  obtain ⟨enabled, rest, gigRest, restart, starts⟩ : ∃ enabled rest gigRest restart,
      phyAutoNegotiate phyAddr offer.adv offer.gigAdv ⟨answers, unset, []⟩ = (true, _) :=
    phyAutoNegotiate_started started
  have none := never_complete started never
  refine ⟨_, _, starts, autNegWait_never none, ?_, fun register bcr status advertises control => ?_⟩
  · rw [complete_append, not_or]
    refine ⟨not_complete fun _ => readOf_negotiation (by decide) (by decide) (by decide),
      fun complete => ?_⟩
    obtain ⟨look, less, seen, _⟩ : ∃ look < 200, looksComplete answers unset (8 + look) = true ∧
        (acknowledged (answers (8 + look))).isSome = true := look_of_complete complete
    cases seen.symm.trans (none look less)
  · rw [latest_append, latest_none fun _ => readOf_polls status,
      latest_none fun _ => readOf_negotiation bcr advertises control]
    rfl

/-- Any other run gives an error. -/
theorem run_fails (never : ∀ looks, ¬ Ends answers unset looks) : ∃ log,
    cpswifAutonegConfig port ⟨answers, unset, []⟩ macControl =
      (errConn, ⟨answers, unset, log⟩, macControl) ∧ ¬ Complete log := by
  by_cases started : Started answers
  · obtain ⟨begun, log, starts, waits, incomplete, _⟩ :=
      port.offer.waits port.phyAddr started never
    refine ⟨log, ?_, incomplete⟩
    change phyAutoNegotiate port.phyAddr advVal port.gigAdvVal _ = _ at starts
    unfold cpswifAutonegConfig
    rw [starts]
    simp only [waits]
    rw [if_pos trivial, if_neg (not_not.mpr rfl)]
  · obtain ⟨log, fails, quiet⟩ : ∃ log, phyAutoNegotiate port.phyAddr advVal port.gigAdvVal
        ⟨answers, unset, []⟩ = (false, ⟨answers, unset, log⟩) ∧ _ :=
      phyAutoNegotiate_fails started
    refine ⟨log, ?_, not_complete fun transaction among => quiet transaction among 1 (by decide)⟩
    unfold cpswifAutonegConfig
    rw [fails]
    rfl

/-! ## The selection -/

/-- A run that ends selects the mode exactly if both agree. -/
theorem agreed_iff (ends : Ends answers unset looks) :
    Selects port answers unset macControl ↔ Agreed port answers macControl looks := by
  obtain ⟨log, runs, complete, same⟩ : ∃ log, cpswifAutonegConfig port ⟨answers, unset, []⟩
      macControl = _ ∧ _ := run_ends ends
  unfold Selects
  rw [runs]
  constructor
  · rintro ⟨accepts, sets, _⟩
    have both := accepts.mp rfl
    rw [same] at both sets
    refine ⟨complete.mp both.1, both.2, fun mode highest => ?_⟩
    have exact := sets rfl mode highest
    rw [highest] at exact
    exact set_iff.mp exact
  · rintro ⟨status, common, inband⟩
    refine ⟨iff_of_true rfl ⟨complete.mpr status, same ▸ common⟩, fun _ mode highest => ?_,
      fun other => absurd rfl other⟩
    rw [same] at highest
    rw [highest]
    exact set_iff.mpr (inband mode highest)

/-- The mode is selected exactly if both agree where the negotiation looks complete. -/
theorem selects_iff (port : Port) (answers : Nat → Word) (unset : Nat → Half)
    (macControl : Word) : Selects port answers unset macControl ↔
      ∀ looks, Ends answers unset looks → Agreed port answers macControl looks := by
  by_cases some : ∃ looks, Ends answers unset looks
  · rcases some with ⟨looks, ends⟩
    rw [agreed_iff ends]
    constructor
    · intro agreed other second
      rwa [← ends.unique second]
    · exact fun all => all looks ends
  · have never : ∀ looks, ¬ Ends answers unset looks := not_exists.mp some
    refine iff_of_true ?_ fun looks ends => absurd ends (never looks)
    rcases run_fails never with ⟨log, runs, incomplete⟩
    unfold Selects
    rw [runs]
    refine ⟨iff_of_false (by decide) fun both => incomplete both.1, fun ok => ?_, fun _ => rfl⟩
    exact absurd ok (by decide)

/-! ## No common mode -/

/-- All reads are acknowledged, the negotiation is complete, and the partner has no ability. -/
def silent (index : Nat) : Word := useraccess0Ack ||| if index = 8 then 0x20 else 0

theorem not_selects : ¬ ∀ (port : Port) (answers : Nat → Word) (unset : Nat → Half)
    (macControl : Word), Selects port answers unset macControl := by
  intro all
  have ends : Ends silent (fun _ => 0) 0 :=
    ⟨⟨by decide, by decide⟩, by decide, by decide, fun _ less => absurd less (Nat.not_lt_zero _)⟩
  have agreed := (agreed_iff ends).mp (all ⟨0, 0⟩ silent (fun _ => 0) 0)
  exact absurd agreed.mode (by decide)

end BbbEth.Phy
