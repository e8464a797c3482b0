import BbbEth.Mmc.Initialisation
import Mathlib.Data.List.TakeWhile

/-!
# The outcome of an initialisation

`MMCCardInit` polls for the power-up bit at most 65536 times.  The counter of the loop is tested
behind it for 0, but it is decremented behind the test that ends the loop: a card that is powered up
at the last poll is refused, and a card that never is goes through.
-/

namespace BbbEth.Mmc

open BbbEth.Interference Server Routine

section Course

variable {current after : Desk} {c : Cmd} {value : Bool}

/-- What is said up to the first response to ACMD41. -/
inductive Opening : List Line → Prop
  | mk {rsp₀ rsp₅₅ rsp₅₅' rsp₀' rsp₅₅'' : Response} {reply : Option Response} :
      Opening [.said 0 (some rsp₀), .said 55 (some rsp₅₅), .said 55 (some rsp₅₅'),
        .said 0 (some rsp₀'), .said 8 reply, .said 55 (some rsp₅₅'')]

/-- The record of the card behind the polls. -/
def CardInfo.operating (rsp : Response) : CardInfo :=
  { CardInfo.zero with
    cardType := mmcCardSd
    ocr := rsp 0
    highCap := if rsp 0 &&& sdOcrHighCapacity ≠ 0 then 1 else 0 }

/-- What is said behind the polls. -/
inductive Closing (retry : Word) (rsp : Response) (card : CardInfo) : Bool → List Line → Prop
  | refused (exhausted : retry = 0) : Closing retry rsp card false []
  | failed {reply : Option Response} {said : List Line} (left : retry ≠ 0)
      (fails : Fails (.said 2 reply :: said)) :
      Closing retry rsp card false (.said 2 reply :: said)
  | identified {reply : Option Response} {said : List Line} (left : retry ≠ 0)
      (record : Identified (.operating rsp) (.said 2 reply :: said) card) :
      Closing retry rsp card true (.said 2 reply :: said)

/-- A whole initialisation. -/
inductive Course (card : CardInfo) : Bool → List Line → Prop
  | unanswered {lines : List Line} (quiet : ∀ line ∈ lines, line.response 41 = none) :
      Course card false lines
  | polled {value : Bool} {start polls closing : List Line} {first rsp : Response} {retry : Word}
      (opening : Opening start) (polled : Polled 0xFFFF first polls retry rsp)
      (closed : Closing retry rsp card value closing) :
      Course card value (start ++ .said 41 (some first) :: (polls ++ closing))

/-- The part of `powerUp` behind the polls. -/
def operate (next : Cmd → Routine Bool) (polled : Word × Cmd) : Routine Bool :=
  if polled.1 = 0 then
    .done false
  else do
    setCard fun card => { card with
      ocr := polled.2.rsp 0
      highCap := if polled.2.rsp 0 &&& sdOcrHighCapacity ≠ 0 then 1 else 0 }
    next polled.2

theorem powerUp_eq {next : Cmd → Routine Bool} : powerUp next =
    setCard (fun card => { card with cardType := mmcCardSd }) >>= fun _ =>
    orFail mmcCardReset fun _ =>
    mmc0CmdSend
      { Cmd.blank with idx := 8, flags := 0, arg := sdCheckPattern ||| sdVolt2p7To3p6 } >>=
    fun found =>
    orFail (mmcAppCmdSend
      { found.2 with idx := 41, flags := 0, arg := sdOcrHighCapacity ||| sdOcrVddWildcard })
      fun c =>
    .iterate powerUpRound (0xFFFF, c) >>= operate next := rfl

/-- The polls, and what follows unless they leave the counter at 0. -/
theorem operate_runs {next : Cmd → Routine Bool}
    (runs : desk.Results (.iterate powerUpRound (0xFFFF, c) >>= operate next) current value after) :
    ∃ polls retry rsp, Polled 0xFFFF c.rsp polls retry rsp ∧
      ((retry = 0 ∧ value = false ∧ after.lines = current.lines ++ polls) ∨
        (retry ≠ 0 ∧ ∃ middle c', middle.lines = current.lines ++ polls ∧
          middle.card = { current.card with
            ocr := rsp 0
            highCap := if rsp 0 &&& sdOcrHighCapacity ≠ 0 then 1 else 0 } ∧
          desk.Results (next c') middle value after)) := by
  rcases results_bind.mp runs with ⟨⟨retry, c'⟩, _, polls, runs⟩
  rcases polls_lines polls with ⟨same, said, lines, polled⟩
  refine ⟨said, retry, c'.rsp, polled, ?_⟩
  unfold operate at runs
  split at runs
  · rename_i exhausted
    rcases results_done.mp runs with ⟨rfl, rfl⟩
    exact .inl ⟨exhausted, rfl, lines⟩
  · rename_i left
    rcases results_bind.mp runs with ⟨_, _, noted, runs⟩
    rw [results_setCard] at noted
    subst noted
    refine .inr ⟨left, _, c', ?_, ?_, runs⟩
    · exact lines
    · rw [same]

/-- A command that ends the routine if it fails. -/
theorem orFail_runs {next : Cmd → Routine Bool}
    (runs : desk.Results (orFail (mmc0CmdSend c) next) current value after) :
    (value = false ∧ ∃ more, after.lines = current.lines ++ more ∧ Unheard more) ∨
    ∃ rsp middle, middle.lines = current.lines ++ [.said (c.idx.toNat % 64) (some rsp)] ∧
      middle.card = current.card ∧
      desk.Results (next { c with rsp := rsp }) middle value after := by
  rcases results_orFail.mp runs with ⟨rfl, rfl⟩ | ⟨rsp, runs⟩
  · exact .inl ⟨rfl, _, lines_exchange, by simp [Unheard, Line.response]⟩
  · exact .inr ⟨rsp, _, lines_exchange, rfl, runs⟩

/-- An application command that ends the routine if it fails. -/
theorem orFail_app_runs {next : Cmd → Routine Bool}
    (runs : desk.Results (orFail (mmcAppCmdSend c) next) current value after) :
    (value = false ∧ ∃ more, after.lines = current.lines ++ more ∧ Unheard more) ∨
    ∃ rsp rsp' middle, middle.lines = current.lines ++
        [.said 55 (some rsp), .said (c.idx.toNat % 64) (some rsp')] ∧
      middle.card = current.card ∧
      desk.Results (next { c with rsp := rsp' }) middle value after := by
  rcases results_orFail_app.mp runs with ⟨rfl, rfl⟩ | ⟨rsp, ⟨rfl, rfl⟩ | ⟨rsp', runs⟩⟩
  · exact .inl ⟨rfl, _, lines_exchange, by simp [Unheard, Line.response]⟩
  · refine .inl ⟨rfl, [.said 55 (some rsp), .said (c.idx.toNat % 64) none], ?_,
      by simp [Unheard, Line.response]⟩
    simp [appCmd]
  · refine .inr ⟨rsp, rsp', _, ?_, ?_, runs⟩
    · simp [appCmd]
    · rfl

/-- What `MMCCardInit` says. -/
theorem mmcCardInit_runs {dataBuffer : Nat} (fresh : current.log = [])
    (runs : desk.Results (mmcCardInit dataBuffer) current value after) :
    Course after.card value after.lines := by
  rcases results_bind.mp runs with ⟨_, cleared, zeroed, runs⟩
  have lines₀ : cleared.lines = [] := by
    rw [results_setCard.mp zeroed]
    simp [Desk.lines, fresh]
  have card₀ : cleared.card = .zero := by rw [results_setCard.mp zeroed]
  rcases orFail_runs runs with ⟨rfl, more, lines, quiet⟩ | ⟨rsp₀, desk₁, lines₁, card₁, runs⟩
  · rw [lines, lines₀]
    exact .unanswered quiet
  rw [lines₀] at lines₁
  rcases orFail_app_runs runs with
    ⟨rfl, more, lines, quiet⟩ | ⟨rsp₅₅, rsp₅₅', desk₂, lines₂, card₂, runs⟩
  · rw [lines, lines₁]
    exact .unanswered (Unheard.append (by simp [Unheard, Line.response]) quiet)
  rw [lines₁] at lines₂
  rw [powerUp_eq] at runs
  rcases results_bind.mp runs with ⟨_, desk₃, typed, runs⟩
  have lines₃ : desk₃.lines = desk₂.lines := by rw [results_setCard.mp typed]; rfl
  have card₃ : desk₃.card = { desk₂.card with cardType := mmcCardSd } := by
    rw [results_setCard.mp typed]
  rw [lines₂] at lines₃
  rcases orFail_runs runs with ⟨rfl, more, lines, quiet⟩ | ⟨rsp₀', desk₄, lines₄, card₄, runs⟩
  · rw [lines, lines₃]
    exact .unanswered (Unheard.append (by simp [Unheard, Line.response]) quiet)
  rw [lines₃] at lines₄
  rcases results_bind.mp runs with ⟨found, desk₅, voltage, runs⟩
  rcases results_mmc0CmdSend.mp voltage with ⟨reply, rfl, answered⟩
  have lines₅ : desk₅.lines = desk₄.lines ++ [.said 8 reply] := by
    rw [answered]
    exact lines_exchange
  have card₅ : desk₅.card = desk₄.card := by
    rw [answered]
    rfl
  rw [lines₄] at lines₅
  rcases orFail_app_runs runs with ⟨rfl, more, lines, quiet⟩ |
    ⟨rsp₅₅'', first, desk₆, lines₆, card₆, runs⟩
  · rw [lines, lines₅]
    exact .unanswered (Unheard.append (by simp [Unheard, Line.response]) quiet)
  rw [lines₅] at lines₆
  rw [card₅, card₄, card₃, card₂, card₁, card₀] at card₆
  rcases operate_runs runs with ⟨polls, retry, rsp, polled, others⟩
  have opening : Opening [.said 0 (some rsp₀), .said 55 (some rsp₅₅), .said 55 (some rsp₅₅'),
      .said 0 (some rsp₀'), .said 8 reply, .said 55 (some rsp₅₅'')] := .mk
  replace polled : Polled 0xFFFF first polls retry rsp := polled
  rcases others with ⟨exhausted, rfl, lines⟩ | ⟨left, desk₇, c', lines₇, card₇, runs⟩
  · have course : Course after.card false _ := .polled opening polled (.refused exhausted)
    rw [lines, lines₆]
    simpa using course
  · rcases identification_runs runs with ⟨reply, said, lines, ⟨rfl, fails⟩ | ⟨rfl, record⟩⟩
    · have course : Course after.card false _ := .polled opening polled (.failed left fails)
      rw [lines, lines₇, lines₆]
      simpa using course
    · rw [card₇, card₆] at record
      have course := Course.polled opening polled (.identified left record)
      rw [lines, lines₇, lines₆]
      simpa using course

end Course
section Stages

variable {lines more start said closes : List Line} {idx : Nat} {rsp first : Response}

/-- What is said before the first response to ACMD41. -/
def opening (lines : List Line) : List Line :=
  lines.takeWhile fun line => (line.response 41).isNone

/-- What is said behind it. -/
def behindOpening (lines : List Line) : List Line :=
  (lines.dropWhile fun line => (line.response 41).isNone).tail

/-- The polls for the power-up bit, which CMD2 ends. -/
def polls (lines : List Line) : List Line :=
  (behindOpening lines).takeWhile fun line => !line.isCmd 2

/-- What is said from CMD2 on. -/
def closing (lines : List Line) : List Line :=
  (behindOpening lines).dropWhile fun line => !line.isCmd 2

/-- A response to ACMD41 comes before what is quiet. -/
theorem behind_of_response (quiet : Unheard closes)
    (same : start ++ closes = said ++ .said 41 (some rsp) :: more) :
    ∃ between, more = between ++ closes := by
  rcases List.append_eq_append_iff.mp same with ⟨between, _, inside⟩ | ⟨between, _, inside⟩
  · have silent := quiet (.said 41 (some rsp)) (by simp [inside])
    cases silent
  · cases between with
    | nil =>
        have silent := quiet (.said 41 (some rsp)) (by
          rw [List.nil_append] at inside
          simp [← inside])
        cases silent
    | cons line between =>
        simp only [List.cons_append, List.cons.injEq] at inside
        exact ⟨between, inside.2⟩

theorem lastResponse_behind (found : lastResponse idx more = some rsp) :
    lastResponse idx (lines ++ more) = some rsp := by
  rw [lastResponse_append, found]
  rfl

end Stages
section Outcome

variable {lines : List Line} {card before : CardInfo} {value : Bool}

/-- The record of the card comes from the responses, and the mandatory commands succeeded.  CMD8
may fail, and so may the polls, of which only the last response counts. -/
structure Initialised (lines : List Line) (card : CardInfo) : Prop where
  powered : ∃ rsp, lastResponse 41 lines = some rsp ∧ poweredUp rsp ∧ card.ocr = rsp 0 ∧
    card.highCap = if rsp 0 &&& sdOcrHighCapacity ≠ 0 then 1 else 0
  rawCid : lastResponse 2 lines = some card.rawCid
  rca : ∃ rsp, lastResponse 3 lines = some rsp ∧ card.rca = (rsp 0 &&& 0xFFFF0000) >>> 16
  rawCsd : lastResponse 9 lines = some card.rawCsd
  opened : ∀ idx ∈ [0, 55], ∃ rsp, .said idx (some rsp) ∈ opening lines
  closed : ∀ idx ∈ [2, 3, 9, 7, 55, 51], ∃ rsp, .said idx (some rsp) ∈ closing lines
  blockLength : card.highCap = 0 → ∃ rsp, .said 16 (some rsp) ∈ closing lines
  transferred : .moved true ∈ closing lines
  unfailing : ∀ line ∈ opening lines ++ closing lines, line.failed = true → line.isCmd 8 = true

/-- The card reports that it is powered up, and nothing fails from then on. -/
def PowersUp (lines : List Line) : Prop :=
  ∃ before rsp later, lines = before ++ .said 41 (some rsp) :: later ∧ poweredUp rsp ∧
    ∀ line ∈ later, line.failed = false

/-- What the value of `MMCCardInit` is to say. -/
structure Outcome (value : Bool) (lines : List Line) (card : CardInfo) : Prop where
  initialised : value = true → Initialised lines card
  succeeds : PowersUp lines → value = true

/-- Nothing fails behind the polls of a card that is identified. -/
theorem Identified.said (record : Identified before lines card) :
    Unheard lines ∧ (∀ line ∈ lines, line.failed = false) ∧
      (∀ idx ∈ [2, 3, 9, 7, 55, 51], ∃ rsp, .said idx (some rsp) ∈ lines) ∧
      (before.highCap = 0 → ∃ rsp, .said 16 (some rsp) ∈ lines) ∧ .moved true ∈ lines := by
  cases record with
  | blocks highCap record =>
      simp only [Unheard, Line.response, Line.failed]
      simp
      exact highCap
  | bytes highCap record => simp [Unheard, Line.response, Line.failed]

/-- The response to ACMD41 that the polls leave. -/
theorem lastResponse_polls {start polls closes : List Line} {first rsp : Response} {retry : Word}
    (polled : Polled 0xFFFF first polls retry rsp) (quiet : Unheard closes) :
    lastResponse 41 (start ++ .said 41 (some first) :: (polls ++ closes)) = some rsp := by
  have one : lastResponse 41 [.said 41 (some first)] = some first := rfl
  rw [← List.singleton_append, lastResponse_append, lastResponse_append, lastResponse_append, one,
    lastResponse_none quiet, polled.last]
  cases lastResponse 41 polls with
  | none => rfl
  | some rsp => rfl

/-- What is said before the first response to ACMD41 succeeds, but for CMD8. -/
theorem Opening.said {start : List Line} (opened : Opening start) :
    Unheard start ∧ (∀ line ∈ start, line.failed = true → line.isCmd 8 = true) ∧
      ∀ idx ∈ [0, 55], ∃ rsp, .said idx (some rsp) ∈ start := by
  cases opened
  simp [Unheard, Line.response, Line.failed, Line.isCmd]

/-- Nothing behind the polls is a response to ACMD41. -/
theorem Closing.quiet {rsp : Response} {retry : Word} {closes : List Line}
    (closed : Closing retry rsp card value closes) : Unheard closes := by
  cases closed with
  | refused => simp [Unheard]
  | failed _ fails => exact fails.quiet
  | identified _ record => exact record.said.1

section Counter

variable {said : List Line} {first rsp : Response} {retry : Word}

/-- A counter that is not exhausted was not polled to its end. -/
theorem Polled.few (polled : Polled 0xFFFF first said retry rsp) (left : retry ≠ 0)
    (power : poweredUp rsp) : attempts said < 0x10000 := by
  have count := polled.powered power
  have left' : retry.toNat ≠ 0 := fun zero => left (BitVec.eq_of_toNat_eq zero)
  change _ = 0x10000 at count
  omega

/-- A card that never powers up is polled to the end of the counter. -/
theorem Polled.all (polled : Polled 0xFFFF first said retry rsp) (off : ¬ poweredUp rsp) :
    attempts said = 0x10000 :=
  (polled.exhausted off).1

/-- An exhausted counter says that the card powered up at the last poll: a card that never does
leaves it wrapped around. -/
theorem Polled.late (polled : Polled 0xFFFF first said 0 rsp) :
    poweredUp rsp ∧ attempts said = 0x10000 := by
  have power : poweredUp rsp := by
    by_contra off
    cases (polled.exhausted off).2
  have count := polled.powered power
  change 0 + attempts said = 0x10000 at count
  exact ⟨power, by omega⟩

end Counter

/-- A failure behind the polls is reported. -/
theorem Fails.outcome {start said closes : List Line} {first : Response} (fails : Fails closes) :
    Outcome false (start ++ .said 41 (some first) :: (said ++ closes)) card := by
  refine ⟨nofun, ?_⟩
  rintro ⟨before, rsp, later, same, _, unfailing⟩
  rw [← List.cons_append, ← List.append_assoc] at same
  rcases behind_of_response fails.quiet same with ⟨between, rfl⟩
  rcases fails.failed with ⟨line, inside, failed⟩
  rw [unfailing line (List.mem_append_right _ inside)] at failed
  cases failed

end Outcome
section Samples

variable {current : Desk} {c : Cmd} {dataBuffer : Nat} {csd : Response}

/-- The response where every bit is clear. -/
def noBits : Response := fun _ => 0

/-- The response of a card that is powered up and addressed by blocks. -/
def highCapBits : Response := fun _ => 0xC0000000

/-- The command that is sent first. -/
def resetCmd : Cmd := { Cmd.blank with idx := 0, flags := sdCmdRspNone, arg := 0 }

/-- The command that shows the type of the card. -/
def typeCmd : Cmd := { Cmd.blank with idx := 55, flags := 0, arg := 0 }

/-- The command for the voltage. -/
def voltageCmd : Cmd :=
  { Cmd.blank with idx := 8, flags := 0, arg := sdCheckPattern ||| sdVolt2p7To3p6 }

/-- The desk behind the first response to ACMD41, where all commands complete. -/
def openedDesk (first : Response) : Desk :=
  let typed := ((Desk.clear.exchange resetCmd (some noBits)).exchange (appCmd .zero)
    (some noBits)).exchange typeCmd (some noBits)
  let reset := { typed with card := { typed.card with cardType := mmcCardSd } }.exchange resetCmd
    (some noBits)
  ((reset.exchange voltageCmd (some noBits)).exchange (appCmd .zero) (some noBits)).exchange
    voltageCmd.asksPower (some first)

/-- What the polls and the identification leave is what is left. -/
theorem results_opened {first : Response} {value : Bool} {after : Desk}
    (others : desk.Results (.iterate powerUpRound
        (0xFFFF, { voltageCmd.asksPower with rsp := first })
      >>= operate fun c => readRegisters c fun c => setBlockLen c (readScr dataBuffer))
      (openedDesk first) value after) :
    desk.Results (mmcCardInit dataBuffer) Desk.clear value after := by
  refine results_bind.mpr ⟨(), _, results_setCard.mpr rfl, ?_⟩
  refine results_orFail.mpr (.inr ⟨noBits, ?_⟩)
  refine results_orFail_app.mpr (.inr ⟨noBits, .inr ⟨noBits, ?_⟩⟩)
  rw [powerUp_eq]
  refine results_bind.mpr ⟨(), _, results_setCard.mpr rfl, ?_⟩
  refine results_orFail.mpr (.inr ⟨noBits, ?_⟩)
  refine results_bind.mpr ⟨_, _, results_mmc0CmdSend.mpr ⟨some noBits, rfl, rfl⟩, ?_⟩
  exact results_orFail_app.mpr (.inr ⟨noBits, .inr ⟨first, others⟩⟩)

theorem completes_note {note : CardInfo → CardInfo} {rest : Unit → Routine Bool} {P : Desk → Prop}
    (others : ∃ after,
      desk.Results (rest ()) { current with card := note current.card } true after ∧ P after) :
    ∃ after, desk.Results (setCard note >>= rest) current true after ∧ P after :=
  others.imp fun _ others => ⟨results_bind.mpr ⟨(), _, results_setCard.mpr rfl, others.1⟩, others.2⟩

theorem completes_fetch {reply : Type} {field : CardInfo → reply} {rest : reply → Routine Bool}
    {P : Desk → Prop}
    (others : ∃ after, desk.Results (rest (field current.card)) current true after ∧ P after) :
    ∃ after, desk.Results (getCard field >>= rest) current true after ∧ P after :=
  others.imp fun _ others =>
    ⟨results_bind.mpr ⟨_, _, results_getCard.mpr ⟨rfl, rfl⟩, others.1⟩, others.2⟩

theorem completes_noted {note : Cmd → CardInfo → CardInfo} {rest : Cmd → Routine Bool}
    {P : Desk → Prop} (rsp : Response)
    (others : ∃ after, desk.Results (rest { c with rsp := rsp })
      { current.exchange c (some rsp) with card := note { c with rsp := rsp } current.card } true
      after ∧ P after) :
    ∃ after, desk.Results (noted c note rest) current true after ∧ P after :=
  others.imp fun _ others => ⟨results_noted.mpr (.inr ⟨rsp, others.1⟩), others.2⟩

theorem completes_orFail {next : Cmd → Routine Bool}
    (others : ∀ c current, ∃ after, desk.Results (next c) current true after) :
    ∃ after, desk.Results (orFail (mmc0CmdSend c) next) current true after := by
  rcases others _ _ with ⟨after, others⟩
  exact ⟨after, results_orFail.mpr (.inr ⟨noBits, others⟩)⟩

theorem completes_setCard {note : CardInfo → CardInfo} {rest : Unit → Routine Bool}
    (others : ∀ current, ∃ after, desk.Results (rest ()) current true after) :
    ∃ after, desk.Results (setCard note >>= rest) current true after := by
  rcases others { current with card := note current.card } with ⟨after, others⟩
  exact ⟨after, results_bind.mpr ⟨(), _, results_setCard.mpr rfl, others⟩⟩

theorem completes_getCard {reply : Type} {field : CardInfo → reply} {rest : reply → Routine Bool}
    (others : ∀ value current, ∃ after, desk.Results (rest value) current true after) :
    ∃ after, desk.Results (getCard field >>= rest) current true after := by
  rcases others (field current.card) current with ⟨after, others⟩
  exact ⟨after, results_bind.mpr ⟨_, _, results_getCard.mpr ⟨rfl, rfl⟩, others⟩⟩

theorem completes_loadWord {address : Nat} {rest : Word → Routine Bool}
    (others : ∀ word current, ∃ after, desk.Results (rest word) current true after) :
    ∃ after, desk.Results (loadWord address >>= rest) current true after := by
  have loads : ∃ word middle, desk.Results (loadWord address) current word middle := by
    simp only [loadWord, Program.bind_lift, results_perform, answers_loadByte, results_done]
    exact ⟨_, _, 0, _, rfl, 0, _, rfl, 0, _, rfl, 0, _, rfl, rfl, rfl⟩
  rcases loads with ⟨word, middle, loads⟩
  rcases others word middle with ⟨after, others⟩
  exact ⟨after, results_bind.mpr ⟨_, _, loads, others⟩⟩

theorem completes_transfer {next : Routine Bool}
    (others : ∀ current, ∃ after, desk.Results next current true after) :
    ∃ after, desk.Results (transfer c next) current true after := by
  rcases others ((current.exchange c (some noBits)).transferred true) with ⟨after, others⟩
  exact ⟨after, results_transfer.mpr (.inr ⟨noBits, .inr others⟩)⟩

theorem completes_readScr : ∃ after, desk.Results (readScr dataBuffer c) current true after := by
  refine completes_getCard fun rca current => completes_orFail fun c current => ?_
  refine completes_getCard fun rca current => completes_orFail fun c current => ?_
  suffices others : ∀ current, ∃ after, desk.Results _ current true after from
    (others _).imp fun after others =>
      results_bind.mpr ⟨(), _, results_mmcXferSetup.mpr rfl, others⟩
  refine fun current => completes_getCard fun rca current => completes_transfer fun current => ?_
  suffices others : ∀ current, ∃ after, desk.Results _ current true after from
    (others _).imp fun after others =>
      results_bind.mpr ⟨(), _, BbbEth.Mmc.results_cp15DCacheFlushBuff.mpr rfl, others⟩
  refine fun current => completes_loadWord fun low current => completes_setCard fun current => ?_
  refine completes_loadWord fun high current => completes_setCard fun current => ?_
  exact completes_setCard fun current => ⟨current, results_done.mpr ⟨rfl, rfl⟩⟩

theorem completes_setBlockLen :
    ∃ after, desk.Results (setBlockLen c (readScr dataBuffer)) current true after := by
  refine completes_getCard fun highCap current => ?_
  by_cases bytes : highCap = 0
  · rw [if_pos bytes]
    exact completes_orFail fun c current => completes_setCard fun current => completes_readScr
  · rw [if_neg bytes]
    exact completes_readScr

/-- Nothing behind CMD9 hides the response to it. -/
theorem csd_of_setBlockLen {after : Desk} (told : lastResponse 9 current.lines = some csd)
    (runs : desk.Results (setBlockLen c (readScr dataBuffer)) current true after) :
    lastResponse 9 after.lines = some csd := by
  rcases setBlockLen_runs runs with ⟨absurd, _⟩ | ⟨len, middle, c', lines, length, runs⟩
  · cases absurd
  rcases readScr_runs runs with ⟨said, lines', ⟨absurd, _⟩ | ⟨rsp₇, rsp₅₅, rsp₅₁, _, rfl, _⟩⟩
  · cases absurd
  have silent : lastResponse 9 [.said 7 (some rsp₇), .said 55 (some rsp₅₅), .said 51 (some rsp₅₁),
      .moved true] = none := rfl
  rw [lines', lines, lastResponse_append, lastResponse_append, told, silent]
  rcases length with ⟨rfl, _⟩ | ⟨rsp, rfl, _⟩
  · rfl
  · rfl

/-- The dialogue behind the polls may go on to its end, with any response to CMD9. -/
theorem identification_completes (csd : Response) : ∃ after, desk.Results
    (readRegisters c fun c => setBlockLen c (readScr dataBuffer)) current true after ∧
      lastResponse 9 after.lines = some csd := by
  rw [readRegisters_eq]
  refine completes_noted noBits (completes_noted noBits ?_)
  refine completes_fetch (completes_noted csd (completes_note ?_))
  refine completes_setBlockLen.imp fun after runs => ⟨runs, csd_of_setBlockLen ?_ runs⟩
  change lastResponse 9 (Desk.lines { Desk.exchange _ _ _ with card := _ }) = _
  rw [lines_noted]
  exact lastResponse_behind rfl

/-- What the polls leave may be followed by the rest. -/
theorem operate_completes {retry : Word} (dataBuffer : Nat) (current : Desk) (c : Cmd)
    (csd : Response) (left : retry ≠ 0) :
    ∃ after, desk.Results
      (operate (fun c => readRegisters c fun c => setBlockLen c (readScr dataBuffer)) (retry, c))
      current true after ∧ lastResponse 9 after.lines = some csd := by
  rw [operate, if_neg left]
  exact completes_note (identification_completes csd)

/-- The rest says nothing of the power-up bit. -/
theorem operate_quiet {retry : Word} {after : Desk} (left : retry ≠ 0) (others : desk.Results
    (operate (fun c => readRegisters c fun c => setBlockLen c (readScr dataBuffer)) (retry, c))
    current true after) : ∃ closes, after.lines = current.lines ++ closes ∧ Unheard closes := by
  rw [operate, if_neg left] at others
  rcases results_bind.mp others with ⟨_, noted, sets, others⟩
  have lines : noted.lines = current.lines := by
    rw [results_setCard.mp sets]
    rfl
  rcases identification_runs others with ⟨reply, said, lines', ⟨absurd, _⟩ | ⟨_, record⟩⟩
  · cases absurd
  · exact ⟨_, by rw [lines', lines], record.said.1⟩

/-- A card of high capacity that is powered up at the first poll. -/
theorem powered_run (csd : Response) : ∃ after,
    desk.Results (mmcCardInit 0) Desk.clear true after ∧
      lastResponse 41 after.lines = some highCapBits ∧ lastResponse 9 after.lines = some csd := by
  have round : desk.Results
      (powerUpRound (0xFFFF, { voltageCmd.asksPower with rsp := highCapBits }))
      (openedDesk highCapBits) (.inr (0xFFFF, { voltageCmd.asksPower with rsp := highCapBits }))
      (((openedDesk highCapBits).exchange (appCmd (openedDesk highCapBits).card)
        (some noBits)).exchange voltageCmd.asksPower (some highCapBits)) :=
    results_powerUpRound.mpr (.inr ⟨noBits, some highCapBits, rfl, rfl⟩)
  have left : (0xFFFF : Word) ≠ 0 := by decide
  rcases operate_completes 0 _ _ csd left with ⟨after, others, told⟩
  rcases operate_quiet left others with ⟨closes, lines, quiet⟩
  refine ⟨after, results_opened (results_bind.mpr ⟨_, _, results_iterate.mpr (.inr round), others⟩),
    ?_, told⟩
  rw [lines, lines_exchange, lastResponse_append, lastResponse_append, lastResponse_none quiet]
  rfl

end Samples

end BbbEth.Mmc
