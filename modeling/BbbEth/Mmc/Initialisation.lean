import BbbEth.Mmc.Conversation

/-!
# The initialisation of a card

What `MMCCardInit` says to the card, stage by stage: the resets, the polls for the power-up bit,
the registers that are read, the block length and the configuration register.
-/

namespace BbbEth.Mmc

open BbbEth.Interference Server Routine

section Sequences

variable {current after : Desk} {c : Cmd} {value : Bool}

/-- An application command, and what follows if it completes. -/
theorem results_orFail_app {next : Cmd → Routine Bool} :
    desk.Results (orFail (mmcAppCmdSend c) next) current value after ↔
      (value = false ∧ after = current.exchange (appCmd current.card) none) ∨
      ∃ rsp, (value = false ∧
          after = (current.exchange (appCmd current.card) (some rsp)).exchange c none) ∨
        ∃ rsp', desk.Results (next { c with rsp := rsp' })
          ((current.exchange (appCmd current.card) (some rsp)).exchange c (some rsp')) value
            after := by
  simp only [orFail, results_bind, results_mmcAppCmdSend]
  constructor
  · rintro ⟨_, _, ⟨rfl, rfl⟩ | ⟨rsp, reply, rfl, rfl⟩, others⟩
    · exact .inl (results_done.mp others)
    · cases reply with
      | none => exact .inr ⟨rsp, .inl (results_done.mp others)⟩
      | some rsp' => exact .inr ⟨rsp, .inr ⟨rsp', others⟩⟩
  · rintro (⟨rfl, rfl⟩ | ⟨rsp, ⟨rfl, rfl⟩ | ⟨rsp', others⟩⟩)
    · exact ⟨_, _, .inl ⟨rfl, rfl⟩, results_done.mpr ⟨rfl, rfl⟩⟩
    · exact ⟨_, _, .inr ⟨rsp, none, rfl, rfl⟩, results_done.mpr ⟨rfl, rfl⟩⟩
    · exact ⟨_, _, .inr ⟨rsp, some rsp', rfl, rfl⟩, others⟩

end Sequences

section Polls

variable {current after : Desk} {c c' : Cmd} {retry retry' : Word}

/-- The command that the loop sends. -/
def Cmd.asksPower (c : Cmd) : Cmd :=
  { c with idx := 41, flags := 0, arg := sdOcrHighCapacity ||| sdOcrVddWildcard }

/-- The card is powered up. -/
def poweredUp (rsp : Response) : Prop := rsp 0 &&& 0x80000000 ≠ 0

instance (rsp : Response) : Decidable (poweredUp rsp) := inferInstanceAs (Decidable (_ ≠ _))

/-- What a round makes of what the last response was. -/
def roundEnds (retry : Word) (c : Cmd) : (Word × Cmd) ⊕ (Word × Cmd) :=
  if poweredUp c.rsp then .inr (retry, c)
  else if retry = 0 then .inr (retry - 1, c) else .inl (retry - 1, c)

theorem powerUpRound_eq : powerUpRound (retry, c) =
    mmcAppCmdSend c.asksPower >>= fun reply => .done (roundEnds retry reply.2) := by
  have ends : ∀ c : Cmd, (if c.rsp 0 &&& 0x80000000 ≠ 0 then .done (.inr (retry, c))
      else if retry = 0 then .done (.inr (retry - 1, c)) else .done (.inl (retry - 1, c)) :
        Routine ((Word × Cmd) ⊕ (Word × Cmd))) = .done (roundEnds retry c) := by
    intro c
    by_cases power : poweredUp c.rsp
    · rw [roundEnds, if_pos power]
      exact if_pos power
    · rw [roundEnds, if_neg power]
      refine (if_neg power).trans ?_
      split <;> rfl
  simp only [powerUpRound, ends]
  rfl

theorem results_powerUpRound {outcome : (Word × Cmd) ⊕ (Word × Cmd)} :
    desk.Results (powerUpRound (retry, c)) current outcome after ↔
      (outcome = roundEnds retry c.asksPower ∧
        after = current.exchange (appCmd current.card) none) ∨
      ∃ rsp reply, outcome = roundEnds retry (c.asksPower.answered reply).2 ∧
        after = (current.exchange (appCmd current.card) (some rsp)).exchange c.asksPower reply := by
  rw [powerUpRound_eq, results_bind]
  simp only [results_mmcAppCmdSend, results_done]
  constructor
  · rintro ⟨_, _, ⟨rfl, rfl⟩ | ⟨rsp, reply, rfl, rfl⟩, rfl, rfl⟩
    · exact .inl ⟨rfl, rfl⟩
    · exact .inr ⟨rsp, reply, rfl, rfl⟩
  · rintro (⟨rfl, rfl⟩ | ⟨rsp, reply, rfl, rfl⟩)
    · exact ⟨_, _, .inl ⟨rfl, rfl⟩, rfl, rfl⟩
    · exact ⟨_, _, .inr ⟨rsp, reply, rfl, rfl⟩, rfl, rfl⟩

/-- The number of polls. -/
def attempts (polls : List Line) : Nat := polls.countP (Line.isCmd 55)

/-- What the polls leave. -/
structure Polled (retry : Word) (before : Response) (polls : List Line) (retry' : Word)
    (rsp : Response) : Prop where
  /-- CMD55 and ACMD41. -/
  asks : ∀ line ∈ polls, ∃ idx reply, line = .said idx reply ∧ (idx = 55 ∨ idx = 41)
  last : rsp = (lastResponse 41 polls).getD before
  /-- The counter says how many polls were left at the one that was answered. -/
  powered : poweredUp rsp → retry'.toNat + attempts polls = retry.toNat + 1
  /-- A poll that is not the first one was answered. -/
  answered : poweredUp rsp → (poweredUp before → 1 < attempts polls) →
    ∃ earlier, polls = earlier ++ [.said 41 (some rsp)]
  exhausted : ¬ poweredUp rsp → attempts polls = retry.toNat + 1 ∧ retry' = -1

/-- What one round says. -/
theorem round_lines {outcome : (Word × Cmd) ⊕ (Word × Cmd)}
    (round : desk.Results (powerUpRound (retry, c)) current outcome after) :
    ∃ c', outcome = roundEnds retry c' ∧ after.card = current.card ∧
      ∃ polls, after.lines = current.lines ++ polls ∧ attempts polls = 1 ∧
        (∀ line ∈ polls, ∃ idx reply, line = .said idx reply ∧ (idx = 55 ∨ idx = 41)) ∧
        ((c'.rsp = c.rsp ∧ lastResponse 41 polls = none) ∨
          (lastResponse 41 polls = some c'.rsp ∧
            ∃ earlier, polls = earlier ++ [.said 41 (some c'.rsp)])) := by
  have app : ∀ reply, (current.exchange (appCmd current.card) reply).lines =
      current.lines ++ [.said 55 reply] := fun _ => lines_exchange
  have ask : ∀ (desk : Desk) reply, (desk.exchange c.asksPower reply).lines =
      desk.lines ++ [.said 41 reply] := fun _ _ => lines_exchange
  rcases results_powerUpRound.mp round with ⟨rfl, rfl⟩ | ⟨rsp, reply, rfl, rfl⟩
  · refine ⟨_, rfl, rfl, _, app none, rfl, ?_, .inl ⟨rfl, rfl⟩⟩
    intro line inside
    rw [List.mem_singleton.mp inside]
    exact ⟨55, none, rfl, .inl rfl⟩
  · have lines : ((current.exchange (appCmd current.card) (some rsp)).exchange c.asksPower reply
        ).lines = current.lines ++ [.said 55 (some rsp), .said 41 reply] := by
      rw [ask, app, List.append_assoc]
      rfl
    refine ⟨_, rfl, rfl, _, lines, rfl, ?_, ?_⟩
    · intro line inside
      rcases List.mem_pair.mp inside with rfl | rfl
      · exact ⟨55, _, rfl, .inl rfl⟩
      · exact ⟨41, _, rfl, .inr rfl⟩
    · cases reply with
      | none => exact .inl ⟨rfl, rfl⟩
      | some rsp' => exact .inr ⟨rfl, [.said 55 (some rsp)], rfl⟩

/-- What the loop says. -/
theorem polls_lines
    (polls : desk.Results (.iterate powerUpRound (retry, c)) current (retry', c') after) :
    after.card = current.card ∧ ∃ polls, after.lines = current.lines ++ polls ∧
      Polled retry c.rsp polls retry' c'.rsp := by
  generalize size : retry.toNat = left
  induction left using Nat.strongRecOn generalizing retry c current with
  | ind left inductionHypothesis =>
      rcases results_iterate.mp polls with ⟨⟨later, c₁⟩, next, round, others⟩ | round
      · rcases round_lines round with ⟨c₂, outcome, card, said, lines, one, asks, last⟩
        by_cases power : poweredUp c₂.rsp
        · rw [roundEnds, if_pos power] at outcome
          cases outcome
        by_cases exhausted : retry = 0
        · rw [roundEnds, if_neg power, if_pos exhausted] at outcome
          cases outcome
        rw [roundEnds, if_neg power, if_neg exhausted] at outcome
        cases outcome
        have fewer : (retry - 1).toNat + 1 = retry.toNat := by bv_omega
        rcases inductionHypothesis _ (by omega) others rfl with ⟨card', said', lines', polled⟩
        have count : attempts (said ++ said') = attempts said + attempts said' :=
          List.countP_append
        refine ⟨card'.trans card, said ++ said', ?_, ?_, ?_, ?_, ?_, ?_⟩
        · rw [lines', lines, List.append_assoc]
        · intro line inside
          rcases List.mem_append.mp inside with inside | inside
          · exact asks line inside
          · exact polled.asks line inside
        · rw [polled.last, lastResponse_append]
          cases lastResponse 41 said' with
          | some rsp => rfl
          | none =>
              rcases last with ⟨same, none⟩ | ⟨found, _⟩
              · rw [none, same]
                rfl
              · rw [found]
                rfl
        · intro power
          have left := polled.powered power
          omega
        · intro power' _
          rcases polled.answered power' fun power' => absurd power' power with ⟨earlier, same⟩
          exact ⟨said ++ earlier, by rw [same, List.append_assoc]⟩
        · intro power
          have left := polled.exhausted power
          exact ⟨by omega, left.2⟩
      · rcases round_lines round with ⟨c₂, outcome, card, said, lines, one, asks, last⟩
        have same : c₂ = c' := by
          unfold roundEnds at outcome
          split_ifs at outcome <;> cases outcome <;> rfl
        subst same
        have last' : c₂.rsp = (lastResponse 41 said).getD c.rsp := by
          rcases last with ⟨same, none⟩ | ⟨found, _⟩
          · rw [none, same]
            rfl
          · rw [found]
            rfl
        refine ⟨card, said, lines, asks, last', ?_, ?_, ?_⟩
        · intro power
          rw [roundEnds, if_pos power] at outcome
          cases outcome
          rw [one]
        · intro power first
          rcases last with ⟨same, _⟩ | ⟨_, answered⟩
          · rw [same] at power
            exact absurd (first power) (by omega)
          · exact answered
        · intro power
          rw [roundEnds, if_neg power] at outcome
          split at outcome
          · rename_i exhausted
            cases outcome
            rw [one, exhausted]
            exact ⟨rfl, rfl⟩
          · cases outcome

end Polls
section Identification

variable {current after : Desk} {c : Cmd} {value : Bool} {next : Cmd → Routine Bool}

/-- Lines without a response to ACMD41. -/
def Unheard (lines : List Line) : Prop := ∀ line ∈ lines, line.response 41 = none

theorem Unheard.append {lines more : List Line} (quiet : Unheard lines) (quiet' : Unheard more) :
    Unheard (lines ++ more) :=
  fun line inside => (List.mem_append.mp inside).elim (quiet line) (quiet' line)

/-- Lines without a response to ACMD41, of which one failed. -/
@[mk_iff] structure Fails (lines : List Line) : Prop where
  quiet : Unheard lines
  failed : ∃ line ∈ lines, line.failed = true

/-- Earlier lines that are quiet do not hide a failure. -/
theorem Fails.prepend {lines more : List Line} (quiet : Unheard lines) (fails : Fails more) :
    Fails (lines ++ more) where
  quiet := quiet.append fails.quiet
  failed := fails.failed.imp fun _ found => ⟨List.mem_append_right _ found.1, found.2⟩

/-- The record of the card behind the three registers. -/
def CardInfo.identified (card : CardInfo) (cid rca csd : Response) : CardInfo :=
  ({ card with
    rawCid := cid
    rca := (rca 0 &&& 0xFFFF0000) >>> 16
    rawCsd := csd } : CardInfo).decodeCsd

/-- A command whose response is noted, whether it completes or not. -/
def noted (c : Cmd) (note : Cmd → CardInfo → CardInfo) (rest : Cmd → Routine Bool) :
    Routine Bool := do
  let (found, c) ← mmc0CmdSend c
  setCard (note c)
  if found then rest c else .done false

theorem results_noted {note : Cmd → CardInfo → CardInfo} {rest : Cmd → Routine Bool} :
    desk.Results (noted c note rest) current value after ↔
      (value = false ∧ after =
        { current.exchange c none with card := note c current.card }) ∨
      ∃ rsp, desk.Results (rest { c with rsp := rsp })
        { current.exchange c (some rsp) with card := note { c with rsp := rsp } current.card }
          value after := by
  simp only [noted, results_bind, results_mmc0CmdSend, results_setCard]
  constructor
  · rintro ⟨_, _, ⟨reply, rfl, rfl⟩, _, _, rfl, others⟩
    cases reply with
    | none => exact .inl (results_done.mp others)
    | some rsp => exact .inr ⟨rsp, others⟩
  · rintro (⟨rfl, rfl⟩ | ⟨rsp, others⟩)
    · exact ⟨_, _, ⟨none, rfl, rfl⟩, (), _, rfl, results_done.mpr ⟨rfl, rfl⟩⟩
    · exact ⟨_, _, ⟨some rsp, rfl, rfl⟩, (), _, rfl, others⟩

@[simp] theorem lines_noted {card : CardInfo} {reply : Option Response} :
    ({ current.exchange c reply with card := card } : Desk).lines =
      current.lines ++ [.said (c.idx.toNat % 64) reply] :=
  lines_exchange

theorem readRegisters_eq : readRegisters c next =
    noted { c with idx := 2, flags := sdCmdRsp136Bits, arg := 0 }
      (fun c card => { card with rawCid := c.rsp }) fun c =>
    noted { c with idx := 3, flags := 0, arg := 0 }
      (fun c card => { card with rca := (c.rsp 0 &&& 0xFFFF0000) >>> 16 }) fun c =>
    getCard (·.rca) >>= fun rca =>
    noted { c with idx := 9, flags := sdCmdRsp136Bits, arg := rca <<< 16 }
      (fun c card => { card with rawCsd := c.rsp }) fun c =>
    setCard (·.decodeCsd) >>= fun _ => next c := rfl

/-- The registers of the card are read, or a command fails. -/
theorem readRegisters_runs
    (reads : desk.Results (readRegisters c next) current value after) :
    (value = false ∧ ∃ reply said, after.lines = current.lines ++ .said 2 reply :: said ∧
      Fails (.said 2 reply :: said)) ∨
    ∃ cid rca csd middle c', middle.lines = current.lines ++
        [.said 2 (some cid), .said 3 (some rca), .said 9 (some csd)] ∧
      middle.card = current.card.identified cid rca csd ∧
      desk.Results (next c') middle value after := by
  rw [readRegisters_eq] at reads
  rcases results_noted.mp reads with ⟨rfl, rfl⟩ | ⟨cid, reads⟩
  · exact .inl ⟨rfl, none, [], lines_noted,
      by simp [fails_iff, Unheard, Line.response, Line.failed]⟩
  rcases results_noted.mp reads with ⟨rfl, rfl⟩ | ⟨rca, reads⟩
  · refine .inl ⟨rfl, some cid, [.said 3 none], ?_,
      by simp [fails_iff, Unheard, Line.response, Line.failed]⟩
    rw [lines_noted, lines_noted, List.append_assoc]
    rfl
  rcases results_bind.mp reads with ⟨_, _, got, reads⟩
  rcases results_getCard.mp got with ⟨rfl, rfl⟩
  rcases results_noted.mp reads with ⟨rfl, rfl⟩ | ⟨csd, reads⟩
  · refine .inl ⟨rfl, some cid, [.said 3 (some rca), .said 9 none], ?_,
      by simp [fails_iff, Unheard, Line.response, Line.failed]⟩
    rw [lines_noted, lines_noted, lines_noted, List.append_assoc, List.append_assoc]
    rfl
  rcases results_bind.mp reads with ⟨_, _, decoded, reads⟩
  rw [results_setCard] at decoded
  subst decoded
  refine .inr ⟨cid, rca, csd, _, _, ?_, rfl, reads⟩
  change Desk.lines { Desk.exchange _ _ _ with card := _ } = _
  rw [lines_noted, lines_noted, lines_noted, List.append_assoc, List.append_assoc]
  rfl

/-- The block length of a card that is addressed by bytes is set. -/
theorem setBlockLen_runs (sets : desk.Results (setBlockLen c next) current value after) :
    (value = false ∧ after.lines = current.lines ++ [.said 16 none]) ∨
    ∃ said middle c', middle.lines = current.lines ++ said ∧
      (said = [] ∧ current.card.highCap ≠ 0 ∧ middle.card = current.card ∨
        ∃ rsp, said = [.said 16 (some rsp)] ∧ current.card.highCap = 0 ∧
          middle.card = { current.card with blkLen := 512 }) ∧
      desk.Results (next c') middle value after := by
  rcases results_bind.mp sets with ⟨_, _, got, sets⟩
  rcases results_getCard.mp got with ⟨rfl, same⟩
  rw [same] at sets
  by_cases bytes : current.card.highCap = 0
  · rw [if_pos bytes] at sets
    rcases results_orFail.mp sets with ⟨rfl, rfl⟩ | ⟨rsp, sets⟩
    · exact .inl ⟨rfl, lines_exchange⟩
    · rcases results_bind.mp sets with ⟨_, _, noted, sets⟩
      rw [results_setCard] at noted
      subst noted
      exact .inr ⟨_, _, _, lines_noted, .inr ⟨rsp, rfl, bytes, rfl⟩, sets⟩
  · rw [if_neg bytes] at sets
    exact .inr ⟨[], current, c, (List.append_nil _).symm, .inl ⟨rfl, bytes, rfl⟩, sets⟩

/-- A word is loaded. -/
theorem loadWord_runs {address : Nat} {word : Word}
    (loads : desk.Results (loadWord address) current word after) :
    after.lines = current.lines ∧ after.card = current.card := by
  simp only [loadWord, Program.bind_lift, results_perform, answers_loadByte, results_done] at loads
  rcases loads with ⟨_, _, rfl, _, _, rfl, _, _, rfl, _, _, rfl, rfl, rfl⟩
  exact ⟨by simp [Desk.lines, Entry.line], rfl⟩

/-- A record of the card that differs in its configuration register only. -/
structure ScrOnly (before after : CardInfo) : Prop where
  same : after = { before with
    rawScr := after.rawScr, sdVer := after.sdVer, busWidth := after.busWidth }

theorem ScrOnly.trans {first second third : CardInfo} (left : ScrOnly first second)
    (right : ScrOnly second third) : ScrOnly first third := by
  rcases left with ⟨left⟩
  rcases right with ⟨right⟩
  constructor
  rw [right, left]

/-- A note of the configuration register. -/
theorem scrNote_runs {note : CardInfo → CardInfo} {done : Unit}
    (only : ∀ card, ScrOnly card (note card))
    (notes : desk.Results (setCard note) current done after) :
    after.lines = current.lines ∧ ScrOnly current.card after.card := by
  rw [results_setCard] at notes
  rw [notes]
  exact ⟨rfl, only _⟩

/-- The part of `readScr` behind the transfer. -/
theorem scrBytes_runs {dataBuffer : Nat}
    (notes : desk.Results (do
      Coherence.cp15DCacheFlushBuff issue dataBuffer dataResponseWidth
      let low ← loadWord dataBuffer
      setCard fun card => { card with rawScr := Function.update card.rawScr 0 low }
      let high ← loadWord (dataBuffer + 4)
      setCard fun card => { card with rawScr := Function.update card.rawScr 1 high }
      setCard fun card => { card with
        sdVer := (card.rawScr 0 &&& 0xF).setWidth 8
        busWidth := ((card.rawScr 0 &&& 0xF00) >>> 8).setWidth 8 }
      .done true) current value after) :
    value = true ∧ after.lines = current.lines ∧ ScrOnly current.card after.card := by
  rcases results_bind.mp notes with ⟨_, _, flushed, notes⟩
  rw [results_cp15DCacheFlushBuff.mp flushed] at notes
  rcases results_bind.mp notes with ⟨low, _, loaded, notes⟩
  rcases loadWord_runs loaded with ⟨lines₁, card₁⟩
  rcases results_bind.mp notes with ⟨_, _, noted, notes⟩
  rcases scrNote_runs (fun _ => ⟨rfl⟩) noted with ⟨lines₂, card₂⟩
  rcases results_bind.mp notes with ⟨high, _, loaded, notes⟩
  rcases loadWord_runs loaded with ⟨lines₃, card₃⟩
  rcases results_bind.mp notes with ⟨_, _, noted, notes⟩
  rcases scrNote_runs (fun _ => ⟨rfl⟩) noted with ⟨lines₄, card₄⟩
  rcases results_bind.mp notes with ⟨_, _, noted, notes⟩
  rcases scrNote_runs (fun _ => ⟨rfl⟩) noted with ⟨lines₅, card₅⟩
  rcases results_done.mp notes with ⟨rfl, rfl⟩
  rw [card₁] at card₂
  rw [card₃] at card₄
  exact ⟨rfl, by rw [lines₅, lines₄, lines₃, lines₂, lines₁], (card₂.trans card₄).trans card₅⟩

/-- The configuration register is read, or a command or the transfer fails. -/
theorem readScr_runs {dataBuffer : Nat}
    (reads : desk.Results (readScr dataBuffer c) current value after) :
    ∃ said, after.lines = current.lines ++ said ∧ ((value = false ∧ Fails said) ∨
      ∃ rsp₇ rsp₅₅ rsp₅₁, value = true ∧
        said = [.said 7 (some rsp₇), .said 55 (some rsp₅₅), .said 51 (some rsp₅₁), .moved true] ∧
        ScrOnly current.card after.card) := by
  rcases results_bind.mp reads with ⟨_, _, got, reads⟩
  rcases results_getCard.mp got with ⟨rfl, same⟩
  rw [same] at reads
  rcases results_orFail.mp reads with ⟨rfl, rfl⟩ | ⟨rsp₇, reads⟩
  · exact ⟨_, lines_exchange, .inl ⟨rfl, by simp [Unheard, Line.response], by simp [Line.failed]⟩⟩
  rcases results_bind.mp reads with ⟨_, _, got, reads⟩
  rcases results_getCard.mp got with ⟨rfl, rfl⟩
  rcases results_orFail.mp reads with ⟨rfl, rfl⟩ | ⟨rsp₅₅, reads⟩
  · refine ⟨[.said 7 (some rsp₇), .said 55 none], ?_,
      .inl ⟨rfl, by simp [Unheard, Line.response], by simp [Line.failed]⟩⟩
    rw [lines_exchange, lines_exchange, List.append_assoc]
    rfl
  rcases results_bind.mp reads with ⟨_, _, prepared, reads⟩
  rw [results_mmcXferSetup] at prepared
  subst prepared
  rcases results_bind.mp reads with ⟨_, _, got, reads⟩
  rcases results_getCard.mp got with ⟨rfl, rfl⟩
  rcases results_transfer.mp reads with ⟨rfl, rfl⟩ | ⟨rsp₅₁, ⟨rfl, rfl⟩ | reads⟩
  · refine ⟨[.said 7 (some rsp₇), .said 55 (some rsp₅₅), .said 51 none], ?_,
      .inl ⟨rfl, by simp [Unheard, Line.response], by simp [Line.failed]⟩⟩
    simp
  · refine ⟨[.said 7 (some rsp₇), .said 55 (some rsp₅₅), .said 51 (some rsp₅₁), .moved false], ?_,
      .inl ⟨rfl, by simp [Unheard, Line.response], by simp [Line.failed]⟩⟩
    simp
  rcases scrBytes_runs reads with ⟨rfl, lines, card⟩
  refine ⟨[.said 7 (some rsp₇), .said 55 (some rsp₅₅), .said 51 (some rsp₅₁), .moved true], ?_,
    .inr ⟨rsp₇, rsp₅₅, rsp₅₁, rfl, rfl, card⟩⟩
  rw [lines]
  simp

/-- A card that is identified: what is said from CMD2 on, and the record that is left. -/
inductive Identified (before : CardInfo) : List Line → CardInfo → Prop
  | blocks {cid rca csd rsp₇ rsp₅₅ rsp₅₁ : Response} {after : CardInfo}
      (highCap : before.highCap ≠ 0) (record : ScrOnly (before.identified cid rca csd) after) :
      Identified before
        [.said 2 (some cid), .said 3 (some rca), .said 9 (some csd), .said 7 (some rsp₇),
          .said 55 (some rsp₅₅), .said 51 (some rsp₅₁), .moved true] after
  | bytes {cid rca csd rsp₁₆ rsp₇ rsp₅₅ rsp₅₁ : Response} {after : CardInfo}
      (highCap : before.highCap = 0)
      (record : ScrOnly { before.identified cid rca csd with blkLen := 512 } after) :
      Identified before
        [.said 2 (some cid), .said 3 (some rca), .said 9 (some csd), .said 16 (some rsp₁₆),
          .said 7 (some rsp₇), .said 55 (some rsp₅₅), .said 51 (some rsp₅₁), .moved true] after

theorem CardInfo.identified_highCap {card : CardInfo} {cid rca csd : Response} :
    (card.identified cid rca csd).highCap = card.highCap := by
  unfold CardInfo.identified CardInfo.decodeCsd
  split <;> rfl

/-- The part of `MMCCardInit` behind the operating conditions. -/
theorem identification_runs {dataBuffer : Nat}
    (runs : desk.Results (readRegisters c fun c => setBlockLen c (readScr dataBuffer)) current value
      after) :
    ∃ reply said, after.lines = current.lines ++ .said 2 reply :: said ∧
      ((value = false ∧ Fails (.said 2 reply :: said)) ∨
        value = true ∧ Identified current.card (.said 2 reply :: said) after.card) := by
  rcases readRegisters_runs runs with ⟨rfl, reply, said, lines, fails⟩ |
    ⟨cid, rca, csd, middle, c', lines, card, runs⟩
  · exact ⟨reply, said, lines, .inl ⟨rfl, fails⟩⟩
  have quiet : Unheard [.said 2 (some cid), .said 3 (some rca), .said 9 (some csd)] := by
    simp [Unheard, Line.response]
  rcases setBlockLen_runs runs with ⟨rfl, lines'⟩ | ⟨len, middle', c'', lines', length, runs⟩
  · have fails : Fails [.said 16 none] := by simp [fails_iff, Unheard, Line.response, Line.failed]
    refine ⟨some cid, _, ?_, .inl ⟨rfl, fails.prepend quiet⟩⟩
    rw [lines', lines, List.append_assoc]
    rfl
  rw [card, CardInfo.identified_highCap] at length
  rcases readScr_runs runs with ⟨said, lines'', ⟨rfl, fails⟩ | ⟨_, _, _, rfl, rfl, scr⟩⟩
  · have quiet' : Unheard len := by
      rcases length with ⟨rfl, _⟩ | ⟨rsp, rfl, _⟩ <;> simp [Unheard, Line.response]
    refine ⟨some cid, _, ?_, .inl ⟨rfl, (fails.prepend quiet').prepend quiet⟩⟩
    rw [lines'', lines', lines, List.append_assoc, List.append_assoc]
    rfl
  rw [lines', lines, List.append_assoc, List.append_assoc] at lines''
  rcases length with ⟨rfl, highCap, same⟩ | ⟨rsp, rfl, highCap, same⟩
  · rw [same] at scr
    exact ⟨_, _, lines'', .inr ⟨rfl, .blocks highCap scr⟩⟩
  · rw [same] at scr
    exact ⟨_, _, lines'', .inr ⟨rfl, .bytes highCap scr⟩⟩

end Identification
end BbbEth.Mmc

