import BbbEth.Mmc.Exchange

/-!
# The speed of the bus

When the card and the host agree on the speed behind `MMCTranSpeedSet`.
-/

namespace BbbEth.Mmc

open BbbEth.Interference Server Routine

/-- `GET_SD_CARD_FRE`, in MHz. -/
def getSdCardFre (tranSpeed : Byte) : Nat :=
  if tranSpeed = 0x5A then 50 else if tranSpeed = 0x32 then 25 else 0

/-- The byte of the switch function response that an entry has. -/
def Entry.response (dataBuffer : Nat) : Entry → Option Byte
  | .loaded address value => if address = dataBuffer + 16 then some value else none
  | _ => none

/-- The card confirms high speed. -/
def confirmed (dataBuffer : Nat) (log : List Entry) : Bool :=
  match log.reverse.findSome? (Entry.response dataBuffer) with
  | some group => group &&& 0xF = 1
  | none => false

/-- What a call of `MMCTranSpeedSet` promises. -/
structure SpeedAgrees (highSpeed : Bool) (value : Bool) (before after : Desk) : Prop where
  within : value = true → after.opClk ≤ if highSpeed then 50000000 else 25000000
  describes : value = true → getSdCardFre after.card.tranSpeed = if highSpeed then 50 else 25
  agrees : value = true → after.opClk = getSdCardFre after.card.tranSpeed * 1000000
  unchanged : value = false →
    after.card.tranSpeed = before.card.tranSpeed ∧ after.opClk = before.opClk

/-- The clock that is set for a speed. -/
def clockFor (tranSpeed : Byte) : Nat :=
  if tranSpeed = sdTranSpeed50Mbps then 50000000 else 25000000

/-- When it keeps its promise: nothing was recorded, or what is recorded was so before. -/
def SpeedStands (highSpeed : Bool) (before : Desk) (log : List Entry) : Prop :=
  match log.getLast? with
  | some (.clock _ true) => before.card.tranSpeed = if highSpeed then 0x5A else 0x32
  | some (.clock _ false) =>
      (highSpeed = true → before.card.tranSpeed = 0x5A) ∧
        before.opClk = clockFor before.card.tranSpeed
  | _ => True

section Runs

variable {current after : Desk} {value : Bool} {dataBuffer : Nat}

/-- The command that asks for high speed. -/
def switchCmd : Cmd :=
  { Cmd.blank with
    idx := 6
    arg := (sdSwitchMode &&& sdCmd6Grp1Sel) ||| sdCmd6Grp1Hs
    flags := sdCmdRspRead ||| sdCmdRspData
    nblks := 1 }

/-- The record of the card behind a response. -/
def CardInfo.switched (card : CardInfo) (group : Byte) : CardInfo :=
  if group &&& 0xF = 1 then { card with tranSpeed := sdTranSpeed50Mbps } else card

/-- What is left of a switch that the card answers. -/
def Desk.switched (desk : Desk) (dataBuffer : Nat) (group : Byte) (set : Bool) : Desk :=
  { desk with
    card := desk.card.switched group
    opClk := clockFor desk.card.tranSpeed
    log := desk.log ++ [.loaded (dataBuffer + 16) group,
      .clock (clockFor desk.card.tranSpeed) set] }

theorem results_noteHighSpeed {group : Byte} {done : Unit} :
    desk.Results (noteHighSpeed group) current done after ↔
      after = { current with card := current.card.switched group } := by
  have same : ∀ low : Byte, low.setWidth 32 = sdCmd6Grp1Hs ↔ low = 1 := by
    intro low
    unfold sdCmd6Grp1Hs
    constructor
    · intro equal
      bv_omega
    · rintro rfl
      rfl
  unfold noteHighSpeed CardInfo.switched
  by_cases high : group &&& 0xF = 1
  · rw [if_pos ((same _).mpr high), if_pos high, results_setCard]
  · rw [if_neg ((same _).not.mpr high), if_neg high, results_done]
    exact ⟨fun ends => ends.2, fun ends => ⟨rfl, ends⟩⟩

theorem results_setOpClk {freq : Nat} :
    desk.Results (setOpClk freq) current value after ↔
      after = { current with opClk := freq, log := current.log ++ [.clock freq value] } := by
  simp only [setOpClk, Program.bind_lift, results_perform, answers_setBusFreq, results_bind,
    results_emit, results_done]
  constructor
  · rintro ⟨set, _, rfl, _, _, rfl, rfl, rfl⟩
    rfl
  · rintro rfl
    exact ⟨value, _, rfl, (), _, rfl, rfl, rfl⟩

/-- The part behind the transfer. -/
theorem results_switched :
    desk.Results (do
      Coherence.cp15DCacheFlushBuff issue dataBuffer dataResponseWidth
      let speed ← getCard (·.tranSpeed)
      let group ← .lift (.loadByte (dataBuffer + 16))
      noteHighSpeed group
      setOpClk (if speed = sdTranSpeed50Mbps then 50000000 else 25000000)) current value after ↔
      ∃ group, after = current.switched dataBuffer group value := by
  simp only [results_bind, results_cp15DCacheFlushBuff, results_getCard, exists_const,
    exists_eq_left, results_lift, answers_loadByte, results_noteHighSpeed, results_setOpClk]
  constructor
  · rintro ⟨_, _, ⟨rfl, rfl⟩, group, rfl⟩
    exact ⟨group, by simp [Desk.switched, clockFor]⟩
  · rintro ⟨group, rfl⟩
    exact ⟨_, _, ⟨rfl, rfl⟩, group, by simp [Desk.switched, clockFor]⟩

/-- The runs of `MMCTranSpeedSet`. -/
theorem results_mmcTranSpeedSet :
    desk.Results (mmcTranSpeedSet dataBuffer) current value after ↔
      ∃ started, started = current.prepared .mmc0Rx (dmaEntry .mmc0Rx dataBuffer 64 1) 64 ∧
        ((value = false ∧ after = started.exchange switchCmd none) ∨
          ∃ rsp, (value = false ∧
              after = (started.exchange switchCmd (some rsp)).transferred false) ∨
            ∃ group, after = ((started.exchange switchCmd (some rsp)).transferred true).switched
              dataBuffer group value) := by
  rw [mmcTranSpeedSet, results_bind]
  simp only [results_mmcXferSetup, exists_const, results_transfer, results_switched]
  rfl

@[simp] theorem switched_log {group : Byte} {set : Bool} :
    (current.switched dataBuffer group set).log =
      current.log ++ [.loaded (dataBuffer + 16) group] ++
        [.clock (clockFor current.card.tranSpeed) set] := by
  simp [Desk.switched]

theorem confirmed_switched {group : Byte} {set : Bool} :
    confirmed dataBuffer (current.switched dataBuffer group set).log =
      decide (group &&& 0xF = 1) := by
  simp [confirmed, List.findSome?_cons, Entry.response]

theorem clockFor_eq_iff {tranSpeed : Byte} : clockFor tranSpeed = 50000000 ↔ tranSpeed = 0x5A := by
  constructor
  · intro clock
    by_contra slow
    have clock' : clockFor tranSpeed = 25000000 := if_neg slow
    omega
  · rintro rfl
    rfl

theorem getSdCardFre_eq_iff {tranSpeed : Byte} :
    getSdCardFre tranSpeed = 25 ↔ tranSpeed = 0x32 := by
  constructor
  · intro fre
    by_contra other
    by_cases fast : tranSpeed = 0x5A
    · rw [fast] at fre
      exact absurd fre (by decide)
    · rw [getSdCardFre, if_neg fast, if_neg other] at fre
      exact absurd fre (by decide)
  · rintro rfl
    rfl

theorem switched_tranSpeed {group : Byte} {set : Bool} :
    (current.switched dataBuffer group set).card.tranSpeed =
      if group &&& 0xF = 1 then 0x5A else current.card.tranSpeed := by
  change (current.card.switched group).tranSpeed = _
  rw [CardInfo.switched]
  split <;> rfl

/-- A card that is switched agrees with the host exactly if its record stood before. -/
theorem switched_iff {before : Desk} {group : Byte} {set : Bool}
    (speed : before.card.tranSpeed = current.card.tranSpeed) :
    SpeedAgrees (decide (group &&& 0xF = 1)) set before
        (current.switched dataBuffer group set) ↔
      SpeedStands (decide (group &&& 0xF = 1)) before
        (current.switched dataBuffer group set).log := by
  have opClk : (current.switched dataBuffer group set).opClk = clockFor before.card.tranSpeed := by
    rw [speed]
    rfl
  have tranSpeed : (current.switched dataBuffer group set).card.tranSpeed = _ :=
    switched_tranSpeed
  rw [← speed] at tranSpeed
  rw [SpeedStands, switched_log, List.getLast?_concat]
  by_cases high : group &&& 0xF = 1
  · rw [if_pos high] at tranSpeed
    rw [decide_eq_true high]
    cases set with
    | true =>
        constructor
        · rintro ⟨_, _, agrees, _⟩
          have clock := agrees rfl
          rw [opClk, tranSpeed] at clock
          exact clockFor_eq_iff.mp clock
        · intro stands
          have fast : clockFor before.card.tranSpeed = 50000000 := clockFor_eq_iff.mpr stands
          refine ⟨fun _ => ?_, fun _ => ?_, fun _ => ?_, nofun⟩
          · rw [opClk, fast]
            exact le_rfl
          · rw [tranSpeed]
            rfl
          · rw [opClk, tranSpeed, fast]
            rfl
    | false =>
        constructor
        · rintro ⟨_, _, _, unchanged⟩
          rcases unchanged rfl with ⟨speed', clk'⟩
          rw [tranSpeed] at speed'
          rw [opClk] at clk'
          exact ⟨fun _ => speed'.symm, clk'.symm⟩
        · rintro ⟨stood, clk'⟩
          refine ⟨nofun, nofun, nofun, fun _ => ⟨?_, ?_⟩⟩
          · rw [tranSpeed]
            exact (stood rfl).symm
          · rw [opClk]
            exact clk'.symm
  · rw [if_neg high] at tranSpeed
    rw [decide_eq_false high]
    cases set with
    | true =>
        constructor
        · rintro ⟨_, describes, _, _⟩
          have fre := describes rfl
          rw [tranSpeed] at fre
          exact getSdCardFre_eq_iff.mp fre
        · intro stands
          have slow : before.card.tranSpeed = 0x32 := stands
          refine ⟨fun _ => ?_, fun _ => ?_, fun _ => ?_, nofun⟩
          · rw [opClk, slow]
            exact le_rfl
          · rw [tranSpeed, slow]
            rfl
          · rw [opClk, tranSpeed, slow]
            rfl
    | false =>
        constructor
        · rintro ⟨_, _, _, unchanged⟩
          rcases unchanged rfl with ⟨_, clk'⟩
          rw [opClk] at clk'
          exact ⟨nofun, clk'.symm⟩
        · rintro ⟨_, clk'⟩
          refine ⟨nofun, nofun, nofun, fun _ => ⟨tranSpeed, ?_⟩⟩
          rw [opClk]
          exact clk'.symm

/-- A call that fails promises only that nothing has changed. -/
theorem SpeedAgrees.of_failed {highSpeed : Bool}
    (tranSpeed : after.card.tranSpeed = current.card.tranSpeed)
    (opClk : after.opClk = current.opClk) : SpeedAgrees highSpeed false current after := by
  refine ⟨?_, ?_, ?_, fun _ => ⟨tranSpeed, opClk⟩⟩
  · intro succeeds
    cases succeeds
  · intro succeeds
    cases succeeds
  · intro succeeds
    cases succeeds

/-- The card and the host agree exactly if the record of the card is what it confirms before. -/
theorem speedAgrees_iff (sets : desk.Results (mmcTranSpeedSet dataBuffer) current value after) :
    SpeedAgrees (confirmed dataBuffer after.log) value current after ↔
      SpeedStands (confirmed dataBuffer after.log) current after.log := by
  rcases results_mmcTranSpeedSet.mp sets with
    ⟨started, rfl, ⟨rfl, rfl⟩ | ⟨rsp, ⟨rfl, rfl⟩ | ⟨group, rfl⟩⟩⟩
  · rw [SpeedStands, Desk.exchange, List.getLast?_concat]
    exact ⟨fun _ => trivial, fun _ => .of_failed rfl rfl⟩
  · rw [SpeedStands, Desk.transferred, List.getLast?_concat]
    exact ⟨fun _ => trivial, fun _ => .of_failed rfl rfl⟩
  · rw [confirmed_switched]
    exact switched_iff rfl

/-- A desk with a card that is read at 25 MHz. -/
def defaultDesk : Desk := { Desk.clear with card := { CardInfo.zero with tranSpeed := 0x32 } }

/-- What is left of a switch that is answered. -/
def defaultDesk.switched (group : Byte) : Desk :=
  (((defaultDesk.prepared .mmc0Rx (dmaEntry .mmc0Rx 0 64 1) 64).exchange switchCmd
    (some fun _ => 0)).transferred true).switched 0 group true

theorem defaultDesk_switches (group : Byte) :
    desk.Results (mmcTranSpeedSet 0) defaultDesk true (defaultDesk.switched group) :=
  results_mmcTranSpeedSet.mpr ⟨_, rfl, .inr ⟨_, .inr ⟨group, rfl⟩⟩⟩

/-- A card that stays at the default speed agrees. -/
theorem defaultDesk_agrees :
    SpeedAgrees (confirmed 0 (defaultDesk.switched 0).log) true defaultDesk
      (defaultDesk.switched 0) :=
  (speedAgrees_iff (defaultDesk_switches 0)).mpr rfl

/-- A card that changes to high speed does not agree. -/
theorem not_speedAgrees : ¬ ∀ (dataBuffer : Nat) (current after : Desk) (value : Bool),
    desk.Results (mmcTranSpeedSet dataBuffer) current value after →
    SpeedAgrees (confirmed dataBuffer after.log) value current after := by
  intro agrees
  have clock := (agrees 0 defaultDesk _ true (defaultDesk_switches 1)).agrees rfl
  exact absurd clock (by decide)

end Runs

end BbbEth.Mmc
