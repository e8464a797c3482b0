import BbbEth.Mmc.Exchange
import BbbEth.Registers.Field

/-!
# The encoding of commands

The fields of the registers that `MMC0CmdSend` writes.
-/

namespace BbbEth.Mmc

open BbbEth.Interference Server BbbEth.Registers

def indxField : Field := ⟨24, 6⟩
def cmdTypeField : Field := ⟨22, 2⟩
def dpField : Field := ⟨21, 1⟩
def rspTypeField : Field := ⟨16, 2⟩
def msbsField : Field := ⟨5, 1⟩
def ddirField : Field := ⟨4, 1⟩
def bceField : Field := ⟨1, 1⟩
def deField : Field := ⟨0, 1⟩
def nblkField : Field := ⟨16, 16⟩
def blockLengthField : Field := ⟨0, 16⟩

/-- The fields of the CMD register. -/
def cmdFields : List Field :=
  [indxField, cmdTypeField, dpField, rspTypeField, msbsField, ddirField, bceField, deField]

/-- The command type that the flags select. -/
def selectedType (flags : Word) : BitVec 2 :=
  if flags &&& sdCmdRspStop ≠ 0 then 1
  else if flags &&& sdCmdRspFs ≠ 0 then 2
  else if flags &&& sdCmdRspAbort ≠ 0 then 3
  else 0

/-- The response type that the flags select. -/
def selectedResponse (flags : Word) : BitVec 2 :=
  if flags &&& sdCmdRspNone ≠ 0 then 0
  else if flags &&& sdCmdRsp136Bits ≠ 0 then 1
  else if flags &&& sdCmdRspBusy ≠ 0 then 3
  else 2

/-- Whether the registers say what the command does. -/
structure Decodes (c : Cmd) (dmaEnable : Bool) (before after : CmdRegisters) : Prop where
  indx : (indxField.get after.cmd).toNat = c.idx.toNat
  cmdType : cmdTypeField.get after.cmd = selectedType c.flags
  rspType : rspTypeField.get after.cmd = selectedResponse c.flags
  ddir : ddirField.get after.cmd = if c.flags &&& sdCmdRspRead ≠ 0 then 1 else 0
  dp : dpField.get after.cmd = if c.flags &&& sdCmdRspData ≠ 0 then 1 else 0
  msbs : msbsField.get after.cmd = if c.flags &&& sdCmdRspData ≠ 0 then 1 else 0
  bce : bceField.get after.cmd = if c.flags &&& sdCmdRspData ≠ 0 then 1 else 0
  de : deField.get after.cmd = if dmaEnable then 1 else 0
  others : ∀ index, (∀ field ∈ cmdFields, ¬ field.Covers index) →
    after.cmd.getLsbD index = false
  arg : after.arg = c.arg
  nblk : (nblkField.get after.blk).toNat =
    if c.flags &&& sdCmdRspData ≠ 0 then c.nblks.toNat else 0
  blockLength : blockLengthField.get after.blk = blockLengthField.get before.blk

section Parts

variable {c : Cmd} {flags : Word}

theorem holds_cmdType (running : flags &&& sdCmdRspStop = 0) :
    cmdTypeField.Holds (cmdType flags) := by
  have clear : ¬ flags &&& 0x2 ≠ 0 := not_not.mpr running
  rw [cmdType, if_neg clear]
  split_ifs <;> decide

theorem get_cmdType (running : flags &&& sdCmdRspStop = 0) :
    cmdTypeField.get (cmdType flags) = selectedType flags := by
  have clear : ¬ flags &&& 0x2 ≠ 0 := not_not.mpr running
  unfold cmdType selectedType sdCmdRspStop sdCmdRspFs sdCmdRspAbort
  rw [if_neg clear, if_neg clear]
  split_ifs <;> rfl

theorem holds_rspType : rspTypeField.Holds (rspType flags) := by
  rw [rspType]
  split_ifs <;> decide

theorem get_rspType : rspTypeField.get (rspType flags) = selectedResponse flags := by
  unfold rspType selectedResponse sdCmdRspNone sdCmdRsp136Bits sdCmdRspBusy
  split_ifs <;> rfl

theorem holds_cmdDir : ddirField.Holds (cmdDir flags) := by
  rw [cmdDir]
  split_ifs <;> decide

theorem get_cmdDir :
    ddirField.get (cmdDir flags) = if flags &&& sdCmdRspRead ≠ 0 then 1 else 0 := by
  unfold cmdDir sdCmdRspRead
  split_ifs <;> rfl

/-- The bits for data. -/
def Cmd.dataBits (c : Cmd) : Word := if c.dataPresent then cmdDp ||| cmdMsbs ||| cmdBce else 0

theorem get_dataBits {field : Field} (apart : field ∉ [dpField, msbsField, bceField])
    (known : field ∈ cmdFields) : field.get c.dataBits = 0 := by
  have zero : ∀ field ∈ cmdFields, field ∉ [dpField, msbsField, bceField] →
      field.get (cmdDp ||| cmdMsbs ||| cmdBce) = 0 ∧ field.get (0 : Word) = 0 := by decide
  unfold Cmd.dataBits
  split
  · exact (zero field known apart).1
  · exact (zero field known apart).2

theorem dataBits_clear {index : Nat} (dp : ¬ dpField.Covers index)
    (msbs : ¬ msbsField.Covers index) (bce : ¬ bceField.Covers index) :
    c.dataBits.getLsbD index = false := by
  have holdsDp : dpField.Holds cmdDp := by decide
  have holdsMsbs : msbsField.Holds cmdMsbs := by decide
  have holdsBce : bceField.Holds cmdBce := by decide
  unfold Cmd.dataBits
  split
  · rw [BitVec.getLsbD_or, BitVec.getLsbD_or, holdsDp.clear dp, holdsMsbs.clear msbs,
      holdsBce.clear bce]
    rfl
  · exact BitVec.getLsbD_zero

theorem get_dataBits_own {field : Field} {one : BitVec field.size}
    (present : field.get (cmdDp ||| cmdMsbs ||| cmdBce) = one) (absent : field.get (0 : Word) = 0) :
    field.get c.dataBits = if c.flags &&& sdCmdRspData ≠ 0 then one else 0 := by
  have same : c.dataPresent = decide (c.flags &&& sdCmdRspData ≠ 0) := rfl
  by_cases data : c.flags &&& sdCmdRspData ≠ 0
  · rw [Cmd.dataBits, same, if_pos data, if_pos (decide_eq_true data), present]
  · rw [Cmd.dataBits, same, if_neg data, if_neg (by simpa using data), absent]

/-- The bit for DMA. -/
def dmaBit (dmaEnable : Bool) : Word := if dmaEnable then cmdDe else 0

theorem holds_dmaBit (dmaEnable : Bool) : deField.Holds (dmaBit dmaEnable) := by
  cases dmaEnable <;> decide

theorem sent_cmd (c : Cmd) (dmaEnable : Bool) (registers : CmdRegisters) :
    (c.sent dmaEnable registers).cmd =
      ((c.idx <<< 24 ||| cmdType c.flags ||| rspType c.flags ||| cmdDir c.flags) ||| c.dataBits) |||
        dmaBit dmaEnable := rfl

theorem holds_idx (small : c.idx.toNat < 64) : indxField.Holds (c.idx <<< 24) :=
  Field.holds_shift small

section Fields

variable {field : Field} {dmaEnable : Bool} {registers : CmdRegisters}

/-- A field apart from that of the index. -/
theorem get_sent_low (small : c.idx.toNat < 64) (apart : field.Apart indxField) :
    field.get (c.sent dmaEnable registers).cmd =
      field.get ((cmdType c.flags ||| rspType c.flags ||| cmdDir c.flags) ||| c.dataBits |||
        dmaBit dmaEnable) := by
  have same : (c.sent dmaEnable registers).cmd = c.idx <<< 24 ||| ((cmdType c.flags |||
      rspType c.flags ||| cmdDir c.flags) ||| c.dataBits ||| dmaBit dmaEnable) := by
    simp only [sent_cmd, BitVec.or_assoc]
  rw [same, Field.get_or_right ((holds_idx small).get apart)]

/-- A field that data has no part in. -/
theorem get_sent_flags (small : c.idx.toNat < 64) (apart : field.Apart indxField)
    (known : field ∈ cmdFields) (quiet : field ∉ [dpField, msbsField, bceField])
    (off : field.Apart deField) :
    field.get (c.sent dmaEnable registers).cmd =
      field.get (cmdType c.flags ||| rspType c.flags ||| cmdDir c.flags) := by
  rw [get_sent_low small apart, Field.get_or_left ((holds_dmaBit _).get off),
    Field.get_or_left (get_dataBits quiet known)]

/-- A field for data. -/
theorem get_sent_data (small : c.idx.toNat < 64) (running : c.flags &&& sdCmdRspStop = 0)
    (data : field ∈ [dpField, msbsField, bceField]) :
    field.get (c.sent dmaEnable registers).cmd = field.get c.dataBits := by
  have apart : ∀ field ∈ [dpField, msbsField, bceField], field.Apart indxField ∧
      field.Apart cmdTypeField ∧ field.Apart rspTypeField ∧ field.Apart ddirField ∧
      field.Apart deField := by decide
  rcases apart field data with ⟨indx, type, rsp, dir, de⟩
  rw [get_sent_low small indx, Field.get_or_left ((holds_dmaBit _).get de), Field.get_or_right]
  rw [Field.get_or_left (holds_cmdDir.get dir), Field.get_or_left (holds_rspType.get rsp),
    (holds_cmdType running).get type]

/-- The index. -/
theorem toNat_indx : (indxField.get (c.sent dmaEnable registers).cmd).toNat = c.idx.toNat % 64 := by
  have type : indxField.get (cmdType c.flags) = 0 := by
    unfold cmdType
    split_ifs <;> rfl
  have own : indxField.get (c.idx <<< 24) = c.idx.setWidth 6 := Field.get_shift (by decide)
  rw [sent_cmd, Field.get_or_left ((holds_dmaBit _).get (by decide)),
    Field.get_or_left (get_dataBits (by decide) (by decide)),
    Field.get_or_left (holds_cmdDir.get (by decide)),
    Field.get_or_left (holds_rspType.get (by decide)), Field.get_or_left type, own]
  exact BitVec.toNat_setWidth ..

end Fields

section Blocks

variable {registers : CmdRegisters} {command arg nblk : Word}

theorem getLsbD_blkNblk {index : Nat} (inside : index < 32) :
    blkNblk.getLsbD index = decide (16 ≤ index) := by
  revert index
  decide

theorem get_nblk (few : nblk.toNat < 2 ^ 16) :
    (nblkField.get (registers.sendCmd command arg nblk).blk).toNat = nblk.toNat := by
  have clear : nblkField.get (registers.blk &&& ~~~blkNblk) = 0 := by
    apply Field.get_eq_zero
    rintro index ⟨least, less⟩
    have inside : index < 32 := less
    have high : 16 ≤ index := least
    rw [BitVec.getLsbD_and, BitVec.getLsbD_not, getLsbD_blkNblk inside, decide_eq_true high,
      Bool.not_true, Bool.and_false, Bool.and_false]
  rw [CmdRegisters.sendCmd, Field.get_or_right clear]
  exact Field.toNat_get_shift (by decide) few

/-- A field of the lower half is kept. -/
theorem get_lower {field : Field} (low : field.offset + field.size ≤ 16) :
    field.get (registers.sendCmd command arg nblk).blk = field.get registers.blk := by
  apply Field.get_congr
  rintro index ⟨least, less⟩
  have below : index < 16 := less.trans_le low
  have kept : (decide (16 ≤ index)) = false := decide_eq_false (not_le.mpr below)
  rw [CmdRegisters.sendCmd, BitVec.getLsbD_or, BitVec.getLsbD_and, BitVec.getLsbD_not,
    getLsbD_blkNblk (by omega), kept, BitVec.getLsbD_shiftLeft, decide_eq_true below,
    decide_eq_true (show index < 32 by omega)]
  simp

end Blocks

/-- The fields of the command word. -/
theorem decodes_of_running {dmaEnable : Bool} {registers : CmdRegisters} (small : c.idx.toNat < 64)
    (few : c.nblks.toNat < 65536) (running : c.flags &&& sdCmdRspStop = 0) :
    Decodes c dmaEnable registers (c.sent dmaEnable registers) where
  indx := toNat_indx.trans (Nat.mod_eq_of_lt small)
  cmdType := by
    rw [get_sent_flags small (by decide) (by decide) (by decide) (by decide),
      Field.get_or_left (holds_cmdDir.get (by decide)),
      Field.get_or_left (holds_rspType.get (by decide))]
    exact get_cmdType running
  rspType := by
    rw [get_sent_flags small (by decide) (by decide) (by decide) (by decide),
      Field.get_or_left (holds_cmdDir.get (by decide)),
      Field.get_or_right ((holds_cmdType running).get (by decide))]
    exact get_rspType
  ddir := by
    rw [get_sent_flags small (by decide) (by decide) (by decide) (by decide), Field.get_or_right]
    · exact get_cmdDir
    · rw [Field.get_or_left (holds_rspType.get (by decide)),
        (holds_cmdType running).get (by decide)]
  dp := (get_sent_data small running (by decide)).trans (get_dataBits_own rfl rfl)
  msbs := (get_sent_data small running (by decide)).trans (get_dataBits_own rfl rfl)
  bce := (get_sent_data small running (by decide)).trans (get_dataBits_own rfl rfl)
  de := by
    rw [get_sent_low small (by decide), Field.get_or_right]
    · cases dmaEnable <;> rfl
    · rw [Field.get_or_left (get_dataBits (by decide) (by decide)),
        Field.get_or_left (holds_cmdDir.get (by decide)),
        Field.get_or_left (holds_rspType.get (by decide)),
        (holds_cmdType running).get (by decide)]
  others index outside := by
    have dataBits : c.dataBits.getLsbD index = false :=
      dataBits_clear (outside _ (by decide)) (outside _ (by decide)) (outside _ (by decide))
    rw [sent_cmd]
    simp only [BitVec.getLsbD_or]
    rw [(holds_idx small).clear (outside _ (by decide)),
      (holds_cmdType running).clear (outside _ (by decide)),
      holds_rspType.clear (outside _ (by decide)), holds_cmdDir.clear (outside _ (by decide)),
      (holds_dmaBit _).clear (outside _ (by decide)), dataBits]
    rfl
  arg := rfl
  nblk := by
    have small : (if c.dataPresent then c.nblks else 0 : Word).toNat < 2 ^ 16 := by
      split
      · exact few
      · decide
    have blocks : (nblkField.get (c.sent dmaEnable registers).blk).toNat = _ :=
      get_nblk small
    rw [blocks]
    by_cases data : c.flags &&& sdCmdRspData ≠ 0
    · rw [if_pos data, if_pos (show c.dataPresent = true from decide_eq_true data)]
    · rw [if_neg data, if_neg (show ¬ c.dataPresent = true from fun present =>
        data (of_decide_eq_true present))]
      rfl
  blockLength := get_lower (le_refl 16)

end Parts
/-- A command that stops has another type than it selects. -/
theorem running_of_decodes {c : Cmd} {dmaEnable : Bool} {registers : CmdRegisters}
    (small : c.idx.toNat < 64)
    (decodes : Decodes c dmaEnable registers (c.sent dmaEnable registers)) :
    c.flags &&& sdCmdRspStop = 0 := by
  by_contra stops
  have selected : selectedType c.flags = 1 := if_pos stops
  have type : cmdType c.flags = 1 := if_pos stops
  have get : cmdTypeField.get (c.sent dmaEnable registers).cmd = 0 := by
    rw [get_sent_flags small (by decide) (by decide) (by decide) (by decide),
      Field.get_or_left (holds_cmdDir.get (by decide)),
      Field.get_or_left (holds_rspType.get (by decide)), type]
    rfl
  rw [decodes.cmdType, selected] at get
  have differs : (1 : BitVec 2) ≠ 0 := by decide
  exact differs get

section Runs

variable {c : Cmd} {current after : Desk} {value : Bool × Cmd}

/-- The registers that `MMC0CmdSend` writes. -/
theorem registers_of_mmc0CmdSend (sends : desk.Results (mmc0CmdSend c) current value after) :
    after.registers = c.sent current.dmaEnable current.registers := by
  rcases results_mmc0CmdSend.mp sends with ⟨reply, _, rfl⟩
  rfl

/-- The registers say what the command does exactly if it does not stop. -/
theorem decodes_iff (small : c.idx.toNat < 64) (few : c.nblks.toNat < 65536)
    (sends : desk.Results (mmc0CmdSend c) current value after) :
    Decodes c current.dmaEnable current.registers after.registers ↔
      c.flags &&& sdCmdRspStop = 0 := by
  rw [registers_of_mmc0CmdSend sends]
  exact ⟨running_of_decodes small, decodes_of_running small few⟩

/-- A read of three blocks. -/
def sampleRead : Cmd :=
  { Cmd.blank with
    idx := 18
    flags := sdCmdRspRead ||| sdCmdRspData ||| sdCmdRspAbort
    arg := 4096
    nblks := 3 }

theorem sampleRead_decodes :
    Decodes sampleRead false ⟨0, 0, 0⟩ (sampleRead.sent false ⟨0, 0, 0⟩) := by
  have sends : desk.Results (mmc0CmdSend sampleRead) Desk.clear (false, sampleRead)
      (Desk.clear.exchange sampleRead none) := results_mmc0CmdSend.mpr ⟨none, rfl, rfl⟩
  exact (decodes_iff (by decide) (by decide) sends).mpr rfl

/-- A command that stops is not decoded. -/
theorem not_decodes : ¬ ∀ (c : Cmd) (current after : Desk) (value : Bool × Cmd),
    c.idx.toNat < 64 → c.nblks.toNat < 65536 →
    desk.Results (mmc0CmdSend c) current value after →
    Decodes c current.dmaEnable current.registers after.registers := by
  intro decodes
  have stops : Decodes { Cmd.blank with flags := sdCmdRspStop } false ⟨0, 0, 0⟩ _ :=
    decodes _ Desk.clear _ _ (by decide) (by decide) (results_mmc0CmdSend.mpr ⟨none, rfl, rfl⟩)
  exact absurd (running_of_decodes (by decide) stops) (by decide)

end Runs

end BbbEth.Mmc
