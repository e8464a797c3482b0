import BbbEth.Cpsw.Switch.Requests
import BbbEth.Cpsw.Ale.Vlan

/-!
# Commands on the table

What the commands that add, find and delete entries report, and when the entry is as asked for.
An index from 128 on is never reported.
-/

namespace BbbEth.Switch

open Ale

variable {dev : Device} {wanted : Key} {idx : Nat} {reads : Bool}

/-! ## Reports -/

/-- What a command reports of the result of an operation. -/
def report (err : Err) : Int := if err = errVal then errFail else err.toInt

theorem tabled_eq {op : Engine → Err × Engine} :
    tabled op dev = { dev with ale := (op dev.ale).2, ret := report (op dev.ale).1 } :=
  rfl

theorem report_lt (err : Err) : report err < 128 := by
  unfold report
  split
  · decide
  · exact BitVec.toInt_lt

theorem report_ofIndex (small : idx < 128) : report (.ofIndex (some idx)) = idx := by
  unfold report
  rw [if_neg (ofIndex_ne small)]
  exact toInt_ofIndex small

/-- An index that is reported is small. -/
theorem small_of_report {err : Err} (reports : report err = idx) : idx < 128 := by
  have less := report_lt err
  rw [reports] at less
  exact Int.ofNat_lt.mp less

/-- An operation that puts an entry at its index. -/
theorem atIndex_entered {op : Engine → Err × Engine} {asked : Entry → Prop} {stored : Entry}
    (runs : op dev.ale = (.ofIndex (some idx), dev.ale.entered idx stored)) (small : idx < 128) :
    AtIndex (some idx) asked dev (tabled op dev) ↔ asked (latch stored) := by
  rw [tabled_eq, runs]
  constructor
  · intro atIndex
    have here := atIndex.2.1
    rwa [show (dev.ale.entered idx stored).table (pointer idx) = latch stored from entered_self]
      at here
  · intro asks
    refine ⟨report_ofIndex small, ?_, fun entry other => entered_other other⟩
    rwa [show (dev.ale.entered idx stored).table (pointer idx) = latch stored from entered_self]

/-- An operation that leaves the table. -/
theorem atIndex_none {op : Engine → Err × Engine} {asked : Entry → Prop}
    (runs : ∃ tblw, op dev.ale = (errVal, { dev.ale with tblw })) :
    AtIndex none asked dev (tabled op dev) := by
  rcases runs with ⟨tblw, runs⟩
  rw [tabled_eq, runs]
  exact ⟨rfl, rfl⟩

theorem not_atIndex {op : Engine → Err × Engine} {asked : Entry → Prop} (large : ¬ idx < 128) :
    ¬ AtIndex (some idx) asked dev (tabled op dev) := by
  intro atIndex
  rw [tabled_eq] at atIndex
  exact large (small_of_report atIndex.1)

/-! ## Operations -/

/-- An operation that adds an entry. -/
theorem atIndex_add {fill : Entry → Entry} {asked : Entry → Prop} :
    AtIndex (place wanted dev.ale.table) asked dev (tabled (add wanted.find reads fill) dev) ↔
      ∀ idx, place wanted dev.ale.table = some idx →
        idx < 128 ∧ asked (latch (fill (base reads wanted dev.ale.table))) := by
  cases placed : place wanted dev.ale.table with
  | none => exact iff_of_true (atIndex_none (add_nowhere placed)) fun _ found => by cases found
  | some idx =>
      by_cases small : idx < 128
      · rw [atIndex_entered (add_at placed small) small]
        constructor
        · rintro asks _ ⟨⟩
          exact ⟨small, asks⟩
        · exact fun all => (all idx rfl).2
      · exact iff_of_false (not_atIndex small) fun all => small (all idx rfl).1

/-- An operation that changes the entry with a key. -/
theorem atIndex_del {change : Entry → Option Entry} {asked : Entry → Prop} :
    AtIndex (first wanted.test dev.ale.table) asked dev
        (tabled (del wanted.find reads change) dev) ↔
      ∀ idx, first wanted.test dev.ale.table = some idx → idx < 128 ∧ ∃ stored,
        change (if reads then dev.ale.table (pointer idx) else noEntry) = some stored ∧
          asked (latch stored) := by
  cases found : first wanted.test dev.ale.table with
  | none => exact iff_of_true (atIndex_none (del_absent found)) fun _ same => by cases same
  | some idx =>
      by_cases small : idx < 128
      · have deletes : ∃ tblw, del wanted.find reads change dev.ale = _ := del_present found small
        rcases deletes with ⟨tblw, deletes⟩
        cases changed : change (if reads then dev.ale.table (pointer idx) else noEntry) with
        | none =>
            rw [changed] at deletes
            refine iff_of_false (fun atIndex => ?_) fun all => ?_
            · rw [tabled_eq, deletes] at atIndex
              have reported : errFail = (idx : Int) := atIndex.1
              unfold errFail at reported
              omega
            · rcases (all idx rfl).2 with ⟨_, same, _⟩
              cases changed.symm.trans same
        | some stored =>
            rw [changed] at deletes
            rw [atIndex_entered deletes small]
            constructor
            · rintro asks _ ⟨⟩
              exact ⟨small, stored, changed, asks⟩
            · intro all
              rcases (all idx rfl).2 with ⟨_, same, asks⟩
              cases changed.symm.trans same
              exact asks
      · exact iff_of_false (not_atIndex small) fun all => small (all idx rfl).1

/-- A search. -/
theorem found_find : Found (first wanted.test dev.ale.table) dev (tabled wanted.find dev) ↔
    ∀ idx, first wanted.test dev.ale.table = some idx → idx < 128 := by
  rcases find_eq wanted dev.ale with ⟨tblw, finds⟩
  rw [tabled_eq, finds]
  cases found : first wanted.test dev.ale.table with
  | none => exact iff_of_true ⟨rfl, rfl⟩ fun _ same => by cases same
  | some idx =>
      constructor
      · rintro ⟨reports, _⟩ _ ⟨⟩
        exact small_of_report reports
      · exact fun all => ⟨report_ofIndex (all idx rfl), rfl⟩

/-! ## Parameters -/

theorem checkValid_iff {value min max : Word} :
    checkValid value min max = true ↔ min ≤ value ∧ value ≤ max :=
  decide_eq_true_iff

/-- A parameter up to a bound, as a number. -/
theorem toNat_le {value max : Word} (valid : checkValid value 0 max = true) :
    value.toNat ≤ max.toNat :=
  BitVec.le_def.mp (checkValid_iff.mp valid).2

/-- A parameter that fits in fewer bits. -/
theorem narrow {value max : Word} {width : Nat} (valid : checkValid value 0 max = true)
    (fits : max.toNat < 2 ^ width) :
    (value.setWidth width).setWidth 32 = value := by
  have small := toNat_le valid
  apply BitVec.eq_of_toNat_eq
  rw [BitVec.toNat_setWidth, BitVec.toNat_setWidth, Nat.mod_eq_of_lt (a := value.toNat) (by omega)]
  exact Nat.mod_eq_of_lt value.isLt

theorem narrow_vid {vid : Word} (valid : checkValid vid 0 4095 = true) :
    (vid.setWidth 12).setWidth 32 = vid :=
  narrow valid (by decide)

theorem narrow_mask {mask : Word} (valid : checkValid mask 0 7 = true) :
    (mask.setWidth 3).setWidth 32 = mask :=
  narrow valid (by decide)

/-! ## Multicast entries -/

section Commands

variable {param : Param}

/-- The call for an address is one of two. -/
theorem exists_join (vid : BitVec 12) (portmask : BitVec 3) (ethAddr : EthAddr)
    (super mcastSt : Word) : ∃ join : Join vid,
      (if vid.setWidth 32 = 0 then
        cpswifAleMulticastentryAdd (portmask.setWidth 32) ethAddr super mcastSt
      else
        cpswifAleVlanAddMcast (vid.setWidth 32) (portmask.setWidth 32) ethAddr super mcastSt) =
          add (Key.address ethAddr vid).find true (join.fill ethAddr) ∧
      join.portmask = portmask ∧ join.super = super ∧ join.mcastSt = mcastSt := by
  by_cases zero : vid = 0
  · subst zero
    exact ⟨.multicastentryAdd portmask super mcastSt, if_pos rfl, rfl, rfl, rfl⟩
  · have used : vid.setWidth 32 ≠ 0 := fun same => zero (setWidth_inj.mp (same.trans rfl))
    exact ⟨.vlanAddMcast portmask super mcastSt, if_neg used, rfl, rfl, rfl⟩

/-- The mask that is there and the shifted one add the same bits, and the supervisory bit is not
to be cleared. -/
structure Param.Merges (param : Param) (table : Pointer → Entry) : Prop where
  kept : param.portMask.setWidth 3 ||| maskOf param.addr (param.vid.setWidth 12) table =
    param.portMask.setWidth 3 ||| maskOf param.addr (param.vid.setWidth 12) table <<< 2
  super : ∀ entry, lookup param.address table = some entry → entrySuper entry = true →
    param.super.getLsbD 0 = true

/-- A multicast entry is as asked for exactly if the mask and the supervisory bit merge. -/
theorem multicast_iff {table : Pointer → Entry} {join : Join (param.vid.setWidth 12)}
    (portmask : join.portmask = param.portMask.setWidth 3) (super : join.super = param.super)
    (mcastSt : join.mcastSt = param.fwdState) :
    param.Multicast table (latch (join.fill param.addr (base true param.address table))) ↔
      param.Merges table := by
  have old : base true param.address table =
      (lookup (.address param.addr (param.vid.setWidth 12)) table).getD noEntry := rfl
  constructor
  · rintro ⟨_, mask, bit, _⟩
    rw [entryPortMask_fill, portmask, old] at mask
    rw [entrySuper_fill, super] at bit
    refine ⟨?_, fun entry found set => ?_⟩
    · rw [BitVec.or_comm]
      exact mask.symm
    · have here : base true param.address table = entry :=
        congrArg (Option.getD · noEntry) found
      rwa [here, set, Bool.true_or, eq_comm] at bit
  · rintro ⟨kept, stays⟩
    refine ⟨key_latch.trans (key_fill ready_base), ?_, ?_, ?_⟩
    · rw [entryPortMask_fill, portmask, BitVec.or_comm (maskOf ..), kept]
      rfl
    · rw [entrySuper_fill, super, old]
      cases found : lookup (.address param.addr (param.vid.setWidth 12)) table with
      | none => exact Bool.false_or _
      | some entry =>
          cases set : entrySuper entry with
          | false =>
              change (entrySuper entry || _) = _
              rw [set, Bool.false_or]
          | true =>
              change (entrySuper entry || _) = _
              rw [set, stays entry found set, Bool.true_or]
    · rw [entryForward_fill, mcastSt]

theorem atIndex_multicast (vid : checkValid param.vid 0 4095 = true)
    (portMask : checkValid param.portMask 0 7 = true) :
    AtIndex (place param.address dev.ale.table) (param.Multicast dev.ale.table) dev
      (tabled (if param.vid = 0 then
        cpswifAleMulticastentryAdd param.portMask param.addr param.super param.fwdState
      else
        cpswifAleVlanAddMcast param.vid param.portMask param.addr param.super param.fwdState) dev) ↔
      ∀ idx, place param.address dev.ale.table = some idx →
        idx < 128 ∧ param.Merges dev.ale.table := by
  rcases exists_join (param.vid.setWidth 12) (param.portMask.setWidth 3) param.addr param.super
    param.fwdState with ⟨join, runs, mask, super, mcastSt⟩
  rw [narrow_vid vid, narrow_mask portMask] at runs
  rw [runs]
  refine atIndex_add.trans (forall_congr' fun idx => forall_congr' fun _ => ?_)
  exact and_congr_right fun _ => multicast_iff mask super mcastSt

theorem find_address (vid : checkValid param.vid 0 4095 = true) :
    param.address.find = cpswifAleEntryMatchAddr param.addr param.vid :=
  congrArg (cpswifAleEntryMatchAddr param.addr) (narrow_vid vid)

theorem find_vlan (vid : checkValid param.vid 0 4095 = true) :
    param.vlan.find = cpswifAleEntryMatchVlan param.vid :=
  congrArg cpswifAleEntryMatchVlan (narrow_vid vid)

/-- The entry that is left of a multicast entry. -/
theorem ports_dropPorts {entry : Entry} (found : key entry = some param.address)
    (portMask : checkValid param.portMask 0 7 = true) :
    param.Ports (latch (dropPorts param.portMask entry)) := by
  unfold Param.Ports dropPorts
  by_cases zero : param.portMask = 0
  · rw [if_pos zero, if_neg (not_not.mpr zero)]
    exact isFree_iff.mpr (key_latch.trans key_freeEntry)
  · rw [if_neg zero, if_pos zero]
    refine ⟨key_latch.trans ((key_congr fun index inside => ?_).trans found), ?_⟩
    · exact Function.update_of_ne inside.ne ..
    · have byte : latch (Function.update entry 8 (low (param.portMask <<< 2))) 8 =
          low (param.portMask <<< 2) := (latch_apply (by decide)).trans (Function.update_self ..)
      unfold entryPortMask
      rw [byte, ← narrow_mask portMask]
      generalize param.portMask.setWidth 3 = mask
      apply BitVec.eq_of_getLsbD_eq
      intro index inside
      unfold low
      interval_cases index <;> simp

theorem atIndex_ports (vid : checkValid param.vid 0 4095 = true)
    (portMask : checkValid param.portMask 0 7 = true) :
    AtIndex (first param.address.test dev.ale.table) param.Ports dev
      (tabled (if param.vid = 0 then cpswifAleMulticastentryDel param.portMask param.addr
        else cpswifAleVlanDelMcast param.vid param.portMask param.addr) dev) ↔
      ∀ idx, first param.address.test dev.ale.table = some idx → idx < 128 := by
  have runs : (if param.vid = 0 then cpswifAleMulticastentryDel param.portMask param.addr
      else cpswifAleVlanDelMcast param.vid param.portMask param.addr) =
        del param.address.find true fun entry => some (dropPorts param.portMask entry) := by
    rw [find_address vid]
    split
    · next zero => rw [zero]; rfl
    · rfl
  rw [runs]
  refine atIndex_del.trans (forall_congr' fun idx => forall_congr' fun found => ?_)
  refine and_iff_left ⟨_, rfl, ports_dropPorts ?_ portMask⟩
  exact Key.test_iff.mp (first_eq_some_iff.mp found).2.1

/-! ## Unicast entries -/

theorem atIndex_freed (vid : checkValid param.vid 0 4095 = true) :
    AtIndex (first param.address.test dev.ale.table) (fun entry => isFree entry = true) dev
      (tabled (if param.vid = 0 then cpswifAleUnicastentryDel param.addr
        else cpswifAleVlanDelUcast param.vid param.addr) dev) ↔
      ∀ idx, first param.address.test dev.ale.table = some idx → idx < 128 := by
  have runs : (if param.vid = 0 then cpswifAleUnicastentryDel param.addr
      else cpswifAleVlanDelUcast param.vid param.addr) =
        del param.address.find false fun entry => some (freeEntry entry) := by
    rw [find_address vid]
    split
    · next zero => rw [zero]; rfl
    · rfl
  rw [runs]
  refine atIndex_del.trans (forall_congr' fun idx => forall_congr' fun _ => ?_)
  exact and_iff_left ⟨_, rfl, isFree_iff.mpr (key_latch.trans key_freeEntry)⟩

theorem ucastPort_port (portNum flags : Word) :
    (ucastPort portNum flags).extractLsb' 2 2 = portNum.setWidth 2 := by
  apply BitVec.eq_of_getLsbD_eq
  intro index inside
  unfold ucastPort low
  interval_cases index <;> simp

theorem ucastPort_flags (portNum flags : Word) :
    (ucastPort portNum flags).extractLsb' 0 2 = flags.setWidth 2 := by
  apply BitVec.eq_of_getLsbD_eq
  intro index inside
  unfold ucastPort low
  interval_cases index <;> simp

/-- What a command makes of a unicast entry. -/
def Param.ucastFill (param : Param) : Entry → Entry :=
  if param.vid = 0 then ucastEntry param.portNum param.addr param.ucastFlags param.ucastType
  else vlanUcast param.vid param.portNum param.addr param.ucastFlags param.ucastType

theorem unicast_fill (vid : checkValid param.vid 0 4095 = true) :
    param.Unicast (latch (param.ucastFill noEntry)) := by
  have eighth : param.ucastFill noEntry 8 = ucastPort param.portNum param.ucastFlags := by
    unfold Param.ucastFill
    split
    · rfl
    · rfl
  have seventh : ∃ byte : Byte, byte.extractLsb' 6 2 = 0 ∧
      param.ucastFill noEntry 7 = byte ||| low (param.ucastType <<< 6) := by
    unfold Param.ucastFill
    split
    · exact ⟨0x10, by decide, low_or ..⟩
    · refine ⟨low (param.vid >>> 8 &&& (0x0f : Word)) ||| (0x30 : Byte), ?_, ?_⟩
      · apply BitVec.eq_of_getLsbD_eq
        intro index inside
        unfold low
        interval_cases index <;> simp
      · have bytes : vlanUcast param.vid param.portNum param.addr param.ucastFlags param.ucastType
            noEntry 7 = vlanType param.vid ((0x30 : Word) ||| param.ucastType <<< 6) := rfl
        rw [bytes, BitVec.or_assoc]
        unfold vlanType
        rw [low_or, low_or]
        rfl
  have filled : key (param.ucastFill noEntry) = some param.address := by
    unfold Param.ucastFill
    split
    · next zero =>
        unfold Param.address
        rw [zero]
        exact key_ucastEntry (.inl rfl)
    · have numbered : key (vlanUcast ((param.vid.setWidth 12).setWidth 32) param.portNum param.addr
          param.ucastFlags param.ucastType noEntry) = some param.address := key_vlanUcast
      rwa [narrow_vid vid] at numbered
  refine ⟨key_latch.trans filled, ?_, ?_, ?_⟩
  · rw [latch_apply (by decide), eighth, ucastPort_port]
  · rw [latch_apply (by decide), eighth, ucastPort_flags]
  · rcases seventh with ⟨byte, lower, seventh⟩
    rw [latch_apply (by decide), seventh, forward_or _ _ lower]

theorem atIndex_unicast (vid : checkValid param.vid 0 4095 = true) :
    AtIndex (place param.address dev.ale.table) param.Unicast dev
      (tabled (if param.vid = 0 then
        cpswifAleUnicastentryAdd param.portNum param.addr param.ucastFlags param.ucastType
      else
        cpswifAleVlanAddUcast param.vid param.portNum param.addr param.ucastFlags
          param.ucastType) dev) ↔
      ∀ idx, place param.address dev.ale.table = some idx → idx < 128 := by
  have runs : (if param.vid = 0 then
        cpswifAleUnicastentryAdd param.portNum param.addr param.ucastFlags param.ucastType
      else
        cpswifAleVlanAddUcast param.vid param.portNum param.addr param.ucastFlags
          param.ucastType) = add param.address.find false param.ucastFill := by
    rw [find_address vid]
    unfold Param.ucastFill
    split
    · next zero => rw [zero]; rfl
    · rfl
  rw [runs]
  refine atIndex_add.trans (forall_congr' fun idx => forall_congr' fun _ => ?_)
  exact and_iff_left (unicast_fill vid)

theorem atIndex_oui : AtIndex (place (.address param.addr 0) dev.ale.table) param.Oui dev
    (tabled (cpswifAleOuiAdd param.addr) dev) ↔
      ∀ idx, place (.address param.addr 0) dev.ale.table = some idx → idx < 128 := by
  have runs : cpswifAleOuiAdd param.addr =
      add (Key.address param.addr 0).find false (ouiEntry param.addr) := rfl
  rw [runs]
  refine atIndex_add.trans (forall_congr' fun idx => forall_congr' fun _ => ?_)
  refine and_iff_left ⟨key_latch.trans (key_ouiEntry (.inl rfl)), ?_⟩
  have seventh : ouiEntry param.addr (base false (.address param.addr 0) dev.ale.table) 7 =
      aleEntryAddr ||| aleEntryOui := Function.update_self ..
  rw [latch_apply (by decide), seventh]
  decide

/-! ## VLAN entries -/

/-- A port of a command. -/
theorem exists_port (portNum : checkValid param.portNum 0 2 = true) :
    ∃ port : Port, param.portNum = portNumber port := by
  have small : param.portNum.toNat ≤ 2 := toNat_le portNum
  refine ⟨⟨param.portNum.toNat, by omega⟩, ?_⟩
  unfold portNumber
  rw [BitVec.ofNat_toNat, BitVec.setWidth_eq]

theorem members_port (port : Port) :
    (BitVec.twoPow 8 port).extractLsb' 0 3 = (1 : BitVec 3) <<< portNumber port := by
  revert port
  decide

theorem members_not_port (port : Port) :
    (~~~BitVec.twoPow 8 port).extractLsb' 0 3 = ~~~((1 : BitVec 3) <<< portNumber port) := by
  revert port
  decide

/-- A small mask in a byte. -/
theorem wide_low {mask : Word} (valid : checkValid mask 0 7 = true) :
    (low mask).setWidth 32 = mask :=
  narrow valid (by decide)

theorem vlan_fill (vid : checkValid param.vid 0 4095 = true)
    (portNum : checkValid param.portNum 0 2 = true)
    (regMulti : checkValid param.regMulti 0 7 = true)
    (unregMulti : checkValid param.unregMulti 0 7 = true)
    (untagPort : checkValid param.untagPort 0 7 = true) :
    param.Vlan dev.ale.table (latch (vlanPorts param.vid param.portNum param.untagPort
      param.regMulti param.unregMulti (base true param.vlan dev.ale.table))) := by
  have filled : key (vlanPorts ((param.vid.setWidth 12).setWidth 32) param.portNum param.untagPort
      param.regMulti param.unregMulti (base true param.vlan dev.ale.table)) =
        some param.vlan := key_vlanPorts
  rw [narrow_vid vid] at filled
  refine ⟨key_latch.trans filled, ?_, ?_, ?_, ?_⟩
  · have byte : latch (vlanPorts param.vid param.portNum param.untagPort param.regMulti
        param.unregMulti (base true param.vlan dev.ale.table)) 0 =
          base true param.vlan dev.ale.table 0 |||
            low (portMask &&& (1 : Word) <<< param.portNum) := rfl
    rcases exists_port portNum with ⟨port, number⟩
    unfold entryMembers
    rw [byte, number, low_port, BitVec.extractLsb'_or, members_port]
    rfl
  · exact wide_low untagPort
  · exact wide_low regMulti
  · exact wide_low unregMulti

theorem atIndex_vlan (vid : checkValid param.vid 0 4095 = true)
    (portNum : checkValid param.portNum 0 2 = true)
    (regMulti : checkValid param.regMulti 0 7 = true)
    (unregMulti : checkValid param.unregMulti 0 7 = true)
    (untagPort : checkValid param.untagPort 0 7 = true) :
    AtIndex (place param.vlan dev.ale.table) (param.Vlan dev.ale.table) dev
      (tabled (cpswifAleVlanAdd param.vid param.portNum param.untagPort param.regMulti
        param.unregMulti) dev) ↔
      ∀ idx, place param.vlan dev.ale.table = some idx → idx < 128 := by
  unfold cpswifAleVlanAdd
  rw [← find_vlan vid]
  refine atIndex_add.trans (forall_congr' fun idx => forall_congr' fun _ => ?_)
  exact and_iff_left (vlan_fill vid portNum regMulti unregMulti untagPort)

/-- A port has left a VLAN entry, unless it is the host and others are in it. -/
theorem left_iff {entry : Entry} (found : lookup param.vlan dev.ale.table = some entry)
    (portNum : checkValid param.portNum 0 2 = true) :
    (∃ stored, dropMember param.portNum entry = some stored ∧
      param.Left dev.ale.table (latch stored)) ↔
      (param.portNum = 0 → entryMembers entry &&& ~~~1 = 0) := by
  rcases exists_port portNum with ⟨port, number⟩
  have host : ∀ port : Port, portNumber port = 0 ↔ port = 0 := by decide
  unfold Param.Left membersOf
  rw [number, dropMember_eq, found, host]
  unfold without
  by_cases isHost : port = 0
  · have gone : param.vlan.test (latch (freeEntry entry)) = false := by
      rw [← Bool.not_eq_true, Key.test_iff, key_latch, key_freeEntry]
      exact fun same => by cases same
    subst isHost
    rw [if_pos rfl]
    constructor
    · rintro ⟨stored, same, left⟩ _
      cases same
      rw [gone] at left
      exact left.symm
    · intro others
      refine ⟨_, rfl, ?_⟩
      rw [gone]
      exact (others rfl).symm
  · have kept : param.vlan.test (latch (Function.update entry 0
        (entry 0 &&& ~~~BitVec.twoPow 8 port))) = true := by
      rw [Key.test_iff, key_latch]
      exact key_vlan_congr (key_lookup found) (Function.update_of_ne (by decide) ..)
        (Function.update_of_ne (by decide) ..)
    have byte : latch (Function.update entry 0 (entry 0 &&& ~~~BitVec.twoPow 8 port)) 0 =
        entry 0 &&& ~~~BitVec.twoPow 8 port :=
      (latch_apply (by decide)).trans (Function.update_self ..)
    refine iff_of_true ?_ fun same => absurd same isHost
    rw [if_neg isHost]
    refine ⟨_, rfl, ?_⟩
    rw [kept, if_pos rfl]
    unfold entryMembers
    rw [byte, BitVec.extractLsb'_and, members_not_port]
    rfl

theorem atIndex_left (vid : checkValid param.vid 0 4095 = true)
    (portNum : checkValid param.portNum 0 2 = true) :
    AtIndex (first param.vlan.test dev.ale.table) (param.Left dev.ale.table) dev
      (tabled (cpswifAleVlanDel param.vid param.portNum) dev) ↔
      ∀ idx, first param.vlan.test dev.ale.table = some idx → idx < 128 ∧
        (param.portNum = 0 → entryMembers (dev.ale.table (pointer idx)) &&& ~~~1 = 0) := by
  unfold cpswifAleVlanDel
  rw [← find_vlan vid]
  refine atIndex_del.trans (forall_congr' fun idx => forall_congr' fun found => ?_)
  exact and_congr_right fun _ => left_iff (lookup_first found) portNum

end Commands

end BbbEth.Switch
