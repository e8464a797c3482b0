import BbbEth.Cpsw.Switch.Commands
import BbbEth.Cpsw.Ale.Multicast

/-!
# What a command asks for

The parameters that a command uses, each with its range and its error, and what is to be in force
behind a command.  A command on the table reports the index of an entry or that there is none.
-/

namespace BbbEth.Switch

open Ale

/-! ## Parameters -/

/-- A parameter of a command. -/
inductive Setting where
  | anyAddr
  | multicastAddr
  | unicastAddr
  | vid
  | portMask
  | super
  | fwdState
  | portNum
  | ucastFlags
  | ucastType
  | regMulti
  | unregMulti
  | untagPort
  | cfiPort
  | prioPort
  | aleTblIndex
  | vlanAware
  | dropPacket
  | enable
  | direction
  | addrType
  | limit
  | unknownVlan
  | macAuth
  | portState
  | slvPortNum
  | autoneg
  | config
  | speed
  | duplex

namespace Setting

/-- Whether a parameter is in its range. -/
def valid (param : Param) : Setting → Bool
  | .anyAddr => checkValidAddr (octets param.addr) 0
  | .multicastAddr => checkValidAddr (octets param.addr) addrTypeMulticast
  | .unicastAddr => checkValidAddr (octets param.addr) addrTypeUnicast
  | .vid => checkValid param.vid 0 4095
  | .portMask => checkValid param.portMask 0 7
  | .super => checkValid param.super 0 1
  | .fwdState => checkValid param.fwdState 0 3
  | .portNum => checkValid param.portNum 0 2
  | .ucastFlags => checkValid param.ucastFlags 0 3
  | .ucastType => checkValid param.ucastType 0 3
  | .regMulti => checkValid param.regMulti 0 7
  | .unregMulti => checkValid param.unregMulti 0 7
  | .untagPort => checkValid param.untagPort 0 7
  | .cfiPort => checkValid param.cfiPort 0 1
  | .prioPort => checkValid param.prioPort 0 7
  | .aleTblIndex => checkValid param.aleTblIndex 0 1023
  | .vlanAware => checkValid param.vlanAware 0 1
  | .dropPacket => checkValid param.dropPacket 0 1
  | .enable => checkValid param.enable 0 1
  | .direction => checkValid param.direction 0 1
  | .addrType => checkValid param.addrType 1 3
  | .limit => checkValid param.limit 0 255
  | .unknownVlan => checkValid param.unknownVlan 1 4
  | .macAuth => checkValid param.macAuth 0 1
  | .portState => checkValid param.portState 0 3
  | .slvPortNum => checkValid param.slvPortNum 1 2
  | .autoneg => checkValid param.autoneg 0 1
  | .config => checkValid param.config 1 0x3f
  | .speed => checkValid param.speed 0 2
  | .duplex => checkValid param.duplex 0 1

/-- The error of a parameter. -/
def err : Setting → Int
  | .anyAddr | .multicastAddr | .unicastAddr => errAddr
  | .vid => errVlanid
  | .portMask => errPortMask
  | .super => errSuper
  | .fwdState => errMcastFwdState
  | .portNum => errPort
  | .ucastFlags | .ucastType => errUcastFlags
  | .regMulti => errVlanMcastReg
  | .unregMulti => errVlanMcastUnreg
  | .untagPort => errVlanMcastUntag
  | .cfiPort => errCfi
  | .prioPort => errPri
  | .aleTblIndex => errAleEntryIdx
  | .vlanAware => errVlanaware
  | .dropPacket => errAleVlanaware
  | .enable => errEnable
  | .direction => errDirection
  | .addrType => errAddrType
  | .limit => errLimit
  | .unknownVlan => errUnknownVlan
  | .macAuth => errMacAuth
  | .portState => errPortState
  | .slvPortNum => errSlvPort
  | .autoneg => errAutoneg
  | .config => errPhyConfig
  | .speed => errSpeed
  | .duplex => errDuplex

end Setting

/-- The parameter for what is unknown of a VLAN. -/
def unknownSetting (unknownVlan : Word) : List Setting :=
  if unknownVlan = alePortUntaggedEgress then [.untagPort]
  else if unknownVlan = alePortUnknownRegMcastFlood then [.regMulti]
  else if unknownVlan = alePortUnknownUnregMcastFlood then [.unregMulti]
  else if unknownVlan = alePortUnknownVlanMember then [.portMask]
  else []

/-- The parameters that a command uses. -/
def Command.settings (param : Param) : Command → List Setting
  | .addMulticast => [.multicastAddr, .vid, .portMask, .super, .fwdState]
  | .addUnicast => [.unicastAddr, .vid, .portNum, .ucastFlags, .ucastType]
  | .addOui => [.unicastAddr]
  | .findAddr => [.anyAddr, .vid]
  | .delMulticast => [.multicastAddr, .vid, .portMask]
  | .delUnicast => [.unicastAddr, .vid, .portNum]
  | .addVlan => [.vid, .portNum, .regMulti, .unregMulti, .untagPort]
  | .findVlan => [.vid]
  | .delVlan => [.vid, .portNum]
  | .portVlanConfig => [.vid, .portNum, .cfiPort, .prioPort]
  | .configDump => [.aleTblIndex]
  | .vlanAware => [.vlanAware, .dropPacket]
  | .rateLimit => [.enable, .direction, .portNum, .addrType, .limit]
  | .vidIngressCheck => [.portNum]
  | .addUnknownVlanInfo => .unknownVlan :: unknownSetting param.unknownVlan
  | .macAuth => [.macAuth]
  | .portState => [.portNum, .portState]
  | .setPortConfig => [.slvPortNum, .autoneg] ++
      if param.autoneg = 1 then [.config] else [.speed, .duplex]
  | .ageout | .dump | .invalid => []

/-- All of them are in their ranges. -/
def Command.Valid (cmd : Command) (param : Param) : Prop :=
  ∀ setting ∈ cmd.settings param, setting.valid param = true

/-! ## In force -/

/-- The key of an address and a VLAN id. -/
def Param.address (param : Param) : Key := .address param.addr (param.vid.setWidth 12)

/-- The key of a VLAN id. -/
def Param.vlan (param : Param) : Key := .vlan (param.vid.setWidth 12)

/-- The bits of a field of a register. -/
def bits (offset size : Nat) (value : Word) : BitVec size :=
  (Registers.Field.mk offset size).get value

/-- The members in a VLAN entry. -/
def entryMembers (entry : Entry) : BitVec 3 := (entry 0).extractLsb' 0 3

/-- The members of a VLAN, if an entry is one of it. -/
def membersOf (wanted : Key) (entry : Entry) : BitVec 3 :=
  if wanted.test entry then entryMembers entry else 0

/-- The index of an entry is reported, it is as asked for, and the others stay; or there is
none. -/
def AtIndex (index : Option Nat) (asked : Entry → Prop) (before after : Device) : Prop :=
  match index with
  | some idx => after.ret = idx ∧ asked (after.ale.table (pointer idx)) ∧
      ∀ entry, entry ≠ pointer idx → after.ale.table entry = before.ale.table entry
  | none => after.ret = errFail ∧ after.ale.table = before.ale.table

/-- The index of an entry is reported, and nothing changes. -/
def Found (index : Option Nat) (before after : Device) : Prop :=
  (match index with
  | some idx => after.ret = idx
  | none => after.ret = errFail) ∧ after.ale.table = before.ale.table

/-- A multicast entry has the ports in addition. -/
structure Param.Multicast (param : Param) (table : Pointer → Entry) (entry : Entry) : Prop where
  key : Ale.key entry = some param.address
  portMask : entryPortMask entry =
    maskOf param.addr (param.vid.setWidth 12) table ||| param.portMask.setWidth 3
  super : entrySuper entry = param.super.getLsbD 0
  forward : entryForward entry = param.fwdState.setWidth 2

/-- A unicast entry has the port, the flags and the type. -/
structure Param.Unicast (param : Param) (entry : Entry) : Prop where
  key : Ale.key entry = some param.address
  port : (entry 8).extractLsb' 2 2 = param.portNum.setWidth 2
  flags : (entry 8).extractLsb' 0 2 = param.ucastFlags.setWidth 2
  type : (entry 7).extractLsb' 6 2 = param.ucastType.setWidth 2

/-- An OUI entry. -/
structure Param.Oui (param : Param) (entry : Entry) : Prop where
  key : Ale.key entry = some (.address param.addr 0)
  type : (entry 7).extractLsb' 6 2 = 2

/-- A multicast entry has these ports, or is free if there are none. -/
def Param.Ports (param : Param) (entry : Entry) : Prop :=
  if param.portMask = 0 then isFree entry = true
  else Ale.key entry = some param.address ∧ entryPortMask entry = param.portMask.setWidth 3

/-- A VLAN entry has the port in addition, and the masks. -/
structure Param.Vlan (param : Param) (table : Pointer → Entry) (entry : Entry) : Prop where
  key : Ale.key entry = some param.vlan
  members : entryMembers entry = entryMembers ((lookup param.vlan table).getD noEntry) |||
    (1 : BitVec 3) <<< param.portNum
  untag : (entry 3).setWidth 32 = param.untagPort
  regMulti : (entry 2).setWidth 32 = param.regMulti
  unregMulti : (entry 1).setWidth 32 = param.unregMulti

/-- The port is not a member any more, and the others are. -/
def Param.Left (param : Param) (table : Pointer → Entry) (entry : Entry) : Prop :=
  membersOf param.vlan entry = entryMembers ((lookup param.vlan table).getD noEntry) &&&
    ~~~((1 : BitVec 3) <<< param.portNum)

/-- The base address of the registers of a port. -/
def portBase (portNum : Word) : Word :=
  if portNum = 0 then hostPortBase else if portNum = 1 then port1Base else port2Base

/-- The rates of a port are limited as asked for: the host sends what a slave port receives. -/
structure Param.Rates (param : Param) (after : Device) : Prop where
  enable : (after.reg (aleBase + cpswAleControl)).getLsbD 0 = decide (param.enable = 1)
  direction : (after.reg (aleBase + cpswAleControl)).getLsbD 3 =
    decide (param.portNum = 0 ↔ param.direction = 1)
  broadcast : param.addrType = addrTypeBroadcast →
    bits 24 8 (after.reg (aleBase + cpswAlePortctl param.portNum)) =
      param.limit.setWidth 8
  multicast : param.addrType = addrTypeMulticast →
    bits 16 8 (after.reg (aleBase + cpswAlePortctl param.portNum)) =
      param.limit.setWidth 8

/-- What is unknown of a VLAN is in the field that is named for it. -/
structure Param.Unknown (param : Param) (after : Device) : Prop where
  untagged : param.unknownVlan = alePortUntaggedEgress →
    bits 24 6 (after.reg (aleBase + cpswAleUnknownVlan)) = param.untagPort.setWidth 6
  registered : param.unknownVlan = alePortUnknownRegMcastFlood →
    bits 16 6 (after.reg (aleBase + cpswAleUnknownVlan)) = param.regMulti.setWidth 6
  unregistered : param.unknownVlan = alePortUnknownUnregMcastFlood →
    bits 8 6 (after.reg (aleBase + cpswAleUnknownVlan)) = param.unregMulti.setWidth 6
  member : param.unknownVlan = alePortUnknownVlanMember →
    bits 0 6 (after.reg (aleBase + cpswAleUnknownVlan)) = param.portMask.setWidth 6

/-- A port has a VLAN id, a CFI bit and a priority. -/
structure Param.PortVlan (param : Param) (value : Word) : Prop where
  vid : bits 0 12 value = param.vid.setWidth 12
  cfi : bits 12 1 value = param.cfiPort.setWidth 1
  pri : bits 13 3 value = param.prioPort.setWidth 3

/-- Rows are filled with entries of the table, which stays. -/
structure Filled (rows : List Nat) (content : Nat → Entry) (before after : Device) :
    Prop where
  filled : after.filled = before.filled ++ rows
  content : ∀ row ∈ rows, after.rows row = content row
  table : after.ale.table = before.ale.table

/-- What is in force behind a command. -/
def Command.InForce (ports : Word → Phy.Port) (param : Param) (before after : Device) :
    Command → Prop
  | .addMulticast => AtIndex (place param.address before.ale.table)
      (param.Multicast before.ale.table) before after
  | .addUnicast => AtIndex (place param.address before.ale.table) param.Unicast before after
  | .addOui => AtIndex (place (.address param.addr 0) before.ale.table) param.Oui before after
  | .findAddr => Found (first param.address.test before.ale.table) before after
  | .delMulticast => AtIndex (first param.address.test before.ale.table) param.Ports before after
  | .delUnicast => AtIndex (first param.address.test before.ale.table)
      (fun entry => isFree entry = true) before after
  | .addVlan => AtIndex (place param.vlan before.ale.table) (param.Vlan before.ale.table)
      before after
  | .findVlan => Found (first param.vlan.test before.ale.table) before after
  | .delVlan => AtIndex (first param.vlan.test before.ale.table) (param.Left before.ale.table)
      before after
  | .portVlanConfig => after.ret = errPass ∧
      param.PortVlan (after.reg (portBase param.portNum + cpswPortPortVlan))
  | .ageout => after.ret = errPass ∧ ∀ entry, untouched (after.ale.table entry) = false ∧
      (untouched (before.ale.table entry) = false →
        after.ale.table entry = before.ale.table entry)
  | .dump => after.ret = errPass ∧
      Filled (List.range maxAleEntries) (fun row => before.ale.table (pointer row)) before after
  | .configDump => after.ret = errPass ∧ Filled [maxAleEntries]
      (fun _ => before.ale.table (param.aleTblIndex.setWidth 10)) before after
  | .vlanAware => after.ret = errPass ∧
      (after.reg (ssBase + cpswSsControl)).getLsbD 1 = decide (param.vlanAware = 1) ∧
      (after.reg (aleBase + cpswAleControl)).getLsbD 2 = decide (param.dropPacket = 1)
  | .rateLimit => after.ret = errPass ∧ param.Rates after
  | .vidIngressCheck => after.ret = errPass ∧
      (after.reg (aleBase + cpswAlePortctl param.portNum)).getLsbD 3 = true
  | .addUnknownVlanInfo => after.ret = errPass ∧ param.Unknown after
  | .macAuth => after.ret = errPass ∧
      (after.reg (aleBase + cpswAleControl)).getLsbD 1 = decide (param.macAuth = 1)
  | .portState => after.ret = errPass ∧
      bits 0 2 (after.reg (aleBase + cpswAlePortctl param.portNum)) =
        param.portState.setWidth 2
  | .setPortConfig => after.ret = errPass ∧
      let macControl := after.reg (sliverBase param.slvPortNum + cpswSlMacControl)
      if param.autoneg = 1 then
        (ports param.slvPortNum).Negotiated param.config after.bus.log macControl
      else Phy.Forced param.speed param.duplex after.bus.log macControl
  | .invalid => after = { before with ret := errInval }

/-- A command refuses a parameter that is out of its range; otherwise it comes to an end, and is
in force then. -/
structure Configured (ports : Word → Phy.Port) (cmd : Command) (param : Param)
    (before : Device) : Prop where
  refuses : ¬ cmd.Valid param → ∃ setting ∈ cmd.settings param, setting.valid param = false ∧
    ∀ rounds, cpswSwitchConfiguration rounds ports param cmd before =
      some { before with ret := setting.err }
  serves : cmd.Valid param → ∃ rounds after,
    cpswSwitchConfiguration rounds ports param cmd before = some after ∧
      cmd.InForce ports param before after

end BbbEth.Switch
