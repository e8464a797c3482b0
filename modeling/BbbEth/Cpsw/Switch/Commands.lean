import BbbEth.Cpsw.Phy.Ports
import BbbEth.Cpsw.Switch.Registers

/-!
# Configuration commands

`cpsw_switch_configuration` checks the parameters of a command one by one and carries it out
when all of them pass.  The status of the routines that set up a link is not looked at.
-/

namespace BbbEth.Switch

open Ale

/-- The commands; a number that is none of them is invalid. -/
inductive Command where
  | invalid
  | addMulticast
  | addUnicast
  | addOui
  | findAddr
  | delMulticast
  | delUnicast
  | addVlan
  | findVlan
  | delVlan
  | portVlanConfig
  | ageout
  | dump
  | configDump
  | vlanAware
  | rateLimit
  | vidIngressCheck
  | addUnknownVlanInfo
  | macAuth
  | portState
  | setPortConfig
  deriving DecidableEq

/-- `struct cpsw_switch_param` and `struct cpsw_phy_param`. -/
structure Param where
  portNum : Word
  portMask : Word
  vid : Word
  prioPort : Word
  cfiPort : Word
  unregMulti : Word
  regMulti : Word
  untagPort : Word
  addr : EthAddr
  super : Word
  fwdState : Word
  ucastFlags : Word
  ucastType : Word
  aleTblIndex : Word
  vlanAware : Word
  dropPacket : Word
  direction : Word
  addrType : Word
  limit : Word
  portState : Word
  enable : Word
  unknownVlan : Word
  macAuth : Word
  slvPortNum : Word
  autoneg : Word
  config : Word
  speed : Word
  duplex : Word

/-! ## Errors -/

def errPass : Int := 0
def errFail : Int := -1
def errInval : Int := -2
def errAddr : Int := -3
def errVlanid : Int := -4
def errPortMask : Int := -5
def errSuper : Int := -6
def errMcastFwdState : Int := -7
def errPort : Int := -8
def errUcastFlags : Int := -9
def errVlanMcastReg : Int := -10
def errVlanMcastUnreg : Int := -11
def errVlanMcastUntag : Int := -12
def errAleEntryIdx : Int := -13
def errVlanaware : Int := -14
def errAleVlanaware : Int := -15
def errCfi : Int := -16
def errPri : Int := -17
def errEnable : Int := -18
def errDirection : Int := -19
def errLimit : Int := -20
def errUnknownVlan : Int := -21
def errMacAuth : Int := -22
def errAddrType : Int := -23
def errPortState : Int := -24
def errSlvPort : Int := -25
def errAutoneg : Int := -26
def errPhyConfig : Int := -27
def errSpeed : Int := -28
def errDuplex : Int := -29

def alePortUntaggedEgress : Word := 1
def alePortUnknownRegMcastFlood : Word := 2
def alePortUnknownUnregMcastFlood : Word := 3
def alePortUnknownVlanMember : Word := 4

/-! ## Checks -/

/-- `check_valid`. -/
def checkValid (value min max : Word) : Bool := min ≤ value ∧ value ≤ max

/-- The bytes of an address. -/
def octets (ethAddr : EthAddr) (cnt : Nat) : Byte :=
  if inside : cnt < 6 then ethAddr ⟨cnt, inside⟩ else 0

/-- The first check that fails gives the result; nothing else is done then. -/
def checked (checks : List (Bool × Int)) (body : Device → Option Device)
    (dev : Device) : Option Device :=
  match checks.find? fun check => !check.1 with
  | some check => some { dev with ret := check.2 }
  | none => body dev

/-- The command has been carried out. -/
def passed (dev : Device) : Device := { dev with ret := errPass }

/-- An operation on the table, whose result is the index of an entry. -/
def tabled (op : Engine → Err × Engine) (dev : Device) : Device :=
  let (err, ale) := op dev.ale
  { dev with ale, ret := if err = errVal then errFail else err.toInt }

/-! ## Routines -/

/-- The base address of the registers of a slave port. -/
def sliverBase (slvPortNum : Word) : Word := if slvPortNum = 1 then sliver1Base else sliver2Base

/-- The limit for one type of addresses, in `cpswif_rate_limit`. -/
def rateLimitSet (portNum addrType limit : Word) (dev : Device) : Device :=
  if addrType = addrTypeBroadcast then dev.cpswAleBroadcastRateLimitSet aleBase portNum limit
  else if addrType = addrTypeMulticast then dev.cpswAleMulticastRateLimitSet aleBase portNum limit
  else dev

/-- The mode for a direction, in `cpswif_rate_limit`. -/
def rateLimitMode (direction portNum : Word) (dev : Device) : Device :=
  if portNum = 0 then
    if direction ≠ 0 then dev.cpswAleRateLimitTxMode aleBase
    else dev.cpswAleRateLimitRxMode aleBase
  else
    if direction ≠ 0 then dev.cpswAleRateLimitRxMode aleBase
    else dev.cpswAleRateLimitTxMode aleBase

/-- `cpswif_rate_limit`. -/
def cpswifRateLimit (enable direction portNum addrType limit : Word) (dev : Device) :
    Device :=
  let dev := if enable = 0 then dev.cpswAleRateLimitDisable aleBase else dev
  let dev := rateLimitSet portNum addrType limit dev
  let dev := rateLimitMode direction portNum dev
  dev.cpswAleRateLimitEnable aleBase

/-- `CPSWPortVLANConfig` for a port, if there is one. -/
def portVlanSet (param : Param) (dev : Device) : Device :=
  if param.portNum = 0 then
    dev.cpswPortVlanConfig hostPortBase param.vid param.cfiPort param.prioPort
  else if param.portNum ≤ 2 then
    dev.cpswPortVlanConfig (if param.portNum = 1 then port1Base else port2Base)
      param.vid param.cfiPort param.prioPort
  else dev

/-- Both go to the control register of the engine. -/
def vlanAwareSet (param : Param) (dev : Device) : Device :=
  let dev := if param.vlanAware = 0 then dev.cpswVlanAwareDisable aleBase
    else dev.cpswVlanAwareEnable aleBase
  if param.dropPacket = 0 then dev.cpswAleVlanAwareClear aleBase
  else dev.cpswAleVlanAwareSet aleBase

def authSet (param : Param) (dev : Device) : Device :=
  if param.macAuth = 0 then dev.cpswAleAuthModeClear aleBase else dev.cpswAleAuthModeSet aleBase

/-- An entry is read into a row. -/
def readRow (row : Nat) (aleTblIdx : Word) (dev : Device) : Device :=
  let (entry, ale) := dev.ale.cpswAleTableEntryGet aleTblIdx
  { dev with ale, rows := Function.update dev.rows row entry, filled := dev.filled ++ [row] }

/-- The loop of a dump. -/
def dumpRows (left cnt : Nat) (dev : Device) : Device :=
  match left with
  | 0 => dev
  | left + 1 => dumpRows left (cnt + 1) (readRow cnt (BitVec.ofNat 32 cnt) dev)

/-- The registers of a slave port are changed by the routine that sets up its link. -/
def setLink (slvPortNum : Word) (bus : Phy.Bus) (macControl : Word) (dev : Device) : Device :=
  let register := ⟨sliverBase slvPortNum + cpswSlMacControl, .plain⟩
  { dev with bus, regs := dev.regs.write register macControl }

/-- The routine for a configuration of a port, with what its MACCONTROL has, and the management
interface from here on; nothing if a PHY is waited for in more than some rounds. -/
def linkRoutine (rounds : Nat) (ports : Word → Phy.Port) (param : Param) (dev : Device) :
    Option (Phy.Err × Phy.Bus × Word) :=
  let alive := dev.reg (mdioBase + mdioAlive)
  let macControl := dev.reg (sliverBase param.slvPortNum + cpswSlMacControl)
  if param.autoneg ≠ 0 then
    some (Phy.cpswifPhyAutoneg (ports param.slvPortNum) param.config alive dev.bus.renewed
      macControl)
  else
    Phy.cpswifPhyForced rounds (ports param.slvPortNum) param.speed param.duplex alive
      dev.bus.renewed macControl

/-! ## The commands -/

section Commands

variable (rounds : Nat) (ports : Word → Phy.Port) (param : Param)

/-- The part of `cpsw_switch_configuration` for what is unknown of a VLAN. -/
def unknownVlanInfo (dev : Device) : Option Device :=
  if param.unknownVlan = alePortUntaggedEgress then
    checked [(checkValid param.untagPort 0 7, errVlanMcastUntag)]
      (fun dev => some (passed (dev.cpswAleUnknownUntaggedEgressSet aleBase param.untagPort))) dev
  else if param.unknownVlan = alePortUnknownRegMcastFlood then
    checked [(checkValid param.regMulti 0 7, errVlanMcastReg)]
      (fun dev => some (passed (dev.cpswAleUnknownRegFloodMaskSet aleBase param.regMulti))) dev
  else if param.unknownVlan = alePortUnknownUnregMcastFlood then
    checked [(checkValid param.unregMulti 0 7, errVlanMcastUnreg)]
      (fun dev => some (passed (dev.cpswAleUnknownUnRegFloodMaskSet aleBase param.unregMulti))) dev
  else if param.unknownVlan = alePortUnknownVlanMember then
    checked [(checkValid param.portMask 0 0, errVlanMcastUnreg)]
      (fun dev => some (passed (dev.cpswAleUnknownMemberListSet aleBase param.portMask))) dev
  else some (passed dev)

/-- The checks of a command, with their errors, in the order of the source. -/
def Command.checks : Command → List (Bool × Int)
  | .addMulticast => [(checkValidAddr (octets param.addr) addrTypeMulticast, errAddr),
      (checkValid param.vid 0 4095, errVlanid), (checkValid param.portMask 0 7, errPortMask),
      (checkValid param.super 0 1, errSuper), (checkValid param.fwdState 0 3, errMcastFwdState)]
  | .addUnicast => [(checkValidAddr (octets param.addr) addrTypeUnicast, errAddr),
      (checkValid param.vid 0 4095, errVlanid), (checkValid param.portNum 0 2, errPort),
      (checkValid param.ucastFlags 0 3, errUcastFlags),
      (checkValid param.ucastType 0 3, errUcastFlags)]
  | .addOui => [(checkValidAddr (octets param.addr) addrTypeUnicast, errAddr)]
  | .findAddr => [(checkValidAddr (octets param.addr) 0, errAddr),
      (checkValid param.vid 0 4095, errVlanid)]
  | .delMulticast => [(checkValidAddr (octets param.addr) addrTypeMulticast, errAddr),
      (checkValid param.vid 0 4095, errVlanid), (checkValid param.portMask 0 7, errPortMask)]
  | .delUnicast => [(checkValidAddr (octets param.addr) addrTypeUnicast, errAddr),
      (checkValid param.vid 0 4095, errVlanid), (checkValid param.portNum 0 2, errPort)]
  | .addVlan => [(checkValid param.vid 0 4095, errVlanid), (checkValid param.portNum 0 2, errPort),
      (checkValid param.regMulti 0 7, errVlanMcastReg),
      (checkValid param.unregMulti 0 7, errVlanMcastUnreg),
      (checkValid param.untagPort 0 7, errVlanMcastUntag)]
  | .findVlan => [(checkValid param.vid 0 4095, errVlanid)]
  | .delVlan => [(checkValid param.vid 0 4095, errVlanid), (checkValid param.portNum 0 2, errPort)]
  | .portVlanConfig => [(checkValid param.vid 0 4095, errVlanid),
      (checkValid param.portNum 0 2, errPort), (checkValid param.cfiPort 0 1, errCfi),
      (checkValid param.prioPort 0 7, errPri)]
  | .configDump => [(checkValid param.aleTblIndex 0 1023, errAleEntryIdx)]
  | .vlanAware => [(checkValid param.vlanAware 0 1, errVlanaware),
      (checkValid param.dropPacket 0 1, errAleVlanaware)]
  | .rateLimit => [(checkValid param.enable 0 1, errEnable),
      (checkValid param.direction 0 1, errDirection), (checkValid param.portNum 0 2, errPort),
      (checkValid param.addrType 1 3, errAddrType), (checkValid param.limit 0 255, errLimit)]
  | .vidIngressCheck => [(checkValid param.portNum 0 2, errPort)]
  | .addUnknownVlanInfo => [(checkValid param.unknownVlan 1 4, errUnknownVlan)]
  | .macAuth => [(checkValid param.macAuth 0 1, errMacAuth)]
  | .portState => [(checkValid param.portNum 0 2, errPort),
      (checkValid param.portState 0 3, errPortState)]
  | .setPortConfig =>
      [(checkValid param.slvPortNum 1 2, errSlvPort), (checkValid param.autoneg 0 1, errAutoneg)] ++
        if param.autoneg = 1 then [(checkValid param.config 1 0x3f, errPhyConfig)]
        else [(checkValid param.speed 0 2, errSpeed), (checkValid param.duplex 0 1, errDuplex)]
  | .ageout | .dump | .invalid => []

/-- What is done when all checks pass. -/
def Command.body (dev : Device) : Command → Option Device
  | .addMulticast => some (tabled
      (if param.vid = 0 then
        cpswifAleMulticastentryAdd param.portMask param.addr param.super param.fwdState
      else
        cpswifAleVlanAddMcast param.vid param.portMask param.addr param.super param.fwdState) dev)
  | .addUnicast => some (tabled
      (if param.vid = 0 then
        cpswifAleUnicastentryAdd param.portNum param.addr param.ucastFlags param.ucastType
      else
        cpswifAleVlanAddUcast param.vid param.portNum param.addr param.ucastFlags
          param.ucastType) dev)
  | .addOui => some (tabled (cpswifAleOuiAdd param.addr) dev)
  | .findAddr => some (tabled (cpswifAleEntryMatchAddr param.addr param.vid) dev)
  | .delMulticast => some (tabled
      (if param.vid = 0 then cpswifAleMulticastentryDel param.portMask param.addr
        else cpswifAleVlanDelMcast param.vid param.portMask param.addr) dev)
  | .delUnicast => some (tabled
      (if param.vid = 0 then cpswifAleUnicastentryDel param.addr
        else cpswifAleVlanDelUcast param.vid param.addr) dev)
  | .addVlan => some (tabled (cpswifAleVlanAdd param.vid param.portNum param.untagPort
      param.regMulti param.unregMulti) dev)
  | .findVlan => some (tabled (cpswifAleEntryMatchVlan param.vid) dev)
  | .delVlan => some (tabled (cpswifAleVlanDel param.vid param.portNum) dev)
  | .portVlanConfig => some (passed (portVlanSet param dev))
  | .ageout => some (passed (dev.cpswAleAgeOut aleBase))
  | .dump => some (passed (dumpRows (maxAleEntries + 1) 0 dev))
  | .configDump => some (passed (readRow maxAleEntries param.aleTblIndex dev))
  | .vlanAware => some (passed (vlanAwareSet param dev))
  | .rateLimit => some (passed (cpswifRateLimit param.enable param.direction param.portNum
      param.addrType param.limit dev))
  | .vidIngressCheck => some (passed (dev.cpswAleVidIngressCheckSet aleBase param.portNum))
  | .addUnknownVlanInfo => unknownVlanInfo param dev
  | .macAuth => some (passed (authSet param dev))
  | .portState => some (passed (dev.cpswAlePortStateSet aleBase param.portNum param.portState))
  | .setPortConfig => (linkRoutine rounds ports param dev).map fun done =>
      passed (setLink param.slvPortNum done.2.1 done.2.2 dev)
  | .invalid => some { dev with ret := errInval }

/-- `cpsw_switch_configuration`; nothing if a PHY is waited for in more than some rounds. -/
def cpswSwitchConfiguration (cmd : Command) : Device → Option Device :=
  checked (cmd.checks param) fun dev => cmd.body rounds ports param dev

end Commands

end BbbEth.Switch
