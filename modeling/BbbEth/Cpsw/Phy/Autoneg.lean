import BbbEth.Cpsw.Phy.Mdio

/-!
# Negotiation of a link

The routines of `phy.c` for the negotiation of a link, and `cpswif_autoneg_config`, which puts the
mode that has been negotiated into MACCONTROL.  A read that is not acknowledged leaves its target,
which may be a local that has not been set.
-/

namespace BbbEth.Phy

/-! ## Registers of a PHY -/

def phyBcr : Word := 0
def phyBsr : Word := 1
def phyAutonegAdv : Word := 4
def phyLinkPartnerAblty : Word := 5
def phy1000BtControl : Word := 9
def phy1000BtStatus : Word := 10

def phyAutonegEnable : Half := 0x1000
def phyAutonegRestart : Half := 0x0200
def phyAutonegComplete : Half := 0x0020
def phyAutonegStatus : Half := 0x0020
def phySpeedMask : Half := 0xdfbf
def phySpeed1000Mbps : Half := 0x0040
def phyAdvValMask : Half := 0x01e0
def phyGigAdvValMask : Half := 0x0300

def phy1000BtFd : Half := 0x0200
def phy100BtxFd : Half := 0x0100
def phy100Btx : Half := 0x0080
def phy10BtFd : Half := 0x0040
def phy10Bt : Half := 0x0020
def phyLinkPartner1000BtFd : Half := 0x0800

/-! ## Routines of `phy.c` -/

section Routines

variable (phyAddr : Word)

/-- `PhyAutoNegotiate`: whether the negotiation has been started. -/
def phyAutoNegotiate (advVal gigAdvVal : Half) (bus : Bus) : Bool × Bus :=
  let (status, data, bus) := mdioPhyRegRead phyAddr phyBcr bus.garbage bus
  if status = false then (false, bus)
  else
    let data := data ||| phyAutonegEnable
    let data := if gigAdvVal ≠ 0 then data &&& phySpeedMask ||| phySpeed1000Mbps else data
    let bus := mdioPhyRegWrite phyAddr phyBcr data bus
    let (status, data, bus) := mdioPhyRegRead phyAddr phyBcr data bus
    if status = false then (false, bus)
    else
      let (_, anar, bus) := mdioPhyRegRead phyAddr phyAutonegAdv bus.garbage bus
      let bus := mdioPhyRegWrite phyAddr phyAutonegAdv (anar &&& ~~~phyAdvValMask ||| advVal) bus
      let (_, anar, bus) := mdioPhyRegRead phyAddr phy1000BtControl 0 bus
      let bus := mdioPhyRegWrite phyAddr phy1000BtControl
        (anar &&& ~~~phyGigAdvValMask ||| gigAdvVal) bus
      (true, mdioPhyRegWrite phyAddr phyBcr (data ||| phyAutonegRestart) bus)

/-- `PhyAutoNegStatusGet`. -/
def phyAutoNegStatusGet (bus : Bus) : Bool × Bus :=
  let (_, data, bus) := mdioPhyRegRead phyAddr phyBsr bus.garbage bus
  (data &&& phyAutonegStatus = phyAutonegComplete, bus)

/-- `PhyPartnerAbilityGet`: the status, and the abilities. -/
def phyPartnerAbilityGet (ptnerAblty gbpsPtnerAblty : Half) (bus : Bus) :
    Bool × Half × Half × Bus :=
  let (status, ptnerAblty, bus) := mdioPhyRegRead phyAddr phyLinkPartnerAblty ptnerAblty bus
  if gbpsPtnerAblty ≠ 0 then
    let (gbpsStatus, gbpsPtnerAblty, bus) :=
      mdioPhyRegRead phyAddr phy1000BtStatus gbpsPtnerAblty bus
    (status || gbpsStatus, ptnerAblty, gbpsPtnerAblty, bus)
  else (status, ptnerAblty, gbpsPtnerAblty, bus)

end Routines

/-! ## Modes -/

/-- `CPSW_SL_MACCONTROL_GIG`. -/
def macControlGig : Word := 0x80

/-- `CPSW_SL_MACCONTROL_FULLDUPLEX`. -/
def macControlFullDuplex : Word := 0x1

/-- `CPSW_SL_MACCONTROL_EXT_EN`. -/
def macControlExtEn : Word := 0x40000

def cpswSliverNonGigFullDuplex : Word := macControlFullDuplex
def cpswSliverNonGigHalfDuplex : Word := 0
def cpswSliverGigFullDuplex : Word := macControlGig
def cpswSliverInband : Word := macControlExtEn

/-- `CPSWSlTransferModeSet`. -/
def cpswSlTransferModeSet (mode macControl : Word) : Word :=
  macControl &&& ~~~(macControlGig ||| macControlFullDuplex) ||| mode

/-- The mode for the abilities, in `cpswif_autoneg_config`. -/
def transferMode (advVal partnrAblty gbpsPartnrAblty : Half) : Word :=
  if gbpsPartnrAblty &&& phyLinkPartner1000BtFd ≠ 0 then cpswSliverGigFullDuplex
  else if advVal &&& partnrAblty &&& phy100BtxFd ≠ 0 then cpswSliverNonGigFullDuplex
  else if advVal &&& partnrAblty &&& phy100Btx ≠ 0 then cpswSliverNonGigHalfDuplex
  else if advVal &&& partnrAblty &&& phy10BtFd ≠ 0 then
    cpswSliverInband ||| cpswSliverNonGigFullDuplex
  else if advVal &&& partnrAblty &&& phy10Bt ≠ 0 then
    cpswSliverInband ||| cpswSliverNonGigHalfDuplex
  else 0

/-! ## `cpswif_autoneg_config` -/

/-- `err_t`. -/
abbrev Err := BitVec 8

def errOk : Err := 0
def errConn : Err := -13

/-- The port, as far as the negotiation is about it. -/
structure Port where
  phyAddr : Word
  phyGbps : Word

/-- What is advertised for 10 and 100 Mbps. -/
def advVal : Half := phy100Btx ||| phy100BtxFd ||| phy10Bt ||| phy10BtFd

/-- What is advertised for 1000 Mbps. -/
def Port.gigAdvVal (port : Port) : Half := if port.phyGbps = 1 then phy1000BtFd else 0

/-- What `gbps_partnr_ablty` has before the partner is asked. -/
def Port.gbps (port : Port) : Half := if port.phyGbps = 1 then 1 else 0

/-- The loop that waits for the negotiation, with what is left of `aut_neg_cnt`. -/
def autNegWait (phyAddr : Word) : Nat → Bus → Nat × Bus
  | 0, bus => (0, bus)
  | autNegCnt + 1, bus =>
      let (autoStat, bus) := phyAutoNegStatusGet phyAddr bus
      if autoStat then (autNegCnt + 1, bus) else autNegWait phyAddr autNegCnt bus

/-- `cpswif_autoneg_config`, with MACCONTROL behind it. -/
def cpswifAutonegConfig (port : Port) (bus : Bus) (macControl : Word) : Err × Bus × Word :=
  let (started, bus) := phyAutoNegotiate port.phyAddr advVal port.gigAdvVal bus
  if started then
    let (autNegCnt, bus) := autNegWait port.phyAddr 200 bus
    if autNegCnt ≠ 0 then
      let (_, partnrAblty, gbpsPartnrAblty, bus) :=
        phyPartnerAbilityGet port.phyAddr 1 port.gbps bus
      (errOk, bus,
        cpswSlTransferModeSet (transferMode advVal partnrAblty gbpsPartnrAblty) macControl)
    else (errConn, bus, macControl)
  else (errConn, bus, macControl)

end BbbEth.Phy
