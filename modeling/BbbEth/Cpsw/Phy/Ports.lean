import BbbEth.Cpsw.Phy.Link
import BbbEth.Cpsw.Phy.Selection

/-!
# Ports that are configured

`cpswif_phy_autoneg` negotiates a link for the modes that are asked for, and `cpswif_phy_forced`
puts the PHY into one mode.  Both put the mode into MACCONTROL, where it is to be in force, and
look for the link; a port is not set up without it.
-/

namespace BbbEth.Phy

/-! ## Selections -/

def select10Half : Word := 0x01
def select10Full : Word := 0x02
def select100Half : Word := 0x04
def select100Full : Word := 0x08
def select1000Half : Word := 0x10
def select1000Full : Word := 0x20

def selectSpeed10 : Word := 0
def selectSpeed100 : Word := 1
def selectSpeed1000 : Word := 2

/-- `CPSW_SL_MACCONTROL_GMII_EN`, `CPSW_SL_MACCONTROL_IFCTL_A` and `CPSW_SL_MACCONTROL_IFCTL_B`. -/
def macControlRgmii : Word := 0x20 ||| 0x8000 ||| 0x10000

/-- `CPSWSlRGMIIEnable`. -/
def cpswSlRgmiiEnable (macControl : Word) : Word := macControl ||| macControlRgmii

/-- The PHY of a port is present in MDIO_ALIVE. -/
def Port.present (port : Port) (alive : Word) : Bool :=
  alive &&& (1 : Word) <<< port.phyAddr ≠ 0

/-! ## `cpswif_phy_autoneg` -/

/-- `adv_val` for a selection. -/
def selectedAdv (adv : Word) : Half :=
  (if adv &&& select10Half ≠ 0 then phy10Bt else 0) |||
    (if adv &&& select10Full ≠ 0 then phy10BtFd else 0) |||
    (if adv &&& select100Half ≠ 0 then phy100Btx else 0) |||
    (if adv &&& select100Full ≠ 0 then phy100BtxFd else 0)

/-- What is offered for a selection: 1000 Mbps only where the PHY can do it. -/
def Port.selection (port : Port) (adv : Word) : Offer where
  adv := selectedAdv adv
  gigAdv := if port.phyGbps ≠ 0 ∧ adv &&& select1000Full ≠ 0 then phy1000BtFd else 0
  gbps := if port.phyGbps ≠ 0 ∧ adv &&& select1000Full ≠ 0 then 1 else 0
  gigabit := by
    by_cases gigabit : port.phyGbps ≠ 0 ∧ adv &&& select1000Full ≠ 0
    · exact .inr ⟨if_pos gigabit, if_pos gigabit⟩
    · exact .inl ⟨if_neg gigabit, if_neg gigabit⟩

/-- The end of `cpswif_phy_autoneg`: the interface is enabled if there is a link. -/
def verifyLink (port : Port) (linkstat : Err) (bus : Bus) (macControl : Word) : Err × Bus × Word :=
  let (up, bus) := phyLinkStatusGet port.phyAddr 1000 bus
  if up = false then (linkstat, bus, macControl)
  else (linkstat, bus, cpswSlRgmiiEnable macControl)

/-- `cpswif_phy_autoneg`, with what is in MDIO_ALIVE, and with MACCONTROL behind it. -/
def cpswifPhyAutoneg (port : Port) (adv alive : Word) (bus : Bus) (macControl : Word) :
    Err × Bus × Word :=
  if port.present alive = false then (errConn, bus, macControl)
  else if adv = select1000Half then (errConn, bus, macControl)
  else
    let offer := port.selection adv
    let (started, bus) := phyAutoNegotiate port.phyAddr offer.adv offer.gigAdv bus
    if started then
      let (autNegCnt, bus) := autNegWait port.phyAddr 200 bus
      if autNegCnt ≠ 0 then
        let (_, partnrAblty, gbpsPartnrAblty, bus) :=
          phyPartnerAbilityGet port.phyAddr 1 offer.gbps bus
        verifyLink port errOk bus
          (cpswSlTransferModeSet (transferMode offer.adv partnrAblty gbpsPartnrAblty) macControl)
      else (errConn, bus, macControl)
    else verifyLink port errConn bus macControl

/-! ## `cpswif_phy_forced` -/

/-- `speed_val`. -/
def speedVal (speed : Word) : Half :=
  if speed = selectSpeed1000 then phySpeed1000Mbps
  else if speed = selectSpeed100 then phySpeed100Mbps
  else 0

/-- `duplex_val`. -/
def duplexVal (duplex : Word) : Half := if duplex = 1 then phyFullDuplex else 0

/-- `transfer_mode` for a speed and a duplex mode. -/
def forcedTransferMode (speed duplex : Word) : Word :=
  if speed = selectSpeed1000 then cpswSliverGigFullDuplex
  else
    (if speed = selectSpeed10 then cpswSliverInband else 0) |||
      if duplex = 1 then cpswSliverNonGigFullDuplex else cpswSliverNonGigHalfDuplex

/-- The looks at the link behind the reset; where there is one, the loop ends with it. -/
def awaitLink (phyAddr : Word) (bus : Bus) : Bus :=
  let (up, bus) := phyLinkStatusGet phyAddr 1000 bus
  if up then (frcStatWait phyAddr 200 bus).2 else bus

/-- The configuration behind that. -/
def configureLink (port : Port) (speed duplex : Word) (bus : Bus) (macControl : Word) :
    Err × Bus × Word :=
  let (configured, bus) := phyConfigure port.phyAddr (speedVal speed) (duplexVal duplex) bus
  if configured then
    let (frcStatCnt, bus) := frcStatWait port.phyAddr 200 bus
    if frcStatCnt ≠ 0 then
      (errOk, bus, cpswSlRgmiiEnable
        (cpswSlTransferModeSet (forcedTransferMode speed duplex) macControl))
    else (errConn, bus, macControl)
  else (errConn, bus, cpswSlRgmiiEnable (cpswSlTransferModeSet 0 macControl))

/-- `cpswif_phy_forced`, with what is in MDIO_ALIVE, and with MACCONTROL behind it; nothing if the
reset of the PHY needs more than some rounds. -/
def cpswifPhyForced (rounds : Nat) (port : Port) (speed duplex alive : Word) (bus : Bus)
    (macControl : Word) : Option (Err × Bus × Word) :=
  if port.present alive = false then some (errConn, bus, macControl)
  else if speed = selectSpeed1000 then some (errConn, bus, macControl)
  else
    match phyReset port.phyAddr rounds bus with
    | none => none
    | some (false, bus) => some (errConn, bus, macControl)
    | some (true, bus) =>
        some (configureLink port speed duplex (awaitLink port.phyAddr bus) macControl)

/-! ## In force -/

/-- The selection of a mode. -/
def Mode.select : Mode → Word
  | .gigFull => select1000Full
  | .fastFull => select100Full
  | .fastHalf => select100Half
  | .slowFull => select10Full
  | .slowHalf => select10Half

/-- The control register of a PHY in a mode. -/
def Mode.control : Mode → Half
  | .gigFull => phySpeed1000Mbps ||| phyFullDuplex
  | .fastFull => phySpeed100Mbps ||| phyFullDuplex
  | .fastHalf => phySpeed100Mbps
  | .slowFull => phyFullDuplex
  | .slowHalf => 0

/-- The bit of a mode in the register where it is advertised. -/
def Mode.ability : Mode → Half
  | .gigFull => phy1000BtFd
  | .fastFull => phy100BtxFd
  | .fastHalf => phy100Btx
  | .slowFull => phy10BtFd
  | .slowHalf => phy10Bt

/-- A mode is advertised. -/
def Abilities.advertises (abilities : Abilities) (mode : Mode) : Bool :=
  if mode = .gigFull then abilities.gigAdv &&& mode.ability ≠ 0
  else abilities.adv &&& mode.ability ≠ 0

/-- A mode is selected, and the PHY can do it. -/
def Port.wants (port : Port) (config : Word) (mode : Mode) : Bool :=
  config &&& mode.select ≠ 0 ∧ (mode = .gigFull → port.phyGbps ≠ 0)

/-- The mode for a speed and a duplex mode; there is no half duplex mode for 1000 Mbps. -/
def forcedMode (speed duplex : Word) : Option Mode :=
  if speed = selectSpeed10 then some (if duplex = 1 then .slowFull else .slowHalf)
  else if speed = selectSpeed100 then some (if duplex = 1 then .fastFull else .fastHalf)
  else if duplex = 1 then some .gigFull
  else none

/-- A port runs in a mode: MACCONTROL has exactly its bits and enables the interface, and what has
been heard of the PHY last is that there is a link. -/
structure Mode.Runs (mode : Mode) (log : List Transaction) (macControl : Word) : Prop where
  bits : macControl &&& modeMask = mode.bits
  enabled : macControl &&& macControlRgmii = macControlRgmii
  up : ∃ data, log.getLast?.bind (readOf 1) = some data ∧ data &&& phyLinkStatus ≠ 0

/-- A port has been negotiated: exactly the selected modes are advertised, and it runs in the
highest one that the partner has as well. -/
structure Port.Negotiated (port : Port) (config : Word) (log : List Transaction)
    (macControl : Word) : Prop where
  advertises : ∀ mode, (abilities log).advertises mode = port.wants config mode
  runs : ∃ mode, (abilities log).highest = some mode ∧ mode.Runs log macControl

/-- A port has been forced: the PHY has been put into the mode, and it runs in it. -/
def Forced (speed duplex : Word) (log : List Transaction) (macControl : Word) : Prop :=
  ∃ mode, forcedMode speed duplex = some mode ∧ latest (writtenTo 0) log = some mode.control ∧
    mode.Runs log macControl

end BbbEth.Phy
