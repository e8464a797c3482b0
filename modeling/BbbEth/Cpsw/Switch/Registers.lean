import BbbEth.Cpsw.Ale.Lookup
import BbbEth.Cpsw.Phy.Mdio
import BbbEth.Registers.File

/-!
# Registers of the switch

The routines of `eth_hwif.c` that change registers of the switch.  A register is known by its
address; each routine reads it, changes bits and writes it back.
-/

namespace BbbEth.Switch

open Ale Registers

/-- The switch with the block of its configuration: the registers, the table, the management
interface, the rows that a dump fills and the numbers of those that have been filled, and the
result.  Behind the rows of `buf` there is `ale_entry`. -/
structure Device where
  regs : File Word 32
  ale : Engine
  bus : Phy.Bus
  rows : Nat → Entry
  filled : List Nat
  ret : Int

/-! ## Addresses and bits -/

def ssBase : Word := 0x4a100000
def aleBase : Word := 0x4a100d00
def hostPortBase : Word := 0x4a100100
def port1Base : Word := 0x4a100200
def port2Base : Word := 0x4a100300
def mdioBase : Word := 0x4a101000
def sliver1Base : Word := 0x4a100d80
def sliver2Base : Word := 0x4a100dc0

def cpswSsControl : Word := 0x4
def cpswPortPortVlan : Word := 0x14
def cpswAleControl : Word := 0x8
def cpswAleUnknownVlan : Word := 0x18
def cpswSlMacControl : Word := 0x4
def mdioAlive : Word := 0x8

/-- `CPSW_ALE_PORTCTL`. -/
def cpswAlePortctl (portNum : Word) : Word := 0x40 + portNum * 4

def enableRateLimit : Word := 0x1
def enableAuthMode : Word := 0x2
def aleVlanAware : Word := 0x4
def rateLimitTx : Word := 0x8
def ageOutNow : Word := 0x20000000
def ssVlanAware : Word := 0x2
def portState : Word := 0x3
def mcastLimit : Word := 0x00ff0000
def bcastLimit : Word := 0xff000000
def unknownVlanMem : Word := 0x3f
def unknownMcastFlo : Word := 0x3f00
def unknownRegMcast : Word := 0x3f0000
def unknownForceUnta : Word := 0x3f000000

/-- An untouched unicast entry that can age. -/
def untouched (entry : Entry) : Bool :=
  hasAddr entry ∧ entry 5 &&& 0x01 = 0 ∧ entry 7 &&& aleUcastTypeMask = 0x40

/-- The table after the entries have aged out. -/
def aged (table : Pointer → Entry) : Pointer → Entry := fun entry =>
  if untouched (table entry) then noEntry else table entry

/-! ## Routines -/

namespace Device

variable (dev : Device)

/-- What a register holds. -/
def reg (address : Word) : Word := dev.regs.read ⟨address, .plain⟩

/-- Bits are set in a register. -/
def setBits (address value : Word) : Device :=
  { dev with regs := dev.regs.orInto ⟨address, .plain⟩ value }

/-- Bits are cleared in a register. -/
def clearBits (address value : Word) : Device :=
  { dev with regs := dev.regs.andInto ⟨address, .plain⟩ (~~~value) }

/-- A field is cleared and is set again. -/
def setField (address mask value : Word) : Device :=
  (dev.clearBits address mask).setBits address value

/-- `CPSWALEAgeOut`: the engine clears the entries and the bit, for which the routine waits. -/
def cpswAleAgeOut (baseAddr : Word) : Device :=
  let dev := dev.setBits (baseAddr + cpswAleControl) ageOutNow
  { dev with ale := { dev.ale with table := aged dev.ale.table } }.clearBits
    (baseAddr + cpswAleControl) ageOutNow

/-- `CPSWALEBroadcastRateLimitSet`. -/
def cpswAleBroadcastRateLimitSet (baseAddr portNum bplVal : Word) : Device :=
  dev.setField (baseAddr + cpswAlePortctl portNum) bcastLimit (bplVal <<< 24)

/-- `CPSWALEMulticastRateLimitSet`. -/
def cpswAleMulticastRateLimitSet (baseAddr portNum mplVal : Word) : Device :=
  dev.setField (baseAddr + cpswAlePortctl portNum) mcastLimit (mplVal <<< 16)

/-- `CPSWALEVIDIngressCheckSet`. -/
def cpswAleVidIngressCheckSet (baseAddr portNum : Word) : Device :=
  dev.setBits (baseAddr + cpswAlePortctl portNum) mcastLimit

/-- `CPSWALEPortStateSet`. -/
def cpswAlePortStateSet (baseAddr portNum state : Word) : Device :=
  dev.setField (baseAddr + cpswAlePortctl portNum) portState state

/-- `CPSWALEVLANAwareSet`. -/
def cpswAleVlanAwareSet (baseAddr : Word) : Device :=
  dev.setBits (baseAddr + cpswAleControl) aleVlanAware

/-- `CPSWALEVLANAwareClear`. -/
def cpswAleVlanAwareClear (baseAddr : Word) : Device :=
  dev.clearBits (baseAddr + cpswAleControl) aleVlanAware

/-- `CPSWALERateLimitTXMode`. -/
def cpswAleRateLimitTxMode (baseAddr : Word) : Device :=
  dev.setBits (baseAddr + cpswAleControl) rateLimitTx

/-- `CPSWALERateLimitRXMode`. -/
def cpswAleRateLimitRxMode (baseAddr : Word) : Device :=
  dev.clearBits (baseAddr + cpswAleControl) rateLimitTx

/-- `CPSWALERateLimitEnable`. -/
def cpswAleRateLimitEnable (baseAddr : Word) : Device :=
  dev.setBits (baseAddr + cpswAleControl) enableRateLimit

/-- `CPSWALERateLimitDisable`. -/
def cpswAleRateLimitDisable (baseAddr : Word) : Device :=
  dev.clearBits (baseAddr + cpswAleControl) enableRateLimit

/-- `CPSWALEAUTHModeSet`. -/
def cpswAleAuthModeSet (baseAddr : Word) : Device :=
  dev.setBits (baseAddr + cpswAleControl) enableAuthMode

/-- `CPSWALEAUTHModeClear`. -/
def cpswAleAuthModeClear (baseAddr : Word) : Device :=
  dev.clearBits (baseAddr + cpswAleControl) enableAuthMode

/-- `CPSWALEUnknownUntaggedEgressSet`. -/
def cpswAleUnknownUntaggedEgressSet (baseAddr ueVal : Word) : Device :=
  dev.setField (baseAddr + cpswAleUnknownVlan) unknownForceUnta (ueVal <<< 24)

/-- `CPSWALEUnknownRegFloodMaskSet`. -/
def cpswAleUnknownRegFloodMaskSet (baseAddr rfmVal : Word) : Device :=
  dev.setField (baseAddr + cpswAleUnknownVlan) unknownMcastFlo (rfmVal <<< 8)

/-- `CPSWALEUnknownUnRegFloodMaskSet`. -/
def cpswAleUnknownUnRegFloodMaskSet (baseAddr ufmVal : Word) : Device :=
  dev.setField (baseAddr + cpswAleUnknownVlan) unknownRegMcast (ufmVal <<< 16)

/-- `CPSWALEUnknownMemberListSet`. -/
def cpswAleUnknownMemberListSet (baseAddr mlVal : Word) : Device :=
  dev.setField (baseAddr + cpswAleUnknownVlan) unknownVlanMem (mlVal <<< 0)

/-- `CPSWVLANAwareEnable`. -/
def cpswVlanAwareEnable (baseAddr : Word) : Device :=
  dev.setBits (baseAddr + cpswSsControl) ssVlanAware

/-- `CPSWVLANAwareDisable`. -/
def cpswVlanAwareDisable (baseAddr : Word) : Device :=
  dev.clearBits (baseAddr + cpswSsControl) ssVlanAware

/-- `CPSWPortVLANConfig`. -/
def cpswPortVlanConfig (baseAddr vlanId cfiBit vlanPri : Word) : Device :=
  let value := vlanId ||| cfiBit <<< 12 ||| vlanPri <<< 13
  { dev with regs := dev.regs.write ⟨baseAddr + cpswPortPortVlan, .plain⟩ value }

/-! ## What a register holds -/

variable {dev : Device} {address other value mask : Word}

theorem reg_setBits : (dev.setBits address value).reg address = dev.reg address ||| value :=
  File.orInto_plain

theorem reg_setBits_of_ne (apart : other ≠ address) :
    (dev.setBits address value).reg other = dev.reg other :=
  File.orInto_of_ne apart

theorem reg_clearBits : (dev.clearBits address value).reg address = dev.reg address &&& ~~~value :=
  File.andInto_plain

theorem reg_clearBits_of_ne (apart : other ≠ address) :
    (dev.clearBits address value).reg other = dev.reg other :=
  File.andInto_of_ne apart

theorem reg_setField : (dev.setField address mask value).reg address =
    (dev.reg address &&& ~~~mask) ||| value := by
  unfold setField
  rw [reg_setBits, reg_clearBits]

end Device

end BbbEth.Switch
