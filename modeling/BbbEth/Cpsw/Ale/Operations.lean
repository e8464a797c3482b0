import BbbEth.Cpsw.Ale.DualMac

/-!
# Adding and deleting entries

The operations of `cpswif.c` for a switch.  An entry is found by its Ethernet address and VLAN
id, or by its VLAN id; a new entry goes into a free one or replaces one that can age.
-/

namespace BbbEth.Ale

open Engine

/-! ## Searches -/

/-- An Ethernet address. -/
abbrev EthAddr := Fin 6 → Byte

def aleEntryAddr : Byte := 0x10
def aleEntryVlan : Byte := 0x20
def aleEntryVlanAddr : Byte := 0x30
def aleEntryOui : Byte := 0x80
def aleUcastTypeMask : Byte := 0xc0
def aleUcastTypePersistant : Byte := 0x00
def aleUcastTypeOui : Byte := 0x80
def portMask : Word := 0x7

def addrTypeBroadcast : Word := 1
def addrTypeMulticast : Word := 2
def addrTypeUnicast : Word := 3

/-- `check_valid_addr`. -/
def checkValidAddr (ethAddr : Nat → Byte) (addrType : Word) : Bool :=
  let ones := (List.range 6).all fun cnt => ethAddr cnt &&& 0xff = 0xff
  if addrType = 0 then true
  else if ones ∧ addrType = addrTypeBroadcast then true
  else if ones then false
  else if addrType = addrTypeBroadcast then false
  else if addrType = addrTypeMulticast then ethAddr 0 &&& 0x01 = 0x01
  else if addrType = addrTypeUnicast then ethAddr 0 &&& 0x01 ≠ 0x01
  else false

/-- Whether an entry has an address. -/
def hasAddr (entry : Entry) : Bool :=
  entryType entry = aleEntryAddr ∨ entryType entry = aleEntryVlanAddr

/-- The half word with the VLAN id. -/
def vlanId (entry : Entry) : Word := ((entry 7 ++ entry 6 : BitVec 16) &&& 0x0fff).setWidth 32

/-- The test of `cpswif_ale_entry_match_ageable`. -/
def isAgeable (entry : Entry) : Bool :=
  hasAddr entry ∧ ¬ checkValidAddr entry addrTypeMulticast ∧
    entry 7 &&& aleUcastTypeMask ≠ aleUcastTypePersistant ∧
    entry 7 &&& aleUcastTypeMask ≠ aleUcastTypeOui

/-- `cpswif_ale_entry_match_ageable`. -/
def cpswifAleEntryMatchAgeable (ale : Engine) : Err × Engine := ale.search isAgeable

/-- The test of `cpswif_ale_entry_match_addr`. -/
def isAddr (ethAddr : EthAddr) (vid : Word) (entry : Entry) : Bool :=
  hasAddr entry ∧ vlanId entry = vid ∧ ∀ cnt : Fin 6, entry cnt = ethAddr (Fin.rev cnt)

/-- `cpswif_ale_entry_match_addr`. -/
def cpswifAleEntryMatchAddr (ethAddr : EthAddr) (vid : Word) (ale : Engine) : Err × Engine :=
  ale.search (isAddr ethAddr vid)

/-- The test of `cpswif_ale_entry_match_vlan`. -/
def isVlan (vid : Word) (entry : Entry) : Bool :=
  entryType entry = aleEntryVlan ∧ vlanId entry = vid

/-- `cpswif_ale_entry_match_vlan`. -/
def cpswifAleEntryMatchVlan (vid : Word) (ale : Engine) : Err × Engine := ale.search (isVlan vid)

/-! ## Two families -/

/-- Put an entry in place of the one with its key, of a free one or of one that can age.  Some
operations read the entry that is there. -/
def add (find : Engine → Err × Engine) (reads : Bool) (fill : Entry → Entry) (ale : Engine) :
    Err × Engine :=
  let (idx, ale) := find ale
  let (idx, entry, ale) :=
    if idx = errVal then
      let (idx, ale) := cpswifAleEntryMatchFree ale
      (idx, noEntry, ale)
    else if reads then
      let (entry, ale) := ale.cpswAleTableEntryGet idx.widen
      (idx, entry, ale)
    else (idx, noEntry, ale)
  let (idx, ale) := if idx = errVal then cpswifAleEntryMatchAgeable ale else (idx, ale)
  if idx = errVal then (errVal, ale)
  else (idx, ale.cpswAleTableEntrySet idx.widen (fill entry))

/-- Change the entry with a key; some operations read it before. -/
def del (find : Engine → Err × Engine) (reads : Bool) (change : Entry → Option Entry)
    (ale : Engine) : Err × Engine :=
  let (idx, ale) := find ale
  if idx = errVal then (errVal, ale)
  else
    let (entry, ale) := if reads then ale.cpswAleTableEntryGet idx.widen else (noEntry, ale)
    match change entry with
    | none => (errVal, ale)
    | some entry => (idx, ale.cpswAleTableEntrySet idx.widen entry)

/-! ## Entries -/

/-- A store of a word to a byte. -/
def low (value : Word) : Byte := value.setWidth 8

/-- The port and the flags of a unicast entry. -/
def ucastPort (portNum flags : Word) : Byte := low (portNum <<< 2 ||| flags &&& (0x03 : Word))

/-- The byte with the type and the upper bits of a VLAN id. -/
def vlanType (vid bits : Word) : Byte := low (vid >>> 8 &&& (0x0f : Word) ||| bits)

/-- The port mask of a multicast entry, with the bits that are there. -/
def mcastPorts (portmask super : Word) (byte : Byte) : Byte :=
  byte &&& low (~~~ (portMask <<< 2)) |||
    low ((portmask ||| (byte &&& (0x1c : Byte)).setWidth 32) <<< 2 ||| super <<< 1 &&& (0x02 : Word))

/-- The port mask of a multicast entry from which ports are deleted, or a free entry. -/
def dropPorts (portmask : Word) (entry : Entry) : Entry :=
  if portmask ≠ 0 then Function.update entry 8 (low (portmask <<< 2))
  else Function.update entry 7 0

/-- The ports of a VLAN entry without a port, or a free entry, if there is something to do. -/
def dropMember (portNum : Word) (entry : Entry) : Option Entry :=
  let mask := ((entry 0).setWidth 32 ||| portMask) &&& (1 : Word) <<< portNum
  if mask = 0 then none
  else if mask = 1 then some (Function.update entry 7 0)
  else some (Function.update entry 0 (low ((entry 0).setWidth 32 &&& ~~~ ((1 : Word) <<< portNum))))

/-- A unicast entry. -/
def ucastEntry (portNum : Word) (ethAddr : EthAddr) (flags ucastType : Word) (entry : Entry) :
    Entry :=
  Function.update (Function.update (storeAddr ethAddr entry)
    7 (low ((0x10 : Word) ||| ucastType <<< 6))) 8 (ucastPort portNum flags)

/-- An OUI entry. -/
def ouiEntry (ethAddr : EthAddr) (entry : Entry) : Entry :=
  Function.update (storeAddr ethAddr entry) 7 (aleEntryAddr ||| aleEntryOui)

/-- A multicast entry. -/
def mcastEntry (portmask : Word) (ethAddr : EthAddr) (super mcastSt : Word) (entry : Entry) :
    Entry :=
  Function.update (Function.update (storeAddr ethAddr entry)
    7 (low ((0x10 : Word) ||| mcastSt <<< 6))) 8 (mcastPorts portmask super (entry 8))

/-- A VLAN entry with the ports that it has already. -/
def vlanPorts (vid portNum untag regMcast unregMcast : Word) (entry : Entry) : Entry :=
  let entry := Function.update (Function.update entry 6 (low vid)) 7 (vlanType vid 0x20)
  let entry := Function.update (Function.update (Function.update entry 3 (low untag))
    1 (low unregMcast)) 2 (low regMcast)
  Function.update entry 0 (entry 0 ||| low (portMask &&& (1 : Word) <<< portNum))

/-- A VLAN/unicast entry. -/
def vlanUcast (vid portNum : Word) (ethAddr : EthAddr) (flags ucastType : Word) (entry : Entry) :
    Entry :=
  let entry := Function.update (Function.update entry 6 (low vid))
    7 (vlanType vid ((0x30 : Word) ||| ucastType <<< 6))
  Function.update (storeAddr ethAddr entry) 8 (ucastPort portNum flags)

/-- A VLAN/multicast entry. -/
def vlanMcast (vid portmask : Word) (ethAddr : EthAddr) (super mcastSt : Word) (entry : Entry) :
    Entry :=
  let entry := Function.update (Function.update entry 6 (low vid)) 7 (vlanType vid 0)
  let entry := storeAddr ethAddr entry
  let entry := Function.update entry 7 (entry 7 ||| low ((0x30 : Word) ||| mcastSt <<< 6))
  Function.update entry 8 (mcastPorts portmask super (entry 8))

/-- A free entry in place of another one. -/
def freeEntry (entry : Entry) : Entry := Function.update entry 7 0

/-! ## Operations -/

/-- `cpswif_ale_unicastentry_add`. -/
def cpswifAleUnicastentryAdd (portNum : Word) (ethAddr : EthAddr) (flags ucastType : Word) :
    Engine → Err × Engine :=
  add (cpswifAleEntryMatchAddr ethAddr 0) false (ucastEntry portNum ethAddr flags ucastType)

/-- `cpswif_ale_OUI_add`. -/
def cpswifAleOuiAdd (ethAddr : EthAddr) : Engine → Err × Engine :=
  add (cpswifAleEntryMatchAddr ethAddr 0) false (ouiEntry ethAddr)

/-- `cpswif_ale_unicastentry_del`. -/
def cpswifAleUnicastentryDel (ethAddr : EthAddr) : Engine → Err × Engine :=
  del (cpswifAleEntryMatchAddr ethAddr 0) false fun entry => some (freeEntry entry)

/-- `cpswif_ale_multicastentry_add`. -/
def cpswifAleMulticastentryAdd (portmask : Word) (ethAddr : EthAddr) (super mcastSt : Word) :
    Engine → Err × Engine :=
  add (cpswifAleEntryMatchAddr ethAddr 0) true (mcastEntry portmask ethAddr super mcastSt)

/-- `cpswif_ale_multicastentry_del`. -/
def cpswifAleMulticastentryDel (portmask : Word) (ethAddr : EthAddr) : Engine → Err × Engine :=
  del (cpswifAleEntryMatchAddr ethAddr 0) true fun entry => some (dropPorts portmask entry)

/-- `cpswif_ale_vlan_add`. -/
def cpswifAleVlanAdd (vid portNum untag regMcast unregMcast : Word) : Engine → Err × Engine :=
  add (cpswifAleEntryMatchVlan vid) true (vlanPorts vid portNum untag regMcast unregMcast)

/-- `cpswif_ale_vlan_del`. -/
def cpswifAleVlanDel (vid portNum : Word) : Engine → Err × Engine :=
  del (cpswifAleEntryMatchVlan vid) true (dropMember portNum)

/-- `cpswif_ale_vlan_add_ucast`. -/
def cpswifAleVlanAddUcast (vid portNum : Word) (ethAddr : EthAddr) (flags ucastType : Word) :
    Engine → Err × Engine :=
  add (cpswifAleEntryMatchAddr ethAddr vid) false (vlanUcast vid portNum ethAddr flags ucastType)

/-- `cpswif_ale_vlan_del_ucast`. -/
def cpswifAleVlanDelUcast (vid : Word) (ethAddr : EthAddr) : Engine → Err × Engine :=
  del (cpswifAleEntryMatchAddr ethAddr vid) false fun entry => some (freeEntry entry)

/-- `cpswif_ale_vlan_add_mcast`. -/
def cpswifAleVlanAddMcast (vid portmask : Word) (ethAddr : EthAddr) (super mcastSt : Word) :
    Engine → Err × Engine :=
  add (cpswifAleEntryMatchAddr ethAddr vid) true (vlanMcast vid portmask ethAddr super mcastSt)

/-- `cpswif_ale_vlan_del_mcast`. -/
def cpswifAleVlanDelMcast (vid portmask : Word) (ethAddr : EthAddr) : Engine → Err × Engine :=
  del (cpswifAleEntryMatchAddr ethAddr vid) true fun entry => some (dropPorts portmask entry)

end BbbEth.Ale
