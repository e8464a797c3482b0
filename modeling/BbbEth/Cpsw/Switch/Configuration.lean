import BbbEth.Cpsw.Phy.Setup
import BbbEth.Cpsw.Switch.Table

/-!
# The commands of the switch

A command is configured as it should be exactly if the entry it is about has a small index, where
there is one, and it is none of the commands that go to another register, another field or one
row too far, or that enable what is to be disabled.
-/

namespace BbbEth.Switch

open Ale Registers

variable {dev : Device} {param : Param} {value : Word}

/-! ## Checks -/

/-- A check that fails gives its error, and nothing changes. -/
theorem checked_fails {settings : List Setting}
    (fails : ¬ ∀ setting ∈ settings, setting.valid param = true) :
    ∃ setting ∈ settings, setting.valid param = false ∧ ∀ body : Device → Option Device,
      checked (settings.map fun setting => (setting.valid param, setting.err)) body dev =
        some { dev with ret := setting.err } := by
  unfold checked
  cases found : (settings.map fun setting => (setting.valid param, setting.err)).find?
      fun check => !check.1 with
  | none =>
      refine absurd (fun setting member => ?_) fails
      have passes := List.find?_eq_none.mp found _ (List.mem_map_of_mem member)
      simpa using passes
  | some check =>
      rcases List.mem_map.mp (List.mem_of_find?_eq_some found) with ⟨setting, member, rfl⟩
      have fail := List.find?_some found
      exact ⟨setting, member, by simpa using fail, fun _ => rfl⟩

/-- Without such a check the command is carried out. -/
theorem checked_passes {settings : List Setting} {body : Device → Option Device}
    (valid : ∀ setting ∈ settings, setting.valid param = true) :
    checked (settings.map fun setting => (setting.valid param, setting.err)) body dev =
      body dev := by
  have none : (settings.map fun setting => (setting.valid param, setting.err)).find?
      (fun check => !check.1) = .none := by
    rw [List.find?_eq_none]
    intro check member
    rcases List.mem_map.mp member with ⟨setting, among, rfl⟩
    simpa using valid setting among
  unfold checked
  rw [none]

/-! ## Values in range -/

/-- A flag is 0 or 1. -/
theorem flag_cases (valid : checkValid value 0 1 = true) : value = 0 ∨ value = 1 := by
  have small : value.toNat ≤ 1 := toNat_le valid
  rcases (by omega : value.toNat = 0 ∨ value.toNat = 1) with zero | one
  · exact .inl (BitVec.eq_of_toNat_eq zero)
  · exact .inr (BitVec.eq_of_toNat_eq one)

theorem port_cases (valid : checkValid value 0 2 = true) : value = 0 ∨ value = 1 ∨ value = 2 := by
  have small : value.toNat ≤ 2 := toNat_le valid
  rcases (by omega : value.toNat = 0 ∨ value.toNat = 1 ∨ value.toNat = 2) with zero | one | two
  · exact .inl (BitVec.eq_of_toNat_eq zero)
  · exact .inr (.inl (BitVec.eq_of_toNat_eq one))
  · exact .inr (.inr (BitVec.eq_of_toNat_eq two))

/-- The register of a port is not the control register. -/
theorem portctl_ne (valid : checkValid value 0 2 = true) :
    aleBase + cpswAlePortctl value ≠ aleBase + cpswAleControl := by
  rcases port_cases valid with rfl | rfl | rfl
  · decide
  · decide
  · decide

/-! ## Bits of registers -/

section Bits

variable {address mask : Word} {bit : Nat}

theorem getLsbD_setBits (set : mask.getLsbD bit = true) :
    ((dev.setBits address mask).reg address).getLsbD bit = true := by
  rw [Device.reg_setBits, BitVec.getLsbD_or, set, Bool.or_true]

theorem getLsbD_setBits_other (other : mask.getLsbD bit = false) :
    ((dev.setBits address mask).reg address).getLsbD bit = (dev.reg address).getLsbD bit := by
  rw [Device.reg_setBits, BitVec.getLsbD_or, other, Bool.or_false]

theorem getLsbD_clearBits (set : mask.getLsbD bit = true) :
    ((dev.clearBits address mask).reg address).getLsbD bit = false := by
  rw [Device.reg_clearBits, BitVec.getLsbD_and, BitVec.getLsbD_not, set, Bool.not_true,
    Bool.and_false, Bool.and_false]

/-- A flag puts a bit of a register in its place. -/
theorem getLsbD_flag {flag : Word} (valid : checkValid flag 0 1 = true)
    (set : mask.getLsbD bit = true) :
    ((if flag = 0 then dev.clearBits address mask else dev.setBits address mask).reg
      address).getLsbD bit = decide (flag = 1) := by
  rcases flag_cases valid with rfl | rfl
  · rw [if_pos rfl, getLsbD_clearBits set]
    rfl
  · rw [if_neg (by decide), getLsbD_setBits set]
    rfl

theorem reg_flag_of_ne {flag other : Word} (apart : other ≠ address) :
    (if flag = 0 then dev.clearBits address mask else dev.setBits address mask).reg other =
      dev.reg other := by
  split
  · exact Device.reg_clearBits_of_ne apart
  · exact Device.reg_setBits_of_ne apart

/-- A field of a register is set. -/
theorem bits_setField {offset size : Nat} (fits : offset + size ≤ 32)
    (ones : bits offset size mask = BitVec.allOnes size) :
    bits offset size ((dev.setField address mask (value <<< offset)).reg address) =
      value.setWidth size := by
  rw [Device.reg_setField]
  exact Field.get_replace fits ones

/-- Another field stays. -/
theorem bits_setField_other {offset size shift : Nat} (fits : offset + size ≤ 32)
    (zeros : bits offset size mask = 0) (apart : bits offset size (value <<< shift) = 0) :
    bits offset size ((dev.setField address mask (value <<< shift)).reg address) =
      bits offset size (dev.reg address) := by
  unfold bits at zeros apart ⊢
  rw [Device.reg_setField, Field.get_or, apart, Field.get_and, Field.get_not fits, zeros]
  have ones : ~~~(0 : BitVec size) = BitVec.allOnes size := BitVec.not_zero
  rw [ones, BitVec.and_allOnes]
  exact BitVec.or_zero

end Bits

/-! ## The condition -/

/-- The fields in which the masks of unknown VLANs are looked for have them already. -/
structure Param.Stands (param : Param) (dev : Device) : Prop where
  registered : param.unknownVlan = alePortUnknownRegMcastFlood →
    bits 16 6 (dev.reg (aleBase + cpswAleUnknownVlan)) = param.regMulti.setWidth 6
  unregistered : param.unknownVlan = alePortUnknownUnregMcastFlood →
    bits 8 6 (dev.reg (aleBase + cpswAleUnknownVlan)) = param.unregMulti.setWidth 6

/-- When the link of a port is set up as asked for, from what MACCONTROL has and what is heard of
the PHY from here on. -/
def Param.LinkFits (param : Param) (ports : Word → Phy.Port) (dev : Device) : Prop :=
  let port := ports param.slvPortNum
  let alive := dev.reg (mdioBase + mdioAlive)
  let macControl := dev.reg (sliverBase param.slvPortNum + cpswSlMacControl)
  if param.autoneg = 1 then
    ∃ looks reads, port.Agrees param.config alive macControl dev.bus.renewed.answers
      dev.bus.renewed.unset looks reads
  else
    ∃ reads place calls looks, port.Forces param.speed alive macControl dev.bus.renewed.answers
      dev.bus.renewed.unset reads place calls looks

/-- When a command whose parameters are in their ranges is in force. -/
def Command.Holds (ports : Word → Phy.Port) (param : Param) (dev : Device) :
    Command → Prop
  | .addMulticast => ∀ idx, place param.address dev.ale.table = some idx →
      idx < 128 ∧ param.Merges dev.ale.table
  | .addUnicast => ∀ idx, place param.address dev.ale.table = some idx → idx < 128
  | .addOui => ∀ idx, place (.address param.addr 0) dev.ale.table = some idx → idx < 128
  | .findAddr | .delMulticast | .delUnicast =>
      ∀ idx, first param.address.test dev.ale.table = some idx → idx < 128
  | .addVlan => ∀ idx, place param.vlan dev.ale.table = some idx → idx < 128
  | .findVlan => ∀ idx, first param.vlan.test dev.ale.table = some idx → idx < 128
  | .delVlan => ∀ idx, first param.vlan.test dev.ale.table = some idx → idx < 128 ∧
      (param.portNum = 0 → entryMembers (dev.ale.table (pointer idx)) &&& ~~~1 = 0)
  | .dump => False
  | .vlanAware =>
      (dev.reg (ssBase + cpswSsControl)).getLsbD 1 = decide (param.vlanAware = 1)
  | .rateLimit => param.enable = 1
  | .vidIngressCheck => (dev.reg (aleBase + cpswAlePortctl param.portNum)).getLsbD 3 = true
  | .addUnknownVlanInfo => param.Stands dev
  | .setPortConfig => param.LinkFits ports dev
  | .portVlanConfig | .ageout | .configDump | .macAuth | .portState | .invalid => True

/-- When a command is configured: of the member list of unknown VLANs only the empty mask is
accepted, and no other error is reported for it. -/
structure Command.Fits (ports : Word → Phy.Port) (param : Param) (dev : Device)
    (cmd : Command) : Prop where
  member : cmd = .addUnknownVlanInfo → param.unknownVlan = alePortUnknownVlanMember →
    param.portMask = 0
  holds : cmd.Valid param → cmd.Holds ports param dev

/-! ## Commands on registers -/

section Commands

variable {ports : Word → Phy.Port}

/-- The fields of a value that is put together for a port. -/
theorem portVlan_fields (vid : checkValid param.vid 0 4095 = true)
    (cfi : checkValid param.cfiPort 0 1 = true) (pri : checkValid param.prioPort 0 7 = true) :
    param.PortVlan (param.vid ||| param.cfiPort <<< 12 ||| param.prioPort <<< 13) := by
  have vidHolds : Field.Holds ⟨0, 12⟩ param.vid := by
    have shifted : Field.Holds ⟨0, 12⟩ (param.vid <<< 0) :=
      Field.holds_shift (Nat.lt_succ_of_le (toNat_le vid))
    rwa [BitVec.shiftLeft_zero] at shifted
  have cfiHolds : Field.Holds ⟨12, 1⟩ (param.cfiPort <<< 12) :=
    Field.holds_shift (Nat.lt_succ_of_le (toNat_le cfi))
  have priHolds : Field.Holds ⟨13, 3⟩ (param.prioPort <<< 13) :=
    Field.holds_shift (Nat.lt_succ_of_le (toNat_le pri))
  refine ⟨?_, ?_, ?_⟩
  · unfold bits
    rw [Field.get_or_left (priHolds.get (by decide)), Field.get_or_left (cfiHolds.get (by decide))]
    rfl
  · unfold bits
    rw [Field.get_or_left (priHolds.get (by decide)),
      Field.get_or_right (vidHolds.get (by decide))]
    exact Field.get_shift (by decide)
  · unfold bits
    have before : Field.get ⟨13, 3⟩ (param.vid ||| param.cfiPort <<< 12) = 0 := by
      rw [Field.get_or_right (vidHolds.get (by decide)), cfiHolds.get (by decide)]
    rw [Field.get_or_right before]
    exact Field.get_shift (by decide)

theorem portVlan_inForce (vid : checkValid param.vid 0 4095 = true)
    (portNum : checkValid param.portNum 0 2 = true) (cfi : checkValid param.cfiPort 0 1 = true)
    (pri : checkValid param.prioPort 0 7 = true) :
    Command.portVlanConfig.InForce ports param dev (passed (portVlanSet param dev)) := by
  have register : ∀ base, (dev.cpswPortVlanConfig base param.vid param.cfiPort param.prioPort).reg
      (base + cpswPortPortVlan) = param.vid ||| param.cfiPort <<< 12 ||| param.prioPort <<< 13 :=
    fun base => Function.update_self ..
  have set : portVlanSet param dev = dev.cpswPortVlanConfig (portBase param.portNum) param.vid
      param.cfiPort param.prioPort := by
    unfold portVlanSet portBase
    rcases port_cases portNum with zero | one | two
    · rw [if_pos zero, if_pos zero]
    · rw [one]
      rfl
    · rw [two]
      rfl
  have fields := portVlan_fields vid cfi pri
  rw [set]
  rw [← register (portBase param.portNum)] at fields
  exact ⟨rfl, fields⟩

theorem ageout_inForce :
    Command.ageout.InForce ports param dev (passed (dev.cpswAleAgeOut aleBase)) := by
  have table : (passed (dev.cpswAleAgeOut aleBase)).ale.table = aged dev.ale.table := rfl
  refine ⟨rfl, fun entry => ?_⟩
  rw [table]
  unfold aged
  by_cases old : untouched (dev.ale.table entry) = true
  · rw [if_pos old]
    exact ⟨rfl, fun other => by cases old.symm.trans other⟩
  · rw [if_neg old]
    exact ⟨Bool.eq_false_iff.mpr old, fun _ => rfl⟩

theorem vlanAware_iff (drop : checkValid param.dropPacket 0 1 = true) :
    Command.vlanAware.InForce ports param dev (passed (vlanAwareSet param dev)) ↔
      Command.vlanAware.Holds ports param dev := by
  have engine : ((passed (vlanAwareSet param dev)).reg (aleBase + cpswAleControl)).getLsbD 2 =
      decide (param.dropPacket = 1) := getLsbD_flag drop (by decide)
  have subsystem : (passed (vlanAwareSet param dev)).reg (ssBase + cpswSsControl) =
      dev.reg (ssBase + cpswSsControl) :=
    (reg_flag_of_ne (by decide)).trans (reg_flag_of_ne (by decide))
  change errPass = errPass ∧ _ ∧ _ ↔ _
  rw [engine, subsystem]
  constructor
  · exact fun inForce => inForce.2.1
  · exact fun holds => ⟨rfl, holds, rfl⟩

theorem macAuth_inForce (valid : checkValid param.macAuth 0 1 = true) :
    Command.macAuth.InForce ports param dev (passed (authSet param dev)) :=
  ⟨rfl, getLsbD_flag valid (by decide)⟩

theorem portState_inForce :
    Command.portState.InForce ports param dev
      (passed (dev.cpswAlePortStateSet aleBase param.portNum param.portState)) := by
  have state : bits 0 2 ((dev.setField (aleBase + cpswAlePortctl param.portNum) portState
      (param.portState <<< 0)).reg (aleBase + cpswAlePortctl param.portNum)) =
        param.portState.setWidth 2 := bits_setField (by decide) (by decide)
  rw [BitVec.shiftLeft_zero] at state
  exact ⟨rfl, state⟩

theorem vidIngressCheck_iff :
    Command.vidIngressCheck.InForce ports param dev
        (passed (dev.cpswAleVidIngressCheckSet aleBase param.portNum)) ↔
      Command.vidIngressCheck.Holds ports param dev := by
  have same : ((passed (dev.cpswAleVidIngressCheckSet aleBase param.portNum)).reg
      (aleBase + cpswAlePortctl param.portNum)).getLsbD 3 =
        (dev.reg (aleBase + cpswAlePortctl param.portNum)).getLsbD 3 :=
    getLsbD_setBits_other (by decide)
  change errPass = errPass ∧ _ ↔ _
  rw [same]
  exact and_iff_right rfl

/-- What comes to an end without waiting holds if it holds of the result. -/
theorem ends_iff {run : Nat → Option Device} {holds : Device → Prop} {after : Device}
    (ends : ∀ rounds, run rounds = some after) :
    (∃ rounds after, run rounds = some after ∧ holds after) ↔ holds after := by
  constructor
  · rintro ⟨rounds, other, runs, held⟩
    obtain rfl := Option.some.inj ((ends rounds).symm.trans runs)
    exact held
  · exact fun held => ⟨0, after, ends 0, held⟩

/-- What MACCONTROL of a port has behind a routine. -/
theorem reg_setLink {slvPortNum macControl : Word} {bus : Phy.Bus} :
    (setLink slvPortNum bus macControl dev).reg (sliverBase slvPortNum + cpswSlMacControl) =
      macControl := Function.update_self ..

theorem setPortConfig_iff (autoneg : checkValid param.autoneg 0 1 = true)
    (speed : param.autoneg ≠ 1 → checkValid param.speed 0 2 = true) :
    (∃ rounds after, Command.setPortConfig.body rounds ports param dev = some after ∧
      Command.setPortConfig.InForce ports param dev after) ↔
        Command.setPortConfig.Holds ports param dev := by
  have body : ∀ rounds, Command.setPortConfig.body rounds ports param dev =
      (linkRoutine rounds ports param dev).map fun done =>
        passed (setLink param.slvPortNum done.2.1 done.2.2 dev) := fun _ => rfl
  change _ ↔ param.LinkFits ports dev
  unfold Param.LinkFits
  by_cases negotiates : param.autoneg = 1
  · have some : param.autoneg ≠ 0 := by
      rw [negotiates]
      decide
    obtain ⟨done, routine⟩ : ∃ done, Phy.cpswifPhyAutoneg (ports param.slvPortNum) param.config
        (dev.reg (mdioBase + mdioAlive)) dev.bus.renewed
        (dev.reg (sliverBase param.slvPortNum + cpswSlMacControl)) = done := ⟨_, rfl⟩
    have ends : ∀ rounds, Command.setPortConfig.body rounds ports param dev =
        .some (passed (setLink param.slvPortNum done.2.1 done.2.2 dev)) := by
      intro rounds
      rw [body, linkRoutine, if_pos some, routine]
      rfl
    have negotiated := @Phy.agrees_iff (ports param.slvPortNum) dev.bus.renewed.answers
      dev.bus.renewed.unset (dev.reg (sliverBase param.slvPortNum + cpswSlMacControl))
      (dev.reg (mdioBase + mdioAlive)) param.config
    rw [ends_iff ends, if_pos negotiates, ← negotiated]
    change errPass = errPass ∧ (if param.autoneg = 1 then (ports param.slvPortNum).Negotiated
      param.config done.2.1.log ((setLink param.slvPortNum done.2.1 done.2.2 dev).reg _) else _) ↔ _
    rw [if_pos negotiates, and_iff_right rfl, reg_setLink, ← routine]
    rfl
  · have none : ¬ param.autoneg ≠ 0 := not_not.mpr ((flag_cases autoneg).resolve_right negotiates)
    have forced : ∀ rounds, linkRoutine rounds ports param dev = Phy.cpswifPhyForced rounds
        (ports param.slvPortNum) param.speed param.duplex (dev.reg (mdioBase + mdioAlive))
        dev.bus.renewed (dev.reg (sliverBase param.slvPortNum + cpswSlMacControl)) :=
      fun _ => if_neg none
    rw [if_neg negotiates]
    refine Iff.trans ?_ (Phy.forces_iff param.duplex (port_cases (speed negotiates)))
    constructor
    · rintro ⟨rounds, after, runs, _, inForce⟩
      rw [body, forced, Option.map_eq_some_iff] at runs
      obtain ⟨⟨err, bus, macControl⟩, runs, rfl⟩ := runs
      rw [if_neg negotiates] at inForce
      change Phy.Forced _ _ bus.log ((setLink param.slvPortNum bus macControl dev).reg _) at inForce
      rw [reg_setLink] at inForce
      exact ⟨rounds, err, bus, macControl, runs, inForce⟩
    · rintro ⟨rounds, err, bus, macControl, runs, inForce⟩
      refine ⟨rounds, passed (setLink param.slvPortNum bus macControl dev), ?_, rfl, ?_⟩
      · rw [body, forced, Option.map_eq_some_iff]
        exact ⟨_, runs, rfl⟩
      · rw [if_neg negotiates]
        change Phy.Forced _ _ bus.log ((setLink param.slvPortNum bus macControl dev).reg _)
        rw [reg_setLink]
        exact inForce

/-! ## Rows -/

theorem passed_filled : (passed dev).filled = dev.filled := rfl

theorem dumpRows_filled (left cnt : Nat) (dev : Device) :
    (dumpRows left cnt dev).filled.length = dev.filled.length + left := by
  induction left generalizing cnt dev with
  | zero => rfl
  | succ left inductionHypothesis =>
      unfold dumpRows
      rw [inductionHypothesis]
      change (dev.filled ++ [cnt]).length + left = _
      rw [List.length_append, List.length_singleton]
      omega

/-- A dump fills one row more than there are. -/
theorem not_dump_inForce :
    ¬ Command.dump.InForce ports param dev (passed (dumpRows (maxAleEntries + 1) 0 dev)) := by
  rintro ⟨_, rows⟩
  have length := congrArg List.length rows.filled
  rw [passed_filled, dumpRows_filled, List.length_append, List.length_range] at length
  omega

theorem configDump_inForce (valid : checkValid param.aleTblIndex 0 1023 = true) :
    Command.configDump.InForce ports param dev
      (passed (readRow maxAleEntries param.aleTblIndex dev)) := by
  have small : param.aleTblIndex.toNat ≤ 1023 := toNat_le valid
  have reads : dev.ale.cpswAleTableEntryGet param.aleTblIndex =
      (dev.ale.table (param.aleTblIndex.setWidth 10),
        { dev.ale with tblw := dev.ale.table (param.aleTblIndex.setWidth 10) }) := by
    have number : pointer param.aleTblIndex.toNat = param.aleTblIndex.setWidth 10 :=
      BitVec.ofNat_toNat ..
    have entry : dev.ale.cpswAleTableEntryGet (BitVec.ofNat 32 param.aleTblIndex.toNat) = _ :=
      Engine.cpswAleTableEntryGet_eq (Nat.lt_succ_of_le small)
    rwa [BitVec.ofNat_toNat, BitVec.setWidth_eq, number] at entry
  refine ⟨rfl, rfl, fun row member => ?_, ?_⟩
  · rw [List.mem_singleton.mp member]
    change Function.update dev.rows maxAleEntries
      (dev.ale.cpswAleTableEntryGet param.aleTblIndex).1 maxAleEntries = _
    rw [Function.update_self, reads]
  · change (dev.ale.cpswAleTableEntryGet param.aleTblIndex).2.table = _
    rw [reads]

/-! ## Rates -/

section Rates

variable {direction portNum addrType limit : Word}

theorem rateLimitMode_bit (valid : checkValid direction 0 1 = true) :
    ((rateLimitMode direction portNum dev).reg (aleBase + cpswAleControl)).getLsbD 3 =
      decide (portNum = 0 ↔ direction = 1) := by
  unfold rateLimitMode
  rcases flag_cases valid with rfl | rfl
  · by_cases host : portNum = 0
    · rw [if_pos host, if_neg (by decide),
        decide_eq_false fun same => absurd (same.mp host) (by decide)]
      exact getLsbD_clearBits (by decide)
    · rw [if_neg host, if_neg (by decide), decide_eq_true (iff_of_false host (by decide))]
      exact getLsbD_setBits (by decide)
  · by_cases host : portNum = 0
    · rw [if_pos host, if_pos (by decide), decide_eq_true (iff_of_true host rfl)]
      exact getLsbD_setBits (by decide)
    · rw [if_neg host, if_pos (by decide), decide_eq_false fun same => host (same.mpr rfl)]
      exact getLsbD_clearBits (by decide)

theorem rateLimitMode_of_ne {address : Word} (apart : address ≠ aleBase + cpswAleControl) :
    (rateLimitMode direction portNum dev).reg address = dev.reg address := by
  unfold rateLimitMode
  split
  · split
    · exact Device.reg_setBits_of_ne apart
    · exact Device.reg_clearBits_of_ne apart
  · split
    · exact Device.reg_clearBits_of_ne apart
    · exact Device.reg_setBits_of_ne apart

theorem rateLimitSet_broadcast (broadcast : addrType = addrTypeBroadcast) :
    bits 24 8 ((rateLimitSet portNum addrType limit dev).reg
      (aleBase + cpswAlePortctl portNum)) = limit.setWidth 8 := by
  unfold rateLimitSet
  rw [if_pos broadcast]
  exact bits_setField (by decide) (by decide)

theorem rateLimitSet_multicast (multicast : addrType = addrTypeMulticast) :
    bits 16 8 ((rateLimitSet portNum addrType limit dev).reg
      (aleBase + cpswAlePortctl portNum)) = limit.setWidth 8 := by
  unfold rateLimitSet
  rw [multicast, if_neg (by decide), if_pos rfl]
  exact bits_setField (by decide) (by decide)

end Rates

/-- Limiting is always enabled. -/
theorem rateLimit_iff (direction : checkValid param.direction 0 1 = true)
    (portNum : checkValid param.portNum 0 2 = true) :
    Command.rateLimit.InForce ports param dev (passed (cpswifRateLimit param.enable
        param.direction param.portNum param.addrType param.limit dev)) ↔
      Command.rateLimit.Holds ports param dev := by
  have enabled : ((passed (cpswifRateLimit param.enable param.direction param.portNum param.addrType
      param.limit dev)).reg (aleBase + cpswAleControl)).getLsbD 0 = true :=
    getLsbD_setBits (by decide)
  have mode : ((passed (cpswifRateLimit param.enable param.direction param.portNum param.addrType
      param.limit dev)).reg (aleBase + cpswAleControl)).getLsbD 3 =
      decide (param.portNum = 0 ↔ param.direction = 1) :=
    (getLsbD_setBits_other (by decide)).trans (rateLimitMode_bit direction)
  have apart := portctl_ne portNum
  have limits : ∀ offset size field, (∀ dev : Device, bits offset size
      ((rateLimitSet param.portNum param.addrType param.limit dev).reg
        (aleBase + cpswAlePortctl param.portNum)) = field) →
      bits offset size ((passed (cpswifRateLimit param.enable param.direction param.portNum
        param.addrType param.limit dev)).reg (aleBase + cpswAlePortctl param.portNum)) =
          field := by
    intro offset size field set
    rw [← set (if param.enable = 0 then dev.cpswAleRateLimitDisable aleBase else dev)]
    exact congrArg (bits offset size)
      ((Device.reg_setBits_of_ne apart).trans (rateLimitMode_of_ne apart))
  constructor
  · intro inForce
    have asked : true = decide (param.enable = 1) := enabled.symm.trans inForce.2.enable
    exact (of_decide_eq_true asked.symm : param.enable = 1)
  · intro holds
    have one : param.enable = 1 := holds
    refine ⟨rfl, ?_, mode, fun broadcast => limits _ _ _ fun _ => rateLimitSet_broadcast broadcast,
      fun multicast => limits _ _ _ fun _ => rateLimitSet_multicast multicast⟩
    exact enabled.trans (decide_eq_true one).symm

/-! ## Unknown VLANs -/

/-- The type of what is unknown of a VLAN. -/
theorem unknown_cases (valid : checkValid value 1 4 = true) :
    value = alePortUntaggedEgress ∨ value = alePortUnknownRegMcastFlood ∨
      value = alePortUnknownUnregMcastFlood ∨ value = alePortUnknownVlanMember := by
  have least : 1 ≤ value.toNat := BitVec.le_def.mp (checkValid_iff.mp valid).1
  have most : value.toNat ≤ 4 := BitVec.le_def.mp (checkValid_iff.mp valid).2
  rcases (by omega : value.toNat = 1 ∨ value.toNat = 2 ∨ value.toNat = 3 ∨ value.toNat = 4) with
    one | two | three | four
  · exact .inl (BitVec.eq_of_toNat_eq one)
  · exact .inr (.inl (BitVec.eq_of_toNat_eq two))
  · exact .inr (.inr (.inl (BitVec.eq_of_toNat_eq three)))
  · exact .inr (.inr (.inr (BitVec.eq_of_toNat_eq four)))

/-- The condition is about the two flood masks only. -/
theorem stands_of_ne (registered : param.unknownVlan ≠ alePortUnknownRegMcastFlood)
    (unregistered : param.unknownVlan ≠ alePortUnknownUnregMcastFlood) : param.Stands dev :=
  ⟨fun same => absurd same registered, fun same => absurd same unregistered⟩

theorem unknown_untagged (type : param.unknownVlan = alePortUntaggedEgress) :
    Command.addUnknownVlanInfo.InForce ports param dev
      (passed (dev.cpswAleUnknownUntaggedEgressSet aleBase param.untagPort)) := by
  refine ⟨rfl, fun _ => bits_setField (by decide) (by decide), ?_, ?_, ?_⟩
  all_goals exact fun other => absurd (type.symm.trans other) (by decide)

/-- The mask of registered addresses is written to the field below. -/
theorem unknown_registered (type : param.unknownVlan = alePortUnknownRegMcastFlood)
    (valid : checkValid param.regMulti 0 7 = true) :
    Command.addUnknownVlanInfo.InForce ports param dev
      (passed (dev.cpswAleUnknownRegFloodMaskSet aleBase param.regMulti)) ↔ param.Stands dev := by
  have holds : Field.Holds ⟨8, 3⟩ (param.regMulti <<< 8) :=
    Field.holds_shift (Nat.lt_succ_of_le (toNat_le valid))
  have same : bits 16 6 ((passed (dev.cpswAleUnknownRegFloodMaskSet aleBase param.regMulti)).reg
      (aleBase + cpswAleUnknownVlan)) = bits 16 6 (dev.reg (aleBase + cpswAleUnknownVlan)) :=
    bits_setField_other (by decide) (by decide) (holds.get (by decide))
  constructor
  · rintro ⟨_, unknown⟩
    refine ⟨fun type => same.symm.trans (unknown.registered type), fun other => ?_⟩
    exact absurd (type.symm.trans other) (by decide)
  · intro stands
    refine ⟨rfl, ?_, fun type => same.trans (stands.registered type), ?_, ?_⟩
    all_goals exact fun other => absurd (type.symm.trans other) (by decide)

/-- The mask of other addresses is written to the field above. -/
theorem unknown_unregistered (type : param.unknownVlan = alePortUnknownUnregMcastFlood)
    (valid : checkValid param.unregMulti 0 7 = true) :
    Command.addUnknownVlanInfo.InForce ports param dev
      (passed (dev.cpswAleUnknownUnRegFloodMaskSet aleBase param.unregMulti)) ↔
        param.Stands dev := by
  have holds : Field.Holds ⟨16, 3⟩ (param.unregMulti <<< 16) :=
    Field.holds_shift (Nat.lt_succ_of_le (toNat_le valid))
  have same : bits 8 6 ((passed (dev.cpswAleUnknownUnRegFloodMaskSet aleBase
      param.unregMulti)).reg (aleBase + cpswAleUnknownVlan)) =
        bits 8 6 (dev.reg (aleBase + cpswAleUnknownVlan)) :=
    bits_setField_other (by decide) (by decide) (holds.get (by decide))
  constructor
  · rintro ⟨_, unknown⟩
    refine ⟨fun other => ?_, fun type => same.symm.trans (unknown.unregistered type)⟩
    exact absurd (type.symm.trans other) (by decide)
  · intro stands
    refine ⟨rfl, ?_, ?_, fun type => same.trans (stands.unregistered type), ?_⟩
    all_goals exact fun other => absurd (type.symm.trans other) (by decide)

theorem unknown_member (type : param.unknownVlan = alePortUnknownVlanMember) :
    Command.addUnknownVlanInfo.InForce ports param dev
      (passed (dev.cpswAleUnknownMemberListSet aleBase param.portMask)) := by
  refine ⟨rfl, ?_, ?_, ?_, fun _ => bits_setField (by decide) (by decide)⟩
  all_goals exact fun other => absurd (type.symm.trans other) (by decide)

/-! ## All commands -/

/-- Checks one after the other. -/
theorem checked_append {checks more : List (Bool × Int)} {body : Device → Option Device} :
    checked (checks ++ more) body dev = checked checks (checked more body) dev := by
  unfold checked
  rw [List.find?_append]
  cases checks.find? fun check => !check.1 with
  | none => rfl
  | some check => rfl

/-- A command that checks what it uses is configured if it is in force. -/
theorem configured_checked {cmd : Command} {body : Nat → Device → Option Device}
    (runs : ∀ rounds, cpswSwitchConfiguration rounds ports param cmd dev =
      checked ((cmd.settings param).map fun setting => (setting.valid param, setting.err))
        (body rounds) dev)
    (exact : cmd.Valid param →
      ((∃ rounds after, body rounds dev = some after ∧ cmd.InForce ports param dev after) ↔
        cmd.Holds ports param dev)) :
    Configured ports cmd param dev ↔ (cmd.Valid param → cmd.Holds ports param dev) := by
  constructor
  · intro configured valid
    obtain ⟨rounds, after, ran, inForce⟩ := configured.serves valid
    rw [runs, checked_passes valid] at ran
    exact (exact valid).mp ⟨rounds, after, ran, inForce⟩
  · intro holds
    refine ⟨fun invalid => ?_, fun valid => ?_⟩
    · obtain ⟨setting, among, fails, refused⟩ := @checked_fails dev param _ invalid
      exact ⟨setting, among, fails, fun rounds => (runs rounds).trans (refused _)⟩
    · obtain ⟨rounds, after, ran, inForce⟩ := (exact valid).mpr (holds valid)
      exact ⟨rounds, after, ((runs rounds).trans (checked_passes valid)).trans ran, inForce⟩

/-- The checks of a command are those of the parameters that it uses. -/
theorem checks_eq {cmd : Command} (other : cmd ≠ .addUnknownVlanInfo) :
    cmd.checks param =
      (cmd.settings param).map fun setting => (setting.valid param, setting.err) := by
  cases cmd with
  | addUnknownVlanInfo => exact absurd rfl other
  | setPortConfig =>
      by_cases negotiates : param.autoneg = 1
      · simp only [Command.checks, Command.settings, if_pos negotiates]
        rfl
      · simp only [Command.checks, Command.settings, if_neg negotiates]
        rfl
  | _ => rfl

/-- A command whose parameters are in their ranges comes to an end and is in force exactly under
the condition. -/
theorem inForce_iff {cmd : Command} (other : cmd ≠ .addUnknownVlanInfo)
    (valid : cmd.Valid param) :
    (∃ rounds after, cmd.body rounds ports param dev = some after ∧
      cmd.InForce ports param dev after) ↔ cmd.Holds ports param dev := by
  cases cmd with
  | invalid => exact Iff.trans (ends_iff fun _ => rfl) (iff_of_true rfl trivial)
  | addMulticast =>
      exact Iff.trans (ends_iff fun _ => rfl)
        (atIndex_multicast (valid .vid (by simp [Command.settings]))
          (valid .portMask (by simp [Command.settings])))
  | addUnicast =>
      exact Iff.trans (ends_iff fun _ => rfl)
        (atIndex_unicast (valid .vid (by simp [Command.settings])))
  | addOui => exact Iff.trans (ends_iff fun _ => rfl) atIndex_oui
  | findAddr =>
      refine Iff.trans (ends_iff fun _ => rfl) ?_
      change Found _ _ (tabled (cpswifAleEntryMatchAddr param.addr param.vid) dev) ↔ _
      rw [← find_address (valid .vid (by simp [Command.settings]))]
      exact found_find
  | delMulticast =>
      exact Iff.trans (ends_iff fun _ => rfl)
        (atIndex_ports (valid .vid (by simp [Command.settings]))
          (valid .portMask (by simp [Command.settings])))
  | delUnicast =>
      exact Iff.trans (ends_iff fun _ => rfl)
        (atIndex_freed (valid .vid (by simp [Command.settings])))
  | addVlan =>
      exact Iff.trans (ends_iff fun _ => rfl)
        (atIndex_vlan (valid .vid (by simp [Command.settings]))
          (valid .portNum (by simp [Command.settings]))
          (valid .regMulti (by simp [Command.settings]))
          (valid .unregMulti (by simp [Command.settings]))
          (valid .untagPort (by simp [Command.settings])))
  | findVlan =>
      refine Iff.trans (ends_iff fun _ => rfl) ?_
      change Found _ _ (tabled (cpswifAleEntryMatchVlan param.vid) dev) ↔ _
      rw [← find_vlan (valid .vid (by simp [Command.settings]))]
      exact found_find
  | delVlan =>
      exact Iff.trans (ends_iff fun _ => rfl)
        (atIndex_left (valid .vid (by simp [Command.settings]))
          (valid .portNum (by simp [Command.settings])))
  | portVlanConfig =>
      refine Iff.trans (ends_iff fun _ => rfl) (iff_of_true (portVlan_inForce (valid .vid ?_)
        (valid .portNum ?_) (valid .cfiPort ?_) (valid .prioPort ?_)) trivial)
      all_goals simp [Command.settings]
  | ageout => exact Iff.trans (ends_iff fun _ => rfl) (iff_of_true ageout_inForce trivial)
  | dump => exact Iff.trans (ends_iff fun _ => rfl) (iff_of_false not_dump_inForce id)
  | configDump =>
      exact Iff.trans (ends_iff fun _ => rfl) (iff_of_true
        (configDump_inForce (valid .aleTblIndex (by simp [Command.settings]))) trivial)
  | vlanAware =>
      exact Iff.trans (ends_iff fun _ => rfl)
        (vlanAware_iff (valid .dropPacket (by simp [Command.settings])))
  | rateLimit =>
      exact Iff.trans (ends_iff fun _ => rfl)
        (rateLimit_iff (valid .direction (by simp [Command.settings]))
          (valid .portNum (by simp [Command.settings])))
  | vidIngressCheck => exact Iff.trans (ends_iff fun _ => rfl) vidIngressCheck_iff
  | addUnknownVlanInfo => exact absurd rfl other
  | macAuth =>
      exact Iff.trans (ends_iff fun _ => rfl)
        (iff_of_true (macAuth_inForce (valid .macAuth (by simp [Command.settings]))) trivial)
  | portState => exact Iff.trans (ends_iff fun _ => rfl) (iff_of_true portState_inForce trivial)
  | setPortConfig =>
      refine setPortConfig_iff (valid .autoneg (by simp [Command.settings])) fun manual =>
        valid .speed ?_
      unfold Command.settings
      rw [if_neg manual]
      simp

/-- The checks for what is unknown of a VLAN. -/
theorem unknown_runs {setting : Setting} {body : Device → Option Device}
    (type : unknownSetting param.unknownVlan = [setting])
    (runs : unknownVlanInfo param = checked [(setting.valid param, setting.err)] body) :
    cpswSwitchConfiguration rounds ports param .addUnknownVlanInfo dev =
      checked ((Command.addUnknownVlanInfo.settings param).map
        fun setting => (setting.valid param, setting.err)) body dev := by
  unfold Command.settings
  rw [type]
  change checked _ (unknownVlanInfo param) dev = checked ([_] ++ [_]) body dev
  rw [checked_append, runs]
  rfl

theorem fits_iff {cmd : Command}
    (other : ¬ (cmd = .addUnknownVlanInfo ∧ param.unknownVlan = alePortUnknownVlanMember)) :
    cmd.Fits ports param dev ↔ (cmd.Valid param → cmd.Holds ports param dev) := by
  constructor
  · exact fun fits => fits.holds
  · exact fun holds => ⟨fun same type => absurd ⟨same, type⟩ other, holds⟩

/-- Where a number is none of the types, it is refused. -/
theorem unknown_refused (invalid : ¬ checkValid param.unknownVlan 1 4 = true) :
    Configured ports .addUnknownVlanInfo param dev ∧
      Command.addUnknownVlanInfo.Fits ports param dev := by
  have notValid : ¬ Command.addUnknownVlanInfo.Valid param := fun valid =>
    invalid (valid .unknownVlan List.mem_cons_self)
  have runs : ∀ rounds, cpswSwitchConfiguration rounds ports param .addUnknownVlanInfo dev =
      some { dev with ret := errUnknownVlan } := by
    intro rounds
    change checked [(checkValid param.unknownVlan 1 4, errUnknownVlan)] _ dev = _
    rw [Bool.eq_false_iff.mpr invalid]
    rfl
  refine ⟨⟨fun _ => ?_, fun valid => absurd valid notValid⟩, fun _ type => ?_,
    fun valid => absurd valid notValid⟩
  · exact ⟨.unknownVlan, List.mem_cons_self, Bool.eq_false_iff.mpr invalid, runs⟩
  · rw [type] at invalid
    exact absurd (by decide) invalid

/-- A member list that is not empty gets an error, and not the one of the mask. -/
theorem member_refused (type : param.unknownVlan = alePortUnknownVlanMember)
    (members : param.portMask ≠ 0) : ¬ Configured ports .addUnknownVlanInfo param dev := by
  have settings : Command.addUnknownVlanInfo.settings param = [.unknownVlan, .portMask] := by
    unfold Command.settings
    rw [type]
    rfl
  have fails : checkValid param.portMask 0 0 = false := by
    refine decide_eq_false fun inside => members (BitVec.eq_of_toNat_eq ?_)
    exact Nat.le_zero.mp (BitVec.le_def.mp inside.2)
  have result : ∀ rounds, cpswSwitchConfiguration rounds ports param .addUnknownVlanInfo dev =
      some { dev with ret := errVlanMcastUnreg } := by
    intro rounds
    change checked [(checkValid param.unknownVlan 1 4, errUnknownVlan)]
      (unknownVlanInfo param) dev = _
    rw [type]
    change unknownVlanInfo param dev = _
    unfold unknownVlanInfo
    rw [type, if_neg (by decide), if_neg (by decide), if_neg (by decide), if_pos rfl, fails]
    rfl
  intro configured
  by_cases valid : Command.addUnknownVlanInfo.Valid param
  · obtain ⟨rounds, after, ran, inForce⟩ := configured.serves valid
    obtain rfl := Option.some.inj ((result rounds).symm.trans ran)
    have refused : errVlanMcastUnreg = errPass := inForce.1
    exact absurd refused (by decide)
  · rcases configured.refuses valid with ⟨setting, among, refused, runs⟩
    have same := congrArg (Option.map Device.ret) ((result 0).symm.trans (runs 0))
    rw [settings] at among
    rcases List.mem_pair.mp among with rfl | rfl
    · change checkValid param.unknownVlan 1 4 = false at refused
      rw [type] at refused
      exact absurd refused (by decide)
    · have other : errVlanMcastUnreg = errPortMask := Option.some.inj same
      exact absurd other (by decide)

/-- The empty member list is accepted. -/
theorem member_runs (type : param.unknownVlan = alePortUnknownVlanMember)
    (empty : param.portMask = 0) :
    (unknownVlanInfo param : Device → Option Device) =
      checked [(Setting.valid param .portMask, Setting.err .portMask)]
        fun dev => some (passed (dev.cpswAleUnknownMemberListSet aleBase param.portMask)) := by
  funext dev
  change _ = checked [(checkValid param.portMask 0 7, errPortMask)] _ dev
  unfold unknownVlanInfo
  rw [type, if_neg (by decide), if_neg (by decide), if_neg (by decide), if_pos rfl, empty]
  rfl

theorem configured_unknown : Configured ports .addUnknownVlanInfo param dev ↔
    Command.addUnknownVlanInfo.Fits ports param dev := by
  by_cases valid : checkValid param.unknownVlan 1 4 = true
  swap
  · exact iff_of_true (unknown_refused valid).1 (unknown_refused valid).2
  rcases unknown_cases valid with type | type | type | type
  · have among : unknownSetting param.unknownVlan = [.untagPort] := if_pos type
    rw [fits_iff fun both => absurd (type.symm.trans both.2) (by decide)]
    have runs : (unknownVlanInfo param : Device → Option Device) = _ := funext fun dev =>
      if_pos type
    refine configured_checked (fun _ => unknown_runs among runs) fun valid => ?_
    refine Iff.trans (ends_iff fun _ => rfl) ?_
    refine iff_of_true (unknown_untagged type) (stands_of_ne ?_ ?_)
    · exact ne_of_eq_of_ne type (by decide)
    · exact ne_of_eq_of_ne type (by decide)
  · have among : unknownSetting param.unknownVlan = [.regMulti] := by
      rw [type]
      rfl
    have runs : (unknownVlanInfo param : Device → Option Device) = _ := funext fun dev =>
      (if_neg (by rw [type]; decide)).trans (if_pos type)
    rw [fits_iff fun both => absurd (type.symm.trans both.2) (by decide)]
    refine configured_checked (fun _ => unknown_runs among runs) fun valid => ?_
    refine Iff.trans (ends_iff fun _ => rfl) (unknown_registered type ?_)
    exact valid .regMulti (List.mem_cons_of_mem _ (among ▸ List.mem_singleton_self _))
  · have among : unknownSetting param.unknownVlan = [.unregMulti] := by
      rw [type]
      rfl
    have runs : (unknownVlanInfo param : Device → Option Device) = _ := funext fun dev =>
      (if_neg (by rw [type]; decide)).trans <| (if_neg (by rw [type]; decide)).trans (if_pos type)
    rw [fits_iff fun both => absurd (type.symm.trans both.2) (by decide)]
    refine configured_checked (fun _ => unknown_runs among runs) fun valid => ?_
    refine Iff.trans (ends_iff fun _ => rfl) (unknown_unregistered type ?_)
    exact valid .unregMulti (List.mem_cons_of_mem _ (among ▸ List.mem_singleton_self _))
  · by_cases empty : param.portMask = 0
    · have among : unknownSetting param.unknownVlan = [.portMask] := by
        rw [type]
        rfl
      have stands : param.Stands dev :=
        stands_of_ne (ne_of_eq_of_ne type (by decide)) (ne_of_eq_of_ne type (by decide))
      have runs := @member_runs param type empty
      refine iff_of_true ((configured_checked (fun _ => unknown_runs among runs)
        fun _ => ?_).mpr fun _ => stands) ⟨fun _ _ => empty, fun _ => stands⟩
      exact Iff.trans (ends_iff fun _ => rfl) (iff_of_true (unknown_member type) stands)
    · exact iff_of_false (member_refused type empty) fun fits => empty (fits.member rfl type)

theorem configured_known {cmd : Command} (known : cmd ≠ .addUnknownVlanInfo) :
    Configured ports cmd param dev ↔ (cmd.Valid param → cmd.Holds ports param dev) := by
  have runs : ∀ rounds, cpswSwitchConfiguration rounds ports param cmd dev =
      checked ((cmd.settings param).map fun setting => (setting.valid param, setting.err))
        (fun dev => cmd.body rounds ports param dev) dev := by
    intro rounds
    unfold cpswSwitchConfiguration
    rw [checks_eq known]
  exact configured_checked runs (inForce_iff known)

/-- A command is configured exactly under the condition. -/
theorem configured_iff (ports : Word → Phy.Port) (cmd : Command) (param : Param)
    (dev : Device) : Configured ports cmd param dev ↔ cmd.Fits ports param dev := by
  by_cases unknown : cmd = .addUnknownVlanInfo
  · rw [unknown]
    exact configured_unknown
  · rw [fits_iff fun both => unknown both.1]
    exact configured_known unknown

/-- A command that comes to an end has one result, however long a PHY is waited for. -/
theorem cpswSwitchConfiguration_more {rounds more : Nat} {cmd : Command} {after : Device}
    (ends : cpswSwitchConfiguration rounds ports param cmd dev = some after) :
    cpswSwitchConfiguration (rounds + more) ports param cmd dev = some after := by
  unfold cpswSwitchConfiguration checked at ends ⊢
  split at ends
  next => exact ends
  next =>
    cases cmd with
    | setPortConfig =>
        change (linkRoutine ..).map _ = _ at ends ⊢
        rw [Option.map_eq_some_iff] at ends ⊢
        obtain ⟨done, runs, same⟩ := ends
        refine ⟨done, ?_, same⟩
        unfold linkRoutine at runs ⊢
        dsimp only at runs ⊢
        split at runs
        · rwa [if_pos ‹_›]
        · rw [if_neg ‹_›]
          exact Phy.cpswifPhyForced_more runs
    | _ => exact ends

end Commands

/-! ## A limit that is not taken away -/

/-- The limit of multicast packets of the first slave port is to be disabled. -/
def unlimited : Param where
  portNum := 1
  portMask := 0
  vid := 0
  prioPort := 0
  cfiPort := 0
  unregMulti := 0
  regMulti := 0
  untagPort := 0
  addr := fun _ => 0
  super := 0
  fwdState := 0
  ucastFlags := 0
  ucastType := 0
  aleTblIndex := 0
  vlanAware := 0
  dropPacket := 0
  direction := 0
  addrType := addrTypeMulticast
  limit := 0
  portState := 0
  enable := 0
  unknownVlan := 0
  macAuth := 0
  slvPortNum := 0
  autoneg := 0
  config := 0
  speed := 0
  duplex := 0

/-- A switch before its first command. -/
def unset : Device :=
  ⟨fun _ => 0, vacant, ⟨fun _ => 0, fun _ => 0, []⟩, fun _ => noEntry, [], 0⟩

theorem not_configured :
    ¬ ∀ (ports : Word → Phy.Port) (cmd : Command) (param : Param) (dev : Device),
      Configured ports cmd param dev := by
  intro all
  have known : Command.rateLimit ≠ .addUnknownVlanInfo := by decide
  have valid : Command.rateLimit.Valid unlimited := by
    unfold Command.Valid
    decide
  have enabled : unlimited.enable = 1 :=
    (configured_known known).mp (all (fun _ => ⟨0, 0⟩) .rateLimit unlimited unset) valid
  exact absurd enabled (by decide)

end BbbEth.Switch
