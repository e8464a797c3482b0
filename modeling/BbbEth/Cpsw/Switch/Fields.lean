import BbbEth.Cpsw.Switch.Registers

/-!
# Fields of the registers of the ALE

The routines that set a field of a register, and what the registers hold after any sequence of
calls.
-/

namespace BbbEth.Switch

open Ale Registers

def cpswAlePrescale : Word := 0x10
def alePrescale : Word := 0x000fffff

/-- `CPSWALEPrescaleSet`. -/
def Device.cpswAlePrescaleSet (dev : Device) (baseAddr psVal : Word) :
    Device :=
  dev.setBits (baseAddr + cpswAlePrescale) (psVal &&& alePrescale)

/-- A call of one of the routines, with parameters in their ranges. -/
inductive FieldCall where
  | broadcastRateLimit (port : Fin 6) (bplVal : BitVec 8)
  | multicastRateLimit (port : Fin 6) (mplVal : BitVec 8)
  | vidIngressCheck (port : Fin 6)
  | portState (port : Fin 6) (state : BitVec 2)
  | prescale (psVal : BitVec 20)
  | unknownUntaggedEgress (ueVal : BitVec 6)
  | unknownRegFloodMask (rfmVal : BitVec 6)
  | unknownUnRegFloodMask (ufmVal : BitVec 6)
  | unknownMemberList (mlVal : BitVec 6)

namespace FieldCall

def portNum (port : Fin 6) : Word := BitVec.ofNat 32 port

def perform (baseAddr : Word) (dev : Device) : FieldCall → Device
  | .broadcastRateLimit port bplVal =>
      dev.cpswAleBroadcastRateLimitSet baseAddr (portNum port) (bplVal.setWidth 32)
  | .multicastRateLimit port mplVal =>
      dev.cpswAleMulticastRateLimitSet baseAddr (portNum port) (mplVal.setWidth 32)
  | .vidIngressCheck port => dev.cpswAleVidIngressCheckSet baseAddr (portNum port)
  | .portState port state => dev.cpswAlePortStateSet baseAddr (portNum port) (state.setWidth 32)
  | .prescale psVal => dev.cpswAlePrescaleSet baseAddr (psVal.setWidth 32)
  | .unknownUntaggedEgress ueVal =>
      dev.cpswAleUnknownUntaggedEgressSet baseAddr (ueVal.setWidth 32)
  | .unknownRegFloodMask rfmVal => dev.cpswAleUnknownRegFloodMaskSet baseAddr (rfmVal.setWidth 32)
  | .unknownUnRegFloodMask ufmVal =>
      dev.cpswAleUnknownUnRegFloodMaskSet baseAddr (ufmVal.setWidth 32)
  | .unknownMemberList mlVal => dev.cpswAleUnknownMemberListSet baseAddr (mlVal.setWidth 32)

/-- A sequence of calls. -/
def performAll (baseAddr : Word) (dev : Device) (calls : List FieldCall) : Device :=
  calls.foldl (perform baseAddr) dev

/-! ## The fields of the names -/

/-- The register with the field that a routine is named after. -/
def register : FieldCall → Word
  | .broadcastRateLimit port _ | .multicastRateLimit port _ | .vidIngressCheck port
  | .portState port _ => cpswAlePortctl (portNum port)
  | .prescale _ => cpswAlePrescale
  | .unknownUntaggedEgress _ | .unknownRegFloodMask _ | .unknownUnRegFloodMask _
  | .unknownMemberList _ => cpswAleUnknownVlan

/-- The field: `BCAST_LIMIT`, `MCAST_LIMIT`, `VID_INGRESS_CHECK`, `PORT_STATE`, `ALE_PRESCALE`,
`UNKNOWN_FORCE_UNTA`, `UNKNOWN_REG_MCAST`, `UNKNOWN_MCAST_FLO` and `UNKNOWN_VLAN_MEM`. -/
def field : FieldCall → Field
  | .broadcastRateLimit _ _ => ⟨24, 8⟩
  | .multicastRateLimit _ _ => ⟨16, 8⟩
  | .vidIngressCheck _ => ⟨3, 1⟩
  | .portState _ _ => ⟨0, 2⟩
  | .prescale _ => ⟨0, 20⟩
  | .unknownUntaggedEgress _ => ⟨24, 6⟩
  | .unknownRegFloodMask _ => ⟨16, 6⟩
  | .unknownUnRegFloodMask _ => ⟨8, 6⟩
  | .unknownMemberList _ => ⟨0, 6⟩

/-- What the field is to hold. -/
def value : FieldCall → Word
  | .broadcastRateLimit _ val | .multicastRateLimit _ val => val.setWidth 32
  | .vidIngressCheck _ => 1
  | .portState _ state => state.setWidth 32
  | .prescale psVal => psVal.setWidth 32
  | .unknownUntaggedEgress val | .unknownRegFloodMask val | .unknownUnRegFloodMask val
  | .unknownMemberList val => val.setWidth 32

/-- A bit of a register is in the field. -/
def Covers (call : FieldCall) (register : Word) (index : Nat) : Prop :=
  call.register = register ∧ call.field.Covers index

instance (call : FieldCall) (register : Word) (index : Nat) :
    Decidable (call.Covers register index) :=
  inferInstanceAs (Decidable (_ ∧ _))

/-- The last call whose field has a bit. -/
def lastSet (calls : List FieldCall) (register : Word) (index : Nat) : Option FieldCall :=
  calls.reverse.find? fun call => call.Covers register index

/-- Every bit of a register is as the last call has set it whose field it is in, or as it was. -/
def FieldsRight (baseAddr : Word) (dev : Device) (calls : List FieldCall) : Prop :=
  ∀ register, ∀ index < 32,
    ((performAll baseAddr dev calls).reg (baseAddr + register)).getLsbD index =
      match lastSet calls register index with
      | some call => call.value.getLsbD (index - call.field.offset)
      | none => (dev.reg (baseAddr + register)).getLsbD index

/-- A call does what its name says: the bit of the VID ingress check and all bits of `MCAST_LIMIT`
are set already, the new prescale value has all bits of the old one, and the two flood masks have
the value already. -/
def Clean (baseAddr : Word) (dev : Device) : FieldCall → Prop
  | .vidIngressCheck port =>
      Field.get ⟨3, 1⟩ (dev.reg (baseAddr + cpswAlePortctl (portNum port))) = 1 ∧
        Field.get ⟨16, 8⟩ (dev.reg (baseAddr + cpswAlePortctl (portNum port))) = BitVec.allOnes 8
  | .prescale psVal =>
      Field.get ⟨0, 20⟩ (dev.reg (baseAddr + cpswAlePrescale)) ||| psVal = psVal
  | .unknownRegFloodMask val | .unknownUnRegFloodMask val =>
      Field.get ⟨16, 6⟩ (dev.reg (baseAddr + cpswAleUnknownVlan)) = val ∧
        Field.get ⟨8, 6⟩ (dev.reg (baseAddr + cpswAleUnknownVlan)) = val
  | _ => True

/-! ## One call -/

section Call

variable {dev : Device} {baseAddr : Word} {call : FieldCall}

/-- What a call writes to its register. -/
def written (word : Word) : FieldCall → Word
  | .broadcastRateLimit _ bplVal => (word &&& ~~~bcastLimit) ||| bplVal.setWidth 32 <<< 24
  | .multicastRateLimit _ mplVal => (word &&& ~~~mcastLimit) ||| mplVal.setWidth 32 <<< 16
  | .vidIngressCheck _ => word ||| mcastLimit
  | .portState _ state => (word &&& ~~~Switch.portState) ||| state.setWidth 32
  | .prescale psVal => word ||| (psVal.setWidth 32 &&& alePrescale)
  | .unknownUntaggedEgress ueVal =>
      (word &&& ~~~unknownForceUnta) ||| ueVal.setWidth 32 <<< 24
  | .unknownRegFloodMask rfmVal => (word &&& ~~~unknownMcastFlo) ||| rfmVal.setWidth 32 <<< 8
  | .unknownUnRegFloodMask ufmVal => (word &&& ~~~unknownRegMcast) ||| ufmVal.setWidth 32 <<< 16
  | .unknownMemberList mlVal => (word &&& ~~~unknownVlanMem) ||| mlVal.setWidth 32 <<< 0

/-- A call writes one register. -/
theorem reg_perform (baseAddr : Word) (dev : Device) (call : FieldCall) (register : Word) :
    (call.perform baseAddr dev).reg (baseAddr + register) =
      if call.register = register then call.written (dev.reg (baseAddr + register))
      else dev.reg (baseAddr + register) := by
  split
  · rename_i same
    subst same
    cases call with
    | vidIngressCheck | prescale => exact Device.reg_setBits
    | _ => exact Device.reg_setField
  · rename_i other
    have apart : baseAddr + register ≠ baseAddr + call.register :=
      fun same => other (add_left_cancel same).symm
    cases call with
    | vidIngressCheck | prescale => exact Device.reg_setBits_of_ne apart
    | _ => exact (Device.reg_setBits_of_ne apart).trans (Device.reg_clearBits_of_ne apart)

/-- A call sets its field, and no other bit. -/
def StepRight (baseAddr : Word) (dev : Device) (call : FieldCall) : Prop :=
  ∀ register, ∀ index < 32, ((call.perform baseAddr dev).reg (baseAddr + register)).getLsbD index =
    if call.Covers register index then call.value.getLsbD (index - call.field.offset)
    else (dev.reg (baseAddr + register)).getLsbD index

/-- What is written has the value in the field. -/
theorem stepRight_iff : StepRight baseAddr dev call ↔ ∀ index < 32,
    (call.written (dev.reg (baseAddr + call.register))).getLsbD index =
      if call.field.Covers index then call.value.getLsbD (index - call.field.offset)
      else (dev.reg (baseAddr + call.register)).getLsbD index := by
  unfold StepRight Covers
  simp only [reg_perform]
  constructor
  · intro right index inside
    have own := right call.register index inside
    simpa only [true_and, if_true] using own
  · intro right register index inside
    by_cases same : call.register = register
    · subst same
      simpa only [true_and, if_true] using right index inside
    · simp only [same, false_and, if_false]

/-- A field that is cleared with its mask and is set to a value. -/
theorem replace_right (field : Field) {size : Nat} (val : BitVec size) {word mask : Word}
    (wide : field.size = size) (fits : size ≤ 32) (isMask : field.IsMask mask) :
    ∀ index < 32, ((word &&& ~~~mask) ||| val.setWidth 32 <<< field.offset).getLsbD index =
      if field.Covers index then (val.setWidth 32).getLsbD (index - field.offset)
      else word.getLsbD index := by
  intro index inside
  refine Field.getLsbD_replace isMask ?_ inside
  rw [BitVec.toNat_setWidth_of_le fits, wide]
  exact val.isLt

theorem getLsbD_narrow {size index : Nat} (val : BitVec size) (inside : index < 32) :
    (val.setWidth 32).getLsbD index = val.getLsbD index := by
  rw [BitVec.getLsbD_setWidth, decide_eq_true inside, Bool.true_and]

/-- A value in another field than its own is right where both fields have it already. -/
theorem elsewhere_iff {own hit size : Nat} {word mask : Word} (val : BitVec size)
    (fits : own + size ≤ 32) (fits' : hit + size ≤ 32)
    (apart : Field.Apart ⟨own, size⟩ ⟨hit, size⟩) (isMask : Field.IsMask ⟨hit, size⟩ mask) :
    (∀ index < 32, ((word &&& ~~~mask) ||| val.setWidth 32 <<< hit).getLsbD index =
      if Field.Covers ⟨own, size⟩ index then (val.setWidth 32).getLsbD (index - own)
      else word.getLsbD index) ↔
      Field.get ⟨own, size⟩ word = val ∧ Field.get ⟨hit, size⟩ word = val := by
  have replaced := @replace_right ⟨hit, size⟩ size val word mask rfl (by omega) isMask
  have outside : ∀ index, Field.Covers ⟨own, size⟩ index → ¬ Field.Covers ⟨hit, size⟩ index := by
    rintro index ⟨least, less⟩ ⟨least', less'⟩
    rcases apart with below | above
    · exact absurd (below.trans least') (not_le.mpr less)
    · exact absurd (above.trans least) (not_le.mpr less')
  rw [Field.get_eq_iff, Field.get_eq_iff]
  constructor
  · intro right
    constructor
    · intro index covers
      have inside : index < 32 := covers.2.trans_le fits
      have bit := right index inside
      rw [replaced index inside, if_neg (outside index covers), if_pos covers,
        getLsbD_narrow val (by omega)] at bit
      exact bit
    · intro index covers
      have inside : index < 32 := covers.2.trans_le fits'
      have bit := right index inside
      rw [replaced index inside, if_pos covers, if_neg fun own => outside index own covers,
        getLsbD_narrow val (show index - hit < 32 by omega)] at bit
      exact bit.symm
  · rintro ⟨ownSame, hitSame⟩ index inside
    rw [replaced index inside]
    split
    · rename_i covers
      rw [if_neg fun own => outside index own covers, hitSame index covers,
        getLsbD_narrow val (show index - hit < 32 by omega)]
    · split
      · rename_i covers
        rw [ownSame index covers, getLsbD_narrow val (show index - own < 32 by omega)]
      · rfl

/-- The bits of `MCAST_LIMIT` are set instead of one bit: this is right where all of them are set
already. -/
theorem ingress_iff {word : Word} :
    (∀ index < 32, (word ||| mcastLimit).getLsbD index =
      if Field.Covers ⟨3, 1⟩ index then (1 : Word).getLsbD (index - 3)
      else word.getLsbD index) ↔
      Field.get ⟨3, 1⟩ word = 1 ∧ Field.get ⟨16, 8⟩ word = BitVec.allOnes 8 := by
  have mask : Field.IsMask ⟨16, 8⟩ mcastLimit := by decide
  rw [Field.get_eq_iff, Field.get_eq_iff]
  constructor
  · intro right
    constructor
    · rintro index ⟨least, less⟩
      have three : index = 3 := Nat.le_antisymm (Nat.le_of_lt_succ less) least
      subst three
      have bit := right 3 (by decide)
      rw [BitVec.getLsbD_or, mask 3 (by decide), if_pos (by decide),
        decide_eq_false (by decide), Bool.or_false] at bit
      exact bit
    · rintro index ⟨least, less⟩
      change 16 ≤ index at least
      change index < 24 at less
      have bit := right index (by omega)
      rw [BitVec.getLsbD_or, mask index (by omega), decide_eq_true ⟨least, less⟩, Bool.or_true,
        if_neg fun own => absurd own.2 (not_lt.mpr (by omega : 4 ≤ index))] at bit
      rw [← bit, BitVec.getLsbD_allOnes]
      exact (decide_eq_true (show index - 16 < 8 by omega)).symm
  · rintro ⟨own, all⟩ index inside
    rw [BitVec.getLsbD_or, mask index inside]
    split
    · rename_i covers
      have three : index = 3 := Nat.le_antisymm (Nat.le_of_lt_succ covers.2) covers.1
      subst three
      rw [own 3 covers]
      rfl
    · by_cases covers : Field.Covers ⟨16, 8⟩ index
      · have less : index < 24 := covers.2
        have set := all index covers
        rw [BitVec.getLsbD_allOnes, decide_eq_true (show index - 16 < 8 by omega)] at set
        rw [set, Bool.true_or]
      · rw [decide_eq_false covers, Bool.or_false]

/-- The prescale value is added to the old one: this is right where it has all its bits. -/
theorem prescale_iff {word : Word} (psVal : BitVec 20) :
    (∀ index < 32, (word ||| (psVal.setWidth 32 &&& alePrescale)).getLsbD index =
      if Field.Covers ⟨0, 20⟩ index then (psVal.setWidth 32).getLsbD (index - 0)
      else word.getLsbD index) ↔ Field.get ⟨0, 20⟩ word ||| psVal = psVal := by
  have mask : Field.IsMask ⟨0, 20⟩ alePrescale := by decide
  constructor
  · intro right
    apply BitVec.eq_of_getLsbD_eq
    intro index inside
    change index < 20 at inside
    have covers : Field.Covers ⟨0, 20⟩ index := ⟨Nat.zero_le _, by omega⟩
    have bit := right index (by omega)
    rw [BitVec.getLsbD_or, BitVec.getLsbD_and, mask index (by omega), decide_eq_true covers,
      Bool.and_true, if_pos covers, Nat.sub_zero, getLsbD_narrow psVal (by omega)] at bit
    rwa [BitVec.getLsbD_or, Field.getLsbD_get inside, Nat.zero_add]
  · intro same index inside
    rw [BitVec.getLsbD_or, BitVec.getLsbD_and, mask index inside, Nat.sub_zero,
      getLsbD_narrow psVal inside]
    split
    · rename_i covers
      have less : index < 20 := by simpa using covers.2
      have bit : (Field.get ⟨0, 20⟩ word ||| psVal).getLsbD index = psVal.getLsbD index :=
        congrArg (fun part => BitVec.getLsbD part index) same
      rw [BitVec.getLsbD_or, Field.getLsbD_get less, Nat.zero_add] at bit
      rw [decide_eq_true covers, Bool.and_true, bit]
    · rename_i outside
      rw [decide_eq_false outside, Bool.and_false, Bool.or_false]

/-- A call sets its field exactly if it is clean. -/
theorem stepRight_iff_clean (call : FieldCall) :
    StepRight baseAddr dev call ↔ Clean baseAddr dev call := by
  rw [stepRight_iff]
  cases call with
  | broadcastRateLimit _ bplVal =>
      exact iff_of_true (replace_right ⟨24, 8⟩ bplVal rfl (by decide) (by decide)) trivial
  | multicastRateLimit _ mplVal =>
      exact iff_of_true (replace_right ⟨16, 8⟩ mplVal rfl (by decide) (by decide)) trivial
  | portState port state =>
      have right := @replace_right ⟨0, 2⟩ 2 state
        (dev.reg (baseAddr + cpswAlePortctl (portNum port))) Switch.portState rfl (by decide)
        (by decide)
      rw [BitVec.shiftLeft_zero] at right
      exact iff_of_true right trivial
  | unknownUntaggedEgress ueVal =>
      exact iff_of_true (replace_right ⟨24, 6⟩ ueVal rfl (by decide) (by decide)) trivial
  | unknownMemberList mlVal =>
      exact iff_of_true (replace_right ⟨0, 6⟩ mlVal rfl (by decide) (by decide)) trivial
  | unknownRegFloodMask rfmVal =>
      exact elsewhere_iff rfmVal (by decide) (by decide) (by decide) (by decide)
  | unknownUnRegFloodMask ufmVal =>
      refine (elsewhere_iff ufmVal (by decide) (by decide) (by decide) (by decide)).trans ?_
      exact and_comm
  | vidIngressCheck port => exact ingress_iff
  | prescale psVal => exact prescale_iff psVal

end Call

/-! ## Sequences of calls -/

section Sequences

variable {dev : Device} {baseAddr : Word} {call : FieldCall} {calls : List FieldCall}

theorem lastSet_append (calls : List FieldCall) (call : FieldCall) (register : Word)
    (index : Nat) : lastSet (calls ++ [call]) register index =
      if call.Covers register index then some call else lastSet calls register index := by
  unfold lastSet
  rw [List.reverse_append, List.reverse_singleton, List.singleton_append, List.find?_cons]
  split
  · rename_i covers
    rw [if_pos (of_decide_eq_true covers)]
  · rename_i outside
    rw [if_neg (of_decide_eq_false outside)]

theorem performAll_append : performAll baseAddr dev (calls ++ [call]) =
    call.perform baseAddr (performAll baseAddr dev calls) := by
  rw [performAll, List.foldl_append]
  rfl

/-- The fields stay right in a call that is right itself, and in no other. -/
theorem fieldsRight_append (right : FieldsRight baseAddr dev calls) :
    FieldsRight baseAddr dev (calls ++ [call]) ↔
      StepRight baseAddr (performAll baseAddr dev calls) call := by
  unfold FieldsRight StepRight
  refine forall_congr' fun register => forall₂_congr fun index inside => ?_
  rw [performAll_append, lastSet_append, right register index inside]
  by_cases covers : call.Covers register index
  · rw [if_pos covers, if_pos covers]
  · rw [if_neg covers, if_neg covers]

/-- The fields are right after every call of a sequence exactly if every call is clean. -/
theorem fieldsRight_iff (baseAddr : Word) (dev : Device) (calls : List FieldCall) :
    (∀ before, before <+: calls → FieldsRight baseAddr dev before) ↔
      ∀ before call, before ++ [call] <+: calls →
        Clean baseAddr (performAll baseAddr dev before) call := by
  constructor
  · intro right before call inside
    have earlier := right before ((List.prefix_append before [call]).trans inside)
    exact (stepRight_iff_clean call).mp ((fieldsRight_append earlier).mp (right _ inside))
  · intro clean before inside
    induction before using List.reverseRecOn with
    | nil => exact fun _ _ _ => rfl
    | append_singleton before call inductionHypothesis =>
        have earlier := inductionHypothesis ((List.prefix_append before [call]).trans inside)
        exact (fieldsRight_append earlier).mpr
          ((stepRight_iff_clean call).mpr (clean before call inside))

/-- A prescale value of 2 behind one of 1 gives 3. -/
theorem not_fieldsRight : ¬ ∀ (baseAddr : Word) (dev : Device) (calls : List FieldCall),
    FieldsRight baseAddr dev calls := by
  intro right
  have bit := right 0 ⟨fun _ => 0, ⟨fun _ => noEntry, noEntry, []⟩,
    ⟨fun _ => 0, fun _ => 0, []⟩, fun _ => noEntry, [], 0⟩
    [.prescale 1, .prescale 2] cpswAlePrescale 0 (by decide)
  exact absurd bit (by decide)

end Sequences

end FieldCall

end BbbEth.Switch
