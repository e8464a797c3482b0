import BbbEth.Cpsw.Ale.Operations
import Mathlib.Tactic.IntervalCases

/-!
# Keys of entries

What the searches look for in an entry is its key: an Ethernet address with a VLAN id, or a
VLAN id.  A free entry has none.  The bytes that the operations store have the key of the
operation.
-/

namespace BbbEth.Ale

open Engine

/-- What an entry is found by. -/
inductive Key where
  | address (ethAddr : EthAddr) (vid : BitVec 12)
  | vlan (vid : BitVec 12)

/-- The VLAN id in an entry. -/
def entryVid (entry : Entry) : BitVec 12 := (entry 7).setWidth 4 ++ entry 6

/-- The Ethernet address in an entry. -/
def entryMac (entry : Entry) : EthAddr := fun octet => entry (Fin.rev octet)

/-- The key of an entry. -/
def key (entry : Entry) : Option Key :=
  if hasAddr entry then some (.address (entryMac entry) (entryVid entry))
  else if entryType entry = aleEntryVlan then some (.vlan (entryVid entry))
  else none

/-- The test for a key. -/
def Key.test : Key → Entry → Bool
  | .address ethAddr vid => isAddr ethAddr (vid.setWidth 32)
  | .vlan vid => isVlan (vid.setWidth 32)

/-! ## Tests -/

section Tests

variable {entry other : Entry} {ethAddr : EthAddr} {vid : BitVec 12}

theorem vlanId_eq : vlanId entry = (entryVid entry).setWidth 32 := by
  apply BitVec.eq_of_toNat_eq
  have mask : (0x0fff : BitVec 16).toNat = 2 ^ 12 - 1 := rfl
  have low := (entry 6).isLt
  have high := (entry 7).isLt
  unfold vlanId entryVid
  rw [BitVec.toNat_setWidth, BitVec.toNat_and, mask, Nat.and_two_pow_sub_one_eq_mod,
    BitVec.toNat_append, BitVec.toNat_setWidth, BitVec.toNat_append, BitVec.toNat_setWidth,
    Nat.shiftLeft_eq, Nat.shiftLeft_eq, Nat.mul_comm _ (2 ^ 8), Nat.mul_comm _ (2 ^ 8),
    ← Nat.two_pow_add_eq_or_of_lt low, ← Nat.two_pow_add_eq_or_of_lt low]
  omega

theorem setWidth_inj {left right : BitVec 12} :
    left.setWidth 32 = right.setWidth 32 ↔ left = right := by
  refine ⟨fun same => ?_, fun same => congrArg _ same⟩
  have numbers := congrArg BitVec.toNat same
  rw [BitVec.toNat_setWidth, BitVec.toNat_setWidth] at numbers
  apply BitVec.eq_of_toNat_eq
  omega

theorem vlanId_eq_iff : vlanId entry = vid.setWidth 32 ↔ entryVid entry = vid := by
  rw [vlanId_eq, setWidth_inj]

theorem entryMac_eq_iff :
    (∀ cnt : Fin 6, entry cnt = ethAddr (Fin.rev cnt)) ↔ entryMac entry = ethAddr := by
  constructor
  · intro same
    funext octet
    have here := same (Fin.rev octet)
    rwa [Fin.rev_rev] at here
  · rintro rfl cnt
    unfold entryMac
    rw [Fin.rev_rev]

theorem entryType_cases (entry : Entry) : entryType entry = 0 ∨ entryType entry = aleEntryAddr ∨
    entryType entry = aleEntryVlan ∨ entryType entry = aleEntryVlanAddr := by
  have all : ∀ byte : Byte, byte &&& 0x30 = 0 ∨ byte &&& 0x30 = 0x10 ∨ byte &&& 0x30 = 0x20 ∨
      byte &&& 0x30 = 0x30 := by decide
  exact all (entry 7)

theorem hasAddr_iff : hasAddr entry = true ↔
    entryType entry = aleEntryAddr ∨ entryType entry = aleEntryVlanAddr :=
  decide_eq_true_iff

/-- The search for a key finds the entries that have it. -/
theorem Key.test_iff {wanted : Key} : wanted.test entry = true ↔ key entry = some wanted := by
  cases wanted with
  | address ethAddr vid =>
      unfold Key.test isAddr key
      rw [decide_eq_true_iff, vlanId_eq_iff, entryMac_eq_iff]
      split
      · next has => simp [has, and_comm]
      · next not =>
          simp only [not, Bool.false_eq_true, false_and, false_iff]
          split
          · simp
          · nofun
  | vlan vid =>
      unfold Key.test isVlan key
      rw [decide_eq_true_iff, vlanId_eq_iff]
      split
      · next has =>
          have other : entryType entry ≠ aleEntryVlan := by
            rcases hasAddr_iff.mp has with type | type
            · rw [type]; decide
            · rw [type]; decide
          simp [other]
      · next not =>
          split
          · next type => simp [type]
          · next type => simp [type]

/-- The free entries are those without a key. -/
theorem isFree_iff : isFree entry = true ↔ key entry = none := by
  unfold isFree key hasAddr
  rcases entryType_cases entry with type | type | type | type
  · simp [type, aleEntryAddr, aleEntryVlan, aleEntryVlanAddr]
  · simp [type, aleEntryAddr]
  · simp [type, aleEntryAddr, aleEntryVlan, aleEntryVlanAddr]
  · simp [type, aleEntryVlanAddr]

/-- The key is in the first eight bytes. -/
theorem key_congr (same : ∀ index, index < 8 → other index = entry index) :
    key other = key entry := by
  have mac : entryMac other = entryMac entry := funext fun octet => same _ (by omega)
  have vid : entryVid other = entryVid entry := by
    unfold entryVid
    rw [same 7 (by decide), same 6 (by decide)]
  have type : entryType other = entryType entry := by
    unfold entryType
    rw [same 7 (by decide)]
  unfold key hasAddr
  rw [mac, vid, type]

theorem key_latch : key (latch entry) = key entry :=
  key_congr fun _ inside => if_pos (Nat.lt_succ_of_lt inside)

end Tests

/-! ## Stored bytes -/

section Stored

variable {entry : Entry} {ethAddr : EthAddr} {vid : BitVec 12} {byte : Byte} {bits : Word}

/-- Bits that are shifted by six are not in the lower bits of a byte. -/
theorem low_shiftLeft (value : Word) : low (value <<< 6) &&& 0x3f = 0 := by
  apply BitVec.eq_of_getLsbD_eq
  intro index inside
  unfold low
  rw [BitVec.getLsbD_and, BitVec.getLsbD_setWidth, BitVec.getLsbD_shiftLeft]
  interval_cases index <;> simp

theorem low_or (left right : Word) : low (left ||| right) = low left ||| low right :=
  BitVec.setWidth_or

/-- The type of an entry, with bits above it. -/
theorem type_or (byte : Byte) (value : Word) :
    (byte ||| low (value <<< 6)) &&& 0x30 = byte &&& 0x30 := by
  have zero : low (value <<< 6) &&& 0x30 = 0#8 := by
    rw [show (0x30 : Byte) = 0x3f &&& 0x30 from rfl, ← BitVec.and_assoc, low_shiftLeft]
    rfl
  rw [BitVec.and_comm, BitVec.and_or_distrib_left, BitVec.and_comm 0x30 (low _), zero,
    BitVec.or_zero, BitVec.and_comm]

/-- The lower half of a byte, with bits above it. -/
theorem nibble_or (byte : Byte) (value : Word) :
    (byte ||| low (value <<< 6)).setWidth 4 = byte.setWidth 4 := by
  apply BitVec.eq_of_getLsbD_eq
  intro index inside
  unfold low
  rw [BitVec.getLsbD_setWidth, BitVec.getLsbD_or, BitVec.getLsbD_setWidth,
    BitVec.getLsbD_shiftLeft, BitVec.getLsbD_setWidth]
  interval_cases index <;> simp

/-- The bytes of a VLAN id. -/
theorem vid_bytes (vid : BitVec 12) :
    (low (vid.setWidth 32 >>> 8 &&& (0x0f : Word))).setWidth 4 ++ low (vid.setWidth 32) = vid := by
  apply BitVec.eq_of_getLsbD_eq
  intro index inside
  unfold low
  rw [BitVec.getLsbD_append]
  interval_cases index <;> simp

theorem storeAddr_apply (cnt : Fin 6) : storeAddr ethAddr entry cnt = ethAddr (Fin.rev cnt) := by
  unfold storeAddr
  rw [dif_pos cnt.isLt]
  congr 1

/-- The key of an entry with an address. -/
theorem key_stored {stored : Entry}
    (mac : ∀ index, index < 6 → stored index = storeAddr ethAddr entry index)
    (first : stored 6 = low (vid.setWidth 32))
    (second : (stored 7).setWidth 4 = (low (vid.setWidth 32 >>> 8 &&& (0x0f : Word))).setWidth 4)
    (type : stored 7 &&& 0x30 = 0x10 ∨ stored 7 &&& 0x30 = 0x30) :
    key stored = some (.address ethAddr vid) := by
  have has : hasAddr stored = true := hasAddr_iff.mpr type
  have number : entryVid stored = vid := by
    unfold entryVid
    rw [first, second, vid_bytes]
  have address : entryMac stored = ethAddr :=
    entryMac_eq_iff.mp fun cnt => (mac cnt cnt.isLt).trans (storeAddr_apply cnt)
  unfold key
  rw [if_pos has, address, number]

/-- The entry that an operation fills has its key already, or is a new one. -/
def Ready (wanted : Key) (entry : Entry) : Prop := entry = noEntry ∨ key entry = some wanted

/-- Without a VLAN id the byte for it is zero. -/
theorem Ready.first (ready : Ready (.address ethAddr 0) entry) : entry 6 = 0 := by
  rcases ready with rfl | found
  · rfl
  · have test := Key.test_iff.mpr found
    unfold Key.test isAddr at test
    rw [decide_eq_true_iff, vlanId_eq_iff] at test
    have number := congrArg BitVec.toNat test.2.1
    have lower := (entry 6).isLt
    unfold entryVid at number
    rw [BitVec.toNat_append, Nat.shiftLeft_eq, Nat.mul_comm _ (2 ^ 8),
      ← Nat.two_pow_add_eq_or_of_lt lower] at number
    apply BitVec.eq_of_toNat_eq
    change 2 ^ 8 * _ + (entry 6).toNat = 0 at number
    change (entry 6).toNat = 0
    omega

/-- Other bytes than the last one of an address stay. -/
theorem storeAddr_six : storeAddr ethAddr entry 6 = entry 6 := dif_neg (by decide)

/-- The entry of an address without a VLAN id. -/
theorem key_unnumbered {stored : Entry} {bits : Word} (ready : Ready (.address ethAddr 0) entry)
    (kept : ∀ index, index < 7 → stored index = storeAddr ethAddr entry index)
    (type : stored 7 = (0x10 : Byte) ||| low (bits <<< 6)) : key stored = some (.address ethAddr 0) := by
  apply key_stored fun index inside => kept index (Nat.lt_succ_of_lt inside)
  · rw [kept 6 (by decide), storeAddr_six, ready.first]
    rfl
  · rw [type, nibble_or]
    rfl
  · rw [type, type_or]
    exact .inl rfl

theorem key_ucastEntry {portNum flags ucastType : Word}
    (ready : Ready (.address ethAddr 0) entry) :
    key (ucastEntry portNum ethAddr flags ucastType entry) = some (.address ethAddr 0) := by
  apply key_unnumbered ready
  · intro index inside
    exact (Function.update_of_ne (by omega) ..).trans (Function.update_of_ne (by omega) ..)
  · exact (Function.update_of_ne (by decide) ..).trans ((Function.update_self ..).trans (low_or ..))

theorem key_ouiEntry (ready : Ready (.address ethAddr 0) entry) :
    key (ouiEntry ethAddr entry) = some (.address ethAddr 0) := by
  have bits : aleEntryAddr ||| aleEntryOui = (0x10 : Byte) ||| low ((2 : Word) <<< 6) := by decide
  have type : ouiEntry ethAddr entry 7 = (0x10 : Byte) ||| low ((2 : Word) <<< 6) :=
    (Function.update_self ..).trans bits
  refine key_unnumbered ready (fun index inside => ?_) type
  exact Function.update_of_ne (by omega) ..

theorem key_mcastEntry {portmask super mcastSt : Word}
    (ready : Ready (.address ethAddr 0) entry) :
    key (mcastEntry portmask ethAddr super mcastSt entry) = some (.address ethAddr 0) := by
  apply key_unnumbered ready
  · intro index inside
    exact (Function.update_of_ne (by omega) ..).trans (Function.update_of_ne (by omega) ..)
  · exact (Function.update_of_ne (by decide) ..).trans ((Function.update_self ..).trans (low_or ..))

/-- The entry of an address with a VLAN id. -/
theorem key_numbered {stored : Entry} {bits : Word}
    (mac : ∀ index, index < 6 → stored index = storeAddr ethAddr entry index)
    (first : stored 6 = low (vid.setWidth 32))
    (type : stored 7 = low (vid.setWidth 32 >>> 8 &&& (0x0f : Word)) ||| (0x30 : Byte) |||
      low (bits <<< 6)) : key stored = some (.address ethAddr vid) := by
  have upper : ∀ byte : Byte, (byte ||| (0x30 : Byte)) &&& 0x30 = 0x30 := by decide
  have lower : ∀ byte : Byte, (byte ||| (0x30 : Byte)).setWidth 4 = byte.setWidth 4 := by decide
  apply key_stored mac first
  · rw [type, nibble_or, lower]
  · rw [type, type_or]
    exact .inr (upper _)

theorem key_vlanUcast {portNum flags ucastType : Word} :
    key (vlanUcast (vid.setWidth 32) portNum ethAddr flags ucastType entry) =
      some (.address ethAddr vid) := by
  have type : vlanType (vid.setWidth 32) ((0x30 : Word) ||| ucastType <<< 6) =
      low (vid.setWidth 32 >>> 8 &&& (0x0f : Word)) ||| (0x30 : Byte) ||| low (ucastType <<< 6) := by
    unfold vlanType
    rw [low_or, low_or, ← BitVec.or_assoc]
    rfl
  have stored : ∀ index, index < 8 →
      vlanUcast (vid.setWidth 32) portNum ethAddr flags ucastType entry index =
        storeAddr ethAddr (Function.update (Function.update entry 6 (low (vid.setWidth 32)))
          7 (vlanType (vid.setWidth 32) ((0x30 : Word) ||| ucastType <<< 6))) index :=
    fun index inside => Function.update_of_ne inside.ne ..
  apply key_numbered fun index inside => stored index (Nat.lt_trans inside (by decide))
  · exact stored 6 (by decide)
  · exact (stored 7 (by decide)).trans type

theorem key_vlanMcast {portmask super mcastSt : Word} :
    key (vlanMcast (vid.setWidth 32) portmask ethAddr super mcastSt entry) =
      some (.address ethAddr vid) := by
  have type : vlanType (vid.setWidth 32) 0 ||| low ((0x30 : Word) ||| mcastSt <<< 6) =
      low (vid.setWidth 32 >>> 8 &&& (0x0f : Word)) ||| (0x30 : Byte) ||| low (mcastSt <<< 6) := by
    have nothing : low 0 = 0#8 := rfl
    unfold vlanType
    rw [low_or, low_or, nothing, BitVec.or_zero, ← BitVec.or_assoc]
    rfl
  have stored : ∀ index, index < 8 →
      vlanMcast (vid.setWidth 32) portmask ethAddr super mcastSt entry index =
        Function.update (storeAddr ethAddr (Function.update (Function.update entry
          6 (low (vid.setWidth 32))) 7 (vlanType (vid.setWidth 32) 0)))
          7 (vlanType (vid.setWidth 32) 0 ||| low ((0x30 : Word) ||| mcastSt <<< 6)) index :=
    fun index inside => Function.update_of_ne inside.ne ..
  apply key_numbered
  · intro index inside
    exact (stored index (Nat.lt_trans inside (by decide))).trans
      (Function.update_of_ne (Nat.lt_trans inside (by decide)).ne ..)
  · exact stored 6 (by decide)
  · exact (stored 7 (by decide)).trans type

theorem key_vlanPorts {portNum untag regMcast unregMcast : Word} :
    key (vlanPorts (vid.setWidth 32) portNum untag regMcast unregMcast entry) =
      some (.vlan vid) := by
  have upper : ∀ byte : Byte, (byte &&& (0x0f : Byte) ||| (0x20 : Byte)) &&& 0x30 = 0x20 := by decide
  have lower : ∀ byte : Byte, (byte ||| (0x20 : Byte)).setWidth 4 = byte.setWidth 4 := by decide
  have half : low (vid.setWidth 32 >>> 8 &&& (0x0f : Word)) =
      low (vid.setWidth 32 >>> 8) &&& (0x0f : Byte) := BitVec.setWidth_and
  have second : vlanPorts (vid.setWidth 32) portNum untag regMcast unregMcast entry 7 =
      low (vid.setWidth 32 >>> 8 &&& (0x0f : Word)) ||| (0x20 : Byte) := low_or ..
  have first : vlanPorts (vid.setWidth 32) portNum untag regMcast unregMcast entry 6 =
      low (vid.setWidth 32) := rfl
  have type : entryType (vlanPorts (vid.setWidth 32) portNum untag regMcast unregMcast entry) =
      aleEntryVlan := by
    unfold entryType
    rw [second, half, upper]
    rfl
  have has : ¬ hasAddr (vlanPorts (vid.setWidth 32) portNum untag regMcast unregMcast entry) =
      true := by
    rw [hasAddr_iff, type]
    decide
  have number : entryVid (vlanPorts (vid.setWidth 32) portNum untag regMcast unregMcast entry) =
      vid := by
    unfold entryVid
    rw [first, second, lower, vid_bytes]
  unfold key
  rw [if_neg has, if_pos type, number]

/-! ## Deleted entries -/

theorem key_freeEntry : key (freeEntry entry) = none := by
  have zero : freeEntry entry 7 = 0 := Function.update_self ..
  apply isFree_iff.mp
  unfold isFree entryType
  rw [zero]
  rfl

/-- The key of a VLAN entry is in two bytes. -/
theorem key_vlan_congr {other : Entry} (found : key entry = some (.vlan vid))
    (first : other 6 = entry 6) (second : other 7 = entry 7) : key other = some (.vlan vid) := by
  have same : isVlan (vid.setWidth 32) other = isVlan (vid.setWidth 32) entry := by
    unfold isVlan entryType vlanId
    rw [first, second]
  exact Key.test_iff.mp (same.trans (Key.test_iff.mpr found))

/-- An entry is free by one byte. -/
theorem key_none_congr {other : Entry} (free : key entry = none) (same : other 7 = entry 7) :
    key other = none := by
  have kept : isFree other = isFree entry := by
    unfold isFree entryType
    rw [same]
  exact isFree_iff.mp (kept.trans (isFree_iff.mpr free))

/-- A change of an entry keeps its key or frees it. -/
def Frees (wanted : Key) (change : Entry → Option Entry) : Prop :=
  ∀ entry after, Ready wanted entry → change entry = some after →
    key after = some wanted ∨ key after = none

/-- The entry that is not there has no key. -/
theorem key_noEntry : key noEntry = none := isFree_iff.mp rfl

theorem frees_freeEntry {wanted : Key} : Frees wanted fun entry => some (freeEntry entry) := by
  intro entry after _ frees
  cases frees
  exact .inr key_freeEntry

theorem frees_dropPorts {wanted : Key} {portmask : Word} :
    Frees wanted fun entry => some (dropPorts portmask entry) := by
  intro entry after ready drops
  cases drops
  unfold dropPorts
  split
  · have same : key (Function.update entry 8 (low (portmask <<< 2))) = key entry :=
      key_congr fun index inside => Function.update_of_ne inside.ne ..
    rw [same]
    rcases ready with rfl | found
    · exact .inr key_noEntry
    · exact .inl found
  · exact .inr key_freeEntry

theorem frees_dropMember {portNum : Word} : Frees (.vlan vid) (dropMember portNum) := by
  intro entry after ready drops
  unfold dropMember at drops
  dsimp only at drops
  split at drops
  · cases drops
  · split at drops
    · cases drops
      exact .inr key_freeEntry
    · cases drops
      rcases ready with rfl | found
      · exact .inr (key_none_congr key_noEntry (Function.update_of_ne (by decide) ..))
      · exact .inl (key_vlan_congr found (Function.update_of_ne (by decide) ..)
          (Function.update_of_ne (by decide) ..))

end Stored

end BbbEth.Ale
