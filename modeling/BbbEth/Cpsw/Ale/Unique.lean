import BbbEth.Cpsw.Ale.Keys

/-!
# Runs of the operations

No two entries have the same key, and an entry is only replaced if it has the key, is free or
can age.  This holds of every run as long as the entries that the operations find have small
indexes, and the one that can age is a unicast entry.
-/

namespace BbbEth.Ale

open Engine

/-! ## Operations -/

/-- The operations on entries; a VLAN id has twelve bits. -/
inductive Op where
  | unicastentryAdd (portNum : Word) (ethAddr : EthAddr) (flags ucastType : Word)
  | ouiAdd (ethAddr : EthAddr)
  | unicastentryDel (ethAddr : EthAddr)
  | multicastentryAdd (portmask : Word) (ethAddr : EthAddr) (super mcastSt : Word)
  | multicastentryDel (portmask : Word) (ethAddr : EthAddr)
  | vlanAdd (vid : BitVec 12) (portNum untag regMcast unregMcast : Word)
  | vlanDel (vid : BitVec 12) (portNum : Word)
  | vlanAddUcast (vid : BitVec 12) (portNum : Word) (ethAddr : EthAddr) (flags ucastType : Word)
  | vlanDelUcast (vid : BitVec 12) (ethAddr : EthAddr)
  | vlanAddMcast (vid : BitVec 12) (portmask : Word) (ethAddr : EthAddr) (super mcastSt : Word)
  | vlanDelMcast (vid : BitVec 12) (portmask : Word) (ethAddr : EthAddr)

namespace Op

/-- What an operation runs. -/
def run : Op → Engine → Err × Engine
  | .unicastentryAdd portNum ethAddr flags ucastType =>
      cpswifAleUnicastentryAdd portNum ethAddr flags ucastType
  | .ouiAdd ethAddr => cpswifAleOuiAdd ethAddr
  | .unicastentryDel ethAddr => cpswifAleUnicastentryDel ethAddr
  | .multicastentryAdd portmask ethAddr super mcastSt =>
      cpswifAleMulticastentryAdd portmask ethAddr super mcastSt
  | .multicastentryDel portmask ethAddr => cpswifAleMulticastentryDel portmask ethAddr
  | .vlanAdd vid portNum untag regMcast unregMcast =>
      cpswifAleVlanAdd (vid.setWidth 32) portNum untag regMcast unregMcast
  | .vlanDel vid portNum => cpswifAleVlanDel (vid.setWidth 32) portNum
  | .vlanAddUcast vid portNum ethAddr flags ucastType =>
      cpswifAleVlanAddUcast (vid.setWidth 32) portNum ethAddr flags ucastType
  | .vlanDelUcast vid ethAddr => cpswifAleVlanDelUcast (vid.setWidth 32) ethAddr
  | .vlanAddMcast vid portmask ethAddr super mcastSt =>
      cpswifAleVlanAddMcast (vid.setWidth 32) portmask ethAddr super mcastSt
  | .vlanDelMcast vid portmask ethAddr => cpswifAleVlanDelMcast (vid.setWidth 32) portmask ethAddr

/-- The key of an operation. -/
def key : Op → Key
  | .unicastentryAdd _ ethAddr _ _ | .ouiAdd ethAddr | .unicastentryDel ethAddr
  | .multicastentryAdd _ ethAddr _ _ | .multicastentryDel _ ethAddr => .address ethAddr 0
  | .vlanAdd vid _ _ _ _ | .vlanDel vid _ => .vlan vid
  | .vlanAddUcast vid _ ethAddr _ _ | .vlanDelUcast vid ethAddr
  | .vlanAddMcast vid _ ethAddr _ _ | .vlanDelMcast vid _ ethAddr => .address ethAddr vid

/-- Whether an operation adds an entry. -/
def Adds : Op → Prop
  | .unicastentryAdd .. | .ouiAdd .. | .multicastentryAdd .. | .vlanAdd .. | .vlanAddUcast ..
  | .vlanAddMcast .. => True
  | .unicastentryDel .. | .multicastentryDel .. | .vlanDel .. | .vlanDelUcast ..
  | .vlanDelMcast .. => False

end Op

/-- The find operation for a key. -/
def Key.find : Key → Engine → Err × Engine
  | .address ethAddr vid => cpswifAleEntryMatchAddr ethAddr (vid.setWidth 32)
  | .vlan vid => cpswifAleEntryMatchVlan (vid.setWidth 32)

/-! ## What is asked of an operation -/

/-- No two entries have the same key. -/
def Unique (table : Pointer → Entry) : Prop :=
  ∀ wanted entry other, key (table entry) = some wanted → key (table other) = some wanted →
    entry = other

/-- A unicast address entry that can age. -/
def Ages (entry : Entry) : Prop :=
  (∃ ethAddr vid, key entry = some (.address ethAddr vid) ∧ ethAddr 0 &&& 0x01 = 0) ∧
    (entry 7 &&& aleUcastTypeMask = 0x40 ∨ entry 7 &&& aleUcastTypeMask = 0xc0)

/-- There is no place for an entry, and nothing changes. -/
structure Refused (wanted : Key) (before : Engine) (result : Err × Engine) : Prop where
  err : result.1 = errVal
  table : result.2.table = before.table
  written : result.2.written = before.written
  absent : ∀ entry, key (before.table entry) ≠ some wanted
  full : ∀ entry, key (before.table entry) ≠ none
  none : ∀ entry, ¬ Ages (before.table entry)

/-- An entry with the key is written once, and is found at the index that is returned. -/
structure Entered (wanted : Key) (before : Engine) (result : Err × Engine) (idx : Nat) : Prop where
  inside : idx < maxAleEntries
  index : result.1.toInt = idx
  once : result.2.written = before.written ++ [(pointer idx, before.table (pointer idx))]
  others : ∀ entry, entry ≠ pointer idx → result.2.table entry = before.table entry
  entered : key (result.2.table (pointer idx)) = some wanted
  found : (wanted.find result.2).1 = result.1
  reused : ∀ entry, key (before.table entry) = some wanted → entry = pointer idx
  replaced : key (before.table (pointer idx)) = some wanted ∨
    key (before.table (pointer idx)) = none ∨
    (∀ entry, key (before.table entry) ≠ none) ∧ Ages (before.table (pointer idx))

/-- Only an entry with the key is written, if any, and it keeps the key or becomes free. -/
structure Deleted (wanted : Key) (before after : Engine) : Prop where
  others : ∀ entry, key (before.table entry) ≠ some wanted →
    after.table entry = before.table entry
  own : ∀ entry, key (before.table entry) = some wanted →
    key (after.table entry) = some wanted ∨ key (after.table entry) = none
  written : after.written = before.written ∨ ∃ entry, key (before.table entry) = some wanted ∧
    after.written = before.written ++ [(entry, before.table entry)]

/-- The keys stay unique, an entry is added as it should be, and a deletion leaves the entries of
other keys alone. -/
structure Op.Correct (op : Op) (before : Engine) : Prop where
  unique : Unique (op.run before).2.table
  adds : op.Adds → Refused op.key before (op.run before) ∨
    ∃ idx, Entered op.key before (op.run before) idx
  deletes : ¬ op.Adds → Deleted op.key before (op.run before).2

/-- Every operation of a sequence is correct. -/
def Lawful : List Op → Engine → Prop
  | [], _ => True
  | op :: ops, ale => op.Correct ale ∧ Lawful ops (op.run ale).2

/-- The entry for an operation has a small index, and is a unicast one if it is to be replaced. -/
def Op.Fits (op : Op) (ale : Engine) : Prop :=
  match first op.key.test ale.table with
  | some idx => idx < 128
  | none => op.Adds →
      match first isFree ale.table with
      | some idx => idx < 128
      | none =>
          match first isAgeable ale.table with
          | some idx => idx < 128 ∧ Ages (ale.table (pointer idx))
          | none => ∀ entry, ¬ Ages (ale.table entry)

/-- Every operation of a sequence fits. -/
def FitsAll : List Op → Engine → Prop
  | [], _ => True
  | op :: ops, ale => op.Fits ale ∧ FitsAll ops (op.run ale).2

/-! ## The table after an operation -/

section Table

variable {table : Pointer → Entry} {wanted : Key} {idx : Nat}

theorem first_test_none :
    first wanted.test table = none ↔ ∀ entry, key (table entry) ≠ some wanted := by
  rw [first_eq_none_iff]
  exact forall_congr' fun entry => by rw [← Bool.not_eq_true, Key.test_iff]

theorem first_free_none : first isFree table = none ↔ ∀ entry, key (table entry) ≠ none := by
  rw [first_eq_none_iff]
  exact forall_congr' fun entry => by rw [← Bool.not_eq_true, isFree_iff]

/-- The only entry with a key is the first one. -/
theorem first_test_some (inside : idx < maxAleEntries)
    (found : key (table (pointer idx)) = some wanted)
    (only : ∀ entry, key (table entry) = some wanted → entry = pointer idx) :
    first wanted.test table = some idx := by
  refine first_eq_some_iff.mpr ⟨inside, Key.test_iff.mpr found, fun earlier before => ?_⟩
  rw [← Bool.not_eq_true, Key.test_iff]
  intro other
  exact before.ne (pointer_inj (Nat.lt_trans before inside) inside (only _ other))

/-- An entry is replaced by one whose key no other entry has. -/
theorem Unique.update (unique : Unique table) {place : Pointer} {stored : Entry}
    (alone : ∀ wanted, key stored = some wanted →
      ∀ entry, key (table entry) = some wanted → entry = place) :
    Unique (Function.update table place stored) := by
  have reads : ∀ entry wanted, key (Function.update table place stored entry) = some wanted →
      entry = place ∨ entry ≠ place ∧ key (table entry) = some wanted := by
    intro entry wanted found
    by_cases here : entry = place
    · exact .inl here
    · rw [Function.update_of_ne here] at found
      exact .inr ⟨here, found⟩
  have self : ∀ wanted, key (Function.update table place stored place) = some wanted →
      key stored = some wanted := by
    intro wanted found
    rwa [Function.update_self] at found
  intro wanted entry other found found'
  rcases reads entry wanted found with rfl | ⟨apart, kept⟩
  · rcases reads other wanted found' with rfl | ⟨apart, kept⟩
    · rfl
    · exact absurd (alone wanted (self wanted found) other kept) apart
  · rcases reads other wanted found' with rfl | ⟨_, kept'⟩
    · exact absurd (alone wanted (self wanted found') entry kept) apart
    · exact unique wanted entry other kept kept'

end Table

/-! ## Searches of an operation -/

section Search

variable {wanted : Key} {ale : Engine} {idx : Nat} {reads : Bool}

theorem find_eq (wanted : Key) (ale : Engine) : ∃ tblw,
    wanted.find ale = (.ofIndex (first wanted.test ale.table), { ale with tblw }) := by
  cases wanted with
  | address ethAddr vid => exact search_eq _ ale
  | vlan vid => exact search_eq _ ale

theorem find_err : (wanted.find ale).1 = .ofIndex (first wanted.test ale.table) := by
  rcases find_eq wanted ale with ⟨tblw, finds⟩
  rw [finds]

/-- A small index is not a failure. -/
theorem ofIndex_ne (small : idx < 128) : Err.ofIndex (some idx) ≠ errVal := by
  intro same
  have number : (BitVec.ofNat 8 idx).toNat = 250 := congrArg BitVec.toNat same
  rw [BitVec.toNat_ofNat] at number
  omega

theorem toInt_ofIndex (small : idx < 128) : (Err.ofIndex (some idx)).toInt = idx := by
  change (BitVec.ofNat 8 idx).toInt = idx
  rw [BitVec.toInt_eq_toNat_of_msb, BitVec.toNat_ofNat]
  · omega
  · rw [BitVec.msb_eq_false_iff_two_mul_lt, BitVec.toNat_ofNat]
    omega

/-- The engine after an entry is written. -/
def Engine.entered (ale : Engine) (idx : Nat) (entry : Entry) : Engine where
  table := Function.update ale.table (pointer idx) (latch entry)
  tblw := latch entry
  written := ale.written ++ [(pointer idx, ale.table (pointer idx))]

theorem set_small {tblw entry : Entry} (small : idx < 128) :
    ({ ale with tblw } : Engine).cpswAleTableEntrySet (Err.ofIndex (some idx)).widen entry =
      ale.entered idx entry := by
  have number : ((Err.ofIndex (some idx)).widen.setWidth 10 : Pointer) = pointer idx := by
    rw [widen_ofIndex small]
    exact BitVec.setWidth_ofNat_of_le (by decide) _
  rw [cpswAleTableEntrySet_eq, number]
  rfl

theorem ofIndex_none : Err.ofIndex none = errVal := rfl

/-- An entry with the key is used again. -/
theorem add_present {fill : Entry → Entry} (found : first wanted.test ale.table = some idx)
    (small : idx < 128) : add wanted.find reads fill ale = (.ofIndex (some idx),
      ale.entered idx (fill (if reads then ale.table (pointer idx) else noEntry))) := by
  rcases find_eq wanted ale with ⟨tblw, finds⟩
  have other := ofIndex_ne small
  unfold add
  rw [finds, found]
  dsimp only
  cases reads with
  | true =>
      rw [if_neg other, if_pos rfl, widen_ofIndex small,
        cpswAleTableEntryGet_eq (Nat.lt_trans small (by decide))]
      dsimp only
      rw [if_neg other]
      dsimp only
      rw [if_neg other]
      exact congrArg (Prod.mk _) (set_small small)
  | false =>
      rw [if_neg other, if_neg Bool.false_ne_true]
      dsimp only
      rw [if_neg other]
      dsimp only
      rw [if_neg other]
      exact congrArg (Prod.mk _) (set_small small)

section Absent

variable {fill : Entry → Entry} (absent : first wanted.test ale.table = none)
include absent

/-- A free entry is used. -/
theorem add_free (free : first isFree ale.table = some idx)
    (other : Err.ofIndex (some idx) ≠ errVal) : ∃ tblw, add wanted.find reads fill ale =
      (.ofIndex (some idx), ({ ale with tblw } : Engine).cpswAleTableEntrySet
        (Err.ofIndex (some idx)).widen (fill noEntry)) := by
  rcases find_eq wanted ale with ⟨tblw, finds⟩
  rcases search_eq isFree { ale with tblw } with ⟨tblw', searches⟩
  refine ⟨tblw', ?_⟩
  unfold add cpswifAleEntryMatchFree
  rw [finds, absent]
  dsimp only
  rw [if_pos ofIndex_none, searches]
  dsimp only
  rw [free, if_neg other]
  dsimp only
  rw [if_neg other]

/-- Without a free entry, one is replaced, or the operation fails. -/
theorem add_full (full : first isFree ale.table = none) : ∃ tblw, add wanted.find reads fill ale =
    if .ofIndex (first isAgeable ale.table) = errVal then (errVal, { ale with tblw })
    else (.ofIndex (first isAgeable ale.table), ({ ale with tblw } : Engine).cpswAleTableEntrySet
      (Err.ofIndex (first isAgeable ale.table)).widen (fill noEntry)) := by
  rcases find_eq wanted ale with ⟨tblw, finds⟩
  rcases search_eq isFree { ale with tblw } with ⟨tblw', searches⟩
  rcases search_eq isAgeable { ale with tblw := tblw' } with ⟨tblw'', searches'⟩
  refine ⟨tblw'', ?_⟩
  unfold add cpswifAleEntryMatchFree cpswifAleEntryMatchAgeable
  rw [finds, absent]
  dsimp only
  rw [if_pos ofIndex_none, searches]
  dsimp only
  rw [full, if_pos ofIndex_none, searches']

end Absent

/-- The entry with the key is changed. -/
theorem del_present {change : Entry → Option Entry}
    (found : first wanted.test ale.table = some idx) (small : idx < 128) : ∃ tblw,
      del wanted.find reads change ale =
        match change (if reads then ale.table (pointer idx) else noEntry) with
        | none => (errVal, { ale with tblw })
        | some entry => (.ofIndex (some idx), ale.entered idx entry) := by
  rcases find_eq wanted ale with ⟨tblw, finds⟩
  have other := ofIndex_ne small
  unfold del
  rw [finds, found]
  dsimp only
  rw [if_neg other]
  cases reads with
  | true =>
      rw [if_pos rfl, if_pos rfl, widen_ofIndex small,
        cpswAleTableEntryGet_eq (Nat.lt_trans small (by decide)), ← widen_ofIndex small]
      dsimp only
      refine ⟨ale.table (pointer idx), ?_⟩
      cases change (ale.table (pointer idx)) with
      | none => rfl
      | some entry => exact congrArg (Prod.mk _) (set_small small)
  | false =>
      rw [if_neg Bool.false_ne_true, if_neg Bool.false_ne_true]
      dsimp only
      refine ⟨tblw, ?_⟩
      cases change noEntry with
      | none => rfl
      | some entry => exact congrArg (Prod.mk _) (set_small small)

theorem del_absent {change : Entry → Option Entry} (absent : first wanted.test ale.table = none) :
    ∃ tblw, del wanted.find reads change ale = (errVal, { ale with tblw }) := by
  rcases find_eq wanted ale with ⟨tblw, finds⟩
  refine ⟨tblw, ?_⟩
  unfold del
  rw [finds, absent]
  rfl

end Search

/-! ## Steps -/

section Steps

variable {wanted : Key} {ale : Engine} {idx : Nat} {reads : Bool}

/-- An entry with a key in a place that no other entry claims. -/
theorem entered_correct {stored : Entry} (unique : Unique ale.table) (small : idx < 128)
    (filled : key stored = some wanted)
    (reused : ∀ entry, key (ale.table entry) = some wanted → entry = pointer idx)
    (replaced : key (ale.table (pointer idx)) = some wanted ∨
      key (ale.table (pointer idx)) = none ∨
      (∀ entry, key (ale.table entry) ≠ none) ∧ Ages (ale.table (pointer idx))) :
    Unique (ale.entered idx stored).table ∧
      Entered wanted ale (.ofIndex (some idx), ale.entered idx stored) idx := by
  have inside : idx < maxAleEntries := Nat.lt_trans small (by decide)
  have here : (ale.entered idx stored).table (pointer idx) = latch stored := Function.update_self ..
  have others : ∀ entry, entry ≠ pointer idx →
      (ale.entered idx stored).table entry = ale.table entry :=
    fun entry other => Function.update_of_ne other ..
  have entered : key ((ale.entered idx stored).table (pointer idx)) = some wanted := by
    rw [here, key_latch, filled]
  have unique' : Unique (ale.entered idx stored).table := by
    apply unique.update
    intro other found
    rw [key_latch, filled] at found
    cases found
    exact reused
  refine ⟨unique', inside, toInt_ofIndex small, rfl, others, entered, ?_, reused, replaced⟩
  rw [find_err, first_test_some inside entered fun entry found =>
    unique' wanted _ _ found entered]

/-- An operation that adds an entry. -/
theorem add_correct {fill : Entry → Entry}
    (fills : ∀ entry, Ready wanted entry → key (fill entry) = some wanted)
    (unique : Unique ale.table)
    (fits : match first wanted.test ale.table with
      | some idx => idx < 128
      | none =>
          match first isFree ale.table with
          | some idx => idx < 128
          | none =>
              match first isAgeable ale.table with
              | some idx => idx < 128 ∧ Ages (ale.table (pointer idx))
              | none => ∀ entry, ¬ Ages (ale.table entry)) :
    Unique (add wanted.find reads fill ale).2.table ∧
      (Refused wanted ale (add wanted.find reads fill ale) ∨
        ∃ idx, Entered wanted ale (add wanted.find reads fill ale) idx) := by
  cases found : first wanted.test ale.table with
  | some idx =>
      rw [found] at fits
      have has := Key.test_iff.mp (first_eq_some_iff.mp found).2.1
      have ready : Ready wanted (if reads then ale.table (pointer idx) else noEntry) := by
        cases reads with
        | true => exact .inr has
        | false => exact .inl rfl
      have correct := entered_correct unique fits (fills _ ready)
        (fun entry same => unique wanted _ _ same has) (.inl has)
      rw [add_present found fits]
      exact ⟨correct.1, .inr ⟨idx, correct.2⟩⟩
  | none =>
      rw [found] at fits
      have absent := first_test_none.mp found
      have filled := fills noEntry (.inl rfl)
      have reused : ∀ place entry, key (ale.table entry) = some wanted → entry = place :=
        fun place entry same => absurd same (absent entry)
      cases free : first isFree ale.table with
      | some idx =>
          simp only [free] at fits
          have isNone := isFree_iff.mp (first_eq_some_iff.mp free).2.1
          have correct := entered_correct unique fits filled (reused _) (.inr (.inl isNone))
          rcases add_free found free (ofIndex_ne fits) with ⟨tblw, adds⟩
          rw [adds, set_small fits]
          exact ⟨correct.1, .inr ⟨idx, correct.2⟩⟩
      | none =>
          simp only [free] at fits
          have full := first_free_none.mp free
          rcases add_full found free with ⟨tblw, adds⟩
          rw [adds]
          cases ageable : first isAgeable ale.table with
          | some idx =>
              simp only [ageable] at fits
              have correct := entered_correct unique fits.1 filled (reused _)
                (.inr (.inr ⟨full, fits.2⟩))
              rw [if_neg (ofIndex_ne fits.1), set_small fits.1]
              exact ⟨correct.1, .inr ⟨idx, correct.2⟩⟩
          | none =>
              simp only [ageable] at fits
              rw [if_pos ofIndex_none]
              exact ⟨unique, .inl ⟨rfl, rfl, rfl, absent, full, fits⟩⟩

/-- Nothing is deleted. -/
theorem Deleted.nothing {tblw : Entry} : Deleted wanted ale { ale with tblw } where
  others _ _ := rfl
  own _ has := .inl has
  written := .inl rfl

/-- The entry with the key is written. -/
theorem Deleted.entered {stored : Entry} (unique : Unique ale.table)
    (has : key (ale.table (pointer idx)) = some wanted)
    (changed : key stored = some wanted ∨ key stored = none) :
    Deleted wanted ale (ale.entered idx stored) where
  others entry other := by
    have apart : entry ≠ pointer idx := by
      rintro rfl
      exact other has
    exact Function.update_of_ne apart ..
  own entry same := by
    obtain rfl := unique wanted entry _ same has
    have here : (ale.entered idx stored).table (pointer idx) = latch stored :=
      Function.update_self ..
    rw [here, key_latch]
    exact changed
  written := .inr ⟨pointer idx, has, rfl⟩

/-- An operation that deletes an entry or a part of it. -/
theorem del_correct {change : Entry → Option Entry} (changes : Frees wanted change)
    (unique : Unique ale.table)
    (fits : ∀ idx, first wanted.test ale.table = some idx → idx < 128) :
    Unique (del wanted.find reads change ale).2.table ∧
      Deleted wanted ale (del wanted.find reads change ale).2 := by
  cases found : first wanted.test ale.table with
  | none =>
      rcases del_absent found with ⟨tblw, deletes⟩
      rw [deletes]
      exact ⟨unique, .nothing⟩
  | some idx =>
      have has := Key.test_iff.mp (first_eq_some_iff.mp found).2.1
      have ready : Ready wanted (if reads then ale.table (pointer idx) else noEntry) := by
        cases reads with
        | true => exact .inr has
        | false => exact .inl rfl
      rcases del_present found (fits idx found) with ⟨tblw, deletes⟩
      rw [deletes]
      cases changed : change (if reads then ale.table (pointer idx) else noEntry) with
      | none => exact ⟨unique, .nothing⟩
      | some stored =>
          have kept := changes _ stored ready changed
          refine ⟨unique.update fun other same entry => ?_, .entered unique has kept⟩
          rw [key_latch] at same
          rcases kept with kept | gone
          · cases kept.symm.trans same
            exact fun found' => unique wanted _ _ found' has
          · cases gone.symm.trans same

/-- What fits an operation that adds. -/
theorem Op.Fits.add {op : Op} (fits : op.Fits ale) (adds : op.Adds) :
    match first op.key.test ale.table with
    | some idx => idx < 128
    | none =>
        match first isFree ale.table with
        | some idx => idx < 128
        | none =>
            match first isAgeable ale.table with
            | some idx => idx < 128 ∧ Ages (ale.table (pointer idx))
            | none => ∀ entry, ¬ Ages (ale.table entry) := by
  unfold Op.Fits at fits
  cases found : first op.key.test ale.table with
  | some idx => rwa [found] at fits
  | none =>
      rw [found] at fits
      exact fits adds

/-- What fits an operation that deletes. -/
theorem Op.Fits.del {op : Op} (fits : op.Fits ale) {idx : Nat}
    (found : first op.key.test ale.table = some idx) : idx < 128 := by
  unfold Op.Fits at fits
  rwa [found] at fits

/-- An operation of the first family is correct. -/
theorem Op.Correct.add {op : Op} {fill : Entry → Entry}
    (runs : op.run = Ale.add op.key.find reads fill) (adds : op.Adds)
    (fills : ∀ entry, Ready op.key entry → Ale.key (fill entry) = some op.key)
    (unique : Unique ale.table) (fits : op.Fits ale) : op.Correct ale := by
  have correct : Unique (Ale.add op.key.find reads fill ale).2.table ∧ _ :=
    add_correct fills unique (fits.add adds)
  rw [← runs] at correct
  exact ⟨correct.1, fun _ => correct.2, fun deletes => absurd adds deletes⟩

/-- An operation of the second family is correct. -/
theorem Op.Correct.del {op : Op} (reads : Bool) {change : Entry → Option Entry}
    (runs : op.run = Ale.del op.key.find reads change) (deletes : ¬ op.Adds)
    (changes : Frees op.key change) (unique : Unique ale.table) (fits : op.Fits ale) :
    op.Correct ale := by
  have correct : Unique (Ale.del op.key.find reads change ale).2.table ∧ _ :=
    del_correct changes unique fun idx found => fits.del found
  rw [← runs] at correct
  exact ⟨correct.1, fun adds => absurd adds deletes, fun _ => correct.2⟩

/-- A step of an operation that fits. -/
theorem Op.correct (op : Op) {ale : Engine} (unique : Unique ale.table) (fits : op.Fits ale) :
    op.Correct ale := by
  cases op with
  | unicastentryAdd portNum ethAddr flags ucastType =>
      exact .add rfl trivial (fun _ ready => key_ucastEntry ready) unique fits
  | ouiAdd ethAddr =>
      exact .add rfl trivial (fun _ ready => key_ouiEntry ready) unique fits
  | multicastentryAdd portmask ethAddr super mcastSt =>
      exact .add rfl trivial (fun _ ready => key_mcastEntry ready) unique fits
  | vlanAdd vid portNum untag regMcast unregMcast =>
      exact .add rfl trivial (fun _ _ => key_vlanPorts) unique fits
  | vlanAddUcast vid portNum ethAddr flags ucastType =>
      exact .add rfl trivial (fun _ _ => key_vlanUcast) unique fits
  | vlanAddMcast vid portmask ethAddr super mcastSt =>
      exact .add rfl trivial (fun _ _ => key_vlanMcast) unique fits
  | unicastentryDel ethAddr => exact .del false rfl id frees_freeEntry unique fits
  | multicastentryDel portmask ethAddr => exact .del true rfl id frees_dropPorts unique fits
  | vlanDelUcast vid ethAddr => exact .del false rfl id frees_freeEntry unique fits
  | vlanDelMcast vid portmask ethAddr => exact .del true rfl id frees_dropPorts unique fits
  | vlanDel vid portNum => exact .del true rfl id frees_dropMember unique fits

end Steps

/-! ## Runs -/

/-- Every operation of a sequence is correct, as long as each fits. -/
theorem run_lawful {ale : Engine} {ops : List Op} (unique : Unique ale.table)
    (fits : FitsAll ops ale) : Lawful ops ale := by
  induction ops generalizing ale with
  | nil => trivial
  | cons op ops inductionHypothesis =>
      have correct := op.correct unique fits.1
      exact ⟨correct, inductionHypothesis correct.unique fits.2⟩

/-- A table without entries. -/
def vacant : Engine where
  table := fun _ => noEntry
  tblw := noEntry
  written := []

/-- The address of zeros. -/
def zeroAddr : EthAddr := fun _ => 0

theorem run_ouiAdd (ethAddr : EthAddr) : (Op.ouiAdd ethAddr).run =
    add (Op.ouiAdd ethAddr).key.find false (ouiEntry ethAddr) :=
  rfl

/-- An address is added to it and is deleted. -/
theorem vacant_lawful : Lawful [.ouiAdd zeroAddr, .unicastentryDel zeroAddr] vacant := by
  have nothing : ∀ wanted entry, key (vacant.table entry) ≠ some wanted := by
    intro wanted entry found
    cases key_noEntry.symm.trans found
  have absent : first (Op.ouiAdd zeroAddr).key.test vacant.table = none :=
    first_test_none.mpr (nothing _)
  have free : first isFree vacant.table = some 0 :=
    first_eq_some_iff.mpr ⟨by decide, isFree_iff.mpr key_noEntry, fun _ before => by cases before⟩
  have adds : (Op.ouiAdd zeroAddr).Fits vacant := by
    unfold Op.Fits
    rw [absent, free]
    exact fun _ => by decide
  have added : ∃ tblw, (Op.ouiAdd zeroAddr).run vacant =
      (.ofIndex (some 0), ({ vacant with tblw } : Engine).cpswAleTableEntrySet
        (Err.ofIndex (some 0)).widen (ouiEntry zeroAddr noEntry)) := by
    rw [run_ouiAdd]
    exact add_free absent free (by decide)
  have deletes : (Op.unicastentryDel zeroAddr).Fits ((Op.ouiAdd zeroAddr).run vacant).2 := by
    rcases added with ⟨tblw, added⟩
    rw [added, set_small (by decide)]
    unfold Op.Fits
    split
    · next idx found =>
        rcases first_eq_some_iff.mp found with ⟨inside, has, _⟩
        by_cases here : pointer idx = pointer 0
        · rw [pointer_inj inside (by decide) here]
          decide
        · have other : (vacant.entered 0 (ouiEntry zeroAddr noEntry)).table (pointer idx) =
              noEntry := Function.update_of_ne here ..
          rw [other, Key.test_iff, key_noEntry] at has
          cases has
    · nofun
  exact run_lawful (fun wanted entry other found _ => absurd found (nothing wanted entry))
    ⟨adds, deletes, trivial⟩

/-! ## A full eighth -/

/-- The first 256 entries are VLAN entries. -/
def crowded : Engine where
  table := fun entry =>
    if entry.toNat < 256 then Function.update (Function.update noEntry 6 (entry.setWidth 8)) 7 0x20
    else noEntry
  tblw := noEntry
  written := []

theorem crowded_vlan {entry : Pointer} (inside : entry.toNat < 256) :
    key (crowded.table entry) = some (.vlan (entry.setWidth 12)) := by
  have bytes : crowded.table entry =
      Function.update (Function.update noEntry 6 (entry.setWidth 8)) 7 0x20 := if_pos inside
  have sixth : crowded.table entry 6 = entry.setWidth 8 := by
    rw [bytes, Function.update_of_ne (by decide), Function.update_self]
  have seventh : crowded.table entry 7 = 0x20 := by
    rw [bytes, Function.update_self]
  have number : entryVid (crowded.table entry) = entry.setWidth 12 := by
    have upper : (0x20 : Byte).setWidth 4 = 0 := by decide
    have whole : (0 : BitVec 4) ++ entry.setWidth 8 = entry.setWidth 12 := by
      apply BitVec.eq_of_toNat_eq
      rw [BitVec.toNat_append, BitVec.toNat_setWidth, BitVec.toNat_setWidth]
      change 0 <<< 8 ||| _ = _
      rw [Nat.zero_shiftLeft, Nat.zero_or]
      omega
    unfold entryVid
    rw [sixth, seventh, upper, whole]
  have type : entryType (crowded.table entry) = aleEntryVlan := by
    unfold entryType
    rw [seventh]
    rfl
  have has : ¬ hasAddr (crowded.table entry) = true := by
    rw [hasAddr_iff, type]
    decide
  unfold key
  rw [if_neg has, if_pos type, number]

theorem crowded_free {entry : Pointer} (outside : ¬ entry.toNat < 256) :
    key (crowded.table entry) = none := by
  have bytes : crowded.table entry = noEntry := if_neg outside
  rw [bytes, key_noEntry]

theorem unique_crowded : Unique crowded.table := by
  have inside : ∀ entry wanted, key (crowded.table entry) = some wanted →
      entry.toNat < 256 ∧ wanted = .vlan (entry.setWidth 12) := by
    intro entry wanted found
    by_cases inside : entry.toNat < 256
    · rw [crowded_vlan inside] at found
      cases found
      exact ⟨inside, rfl⟩
    · cases (crowded_free inside).symm.trans found
  intro wanted entry other found found'
  rcases inside entry wanted found with ⟨small, rfl⟩
  rcases inside other _ found' with ⟨small', same⟩
  have vid : entry.setWidth 12 = other.setWidth 12 := Key.vlan.inj same
  have numbers := congrArg BitVec.toNat vid
  rw [BitVec.toNat_setWidth, BitVec.toNat_setWidth] at numbers
  apply BitVec.eq_of_toNat_eq
  omega

/-- A new entry replaces the first VLAN entry, although there are free ones. -/
theorem not_run_lawful :
    ¬ ∀ (ale : Engine) (ops : List Op), Unique ale.table → Lawful ops ale := by
  intro lawful
  have correct := (lawful crowded [.ouiAdd zeroAddr] unique_crowded).1.adds trivial
  have free : first isFree crowded.table = some 256 := by
    refine first_eq_some_iff.mpr ⟨by decide, isFree_iff.mpr (crowded_free ?_), ?_⟩
    · rw [toNat_pointer (by decide)]
      decide
    · intro earlier before
      have inside : (pointer earlier).toNat < 256 := by
        rwa [toNat_pointer (Nat.lt_trans before (by decide))]
      rw [← Bool.not_eq_true, isFree_iff, crowded_vlan inside]
      nofun
  have absent : first (Op.ouiAdd zeroAddr).key.test crowded.table = none := by
    refine first_test_none.mpr fun entry found => ?_
    by_cases inside : entry.toNat < 256
    · cases (crowded_vlan inside).symm.trans found
    · cases (crowded_free inside).symm.trans found
  have adds : ((Op.ouiAdd zeroAddr).run crowded).1 = Err.ofIndex (some 256) := by
    have adds : ∃ tblw, (Op.ouiAdd zeroAddr).run crowded =
        (.ofIndex (some 256), ({ crowded with tblw } : Engine).cpswAleTableEntrySet
          (Err.ofIndex (some 256)).widen (ouiEntry zeroAddr noEntry)) := by
      rw [run_ouiAdd]
      exact add_free absent free (by decide)
    rcases adds with ⟨tblw, adds⟩
    rw [adds]
  rcases correct with refused | ⟨idx, entered⟩
  · exact absurd (adds.symm.trans refused.err) (by decide)
  · have number := entered.index
    rw [adds] at number
    have zero : idx = 0 := by
      have err : (Err.ofIndex (some 256)).toInt = 0 := by decide
      omega
    subst zero
    have vlan : key (crowded.table (pointer 0)) = some (.vlan ((pointer 0).setWidth 12)) :=
      crowded_vlan (by decide)
    rcases entered.replaced with same | none | ⟨full, _⟩
    · cases vlan.symm.trans same
    · cases vlan.symm.trans none
    · exact full (pointer 256) (crowded_free (by decide))

end BbbEth.Ale
