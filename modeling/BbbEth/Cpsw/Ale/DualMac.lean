import BbbEth.Cpsw.Ale.Table

/-!
# The free entries in dual MAC mode

`cpswif_port_to_host_vlan_cfg` puts two entries where `cpswif_ale_entry_match_free` finds free
ones.  The index of a free entry is cut to eight bits on its way, and the result of a search
that fails is none of those that the caller expects.
-/

namespace BbbEth.Ale

open Engine

/-! ## The code -/

/-- `ENTRY_TYPE` of an entry. -/
def entryType (entry : Entry) : Byte := entry 7 &&& 0x30

/-- The test for `ENTRY_FREE`. -/
def isFree (entry : Entry) : Bool := entryType entry = 0

/-- `cpswif_ale_entry_match_free`. -/
def cpswifAleEntryMatchFree (ale : Engine) : Err × Engine := ale.search isFree

/-- An entry of zeros. -/
def noEntry : Entry := fun _ => 0

/-- The ports of an entry: the host and a slave port. -/
def portMembers (portNum : Word) : Byte := ((0x1 : Word) ||| (1 : Word) <<< portNum).setWidth 8

/-- The VLAN entry of a port. -/
def vlanEntry (portNum : Word) : Entry :=
  Function.update (Function.update (Function.update (Function.update noEntry
    0 (portMembers portNum)) 6 (portNum.setWidth 8)) 7 0x20) 3 (portMembers portNum)

/-- The bytes of an Ethernet address, the last one first. -/
def storeAddr (ethAddr : Fin 6 → Byte) (entry : Entry) : Entry := fun cnt =>
  if inside : cnt < 6 then ethAddr ⟨6 - cnt - 1, by omega⟩ else entry cnt

/-- The VLAN/unicast entry of a port. -/
def vlanUcastEntry (portNum : Word) (ethAddr : Fin 6 → Byte) : Entry :=
  Function.update (Function.update (storeAddr ethAddr noEntry) 7 0x30) 6 (portNum.setWidth 8)

/-- `cpswif_port_to_host_vlan_cfg`. -/
def cpswifPortToHostVlanCfg (portNum : Word) (ethAddr : Fin 6 → Byte) (ale : Engine) : Engine :=
  let (err, ale) := cpswifAleEntryMatchFree ale
  if err.widen = BitVec.ofNat 32 maxAleEntries then ale
  else
    let ale := ale.cpswAleTableEntrySet err.widen (vlanEntry portNum)
    let (err, ale) := cpswifAleEntryMatchFree ale
    if err.widen = BitVec.ofNat 32 maxAleEntries then ale
    else ale.cpswAleTableEntrySet err.widen (vlanUcastEntry portNum ethAddr)

/-- The callers of `cpswif_ale_entry_match_free`. -/
inductive Caller where
  | portToHostVlanCfg
  | unicastentrySet
  | multicastentrySet
  | add
  deriving DecidableEq

/-- Whether a caller takes what it gets for a failure. -/
def Caller.GivesUp : Caller → Word → Prop
  | .portToHostVlanCfg, idx => idx = BitVec.ofNat 32 maxAleEntries
  | .unicastentrySet, idx | .multicastentrySet, idx => (maxAleEntries : Int) ≤ idx.toInt
  | .add, idx => idx = errVal.widen

/-! ## What is asked of the search -/

/-- At least two entries are free. -/
def TwoFree (table : Pointer → Entry) : Prop :=
  ∃ entry other, entry ≠ other ∧ isFree (table entry) = true ∧ isFree (table other) = true

/-- The callers see the first free entry or a failure, and the entries of a port are put into
free entries, if there are two of them. -/
structure Sound (portNum : Word) (ethAddr : Fin 6 → Byte) (ale : Engine) : Prop where
  finds : ∀ idx, first isFree ale.table = some idx →
    (cpswifAleEntryMatchFree ale).1.widen = BitVec.ofNat 32 idx
  fails : first isFree ale.table = none →
    ∀ caller : Caller, caller.GivesUp (cpswifAleEntryMatchFree ale).1.widen
  writes : ∀ write ∈ (cpswifPortToHostVlanCfg portNum ethAddr ale).written.drop ale.written.length,
    isFree write.2 = true
  refuses : ¬ TwoFree ale.table →
    (cpswifPortToHostVlanCfg portNum ethAddr ale).written = ale.written

/-- The first free entry behind another one. -/
structure IsNext (table : Pointer → Entry) (idx next : Nat) : Prop where
  inside : next < maxAleEntries
  other : next ≠ idx
  free : isFree (table (pointer next)) = true
  first : ∀ earlier, earlier < next → earlier ≠ idx → isFree (table (pointer earlier)) = false

/-- The first free entry is below 128, and the next one is, when its number is cut, the number
of a free entry. -/
def LowFree (table : Pointer → Entry) : Prop :=
  ∃ idx next, first isFree table = some idx ∧ idx < 128 ∧ IsNext table idx next ∧
    isFree (table (pointer (target next))) = true ∧ target next ≠ idx

/-! ## The two writes -/

section Writes

variable {portNum : Word} {ethAddr : Fin 6 → Byte} {ale : Engine} {idx next : Nat}

theorem vlanEntry_used : isFree (latch (vlanEntry portNum)) = false := by
  have type : vlanEntry portNum 7 = 0x20 := Function.update_of_ne (by decide) ..
  unfold isFree entryType latch
  rw [if_pos (by decide), type]
  rfl

/-- No result of a search is `MAX_ALE_ENTRIES`. -/
theorem widen_ne_max (err : Err) : err.widen ≠ BitVec.ofNat 32 maxAleEntries := by
  intro same
  have value := congrArg BitVec.toInt same
  unfold Err.widen at value
  rw [BitVec.toInt_signExtend_of_le (by decide)] at value
  have upper : err.toInt < 2 ^ 7 := BitVec.toInt_lt
  rw [value] at upper
  exact absurd upper (by decide)

/-- The entry that is written behind a search. -/
def slot (table : Pointer → Entry) : Pointer :=
  (Err.ofIndex (first isFree table)).widen.setWidth 10

/-- The table with the VLAN entry. -/
def withVlan (portNum : Word) (table : Pointer → Entry) : Pointer → Entry :=
  Function.update table (slot table) (latch (vlanEntry portNum))

/-- Both entries are written, whatever the searches return. -/
theorem cfg_written : (cpswifPortToHostVlanCfg portNum ethAddr ale).written = ale.written ++
    [(slot ale.table, ale.table (slot ale.table)),
      (slot (withVlan portNum ale.table),
        withVlan portNum ale.table (slot (withVlan portNum ale.table)))] := by
  rcases search_eq isFree ale with ⟨tblw, searches⟩
  rcases search_eq isFree (({ ale with tblw } : Engine).cpswAleTableEntrySet
    (Err.ofIndex (first isFree ale.table)).widen (vlanEntry portNum)) with ⟨tblw', searches'⟩
  unfold cpswifPortToHostVlanCfg cpswifAleEntryMatchFree
  rw [searches]
  dsimp only
  rw [if_neg (widen_ne_max _), searches']
  dsimp only
  rw [if_neg (widen_ne_max _), cpswAleTableEntrySet_eq, cpswAleTableEntrySet_eq]
  dsimp only
  rw [List.append_assoc]
  unfold withVlan slot
  rfl

/-- The entries that are written were free if both searches lead to free ones. -/
theorem writes_iff : (∀ write ∈ (cpswifPortToHostVlanCfg portNum ethAddr ale).written.drop
      ale.written.length, isFree write.2 = true) ↔
    isFree (ale.table (slot ale.table)) = true ∧
      isFree (withVlan portNum ale.table (slot (withVlan portNum ale.table))) = true := by
  rw [cfg_written, List.drop_left, List.forall_mem_cons, List.forall_mem_singleton]

theorem matchFree_err : (cpswifAleEntryMatchFree ale).1 = .ofIndex (first isFree ale.table) := by
  rcases search_eq isFree ale with ⟨tblw, searches⟩
  unfold cpswifAleEntryMatchFree
  rw [searches]

theorem slot_low (found : first isFree ale.table = some idx) (small : idx < 128) :
    slot ale.table = pointer idx := by
  unfold slot
  rw [found, widen_ofIndex small]
  exact BitVec.setWidth_ofNat_of_le (by decide) _

theorem slot_found {table : Pointer → Entry} (found : first isFree table = some idx) :
    slot table = pointer (target idx) := by
  unfold slot target
  rw [found, pointer_toNat]

section Low

variable (found : first isFree ale.table = some idx) (small : idx < 128)
include found small

theorem withVlan_self : isFree (withVlan portNum ale.table (pointer idx)) = false := by
  unfold withVlan
  rw [slot_low found small, Function.update_self]
  exact vlanEntry_used

theorem withVlan_other {entry : Pointer} (other : entry ≠ pointer idx) :
    withVlan portNum ale.table entry = ale.table entry := by
  unfold withVlan
  rw [slot_low found small]
  exact Function.update_of_ne other ..

/-- Behind the VLAN entry the next free entry is the first one. -/
theorem first_withVlan :
    first isFree (withVlan portNum ale.table) = some next ↔ IsNext ale.table idx next := by
  have inside := (first_eq_some_iff.mp found).1
  have kept : ∀ other, other < maxAleEntries → other ≠ idx →
      withVlan portNum ale.table (pointer other) = ale.table (pointer other) :=
    fun other inside' different => withVlan_other found small fun same =>
      different (pointer_inj inside' inside same)
  rw [first_eq_some_iff]
  constructor
  · rintro ⟨inside, free, none⟩
    have other : next ≠ idx := by
      rintro rfl
      exact Bool.false_ne_true ((withVlan_self found small).symm.trans free)
    rw [kept next inside other] at free
    refine ⟨inside, other, free, fun earlier before different => ?_⟩
    have fails := none earlier before
    rwa [kept earlier (Nat.lt_trans before inside) different] at fails
  · rintro ⟨inside, other, free, none⟩
    refine ⟨inside, (congrArg isFree (kept next inside other)).trans free, fun earlier before => ?_⟩
    by_cases same : earlier = idx
    · rw [same]
      exact withVlan_self found small
    · rw [kept earlier (Nat.lt_trans before inside) same]
      exact none earlier before same

end Low

end Writes

/-! ## When the search is sound -/

section Sound

variable (portNum : Word) (ethAddr : Fin 6 → Byte) (ale : Engine)

/-- The failure of a search is not recognised by all callers. -/
theorem not_givesUp : ¬ Caller.portToHostVlanCfg.GivesUp (Err.ofIndex none).widen := by
  unfold Caller.GivesUp
  decide

/-- The search and the entries of a port are as they should be exactly if the first free entry
is below 128, and the next one gives a free entry, too. -/
theorem cfg_sound_iff : Sound portNum ethAddr ale ↔ LowFree ale.table := by
  constructor
  · rintro ⟨finds, fails, writes, refuses⟩
    rw [matchFree_err] at finds fails
    cases found : first isFree ale.table with
    | none =>
        rw [found] at fails
        exact absurd (fails rfl .portToHostVlanCfg) not_givesUp
    | some idx =>
        have inside := (first_eq_some_iff.mp found).1
        have small : idx < 128 := by
          rw [found] at finds
          exact (widen_ofIndex_iff inside).mp (finds idx rfl)
        have two : TwoFree ale.table := by
          by_contra fewer
          have length := congrArg List.length (refuses fewer)
          rw [cfg_written, List.length_append] at length
          exact absurd length (by simp)
        have free := (writes_iff.mp writes).2
        cases later : first isFree (withVlan portNum ale.table) with
        | none =>
            have used := first_eq_none_iff.mp later (slot (withVlan portNum ale.table))
            exact absurd (used.symm.trans free) Bool.false_ne_true
        | some next =>
            rw [slot_found later] at free
            have apart : target next ≠ idx := by
              intro same
              rw [same] at free
              exact Bool.false_ne_true ((withVlan_self found small).symm.trans free)
            rw [withVlan_other found small fun same =>
              apart (pointer_inj (target_lt next) inside same)] at free
            exact ⟨idx, next, found, small, (first_withVlan found small).mp later, free, apart⟩
  · rintro ⟨idx, next, found, small, isNext, free, apart⟩
    have inside := (first_eq_some_iff.mp found).1
    have later : first isFree (withVlan portNum ale.table) = some next :=
      (first_withVlan found small).mpr isNext
    refine ⟨?_, ?_, ?_, ?_⟩
    · rw [matchFree_err, found]
      intro _ same
      cases same
      exact widen_ofIndex small
    · rw [found]
      nofun
    · have different : pointer (target next) ≠ pointer idx := fun same =>
        apart (pointer_inj (target_lt next) inside same)
      rw [writes_iff, slot_low found small, slot_found later,
        withVlan_other found small different]
      exact ⟨(first_eq_some_iff.mp found).2.1, free⟩
    · intro fewer
      refine absurd ⟨pointer idx, pointer next, ?_, ?_, isNext.free⟩ fewer
      · exact fun same => isNext.other (pointer_inj inside isNext.inside same).symm
      · exact (first_eq_some_iff.mp found).2.1

end Sound

/-- A table without a free entry. -/
def fullEngine : Engine := ⟨fun _ => vlanEntry 1, noEntry, []⟩

/-- In a full table the failure is taken for an index. -/
theorem not_cfg_sound : ¬ ∀ portNum ethAddr ale, Sound portNum ethAddr ale := by
  intro holds
  have fails := (holds 1 (fun _ => 0) fullEngine).fails
  have full : first isFree fullEngine.table = none := by
    rw [first_eq_none_iff]
    intro
    exact (by decide : isFree (vlanEntry 1) = false)
  rw [matchFree_err, full] at fails
  exact not_givesUp (fails rfl .portToHostVlanCfg)

end BbbEth.Ale
