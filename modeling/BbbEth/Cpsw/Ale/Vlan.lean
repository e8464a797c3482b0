import BbbEth.Cpsw.Ale.Lookup
import BbbEth.Registers.Mask

/-!
# VLAN membership

Ports are added to VLANs and deleted from them.  The sets of ports are what the table is for; it
represents them if each set that is not empty has one entry, with the set in its member list.
-/

namespace BbbEth.Ale

open Engine Registers

/-! ## Calls -/

/-- A port: the host or a slave port. -/
abbrev Port := Fin 3

/-- The number of a port. -/
def portNumber (port : Port) : Word := BitVec.ofNat 32 port

/-- A call that changes the members of a VLAN. -/
inductive Membership where
  | add (vid : BitVec 12) (port : Port) (untag regMcast unregMcast : Word)
  | del (vid : BitVec 12) (port : Port)

namespace Membership

/-- The operation that is called. -/
def op : Membership → Op
  | .add vid port untag regMcast unregMcast =>
      .vlanAdd vid (portNumber port) untag regMcast unregMcast
  | .del vid port => .vlanDel vid (portNumber port)

/-- What the call is to do. -/
def meaning : Membership → (BitVec 12 → Finset Port) → BitVec 12 → Finset Port
  | .add vid port _ _ _, members => Function.update members vid (insert port (members vid))
  | .del vid port, members => Function.update members vid ((members vid).erase port)

end Membership

/-- The entries of the VLANs are those of the sets. -/
structure Represents (members : BitVec 12 → Finset Port) (table : Pointer → Entry) : Prop where
  sole : ∀ vid entry other, key (table entry) = some (.vlan vid) →
    key (table other) = some (.vlan vid) → entry = other
  absent : ∀ vid, members vid = ∅ → lookup (.vlan vid) table = none
  present : ∀ vid, members vid ≠ ∅ →
    ∃ entry, lookup (.vlan vid) table = some entry ∧ Lists (members vid) (entry 0)

/-- A call has the table represent the changed sets, and refuses to delete what is not there. -/
structure Membership.Follows (call : Membership) (members : BitVec 12 → Finset Port)
    (before : Engine) : Prop where
  represents : Represents (call.meaning members) (call.op.run before).2.table
  refuses : ∀ vid port, call = .del vid port → port ∉ members vid →
    (call.op.run before).1 = errVal ∧ (call.op.run before).2.table = before.table

/-- Every call of a sequence does so. -/
def FollowsAll : List Membership → (BitVec 12 → Finset Port) → Engine → Prop
  | [], _, _ => True
  | call :: calls, members, ale =>
      call.Follows members ale ∧ FollowsAll calls (call.meaning members) (call.op.run ale).2

/-- The table is never full: there is an entry of the VLAN or a free one. -/
def Membership.Roomy : Membership → (Pointer → Entry) → Prop
  | .add vid _ _ _ _, table =>
      (first (Key.vlan vid).test table).or (first isFree table) ≠ none
  | .del _ _, _ => True

/-- This holds of every call of a sequence. -/
def RoomyAll : List Membership → Engine → Prop
  | [], _ => True
  | call :: calls, ale => call.Roomy ale.table ∧ RoomyAll calls (call.op.run ale).2

/-- The entry for a call has a small index, a port that is deleted from a VLAN with members is
one of them, and it is the only one exactly if it is the host. -/
def Membership.Fits : Membership → (BitVec 12 → Finset Port) → (Pointer → Entry) → Prop
  | .add vid _ _ _ _, _, table => ∀ idx, place (.vlan vid) table = some idx → idx < 128
  | .del vid port, members, table => ∀ idx, first (Key.vlan vid).test table = some idx →
      idx < 128 ∧ port ∈ members vid ∧ (members vid = {port} ↔ port = 0)

/-- Every call of a sequence fits. -/
def FitsMembers : List Membership → (BitVec 12 → Finset Port) → Engine → Prop
  | [], _, _ => True
  | call :: calls, members, ale => call.Fits members ale.table ∧
      FitsMembers calls (call.meaning members) (call.op.run ale).2

/-! ## Member lists -/

section Bits

variable {port : Port} {byte : Byte} {members : Finset Port} {entry : Entry}

theorem low_port (port : Port) :
    low (portMask &&& (1 : Word) <<< portNumber port) = BitVec.twoPow 8 port := by
  revert port
  decide

theorem low_not_port (port : Port) :
    low (~~~((1 : Word) <<< portNumber port)) = ~~~BitVec.twoPow 8 port := by
  revert port
  decide

/-- The mask that is tested is the bit of the port, whatever the members are. -/
theorem delete_mask (port : Port) (byte : Byte) :
    (byte.setWidth 32 ||| portMask) &&& (1 : Word) <<< portNumber port =
      (1 : Word) <<< portNumber port := by
  have inside : portMask &&& (1 : Word) <<< portNumber port = (1 : Word) <<< portNumber port := by
    revert port
    decide
  apply BitVec.eq_of_getLsbD_eq
  intro bit _
  have here := congrArg (BitVec.getLsbD · bit) inside
  simp only [BitVec.getLsbD_and] at here
  rw [BitVec.getLsbD_and, BitVec.getLsbD_or, Bool.and_or_distrib_right, here]
  cases ((1 : Word) <<< portNumber port).getLsbD bit with
  | true => exact Bool.or_true _
  | false => rw [Bool.and_false]; rfl

/-- What becomes of an entry from which a port is deleted. -/
def without (port : Port) (entry : Entry) : Entry :=
  if port = 0 then freeEntry entry
  else Function.update entry 0 (entry 0 &&& ~~~BitVec.twoPow 8 port)

/-- The host is deleted with the entry, and any other port leaves it. -/
theorem dropMember_eq : dropMember (portNumber port) entry = some (without port entry) := by
  have used : (1 : Word) <<< portNumber port ≠ 0 := by
    revert port
    decide
  have host : (1 : Word) <<< portNumber port = 1 ↔ port = 0 := by
    revert port
    decide
  have cleared : low ((entry 0).setWidth 32 &&& ~~~((1 : Word) <<< portNumber port)) =
      entry 0 &&& ~~~BitVec.twoPow 8 port := by
    have whole : low ((entry 0).setWidth 32) = entry 0 :=
      BitVec.setWidth_setWidth_of_le _ (by decide)
    calc low ((entry 0).setWidth 32 &&& ~~~((1 : Word) <<< portNumber port))
        = low ((entry 0).setWidth 32) &&& low (~~~((1 : Word) <<< portNumber port)) :=
          BitVec.setWidth_and
      _ = entry 0 &&& ~~~BitVec.twoPow 8 port := by rw [whole, low_not_port]
  unfold dropMember without
  dsimp only
  rw [delete_mask, if_neg used, cleared]
  by_cases isHost : port = 0
  · rw [if_pos (host.mpr isHost), if_pos isHost]
    rfl
  · rw [if_neg (mt host.mp isHost), if_neg isHost]

end Bits

/-! ## One call -/

section Step

variable {members : BitVec 12 → Finset Port} {ale : Engine} {vid : BitVec 12} {port : Port}
  {stored : Entry} {idx : Nat}

/-- A write for one VLAN that represents the changed set leaves the other VLANs. -/
theorem Represents.entered {changed : Finset Port} (represents : Represents members ale.table)
    (new : key stored = some (.vlan vid) ∨ key stored = none)
    (old : ∀ other, key (ale.table (pointer idx)) = some (.vlan other) → other = vid)
    (own : ∀ entry, key (ale.table entry) = some (.vlan vid) → entry = pointer idx)
    (absent : changed = ∅ → lookup (.vlan vid) (ale.entered idx stored).table = none)
    (present : changed ≠ ∅ → ∃ entry, lookup (.vlan vid) (ale.entered idx stored).table =
      some entry ∧ Lists changed (entry 0)) :
    Represents (Function.update members vid changed) (ale.entered idx stored).table := by
  have others : ∀ other, other ≠ vid → lookup (.vlan other) (ale.entered idx stored).table =
      lookup (.vlan other) ale.table := by
    intro other apart
    refine lookup_entered_other ?_ fun found => apart (old other found)
    rcases new with same | free
    · rw [same]
      exact fun eq => apart (Key.vlan.inj (Option.some.inj eq)).symm
    · rw [free]
      exact fun eq => by cases eq
  refine ⟨?_, ?_, ?_⟩
  · intro other entry entry' found found'
    have place : ∀ entry, key ((ale.entered idx stored).table entry) = some (.vlan other) →
        entry = pointer idx ∧ other = vid ∨
          entry ≠ pointer idx ∧ key (ale.table entry) = some (.vlan other) := by
      intro entry found
      by_cases here : entry = pointer idx
      · refine .inl ⟨here, ?_⟩
        rw [here, entered_self, key_latch] at found
        rcases new with same | free
        · exact (Key.vlan.inj (Option.some.inj (same.symm.trans found))).symm
        · cases free.symm.trans found
      · rw [entered_other here] at found
        exact .inr ⟨here, found⟩
    rcases place entry found with ⟨here, rfl⟩ | ⟨apart, kept⟩
    · rcases place entry' found' with ⟨here', _⟩ | ⟨apart', kept'⟩
      · exact here.trans here'.symm
      · exact absurd (own entry' kept') apart'
    · rcases place entry' found' with ⟨here', rfl⟩ | ⟨apart', kept'⟩
      · exact absurd (own entry kept) apart
      · exact represents.sole other entry entry' kept kept'
  · intro other empty
    by_cases here : other = vid
    · subst here
      rw [Function.update_self] at empty
      exact absent empty
    · rw [Function.update_of_ne here] at empty
      rw [others other here]
      exact represents.absent other empty
  · intro other used
    by_cases here : other = vid
    · subst here
      rw [Function.update_self] at used ⊢
      exact present used
    · rw [Function.update_of_ne here] at used ⊢
      rw [others other here]
      exact represents.present other used

/-- The member list that is there. -/
theorem Represents.list (represents : Represents members ale.table) :
    Lists (members vid) ((lookup (.vlan vid) ale.table).getD noEntry 0) := by
  by_cases empty : members vid = ∅
  · rw [represents.absent vid empty, empty]
    exact Lists.empty
  · rcases represents.present vid empty with ⟨entry, found, lists⟩
    rwa [found]

theorem run_vlanAdd {untag regMcast unregMcast : Word} :
    (Membership.add vid port untag regMcast unregMcast).op.run = add (Key.vlan vid).find true
      (vlanPorts (vid.setWidth 32) (portNumber port) untag regMcast unregMcast) :=
  rfl

theorem run_vlanDel : (Membership.del vid port).op.run =
    del (Key.vlan vid).find true (dropMember (portNumber port)) :=
  rfl

/-- A VLAN entry with one more port. -/
theorem vlanPorts_list {changed : Finset Port} {entry : Entry} {untag regMcast unregMcast : Word}
    (lists : Lists changed (entry 0)) : Lists (insert port changed) (latch
      (vlanPorts (vid.setWidth 32) (portNumber port) untag regMcast unregMcast entry) 0) := by
  have byte : latch (vlanPorts (vid.setWidth 32) (portNumber port) untag regMcast unregMcast
      entry) 0 = entry 0 ||| low (portMask &&& (1 : Word) <<< portNumber port) := rfl
  rw [byte, low_port]
  exact lists.insert (Nat.lt_trans port.isLt (by decide))

/-- A port is added in the entry of its VLAN or in a free one. -/
theorem represents_add {untag regMcast unregMcast : Word}
    (represents : Represents members ale.table)
    (roomy : (Membership.add vid port untag regMcast unregMcast).Roomy ale.table)
    (fits : (Membership.add vid port untag regMcast unregMcast).Fits members ale.table) :
    Represents ((Membership.add vid port untag regMcast unregMcast).meaning members)
      ((Membership.add vid port untag regMcast unregMcast).op.run ale).2.table := by
  rcases Option.ne_none_iff_exists'.mp roomy with ⟨idx, there⟩
  have placed : place (.vlan vid) ale.table = some idx := by
    unfold place
    rw [← Option.or_assoc, there]
    rfl
  have filled : key (vlanPorts (vid.setWidth 32) (portNumber port) untag regMcast unregMcast
      ((lookup (.vlan vid) ale.table).getD noEntry)) = some (.vlan vid) := key_vlanPorts
  rw [run_vlanAdd, add_place placed (fits idx placed)]
  refine represents.entered (.inl filled) ?_ ?_ ?_ ?_
  · intro other found
    rcases Option.or_eq_some_iff.mp there with own | ⟨_, free⟩
    · have has := Key.test_iff.mp (first_eq_some_iff.mp own).2.1
      exact Key.vlan.inj (Option.some.inj (found.symm.trans has))
    · have isNone := isFree_iff.mp (first_eq_some_iff.mp free).2.1
      cases isNone.symm.trans found
  · intro entry found
    rcases Option.or_eq_some_iff.mp there with own | ⟨absent, _⟩
    · exact represents.sole vid _ _ found (Key.test_iff.mp (first_eq_some_iff.mp own).2.1)
    · exact absurd found (first_test_none.mp absent entry)
  · exact fun empty => absurd empty (Finset.insert_ne_empty _ _)
  · intro _
    exact ⟨_, lookup_entered (place_inside placed) filled fun _ before =>
      place_earlier placed before, vlanPorts_list represents.list⟩

theorem run_del (found : first (Key.vlan vid).test ale.table = some idx) (small : idx < 128) :
    (Membership.del vid port).op.run ale =
      (.ofIndex (some idx), ale.entered idx (without port (ale.table (pointer idx)))) := by
  have deletes : ∃ tblw, del (Key.vlan vid).find true (dropMember (portNumber port)) ale = _ :=
    del_present found small
  rcases deletes with ⟨tblw, deletes⟩
  rw [run_vlanDel, deletes, if_pos rfl, dropMember_eq]

/-- Without an entry there is nothing to delete. -/
theorem follows_absent (represents : Represents members ale.table)
    (found : first (Key.vlan vid).test ale.table = none) :
    (Membership.del vid port).Follows members ale := by
  have absent : lookup (.vlan vid) ale.table = none :=
    lookup_eq_none_iff.mpr (first_test_none.mp found)
  have empty : members vid = ∅ := by
    by_contra used
    rcases represents.present vid used with ⟨entry, here, _⟩
    cases absent.symm.trans here
  have same : (Membership.del vid port).meaning members = members := by
    change Function.update members vid ((members vid).erase port) = members
    rw [empty, Finset.erase_empty, ← empty, Function.update_eq_self]
  have deletes : ∃ tblw, (Membership.del vid port).op.run ale = (errVal, { ale with tblw }) := by
    rw [run_vlanDel]
    exact del_absent found
  rcases deletes with ⟨tblw, deletes⟩
  refine ⟨?_, fun _ _ _ _ => ?_⟩
  · rw [same, deletes]
    exact represents
  · rw [deletes]
    exact ⟨rfl, rfl⟩

section Present

variable (represents : Represents members ale.table)
  (found : first (Key.vlan vid).test ale.table = some idx)
include represents found

/-- The entry is freed with the host, its only member. -/
theorem represents_freed (only : members vid = {port}) :
    Represents (Function.update members vid ((members vid).erase port))
      (ale.entered idx (freeEntry (ale.table (pointer idx)))).table := by
  have has := Key.test_iff.mp (first_eq_some_iff.mp found).2.1
  have own : ∀ entry, key (ale.table entry) = some (.vlan vid) → entry = pointer idx :=
    fun entry same => represents.sole vid _ _ same has
  refine represents.entered (.inr key_freeEntry) (fun other same => ?_) own (fun _ => ?_)
    fun used => ?_
  · exact Key.vlan.inj (Option.some.inj (same.symm.trans has))
  · rw [lookup_eq_none_iff]
    intro entry
    by_cases here : entry = pointer idx
    · rw [here, entered_self, key_latch, key_freeEntry]
      exact fun eq => by cases eq
    · rw [entered_other here]
      exact fun same => here (own entry same)
  · rw [only, Finset.erase_singleton] at used
    exact absurd rfl used

/-- A port that is not the only member is taken out of the list. -/
theorem represents_cleared (member : port ∈ members vid) (more : members vid ≠ {port}) :
    Represents (Function.update members vid ((members vid).erase port)) (ale.entered idx
      (Function.update (ale.table (pointer idx)) 0
        (ale.table (pointer idx) 0 &&& ~~~BitVec.twoPow 8 port))).table := by
  rcases first_eq_some_iff.mp found with ⟨inside, passes, fails⟩
  have has := Key.test_iff.mp passes
  have kept : key (Function.update (ale.table (pointer idx)) 0
      (ale.table (pointer idx) 0 &&& ~~~BitVec.twoPow 8 port)) = some (.vlan vid) :=
    key_vlan_congr has (Function.update_of_ne (by decide) ..) (Function.update_of_ne (by decide) ..)
  have lists : Lists (members vid) (ale.table (pointer idx) 0) := by
    have there : Lists (members vid) ((lookup (.vlan vid) ale.table).getD noEntry 0) :=
      represents.list
    rwa [lookup_first found] at there
  refine represents.entered (.inl kept) (fun other same => ?_) (fun entry same => ?_)
    (fun empty => ?_) fun _ => ?_
  · exact Key.vlan.inj (Option.some.inj (same.symm.trans has))
  · exact represents.sole vid _ _ same has
  · rcases (Finset.erase_eq_empty_iff _ _).mp empty with none | only
    · rw [none] at member
      exact absurd member (Finset.notMem_empty port)
    · exact absurd only more
  · refine ⟨_, lookup_entered inside kept fun earlier before => ?_, lists.erase⟩
    have fail := fails earlier before
    rwa [← Bool.not_eq_true, Key.test_iff] at fail

end Present

/-- A port is deleted from its VLAN, with the entry if it is the last one. -/
theorem follows_del (represents : Represents members ale.table)
    (fits : (Membership.del vid port).Fits members ale.table) :
    (Membership.del vid port).Follows members ale := by
  cases found : first (Key.vlan vid).test ale.table with
  | none => exact follows_absent represents found
  | some idx =>
      rcases fits idx found with ⟨small, member, last⟩
      refine ⟨?_, ?_⟩
      · rw [run_del found small]
        unfold without
        by_cases host : port = 0
        · rw [if_pos host]
          exact represents_freed represents found (last.mpr host)
        · rw [if_neg host]
          exact represents_cleared represents found member fun only => host (last.mp only)
      · intro _ _ same outside
        cases same
        exact absurd member outside

end Step

/-! ## Runs -/

/-- In every run of calls that fit, the table represents the sets of ports after each of them. -/
theorem run_follows (calls : List Membership) (members : BitVec 12 → Finset Port) (ale : Engine)
    (represents : Represents members ale.table) (roomy : RoomyAll calls ale)
    (fits : FitsMembers calls members ale) : FollowsAll calls members ale := by
  induction calls generalizing members ale with
  | nil => trivial
  | cons call calls inductionHypothesis =>
      rcases roomy with ⟨now, later⟩
      rcases fits with ⟨fit, fits⟩
      have follows : call.Follows members ale := by
        cases call with
        | add vid port untag regMcast unregMcast =>
            exact ⟨represents_add represents now fit, fun _ _ same => by cases same⟩
        | del vid port => exact follows_del represents fit
      exact ⟨follows, inductionHypothesis _ _ follows.represents later fits⟩

/-- No members. -/
def noMembers : BitVec 12 → Finset Port := fun _ => ∅

/-- A table without an entry of a VLAN represents no members. -/
theorem represents_noMembers {table : Pointer → Entry}
    (absent : ∀ vid, lookup (.vlan vid) table = none) : Represents noMembers table where
  sole vid entry _ found := absurd found (lookup_eq_none_iff.mp (absent vid) entry)
  absent vid _ := absent vid
  present _ used := absurd rfl used

/-! ## One port -/

/-- A port is added to a VLAN. -/
def addPort (port : Port) : Membership := .add 1 port 0 0 0

/-- The entry with a port. -/
def portEntry (port : Port) : Entry :=
  vlanPorts ((1 : BitVec 12).setWidth 32) (portNumber port) 0 0 0 noEntry

theorem key_portEntry (port : Port) : key (portEntry port) = some (.vlan 1) := key_vlanPorts

theorem run_addPort (port : Port) :
    (addPort port).op.run vacant = (.ofIndex (some 0), vacant.entered 0 (portEntry port)) := by
  unfold addPort
  rw [run_vlanAdd, add_place (place_vacant _) (by decide), lookup_vacant]
  rfl

theorem first_addPort (port : Port) :
    first (Key.vlan 1).test ((addPort port).op.run vacant).2.table = some 0 := by
  rw [run_addPort]
  exact first_entered (by decide) (key_portEntry port) fun _ before => by cases before

theorem roomy_addPort (port : Port) : (addPort port).Roomy vacant.table := by
  have free : first isFree vacant.table = some 0 :=
    first_eq_some_iff.mpr ⟨by decide, isFree_iff.mpr key_noEntry, fun _ before => by cases before⟩
  have absent : first (Key.vlan 1).test vacant.table = none :=
    first_test_none.mpr fun _ found => by cases key_noEntry.symm.trans found
  change (first (Key.vlan 1).test vacant.table).or (first isFree vacant.table) ≠ none
  rw [absent, free]
  exact fun none => by cases none

/-- The host is added and deleted again. -/
theorem run_follows_host : FollowsAll [addPort 0, .del 1 0] noMembers vacant := by
  refine run_follows _ _ _ (represents_noMembers fun vid => lookup_vacant _)
    ⟨roomy_addPort 0, trivial, trivial⟩ ⟨?_, ?_, trivial⟩
  · change ∀ idx, place (.vlan 1) vacant.table = some idx → idx < 128
    rw [place_vacant]
    intro idx same
    cases same
    decide
  · change ∀ idx, first (Key.vlan 1).test ((addPort 0).op.run vacant).2.table = some idx → _
    rw [first_addPort]
    intro idx same
    cases same
    decide

/-- A slave port that is deleted leaves an entry without members. -/
theorem not_follows : ¬ ∀ (calls : List Membership) (members : BitVec 12 → Finset Port)
    (ale : Engine), Represents members ale.table → RoomyAll calls ale →
      FollowsAll calls members ale := by
  intro follows
  have represents := (follows [addPort 1, .del 1 1] noMembers vacant
    (represents_noMembers fun vid => lookup_vacant _) ⟨roomy_addPort 1, trivial, trivial⟩
    ).2.1.represents
  have kept : key (without 1 (latch (portEntry 1))) = some (.vlan 1) :=
    Key.test_iff.mp (by decide)
  have there : lookup (.vlan 1)
      ((Membership.del 1 1).op.run ((addPort 1).op.run vacant).2).2.table =
        some (latch (without 1 (latch (portEntry 1)))) := by
    rw [run_del (first_addPort 1) (by decide), run_addPort, entered_self]
    exact lookup_entered (by decide) kept fun _ before => by cases before
  cases there.symm.trans (represents.absent 1 (by decide))

end BbbEth.Ale
