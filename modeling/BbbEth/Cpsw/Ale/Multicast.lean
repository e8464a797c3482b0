import BbbEth.Cpsw.Ale.Lookup

/-!
# Multicast membership

Calls for one address and one VLAN id, each with a mask of ports.  The mask that an entry has is
merged with the new one where the bits of the entry are, and both are shifted then; and the
supervisory bit of an entry is only set.
-/

namespace BbbEth.Ale

open Engine

/-! ## Calls -/

/-- The port mask of a multicast entry. -/
def entryPortMask (entry : Entry) : BitVec 3 := (entry 8).extractLsb' 2 3

/-- The supervisory bit of a multicast entry. -/
def entrySuper (entry : Entry) : Bool := (entry 8).getLsbD 1

/-- The forward state of a multicast entry. -/
def entryForward (entry : Entry) : BitVec 2 := (entry 7).extractLsb' 6 2

/-- A call that adds ports to the entry of an address and a VLAN id. -/
inductive Join : BitVec 12 → Type where
  | multicastentryAdd (portmask : BitVec 3) (super mcastSt : Word) : Join 0
  | vlanAddMcast {vid : BitVec 12} (portmask : BitVec 3) (super mcastSt : Word) : Join vid

namespace Join

variable {vid : BitVec 12}

def portmask : Join vid → BitVec 3
  | .multicastentryAdd portmask _ _ | .vlanAddMcast portmask _ _ => portmask

def super : Join vid → Word
  | .multicastentryAdd _ super _ | .vlanAddMcast _ super _ => super

def mcastSt : Join vid → Word
  | .multicastentryAdd _ _ mcastSt | .vlanAddMcast _ _ mcastSt => mcastSt

/-- The operation that is called. -/
def op (ethAddr : EthAddr) : Join vid → Op
  | .multicastentryAdd portmask super mcastSt =>
      .multicastentryAdd (portmask.setWidth 32) ethAddr super mcastSt
  | .vlanAddMcast portmask super mcastSt =>
      .vlanAddMcast vid (portmask.setWidth 32) ethAddr super mcastSt

/-- What the call makes of an entry. -/
def fill (ethAddr : EthAddr) : Join vid → Entry → Entry
  | .multicastentryAdd portmask super mcastSt =>
      mcastEntry (portmask.setWidth 32) ethAddr super mcastSt
  | .vlanAddMcast portmask super mcastSt =>
      vlanMcast (vid.setWidth 32) (portmask.setWidth 32) ethAddr super mcastSt

end Join

section Calls

variable {vid : BitVec 12} (ethAddr : EthAddr)

/-- The engine after a sequence of calls. -/
def runJoins (joins : List (Join vid)) (ale : Engine) : Engine :=
  joins.foldl (fun ale join => ((join.op ethAddr).run ale).2) ale

/-- The port mask in the table. -/
def maskOf (vid : BitVec 12) (table : Pointer → Entry) : BitVec 3 :=
  entryPortMask ((lookup (.address ethAddr vid) table).getD noEntry)

/-- The union of a mask and those of a sequence of calls. -/
def union (mask : BitVec 3) (joins : List (Join vid)) : BitVec 3 :=
  joins.foldl (fun mask join => mask ||| join.portmask) mask

/-- An entry with the key, the union of the masks, and the other fields of a call. -/
structure Joined (mask : BitVec 3) (join : Join vid) (entry : Entry) : Prop where
  portMask : entryPortMask entry = mask
  super : entrySuper entry = join.super.getLsbD 0
  forward : entryForward entry = join.mcastSt.setWidth 2
  mac : entryMac entry = ethAddr
  vid : entryVid entry = vid

/-- After a sequence of calls the entry is as it should be, if there was a place for one. -/
def Collects (joins : List (Join vid)) (last : Join vid) (ale : Engine) : Prop :=
  (∃ entry, lookup (.address ethAddr vid) (runJoins ethAddr (joins ++ [last]) ale).table =
      some entry ∧
    Joined ethAddr (union (maskOf ethAddr vid ale.table) (joins ++ [last])) last entry) ∨
  place (.address ethAddr vid) ale.table = none ∧
    (runJoins ethAddr (joins ++ [last]) ale).table = ale.table

/-- The entry for a call has a small index; the mask that is there and the shifted one add the
same bits to the new mask; and the supervisory bit is not to be cleared. -/
structure Join.Fits (join : Join vid) (table : Pointer → Entry) : Prop where
  small : ∀ idx, place (.address ethAddr vid) table = some idx → idx < 128
  kept : join.portmask ||| maskOf ethAddr vid table =
    join.portmask ||| maskOf ethAddr vid table <<< 2
  super : ∀ entry, lookup (.address ethAddr vid) table = some entry → entrySuper entry = true →
    join.super.getLsbD 0 = true

/-- Every call of a sequence fits. -/
def FitsJoins : List (Join vid) → Engine → Prop
  | [], _ => True
  | join :: joins, ale =>
      join.Fits ethAddr ale.table ∧ FitsJoins joins ((join.op ethAddr).run ale).2

end Calls

/-! ## One call -/

section Fields

variable {vid : BitVec 12} {ethAddr : EthAddr} {join : Join vid} {entry : Entry}

/-- The mask that is there is shifted before it is merged. -/
theorem mcastPorts_mask (portmask : BitVec 3) (super : Word) (byte : Byte) :
    (mcastPorts (portmask.setWidth 32) super byte).extractLsb' 2 3 =
      portmask ||| byte.extractLsb' 2 3 <<< 2 := by
  apply BitVec.eq_of_getLsbD_eq
  intro index inside
  unfold mcastPorts low portMask
  interval_cases index <;> simp

theorem mcastPorts_super (portmask : BitVec 3) (super : Word) (byte : Byte) :
    (mcastPorts (portmask.setWidth 32) super byte).getLsbD 1 =
      (byte.getLsbD 1 || super.getLsbD 0) := by
  unfold mcastPorts low portMask
  simp

theorem fill_mask : (join.fill ethAddr entry) 8 =
    mcastPorts (join.portmask.setWidth 32) join.super (entry 8) := by
  cases join with
  | multicastentryAdd portmask super mcastSt => rfl
  | vlanAddMcast portmask super mcastSt => rfl

theorem forward_or (byte : Byte) (value : Word) (lower : byte.extractLsb' 6 2 = 0) :
    (byte ||| low (value <<< 6)).extractLsb' 6 2 = value.setWidth 2 := by
  have shifted : (low (value <<< 6)).extractLsb' 6 2 = value.setWidth 2 := by
    apply BitVec.eq_of_getLsbD_eq
    intro index inside
    unfold low
    interval_cases index <;> simp
  rw [BitVec.extractLsb'_or, lower, shifted]
  exact BitVec.zero_or

theorem fill_forward : entryForward (join.fill ethAddr entry) = join.mcastSt.setWidth 2 := by
  unfold entryForward
  cases join with
  | multicastentryAdd portmask super mcastSt =>
      have byte : (Join.multicastentryAdd portmask super mcastSt).fill ethAddr entry 7 =
          (0x10 : Byte) ||| low (mcastSt <<< 6) := low_or ..
      rw [byte, forward_or _ _ (by decide)]
      rfl
  | vlanAddMcast portmask super mcastSt =>
      have bits : low ((0x30 : Word) ||| mcastSt <<< 6) = (0x30 : Byte) ||| low (mcastSt <<< 6) :=
        low_or ..
      have byte : (Join.vlanAddMcast portmask super mcastSt : Join vid).fill ethAddr entry 7 =
          vlanType (vid.setWidth 32) 0 ||| low ((0x30 : Word) ||| mcastSt <<< 6) := rfl
      rw [byte, bits, ← BitVec.or_assoc, forward_or]
      · rfl
      · apply BitVec.eq_of_getLsbD_eq
        intro index inside
        unfold vlanType low
        interval_cases index <;> simp

theorem key_fill (ready : Ready (.address ethAddr vid) entry) :
    key (join.fill ethAddr entry) = some (.address ethAddr vid) := by
  cases join with
  | multicastentryAdd portmask super mcastSt => exact key_mcastEntry ready
  | vlanAddMcast portmask super mcastSt => exact key_vlanMcast

/-- A key of an address is in the fields. -/
theorem key_fields (found : key entry = some (.address ethAddr vid)) :
    entryMac entry = ethAddr ∧ entryVid entry = vid := by
  have test := Key.test_iff.mpr found
  unfold Key.test isAddr at test
  rw [decide_eq_true_iff, vlanId_eq_iff, entryMac_eq_iff] at test
  exact ⟨test.2.2, test.2.1⟩

theorem latch_apply {index : Nat} (inside : index < 9) : latch entry index = entry index :=
  if_pos inside

theorem entryPortMask_fill : entryPortMask (latch (join.fill ethAddr entry)) =
    join.portmask ||| entryPortMask entry <<< 2 := by
  unfold entryPortMask
  rw [latch_apply (by decide), fill_mask, mcastPorts_mask]

/-- The supervisory bit stays when it is set. -/
theorem entrySuper_fill : entrySuper (latch (join.fill ethAddr entry)) =
    (entrySuper entry || join.super.getLsbD 0) := by
  unfold entrySuper
  rw [latch_apply (by decide), fill_mask, mcastPorts_super]

theorem entryForward_fill : entryForward (latch (join.fill ethAddr entry)) =
    join.mcastSt.setWidth 2 := by
  have forward : entryForward (join.fill ethAddr entry) = join.mcastSt.setWidth 2 := fill_forward
  unfold entryForward at forward ⊢
  rwa [latch_apply (by decide)]

/-- The entry that a call writes, with what it makes of the mask. -/
theorem joined_fill (ready : Ready (.address ethAddr vid) entry)
    (super : entrySuper entry = true → join.super.getLsbD 0 = true) :
    Joined ethAddr (join.portmask ||| entryPortMask entry <<< 2) join
      (latch (join.fill ethAddr entry)) := by
  have fields : key (latch (join.fill ethAddr entry)) = some (.address ethAddr vid) :=
    key_latch.trans (key_fill ready)
  refine ⟨entryPortMask_fill, ?_, entryForward_fill, (key_fields fields).1, (key_fields fields).2⟩
  rw [entrySuper_fill]
  cases set : entrySuper entry with
  | false => exact Bool.false_or _
  | true => rw [super set, Bool.true_or]

end Fields

section Calls

variable {vid : BitVec 12} {ethAddr : EthAddr} {join last : Join vid} {joins : List (Join vid)}
  {ale : Engine} {idx : Nat}

theorem run_join : (join.op ethAddr).run =
    add (Key.address ethAddr vid).find true (join.fill ethAddr) := by
  cases join <;> rfl

/-- The entry after one call. -/
theorem lookup_join (placed : place (.address ethAddr vid) ale.table = some idx)
    (small : idx < 128) :
    lookup (.address ethAddr vid) ((join.op ethAddr).run ale).2.table =
      some (latch (join.fill ethAddr
        ((lookup (.address ethAddr vid) ale.table).getD noEntry))) := by
  rw [run_join]
  exact lookup_add (fun _ ready => key_fill ready) placed small

theorem place_join (placed : place (.address ethAddr vid) ale.table = some idx)
    (small : idx < 128) :
    place (.address ethAddr vid) ((join.op ethAddr).run ale).2.table = some idx := by
  rw [run_join]
  exact place_add (fun _ ready => key_fill ready) placed small

theorem runJoins_pair : runJoins ethAddr ([join] ++ [last]) ale =
    ((last.op ethAddr).run ((join.op ethAddr).run ale).2).2 :=
  rfl

/-- A call without a place leaves the table. -/
theorem table_join (nowhere : place (.address ethAddr vid) ale.table = none) :
    ((join.op ethAddr).run ale).2.table = ale.table := by
  have adds : ∃ tblw, (join.op ethAddr).run ale = (errVal, { ale with tblw }) := by
    rw [run_join]
    exact add_nowhere nowhere
  rcases adds with ⟨tblw, adds⟩
  rw [adds]

/-- And so do the calls behind it. -/
theorem table_runJoins (nowhere : place (.address ethAddr vid) ale.table = none) :
    (runJoins ethAddr joins ale).table = ale.table := by
  induction joins generalizing ale with
  | nil => rfl
  | cons join joins inductionHypothesis =>
      have same : ((join.op ethAddr).run ale).2.table = ale.table := table_join nowhere
      have rest : (runJoins ethAddr joins ((join.op ethAddr).run ale).2).table =
          ((join.op ethAddr).run ale).2.table := inductionHypothesis (same.symm ▸ nowhere)
      exact rest.trans same

/-- The entry after a call that fits. -/
theorem Join.Fits.joined (fits : join.Fits ethAddr ale.table)
    (placed : place (.address ethAddr vid) ale.table = some idx) :
    ∃ entry, lookup (.address ethAddr vid) ((join.op ethAddr).run ale).2.table = some entry ∧
      Joined ethAddr (maskOf ethAddr vid ale.table ||| join.portmask) join entry := by
  have super : entrySuper ((lookup (.address ethAddr vid) ale.table).getD noEntry) = true →
      join.super.getLsbD 0 = true := by
    cases found : lookup (.address ethAddr vid) ale.table with
    | none => exact fun set => absurd set (by decide)
    | some entry => exact fits.super entry found
  refine ⟨_, lookup_join placed (fits.small idx placed), ?_⟩
  rw [BitVec.or_comm, fits.kept]
  exact joined_fill ready_lookup super

/-! ## Runs -/

/-- After every run of calls that fit, the entry has the union of the masks and the other fields
of the last call. -/
theorem runJoins_collects (joins : List (Join vid)) (last : Join vid) (ale : Engine)
    (fits : FitsJoins ethAddr (joins ++ [last]) ale) : Collects ethAddr joins last ale := by
  unfold Collects
  cases placed : place (.address ethAddr vid) ale.table with
  | none => exact .inr ⟨rfl, table_runJoins placed⟩
  | some idx =>
      refine .inl ?_
      induction joins generalizing ale idx with
      | nil => exact fits.1.joined placed
      | cons join joins inductionHypothesis =>
          rcases fits with ⟨now, later⟩
          rcases now.joined placed with ⟨entry, found, joined⟩
          have mask : maskOf ethAddr vid ((join.op ethAddr).run ale).2.table =
              maskOf ethAddr vid ale.table ||| join.portmask := by
            unfold maskOf
            rw [found]
            exact joined.portMask
          have again : place _ ((join.op ethAddr).run ale).2.table = some idx :=
            place_join placed (now.small idx placed)
          have rest := inductionHypothesis ((join.op ethAddr).run ale).2 later idx again
          rw [mask] at rest
          exact rest

end Calls

/-! ## Two calls -/

/-- A multicast address. -/
def groupAddr : EthAddr := fun _ => 1

/-- A call for a VLAN. -/
def joinPorts (portmask : BitVec 3) : Join 1 := .vlanAddMcast portmask 0 3

/-- What a first call enters. -/
theorem lookup_joinPorts (portmask : BitVec 3) :
    lookup (.address groupAddr 1) (((joinPorts portmask).op groupAddr).run vacant).2.table =
      some (latch ((joinPorts portmask).fill groupAddr noEntry)) := by
  rw [lookup_join (place_vacant _) (by decide), lookup_vacant]
  rfl

theorem place_joinPorts (portmask : BitVec 3) :
    place (.address groupAddr 1) (((joinPorts portmask).op groupAddr).run vacant).2.table =
      some 0 :=
  place_join (place_vacant _) (by decide)

/-- A second call that has the ports of the first one and those that the shift gives. -/
theorem runJoins_collects_vacant : Collects groupAddr [joinPorts 1] (joinPorts 5) vacant := by
  refine runJoins_collects _ _ _ ⟨⟨?_, ?_, ?_⟩, ⟨?_, ?_, ?_⟩, trivial⟩
  · rw [place_vacant]
    intro idx same
    cases same
    decide
  · unfold maskOf
    rw [lookup_vacant]
    decide
  · rw [lookup_vacant]
    intro entry found
    cases found
  · rw [place_joinPorts]
    intro idx same
    cases same
    decide
  · unfold maskOf
    rw [lookup_joinPorts]
    decide
  · rw [lookup_joinPorts]
    intro entry same
    cases same
    decide

/-- Of a first port in the mask the second call makes the third one. -/
theorem not_collects : ¬ ∀ (vid : BitVec 12) (ethAddr : EthAddr) (joins : List (Join vid))
    (last : Join vid) (ale : Engine), Collects ethAddr joins last ale := by
  intro collects
  have entered : lookup (.address groupAddr 1)
      (((joinPorts 2).op groupAddr).run (((joinPorts 1).op groupAddr).run vacant).2).2.table =
        some (latch
          ((joinPorts 2).fill groupAddr (latch ((joinPorts 1).fill groupAddr noEntry)))) := by
    rw [lookup_join (place_joinPorts 1) (by decide), lookup_joinPorts]
    rfl
  rcases collects 1 groupAddr [joinPorts 1] (joinPorts 2) vacant with ⟨entry, found, joined⟩ | none
  · rw [runJoins_pair] at found
    cases entered.symm.trans found
    have mask := joined.portMask
    unfold maskOf at mask
    rw [lookup_vacant] at mask
    exact absurd mask (by decide)
  · cases (place_vacant _).symm.trans none.1

end BbbEth.Ale
