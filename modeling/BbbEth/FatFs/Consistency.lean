import BbbEth.FatFs.Free
import Mathlib.Logic.Relation

/-!
# The volume over whole runs

A session is the volume with the chains that its files and directories have.  Its steps are the
calls into the FAT and what is done to the sectors behind it, in any order.
-/

namespace BbbEth.FatFs

open BbbEth.Console BbbEth.Stateful BbbEth.Linked

/-- The volume, and the chain of every file and directory. -/
structure Session (ι : Type) where
  fs : Fatfs
  chain : ι → List Nat

namespace Session

variable {ι : Type}

/-- The chains after `create_chain` has given a value. -/
def grown [DecidableEq ι] (session : Session ι) (owner : ι) (clust value : Nat) : ι → List Nat :=
  if 2 ≤ value ∧ clust = lastOf (session.chain owner) then
    Function.update session.chain owner (session.chain owner ++ [value])
  else session.chain

/-- A step of the file system.  A call of `create_chain` extends a chain at its end, follows it
before, or starts one where there is none. -/
inductive Step [DecidableEq ι] : Session ι → Session ι → Prop where
  | follow {session : Session ι} {clust value : Nat} {after : Fatfs}
      (ran : getCluster clust session.fs = some (value, after)) :
      Step session { session with fs := after }
  | create {session : Session ι} {owner : ι} {clust value : Nat} {after : Fatfs}
      (own : clust ∈ session.chain owner ∨ clust = 0 ∧ session.chain owner = [])
      (ran : createChain clust session.fs = some (value, after)) :
      Step session ⟨after, session.grown owner clust value⟩
  | remove {session : Session ι} {owner : ι} {done : Bool} {after : Fatfs}
      (ran : removeChain ((session.chain owner).headD 0) session.fs = some (done, after)) :
      Step session ⟨after, Function.update session.chain owner []⟩
  | count {session : Session ι} {found : Option Nat} {after : Fatfs}
      (ran : fGetfree session.fs = some (found, after)) :
      Step session { session with fs := after }
  | sync {session : Session ι} {done : Bool} {after : Fatfs}
      (loaded : session.fs.winsect ≠ 0) (ran : sync session.fs = some (done, after)) :
      Step session { session with fs := after }
  | move {session : Session ι} {sector : Nat} {moved : Bool} {after : Fatfs}
      (behind : session.fs.copiesEnd ≤ sector)
      (ran : moveWindow sector session.fs = some (moved, after)) :
      Step session { session with fs := after }
  | store {session : Session ι} {update : Sector → Sector} {after : Fatfs}
      (behind : session.fs.copiesEnd ≤ session.fs.winsect)
      (ran : storeWin update session.fs = some ((), after)) :
      Step session { session with fs := after }
  | transfer {session : Session ι} {sector count : Nat} {buff : Nat → Sector} {done : Bool}
      {after : Fatfs} (behind : session.fs.copiesEnd ≤ sector)
      (apart : ¬ (sector ≤ session.fs.winsect ∧ session.fs.winsect < sector + count))
      (ran : diskWrite sector count buff session.fs = some (done, after)) :
      Step session { session with fs := after }

/-- What holds of a volume that is not damaged, but for the copies of its FAT. -/
structure Intact (session : Session ι) (lost : Nat → Prop) : Prop where
  sound : session.fs.Sound
  allocated : session.fs.Allocated session.chain lost
  counted : session.fs.Counted
  tidy : session.fs.Tidy

/-- What holds of a volume that is not damaged. -/
structure Consistent (session : Session ι) (lost : Nat → Prop) : Prop
    extends Intact session lost where
  mirrored : session.fs.Mirrored

variable {session : Session ι} {lost : Nat → Prop} {after : Fatfs}

/-- A volume whose entries did not change is as it was. -/
theorem Intact.congr (intact : Intact session lost) (sound : after.Sound)
    (geometry : after.toGeometry = session.fs.toGeometry)
    (raw : ∀ clust < session.fs.maxClust, after.raw clust = session.fs.raw clust)
    (counted : after.freeClust = session.fs.freeClust ∨
      after.freeClust = session.fs.free.card) :
    Intact { session with fs := after } lost := by
  have entries : ∀ clust, session.fs.Cluster clust →
      after.entry clust = session.fs.entry clust := by
    intro clust cluster
    unfold Fatfs.entry
    rw [raw clust cluster.2, geometry]
  have free := Fatfs.free_congr geometry entries
  refine ⟨sound, intact.allocated.congr geometry entries, fun known => ?_, ⟨?_, ?_⟩⟩
  · change after.freeClust ≠ notCounted at known
    change after.freeClust = after.free.card
    rw [free]
    rcases counted with same | right
    · rw [same] at known ⊢
      exact intact.counted known
    · exact right
  · intro clust low
    have := intact.sound.geometry.clusters
    change after.raw clust ≠ 0
    rw [raw clust (by omega)]
    exact intact.tidy.reserved clust low
  · intro clust cluster zero
    change after.Cluster clust at cluster
    change after.entry clust = 0 at zero
    rw [geometry] at cluster
    rw [entries clust cluster] at zero
    exact (raw clust cluster.2).trans (intact.tidy.clear clust cluster zero)

theorem Consistent.congr (consistent : Consistent session lost) (sound : after.Sound)
    (geometry : after.toGeometry = session.fs.toGeometry)
    (raw : ∀ clust < session.fs.maxClust, after.raw clust = session.fs.raw clust)
    (counted : after.freeClust = session.fs.freeClust ∨
      after.freeClust = session.fs.free.card) (mirrored : after.Mirrored) :
    Consistent { session with fs := after } lost where
  toIntact := consistent.toIntact.congr sound geometry raw counted
  mirrored := mirrored

theorem Intact.same (intact : Intact session lost) (same : session.fs.Same after)
    (sound : after.Sound) : Intact { session with fs := after } lost :=
  intact.congr sound same.geometry
    (fun _ below => same.raw intact.sound.geometry below) (.inl same.freeClust)

theorem Consistent.unchanged (consistent : Consistent session lost)
    (tabled : session.fs.Tabled session.fs.raw after)
    (counted : after.freeClust = session.fs.freeClust ∨
      after.freeClust = session.fs.free.card) :
    Consistent { session with fs := after } lost ∨ session.fs.card.Failed after.card :=
  (tabled.mirrored consistent.mirrored).imp_left
    (consistent.congr tabled.sound tabled.geometry tabled.raw counted)

theorem Consistent.same (consistent : Consistent session lost) (same : session.fs.Same after)
    (sound : after.Sound) :
    Consistent { session with fs := after } lost ∨ session.fs.card.Failed after.card :=
  (same.mirrored consistent.mirrored).imp_left
    (consistent.congr sound same.geometry
      (fun _ below => same.raw consistent.sound.geometry below) (.inl same.freeClust))

/-! ## Steps -/

theorem Consistent.follow {clust value : Nat} (consistent : Consistent session lost)
    (ran : getCluster clust session.fs = some (value, after)) :
    Consistent { session with fs := after } lost ∨ session.fs.card.Failed after.card := by
  by_cases cluster : session.fs.Cluster clust
  · rcases (getCluster_meets consistent.sound cluster.1 cluster.2).of_eq ran with
      ⟨_, same, sound⟩ | ⟨_, failed⟩
    · exact consistent.same same.toSame sound
    · exact .inr failed
  · obtain ⟨_, rfl⟩ := (getCluster_outside cluster).of_eq ran
    exact .inl consistent

/-- A cluster of a chain is followed by another one exactly if it is not the last. -/
theorem Consistent.isLast_iff (consistent : Consistent session lost) {owner : ι} {clust : Nat}
    (member : clust ∈ session.chain owner) :
    clust = lastOf (session.chain owner) ↔ ¬ session.fs.entry clust < session.fs.maxClust := by
  have cluster := consistent.allocated.inside owner clust member
  have used := (consistent.allocated.used clust cluster).mpr (.inl ⟨owner, member⟩)
  have legal := consistent.allocated.legal clust cluster
  rw [Fatfs.eq_lastOf_iff (consistent.allocated.ne_zero member),
    (consistent.allocated.forest.path owner).getLast?_eq_some_iff member]
  unfold Fatfs.next Geometry.link
  have inside : session.fs.Cluster (session.fs.entry clust) ↔
      session.fs.entry clust < session.fs.maxClust := by
    unfold Geometry.Cluster
    omega
  split
  next goes => exact iff_of_false (Option.some_ne_none _) (not_not.mpr (inside.mp goes))
  next ends => exact iff_of_true rfl fun small => ends (inside.mpr small)

/-! ### Behind the FAT -/

/-- What is done to the sectors behind the FAT leaves its entries as they are. -/
theorem Intact.behind (intact : Intact session lost) (sound : after.Sound)
    (geometry : after.toGeometry = session.fs.toGeometry)
    (view : ∀ number < session.fs.copiesEnd, session.fs.Own number →
      after.view number = session.fs.view number)
    (counted : after.freeClust = session.fs.freeClust) :
    Intact { session with fs := after } lost := by
  have wellFormed := intact.sound.geometry
  have ends := wellFormed.fatEnd_le
  unfold Geometry.fatEnd at ends
  refine intact.congr sound geometry (fun clust below => ?_) (.inl counted)
  unfold Fatfs.raw
  rw [geometry]
  refine Fatfs.decode_congr fun index small => ?_
  have inside := wellFormed.inside below small
  have := Nat.div_lt_of_lt_mul inside
  unfold Fatfs.fatByte
  rw [geometry, view _ (by omega) (Fatfs.own_fat inside)]

theorem Consistent.behind (consistent : Consistent session lost) (sound : after.Sound)
    (geometry : after.toGeometry = session.fs.toGeometry)
    (view : ∀ number < session.fs.copiesEnd, session.fs.Own number →
      after.view number = session.fs.view number)
    (data : ∀ number < session.fs.copiesEnd,
      after.card.data number = session.fs.card.data number)
    (counted : after.freeClust = session.fs.freeClust) :
    Consistent { session with fs := after } lost where
  toIntact := consistent.toIntact.behind sound geometry view counted
  mirrored := consistent.mirrored.behind geometry data

/-- A sector behind the FAT is changed in the window. -/
theorem Intact.stored {win : Sector} (intact : Intact session lost)
    (behind : session.fs.copiesEnd ≤ session.fs.winsect) :
    Intact { session with fs := { session.fs with win, winflag := true } } lost := by
  have own := Fatfs.own_behind behind
  have positive := own.pos intact.sound.geometry
  refine intact.behind ⟨intact.sound.geometry, .inr own, fun _ => positive,
    fun clean => by cases clean⟩ rfl (fun number before _ => ?_) rfl
  have elsewhere : session.fs.winsect ≠ number := by omega
  rw [Fatfs.view_of_ne elsewhere]
  exact Fatfs.view_of_ne elsewhere

theorem Consistent.store {update : Sector → Sector} (consistent : Consistent session lost)
    (behind : session.fs.copiesEnd ≤ session.fs.winsect)
    (ran : storeWin update session.fs = some ((), after)) :
    Consistent { session with fs := after } lost := by
  obtain rfl := (Prod.mk.inj (Option.some.inj ran)).2
  exact ⟨consistent.stored behind, consistent.mirrored.behind rfl fun _ _ => rfl⟩

theorem Consistent.transfer {sector count : Nat} {buff : Nat → Sector} {done : Bool}
    (consistent : Consistent session lost) (behind : session.fs.copiesEnd ≤ sector)
    (apart : ¬ (sector ≤ session.fs.winsect ∧ session.fs.winsect < sector + count))
    (ran : diskWrite sector count buff session.fs = some (done, after)) :
    Consistent { session with fs := after } lost := by
  have sound := consistent.sound
  rw [diskWrite, if_pos sound.geometry.drive] at ran
  obtain rfl := (Prod.mk.inj (Option.some.inj ran)).2
  have outside : ∀ number < session.fs.copiesEnd,
      (session.fs.card.write sector count buff).2.data number = session.fs.card.data number :=
    fun number before => Card.write_data_outside (by omega)
  refine consistent.behind ⟨sound.geometry, sound.place, sound.dirty, fun clean loaded => ?_⟩ rfl
    (fun number before _ => ?_) outside rfl
  · rw [sound.clean clean loaded]
    exact (Card.write_data_outside apart).symm
  · by_cases here : session.fs.winsect = number
    · rw [Fatfs.view_winsect here]
      exact Fatfs.view_winsect here
    · rw [Fatfs.view_of_ne here, ← outside number before]
      exact Fatfs.view_of_ne here

/-! ### Chains that change -/

variable [DecidableEq ι]

/-- The chain of an owner has grown. -/
theorem Intact.extended (intact : Intact session lost) {owner : ι} {value : Nat}
    (new : session.fs.Cluster value) (unused : session.fs.entry value = 0)
    (tabled : session.fs.Tabled (session.fs.grown (lastOf (session.chain owner)) value) after)
    (count : after.freeClust = countDown session.fs.freeClust) :
    Intact ⟨after, Function.update session.chain owner (session.chain owner ++ [value])⟩ lost := by
  have wellFormed := intact.sound.geometry
  have old : lastOf (session.chain owner) = 0 ∨
      lastOf (session.chain owner) ∈ session.chain owner := by
    by_cases zero : lastOf (session.chain owner) = 0
    · exact .inl zero
    · exact .inr (List.mem_of_getLast? ((Fatfs.eq_lastOf_iff zero).mp rfl))
  have oldCluster := old.imp_right (intact.allocated.inside owner _)
  have oldUsed := old.imp_right fun member => (intact.allocated.used _
    (intact.allocated.inside owner _ member)).mpr (.inl ⟨owner, member⟩)
  have free := tabled.grown_free wellFormed new oldUsed
  refine ⟨tabled.sound, intact.allocated.grow wellFormed tabled new unused, fun known => ?_,
    tabled.grown_tidy wellFormed new oldCluster intact.tidy⟩
  change after.freeClust ≠ notCounted at known
  change after.freeClust = after.free.card
  have isCounted : session.fs.freeClust ≠ notCounted := by
    intro not
    rw [count, not] at known
    exact known rfl
  have isFree : value ∈ session.fs.free := Fatfs.mem_free.mpr ⟨new, unused⟩
  rw [count, intact.counted isCounted, free, Finset.card_erase_of_mem isFree]
  exact Fatfs.countDown_of_pos (Finset.card_pos.mpr ⟨value, isFree⟩) (Fatfs.card_free_lt wellFormed)

theorem Consistent.extended (consistent : Consistent session lost) {owner : ι} {value : Nat}
    (new : session.fs.Cluster value) (unused : session.fs.entry value = 0)
    (tabled : session.fs.Tabled (session.fs.grown (lastOf (session.chain owner)) value) after)
    (count : after.freeClust = countDown session.fs.freeClust) :
    Consistent ⟨after, Function.update session.chain owner (session.chain owner ++ [value])⟩
      lost ∨ session.fs.card.Failed after.card :=
  (tabled.mirrored consistent.mirrored).imp_left fun mirrored =>
    ⟨consistent.toIntact.extended new unused tabled count, mirrored⟩

theorem Consistent.create {owner : ι} {clust value : Nat} (consistent : Consistent session lost)
    (own : clust ∈ session.chain owner ∨ clust = 0 ∧ session.chain owner = [])
    (ran : createChain clust session.fs = some (value, after)) :
    Consistent ⟨after, session.grown owner clust value⟩ lost ∨
      session.fs.card.Failed after.card := by
  have grownBy : Grown session.fs clust value after → clust = lastOf (session.chain owner) →
      Consistent ⟨after, session.grown owner clust value⟩ lost ∨
        session.fs.card.Failed after.card := by
    rintro (⟨rfl, _, same, sound⟩ | ⟨new, unused, tabled, _, count⟩ | ⟨_, failed⟩) isLast
    · rw [grown, if_neg (by omega)]
      exact consistent.same same.toSame sound
    · rw [grown, if_pos ⟨new.1, isLast⟩]
      exact consistent.extended new unused (isLast ▸ tabled) count
    · exact .inr failed
  rcases own with member | ⟨rfl, none⟩
  · have cluster := consistent.allocated.inside owner clust member
    have used := (consistent.allocated.used clust cluster).mpr (.inl ⟨owner, member⟩)
    have outcome := (createChain_meets consistent.sound consistent.allocated.legal cluster
      used).of_eq ran
    have isLast := consistent.isLast_iff member
    split at outcome
    next goes =>
      have notLast : clust ≠ lastOf (session.chain owner) := fun last => isLast.mp last goes
      rw [grown, if_neg fun both => notLast both.2]
      rcases outcome with ⟨_, same, sound⟩ | ⟨_, failed⟩
      · exact consistent.same same.toSame sound
      · exact .inr failed
    next ends => exact grownBy outcome (isLast.mpr ends)
  · refine grownBy ((createChain_meets_new consistent.sound
      consistent.allocated.legal).of_eq ran) ?_
    rw [none]
    rfl

theorem Consistent.remove {owner : ι} {done : Bool} (consistent : Consistent session lost)
    (ran : removeChain ((session.chain owner).headD 0) session.fs = some (done, after)) :
    Consistent ⟨after, Function.update session.chain owner []⟩ lost ∨
      session.fs.card.Failed after.card := by
  have wellFormed := consistent.sound.geometry
  have allocated := consistent.allocated
  have head : session.fs.link ((session.chain owner).headD 0) = (session.chain owner).head? := by
    cases cells : session.chain owner with
    | nil => exact if_neg fun zero => absurd zero.1 (by decide)
    | cons first rest => exact if_pos (allocated.inside owner first (by rw [cells]; simp))
  have path := head ▸ allocated.forest.path owner
  have outcome := (removeChain_meets consistent.sound allocated.legal path).of_eq ran
  split at outcome
  next =>
    obtain ⟨tabled, _, count⟩ := outcome
    have free := allocated.released_free tabled
    refine (tabled.mirrored consistent.mirrored).imp_left fun mirrored => ⟨⟨tabled.sound,
      allocated.release tabled, fun known => ?_,
      tabled.freed_tidy wellFormed (allocated.inside owner) consistent.tidy⟩, mirrored⟩
    change after.freeClust ≠ notCounted at known
    change after.freeClust = after.free.card
    have isCounted : session.fs.freeClust ≠ notCounted := by
      intro not
      rw [count, not, Fatfs.countUp_notCounted] at known
      exact known rfl
    have small := Fatfs.card_free_lt tabled.sound.geometry
    rw [free] at small ⊢
    rw [count, consistent.counted isCounted, Fatfs.countUp_iterate small]
  next => exact .inr outcome

/-- Every step keeps the volume consistent, if no call of the card fails in it. -/
theorem Consistent.step {next : Session ι} (consistent : Consistent session lost)
    (step : Step session next) :
    Consistent next lost ∨ session.fs.card.Failed next.fs.card := by
  cases step with
  | follow ran => exact consistent.follow ran
  | create own ran => exact consistent.create own ran
  | remove ran => exact consistent.remove ran
  | count ran =>
      rcases (fGetfree_meets consistent.sound consistent.tidy consistent.counted).of_eq ran with
        ⟨_, right, _, tabled⟩ | failed
      · exact consistent.unchanged tabled (.inr right)
      · exact .inr failed
  | sync loaded ran =>
      have outcome := (sync_meets consistent.sound loaded).of_eq ran
      split at outcome
      next => exact consistent.same outcome.1 outcome.2.1
      next => exact .inr outcome
  | move behind ran =>
      have outcome := (moveWindow_meets consistent.sound (.inr (Fatfs.own_behind behind))).of_eq ran
      split at outcome
      next => exact consistent.same outcome.toSame outcome.sound
      next => exact .inr outcome
  | store behind ran => exact .inl (consistent.store behind ran)
  | transfer behind apart ran => exact .inl (consistent.transfer behind apart ran)

end Session

/-! ## Whole runs -/

namespace Session

variable {ι : Type}

/-- A volume as `auto_mount` leaves it, with a FAT on the card that is not damaged. -/
structure Fresh (session : Session ι) (lost : Nat → Prop) : Prop where
  geometry : session.fs.WellFormed
  winsect : session.fs.winsect = 0
  winflag : session.fs.winflag = false
  freeClust : session.fs.freeClust = notCounted
  allocated : session.fs.Allocated session.chain lost
  tidy : session.fs.Tidy
  mirrored : session.fs.Mirrored

theorem Fresh.consistent {session : Session ι} {lost : Nat → Prop} (fresh : Fresh session lost) :
    Consistent session lost where
  sound := ⟨fresh.geometry, .inl fresh.winsect,
    fun dirty => absurd (fresh.winflag.symm.trans dirty) Bool.false_ne_true,
    fun _ loaded => absurd fresh.winsect loaded⟩
  allocated := fresh.allocated
  counted known := absurd fresh.freeClust known
  tidy := fresh.tidy
  mirrored := fresh.mirrored

/-- A step in which no call of the card fails. -/
def Unfailed [DecidableEq ι] (before after : Session ι) : Prop :=
  Step before after ∧ ¬ before.fs.card.Failed after.fs.card

/-- Every state of a run is consistent. -/
theorem Consistent.run [DecidableEq ι] {first last : Session ι} {lost : Nat → Prop}
    (consistent : Consistent first lost) (run : Relation.ReflTransGen Unfailed first last) :
    Consistent last lost := by
  induction run with
  | refl => exact consistent
  | tail _ step inductionHypothesis => exact (inductionHypothesis.step step.1).resolve_right step.2

end Session

/-- The entries of a copy of the FAT on the card. -/
def Fatfs.onCard (fs : Fatfs) (copy clust : Nat) : Nat :=
  fs.fsType.decode (fun offset =>
    (fs.card.data (fs.fatbase + copy * fs.sectsFat + offset / sSiz)).get offset) clust

section Answers

variable {ι : Type} {session : Session ι} {lost : Nat → Prop}

/-- At the end of a chain `create_chain` gives a free cluster, or 0 if there is none. -/
theorem Session.Consistent.createChain_meets (consistent : Session.Consistent session lost)
    (owner : ι) : Meets (createChain (lastOf (session.chain owner))) session.fs fun value after =>
      (value = 0 ∧ session.fs.free = ∅) ∨ value ∈ session.fs.free ∨
        session.fs.card.Failed after.card := by
  have grown : ∀ value after, Grown session.fs (lastOf (session.chain owner)) value after →
      (value = 0 ∧ session.fs.free = ∅) ∨ value ∈ session.fs.free ∨
        session.fs.card.Failed after.card := by
    rintro value after (⟨zero, full, _⟩ | ⟨new, unused, _⟩ | ⟨_, failed⟩)
    · refine .inl ⟨zero, Finset.eq_empty_iff_forall_notMem.mpr fun clust isFree => ?_⟩
      rw [Fatfs.mem_free] at isFree
      exact full clust isFree.1 isFree.2
    · exact .inr (.inl (Fatfs.mem_free.mpr ⟨new, unused⟩))
    · exact .inr (.inr failed)
  by_cases zero : lastOf (session.chain owner) = 0
  · rw [zero] at grown ⊢
    exact (createChain_meets_new consistent.sound consistent.allocated.legal).mono grown
  · have member := List.mem_of_getLast? ((Fatfs.eq_lastOf_iff zero).mp rfl)
    have cluster := consistent.allocated.inside owner _ member
    have used := (consistent.allocated.used _ cluster).mpr (.inl ⟨owner, member⟩)
    refine (FatFs.createChain_meets consistent.sound consistent.allocated.legal cluster used).mono ?_
    intro value after outcome
    rw [if_neg ((consistent.isLast_iff member).mp rfl)] at outcome
    exact grown value after outcome

/-- After `sync` every copy on the card is the FAT. -/
theorem Session.Consistent.sync_meets (consistent : Session.Consistent session lost)
    (loaded : session.fs.winsect ≠ 0) : Meets sync session.fs fun done after =>
      (done = true ∧ ∀ copy < session.fs.nFats, ∀ clust < session.fs.maxClust,
        after.onCard copy clust = session.fs.raw clust) ∨ session.fs.card.Failed after.card := by
  refine (FatFs.sync_meets consistent.sound loaded).mono fun done after outcome => ?_
  split at outcome
  next success =>
    obtain ⟨same, sound, saved⟩ := outcome
    refine (same.mirrored consistent.mirrored).imp_left fun mirrored => ⟨success, ?_⟩
    intro copy low clust below
    unfold Fatfs.onCard Fatfs.raw
    rw [same.geometry]
    refine Fatfs.decode_congr fun index small => ?_
    have inside := consistent.sound.geometry.inside below small
    have own := Fatfs.own_fat inside
    have copied := mirrored copy (by rw [same.geometry]; exact low) _
      (by rw [same.geometry]; exact Nat.div_lt_of_lt_mul inside)
    rw [same.geometry] at copied
    rw [copied, saved _ (same.own.mpr own), same.view _ own]
    rfl
  next => exact .inr outcome

end Answers

/-- Over any run of the calls into the FAT and of accesses behind it, no cluster is in two chains
and none is lost, the count of free clusters is right once it was taken, and after `sync` every
copy of the FAT on the card has the entries. -/
theorem fat_consistent {ι : Type} [DecidableEq ι] {first last : Session ι} {lost : Nat → Prop}
    (fresh : first.Fresh lost) (run : Relation.ReflTransGen Session.Unfailed first last) :
    last.fs.Allocated last.chain lost ∧ last.fs.Counted ∧
      (∀ owner, Meets (createChain (lastOf (last.chain owner))) last.fs fun value after =>
        (value = 0 ∧ last.fs.free = ∅) ∨ value ∈ last.fs.free ∨ last.fs.card.Failed after.card) ∧
      (Meets fGetfree last.fs fun found after =>
        found = some last.fs.free.card ∨ last.fs.card.Failed after.card) ∧
      (last.fs.winsect ≠ 0 → Meets sync last.fs fun done after =>
        (done = true ∧ ∀ copy < last.fs.nFats, ∀ clust < last.fs.maxClust,
          after.onCard copy clust = last.fs.raw clust) ∨ last.fs.card.Failed after.card) := by
  have consistent := fresh.consistent.run run
  refine ⟨consistent.allocated, consistent.counted, consistent.createChain_meets, ?_,
    consistent.sync_meets⟩
  refine (fGetfree_meets consistent.sound consistent.tidy consistent.counted).mono ?_
  rintro found after (⟨right, _⟩ | failed)
  · exact .inl right
  · exact .inr failed

theorem emptyVolume_fresh {ι : Type} :
    Session.Fresh ⟨emptyVolume, fun _ : ι => []⟩ fun _ => False := by
  have reserved : ∀ clust < 2, emptyVolume.raw clust ≠ 0 := by decide
  have unused : ∀ clust < 6, 2 ≤ clust → emptyVolume.raw clust = 0 := by decide
  have zero : ∀ clust, emptyVolume.Cluster clust → emptyVolume.entry clust = 0 := by
    intro clust cluster
    rw [Fatfs.entry, unused clust cluster.2 cluster.1, Nat.zero_mod]
  refine ⟨?_, rfl, rfl, rfl, ⟨⟨fun _ => rfl, fun _ _ _ _ member => by cases member⟩, ?_, ?_, ?_, ?_⟩,
    ⟨reserved, fun clust cluster _ => unused clust cluster.2 cluster.1⟩, ?_⟩
  · exact emptyVolume_sound.geometry
  · intro owner clust member
    cases member
  · intro clust cluster
    refine iff_of_false (fun used => used (zero clust cluster)) ?_
    rintro (⟨_, member⟩ | isLost)
    · cases member
    · exact isLost
  · intro clust isLost
    exact isLost.elim
  · intro clust cluster
    rw [zero clust cluster]
    decide
  · intro copy low index inside
    change copy < 2 at low
    change index < 1 at inside
    obtain rfl : index = 0 := by omega
    obtain rfl | rfl : copy = 0 ∨ copy = 1 := by omega
    · rfl
    · rfl

theorem not_failed {before after : Card} (never : before.fails = fun _ => false) :
    ¬ before.Failed after := by
  rintro ⟨_, _, _, fails⟩
  rw [never] at fails
  cases fails

/-! ### Two files on an empty volume -/

/-- The owners are two files. -/
def emptySession : Session Bool := ⟨emptyVolume, fun _ => []⟩

theorem firstOnce_ends : (createChain 0 emptyVolume).isSome = true := by decide

/-- The first cluster of one of the files. -/
def firstOnce : Nat × Fatfs := Option.get _ firstOnce_ends

def firstSession : Session Bool := ⟨firstOnce.2, emptySession.grown true 0 firstOnce.1⟩

theorem secondOnce_ends : (createChain 0 firstOnce.2).isSome = true := by decide

/-- The first cluster of the other one. -/
def secondOnce : Nat × Fatfs := Option.get _ secondOnce_ends

def secondSession : Session Bool := ⟨secondOnce.2, firstSession.grown false 0 secondOnce.1⟩

theorem nextOnce_ends : (createChain 2 secondOnce.2).isSome = true := by decide

/-- The first of them grows behind the other one. -/
def nextOnce : Nat × Fatfs := Option.get _ nextOnce_ends

def nextSession : Session Bool := ⟨nextOnce.2, secondSession.grown true 2 nextOnce.1⟩

theorem countedOnce_ends : (fGetfree nextOnce.2).isSome = true := by decide

def countedOnce : Option Nat × Fatfs := Option.get _ countedOnce_ends

def countedSession : Session Bool := { nextSession with fs := countedOnce.2 }

theorem syncedOnce_ends : (sync countedOnce.2).isSome = true := by decide

def syncedOnce : Bool × Fatfs := Option.get _ syncedOnce_ends

def syncedSession : Session Bool := { countedSession with fs := syncedOnce.2 }

theorem removedOnce_ends : (removeChain 3 syncedOnce.2).isSome = true := by decide

def removedOnce : Bool × Fatfs := Option.get _ removedOnce_ends

/-- The other file is removed after the card was synchronised. -/
def removedSession : Session Bool :=
  ⟨removedOnce.2, Function.update syncedSession.chain false []⟩

theorem removedSession_run :
    Relation.ReflTransGen Session.Unfailed emptySession removedSession := by
  have first : Session.Step emptySession firstSession :=
    .create (.inr ⟨rfl, rfl⟩) (Option.some_get firstOnce_ends).symm
  have second : Session.Step firstSession secondSession :=
    .create (.inr ⟨rfl, rfl⟩) (Option.some_get secondOnce_ends).symm
  have next : Session.Step secondSession nextSession :=
    .create (.inl (by decide)) (Option.some_get nextOnce_ends).symm
  have counted : Session.Step nextSession countedSession :=
    .count (Option.some_get countedOnce_ends).symm
  have synced : Session.Step countedSession syncedSession :=
    .sync (by decide) (Option.some_get syncedOnce_ends).symm
  have removed : Session.Step syncedSession removedSession :=
    .remove (Option.some_get removedOnce_ends).symm
  exact .tail (.tail (.tail (.tail (.tail (.single ⟨first, not_failed rfl⟩)
    ⟨second, not_failed rfl⟩) ⟨next, not_failed rfl⟩) ⟨counted, not_failed rfl⟩)
    ⟨synced, not_failed rfl⟩) ⟨removed, not_failed rfl⟩

/-- Two files take turns to grow, one of them is removed, and the other one keeps its clusters. -/
theorem fat_consistent_removed :
    removedSession.chain true = [2, 4] ∧ removedSession.chain false = [] ∧
      countedOnce.1 = some 1 ∧ removedSession.fs.winsect ≠ 0 ∧
      removedSession.fs.Allocated removedSession.chain (fun _ => False) ∧
      removedSession.fs.Counted ∧
      (∀ owner, Meets (createChain (lastOf (removedSession.chain owner))) removedSession.fs
        fun value after => (value = 0 ∧ removedSession.fs.free = ∅) ∨
          value ∈ removedSession.fs.free ∨ removedSession.fs.card.Failed after.card) ∧
      (Meets fGetfree removedSession.fs fun found after =>
        found = some removedSession.fs.free.card ∨ removedSession.fs.card.Failed after.card) ∧
      (removedSession.fs.winsect ≠ 0 → Meets sync removedSession.fs fun done after =>
        (done = true ∧ ∀ copy < removedSession.fs.nFats, ∀ clust < removedSession.fs.maxClust,
          after.onCard copy clust = removedSession.fs.raw clust) ∨
            removedSession.fs.card.Failed after.card) :=
  ⟨by decide, by decide, by decide, by decide,
    fat_consistent emptyVolume_fresh removedSession_run⟩

end BbbEth.FatFs
