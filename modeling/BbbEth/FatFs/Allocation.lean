import BbbEth.FatFs.Chain
import Mathlib.Data.Finset.Card
import Mathlib.Order.Interval.Finset.Nat

/-!
# Who has which cluster

The owners are the files and directories of the volume, each with the chain of its clusters.  No
cluster is in two chains, a cluster of no chain is free or lost, and the count of the free ones is
right once they were counted.
-/

namespace BbbEth.FatFs

open BbbEth.Console BbbEth.Stateful BbbEth.Linked

namespace Fatfs

variable (fs : Fatfs) {ι : Type}

/-- The free clusters. -/
def free : Finset Nat := (Finset.Ico 2 fs.maxClust).filter fun clust => fs.entry clust = 0

/-- The chains of the owners, and the clusters that are marked but in no chain. -/
structure Allocated (chain : ι → List Nat) (lost : Nat → Prop) : Prop where
  forest : Forest fs.next chain
  inside : ∀ owner, ∀ clust ∈ chain owner, fs.Cluster clust
  used : ∀ clust, fs.Cluster clust →
    (fs.entry clust ≠ 0 ↔ (∃ owner, clust ∈ chain owner) ∨ lost clust)
  apart : ∀ clust, lost clust → ∀ owner, clust ∉ chain owner
  legal : ∀ clust, fs.Cluster clust → fs.entry clust ≠ 1

/-- The count is right, if there is one. -/
def Counted : Prop := fs.freeClust ≠ notCounted → fs.freeClust = fs.free.card

/-- The first two entries are marked, and a free entry has no bits at all. -/
structure Tidy : Prop where
  reserved : ∀ clust < 2, fs.raw clust ≠ 0
  clear : ∀ clust, fs.Cluster clust → fs.entry clust = 0 → fs.raw clust = 0

variable {fs} {before after : Fatfs} {chain : ι → List Nat} {lost : Nat → Prop} {clust : Nat}
variable {table : Nat → Nat} {owner : ι}

theorem mem_free : clust ∈ fs.free ↔ fs.Cluster clust ∧ fs.entry clust = 0 := by
  unfold free
  rw [Finset.mem_filter, Finset.mem_Ico]
  exact Iff.rfl

/-! ### What depends on the entries only -/

theorem Tabled.cluster (tabled : Tabled table before after) :
    after.Cluster clust ↔ before.Cluster clust := by
  rw [tabled.geometry]

theorem Allocated.congr (allocated : before.Allocated chain lost)
    (geometry : after.toGeometry = before.toGeometry)
    (same : ∀ clust, before.Cluster clust → after.entry clust = before.entry clust) :
    after.Allocated chain lost where
  forest := allocated.forest.congr fun owner clust member => by
    unfold next
    rw [geometry, same clust (allocated.inside owner clust member)]
  inside owner clust member := by
    rw [geometry]
    exact allocated.inside owner clust member
  used clust cluster := by
    rw [geometry] at cluster
    rw [same clust cluster]
    exact allocated.used clust cluster
  apart := allocated.apart
  legal clust cluster := by
    rw [geometry] at cluster
    rw [same clust cluster]
    exact allocated.legal clust cluster

theorem free_congr (geometry : after.toGeometry = before.toGeometry)
    (same : ∀ clust, before.Cluster clust → after.entry clust = before.entry clust) :
    after.free = before.free := by
  ext clust
  rw [mem_free, mem_free, geometry]
  constructor
  · rintro ⟨cluster, zero⟩
    exact ⟨cluster, same clust cluster ▸ zero⟩
  · rintro ⟨cluster, zero⟩
    exact ⟨cluster, (same clust cluster).trans zero⟩

theorem card_free_lt (wellFormed : fs.WellFormed) : fs.free.card < notCounted := by
  have small := wellFormed.maxClust_lt
  have most := Finset.card_filter_le (Finset.Ico 2 fs.maxClust) fun clust => fs.entry clust = 0
  rw [Nat.card_Ico] at most
  unfold free notCounted
  omega

end Fatfs

/-! ## Entries that are put -/

section Values

variable {geometry : Geometry} {clust : Nat}

theorem Geometry.WellFormed.modulus_le (wellFormed : geometry.WellFormed) :
    geometry.fsType.modulus ∣ 2 ^ geometry.fsType.width := by
  have mounted := wellFormed.mounted
  cases fsType : geometry.fsType with
  | unmounted => exact absurd fsType mounted
  | fat12 => decide
  | fat16 => decide
  | fat32 => decide

/-- The end mark is no cluster. -/
theorem Geometry.WellFormed.endMark_entry (wellFormed : geometry.WellFormed) :
    geometry.maxClust ≤ endMark % 2 ^ geometry.fsType.width % geometry.fsType.modulus := by
  have mounted := wellFormed.mounted
  have distinct := wellFormed.distinct
  cases fsType : geometry.fsType with
  | unmounted => exact absurd fsType mounted
  | fat12 =>
      rw [fsType] at distinct
      simp only [FatType.modulus, FatType.width, endMark] at distinct ⊢
      omega
  | fat16 =>
      rw [fsType] at distinct
      simp only [FatType.modulus, FatType.width, endMark] at distinct ⊢
      omega
  | fat32 =>
      rw [fsType] at distinct
      simp only [FatType.modulus, FatType.width, endMark] at distinct ⊢
      omega

/-- The number of a cluster fits into an entry. -/
theorem Geometry.WellFormed.cluster_entry (wellFormed : geometry.WellFormed)
    (cluster : geometry.Cluster clust) :
    clust % 2 ^ geometry.fsType.width % geometry.fsType.modulus = clust := by
  have distinct := wellFormed.distinct
  have := cluster.2
  rw [Nat.mod_mod_of_dvd _ wellFormed.modulus_le, Nat.mod_eq_of_lt (by omega)]

end Values

/-! ## Growing and releasing -/

/-- The cluster that `create_chain` is to extend: the last of the chain, if there is one. -/
def lastOf (cells : List Nat) : Nat := cells.getLast?.getD 0

namespace Fatfs

section Grow

variable {fs after : Fatfs} {ι : Type} {chain : ι → List Nat} {lost : Nat → Prop}
variable {owner : ι} {clust ncl last : Nat}

theorem eq_lastOf_iff {link : Nat} {cells : List Nat} (positive : link ≠ 0) :
    link = lastOf cells ↔ cells.getLast? = some link := by
  unfold lastOf
  cases found : cells.getLast? with
  | none =>
      rw [Option.getD_none]
      exact ⟨fun zero => absurd zero positive, fun none => by cases none⟩
  | some last =>
      rw [Option.getD_some]
      exact ⟨fun equal => congrArg some equal.symm, fun same => (Option.some.inj same).symm⟩

theorem Allocated.ne_zero (allocated : fs.Allocated chain lost) (member : clust ∈ chain owner) :
    clust ≠ 0 := by
  have := (allocated.inside owner clust member).1
  omega

/-- The entries after a chain was extended. -/
theorem Tabled.grown_entry (tabled : fs.Tabled (fs.grown last ncl) after)
    (wellFormed : fs.WellFormed) (new : fs.Cluster ncl) (cluster : fs.Cluster clust) :
    after.entry clust =
      if clust = last then ncl
      else if clust = ncl then endMark % 2 ^ fs.fsType.width % fs.fsType.modulus
      else fs.entry clust := by
  have positive := cluster.1
  rw [tabled.entry cluster.2, grown]
  split
  next zero =>
    rw [if_neg (by omega), setRaw, Function.update_apply]
    split <;> rfl
  next =>
    rw [Function.update_apply, setRaw, Function.update_apply]
    split
    next => exact wellFormed.cluster_entry new
    next => split <;> rfl

variable [DecidableEq ι]

/-- A free cluster becomes the end of a chain. -/
theorem Allocated.grow (allocated : fs.Allocated chain lost) (wellFormed : fs.WellFormed)
    (tabled : fs.Tabled (fs.grown (lastOf (chain owner)) ncl) after) (new : fs.Cluster ncl)
    (unused : fs.entry ncl = 0) :
    after.Allocated (Function.update chain owner (chain owner ++ [ncl])) lost := by
  have ends := wellFormed.endMark_entry
  have unowned : ∀ owner, ncl ∉ chain owner := fun owner member =>
    (allocated.used ncl new).mpr (.inl ⟨owner, member⟩) unused
  have unlost : ¬ lost ncl := fun isLost => (allocated.used ncl new).mpr (.inr isLost) unused
  have positive : ncl ≠ 0 := by
    have := new.1
    omega
  have notLast : ncl ≠ lastOf (chain owner) := fun equal =>
    unowned owner (List.mem_of_getLast? ((eq_lastOf_iff positive).mp equal))
  have entries := fun clust (cluster : fs.Cluster clust) =>
    tabled.grown_entry wellFormed new cluster
  have newEntry : after.entry ncl = endMark % 2 ^ fs.fsType.width % fs.fsType.modulus := by
    rw [entries ncl new, if_neg notLast, if_pos rfl]
  have limit := wellFormed.clusters
  refine ⟨allocated.forest.extend unowned ?_ ?_ ?_, ?_, ?_, ?_, ?_⟩
  · unfold next
    rw [newEntry, Geometry.link, tabled.geometry, if_neg]
    exact fun cluster => absurd cluster.2 (by omega)
  · intro link isLast
    have member := List.mem_of_getLast? isLast
    unfold next
    rw [entries link (allocated.inside owner link member),
      if_pos ((eq_lastOf_iff (allocated.ne_zero member)).mpr isLast), Geometry.link,
      tabled.geometry, if_pos new]
  · intro index link member other
    have notEnd := fun equal => other ((eq_lastOf_iff (allocated.ne_zero member)).mp equal)
    have notNew : link ≠ ncl := fun equal => unowned index (equal ▸ member)
    unfold next
    rw [entries link (allocated.inside index link member), if_neg notEnd, if_neg notNew,
      tabled.geometry]
  · intro index clust member
    rw [tabled.cluster]
    rcases Forest.exists_mem_extend.mp ⟨index, member⟩ with rfl | ⟨other, before⟩
    · exact new
    · exact allocated.inside other clust before
  · intro clust cluster
    rw [tabled.cluster] at cluster
    rw [Forest.exists_mem_extend, entries clust cluster, or_assoc, ← allocated.used clust cluster]
    by_cases isNew : clust = ncl
    · rw [if_neg (isNew ▸ notLast), if_pos isNew]
      exact iff_of_true (by omega) (.inl isNew)
    · rw [if_neg isNew]
      by_cases isLast : clust = lastOf (chain owner)
      · have member := List.mem_of_getLast? ((eq_lastOf_iff (by
          have := cluster.1
          omega)).mp isLast)
        rw [if_pos isLast]
        exact iff_of_true positive (.inr ((allocated.used clust cluster).mpr (.inl ⟨owner, member⟩)))
      · rw [if_neg isLast]
        exact (or_iff_right isNew).symm
  · intro clust isLost index member
    rcases Forest.exists_mem_extend.mp ⟨index, member⟩ with rfl | ⟨other, before⟩
    · exact unlost isLost
    · exact allocated.apart clust isLost other before
  · intro clust cluster
    rw [tabled.cluster] at cluster
    rw [entries clust cluster]
    have legal := allocated.legal clust cluster
    have := new.1
    split
    next => omega
    next => split <;> omega

/-- One cluster less is free. -/
theorem Tabled.grown_free (tabled : fs.Tabled (fs.grown last ncl) after)
    (wellFormed : fs.WellFormed) (new : fs.Cluster ncl) (used : last = 0 ∨ fs.entry last ≠ 0) :
    after.free = fs.free.erase ncl := by
  have ends := wellFormed.endMark_entry
  have limit := wellFormed.clusters
  have positive := new.1
  ext clust
  rw [Finset.mem_erase, mem_free, mem_free, tabled.cluster, ← and_assoc, and_comm (a := clust ≠ ncl),
    and_assoc]
  refine and_congr_right fun cluster => ?_
  have := cluster.1
  rw [tabled.grown_entry wellFormed new cluster]
  split
  next isLast =>
    refine iff_of_false (by omega) ?_
    rintro ⟨_, zero⟩
    rw [isLast] at zero
    exact used.resolve_left (by omega) zero
  next =>
    split
    next isNew => exact iff_of_false (by omega) fun both => both.1 isNew
    next isOld => exact (and_iff_right isOld).symm

/-- The table stays tidy: the reserved entries are not touched. -/
theorem Tabled.grown_tidy (tabled : fs.Tabled (fs.grown last ncl) after)
    (wellFormed : fs.WellFormed) (new : fs.Cluster ncl) (old : last = 0 ∨ fs.Cluster last)
    (tidy : fs.Tidy) : after.Tidy where
  reserved clust low := by
    have limit := wellFormed.clusters
    have := new.1
    rw [tabled.raw clust (by omega), grown]
    split
    next =>
      rw [setRaw, Function.update_of_ne (by omega)]
      exact tidy.reserved clust low
    next positive =>
      have := (old.resolve_left positive).1
      rw [Function.update_of_ne (by omega), setRaw, Function.update_of_ne (by omega)]
      exact tidy.reserved clust low
  clear clust cluster zero := by
    rw [tabled.cluster] at cluster
    rw [tabled.grown_entry wellFormed new cluster] at zero
    have ends := wellFormed.endMark_entry
    have limit := wellFormed.clusters
    have := new.1
    have := cluster.1
    split at zero
    next => omega
    next notLast =>
      split at zero
      next => omega
      next notNew =>
        rw [tabled.raw clust cluster.2, grown]
        split
        next =>
          rw [setRaw, Function.update_of_ne notNew]
          exact tidy.clear clust cluster zero
        next =>
          rw [Function.update_of_ne notLast, setRaw, Function.update_of_ne notNew]
          exact tidy.clear clust cluster zero

end Grow

section Release

variable {fs after : Fatfs} {ι : Type} {chain : ι → List Nat} {lost : Nat → Prop}
variable {owner : ι} {clust : Nat} {cells : List Nat}

/-- The entries after some clusters were freed. -/
theorem Tabled.freed_entry (tabled : fs.Tabled (fs.freed cells) after)
    (below : clust < fs.maxClust) :
    after.entry clust = if clust ∈ cells then 0 else fs.entry clust := by
  rw [tabled.entry below, freed]
  split
  next => exact Nat.zero_mod _
  next => rfl

/-- As many clusters more are free. -/
theorem Allocated.released_free (allocated : fs.Allocated chain lost)
    (tabled : fs.Tabled (fs.freed (chain owner)) after) :
    after.free.card = fs.free.card + (chain owner).length := by
  have split : after.free = fs.free ∪ (chain owner).toFinset := by
    ext clust
    rw [Finset.mem_union, List.mem_toFinset, mem_free, mem_free, tabled.cluster]
    constructor
    · rintro ⟨cluster, zero⟩
      rw [tabled.freed_entry cluster.2] at zero
      by_cases member : clust ∈ chain owner
      · exact .inr member
      · exact .inl ⟨cluster, by rwa [if_neg member] at zero⟩
    · rintro (⟨cluster, zero⟩ | member)
      · refine ⟨cluster, ?_⟩
        rw [tabled.freed_entry cluster.2, zero, ite_self]
      · have cluster := allocated.inside owner clust member
        exact ⟨cluster, by rw [tabled.freed_entry cluster.2, if_pos member]⟩
  have apart : Disjoint fs.free (chain owner).toFinset := by
    rw [Finset.disjoint_left]
    intro clust isFree member
    rw [List.mem_toFinset] at member
    rw [mem_free] at isFree
    exact (allocated.used clust isFree.1).mpr (.inl ⟨owner, member⟩) isFree.2
  rw [split, Finset.card_union_of_disjoint apart, List.toFinset_card_of_nodup allocated.forest.nodup]

theorem Tabled.freed_tidy (tabled : fs.Tabled (fs.freed cells) after)
    (wellFormed : fs.WellFormed) (inside : ∀ clust ∈ cells, fs.Cluster clust) (tidy : fs.Tidy) :
    after.Tidy where
  reserved clust low := by
    have limit := wellFormed.clusters
    have outside : clust ∉ cells := fun member => by
      have := (inside clust member).1
      omega
    rw [tabled.raw clust (by omega), freed, if_neg outside]
    exact tidy.reserved clust low
  clear clust cluster zero := by
    rw [tabled.cluster] at cluster
    rw [tabled.freed_entry cluster.2] at zero
    rw [tabled.raw clust cluster.2, freed]
    by_cases member : clust ∈ cells
    · exact if_pos member
    · rw [if_neg member] at zero ⊢
      exact tidy.clear clust cluster zero

variable [DecidableEq ι]

/-- The clusters of a chain are free again. -/
theorem Allocated.release (allocated : fs.Allocated chain lost)
    (tabled : fs.Tabled (fs.freed (chain owner)) after) :
    after.Allocated (Function.update chain owner []) lost := by
  have entries := fun clust (below : clust < fs.maxClust) => tabled.freed_entry below
  refine ⟨allocated.forest.remove fun index other link member => ?_, ?_, ?_, ?_, ?_⟩
  · have cluster := allocated.inside index link member
    unfold next
    rw [entries link cluster.2, if_neg (allocated.forest.apart index owner other link member),
      tabled.geometry]
  · intro index clust member
    rw [tabled.cluster]
    rcases Forest.exists_mem_remove.mp ⟨index, member⟩ with ⟨other, _, before⟩
    exact allocated.inside other clust before
  · intro clust cluster
    rw [tabled.cluster] at cluster
    rw [Forest.exists_mem_remove, entries clust cluster.2]
    have used := allocated.used clust cluster
    by_cases member : clust ∈ chain owner
    · rw [if_pos member]
      refine iff_of_false (fun zero => zero rfl) ?_
      rintro (⟨index, other, both⟩ | isLost)
      · exact allocated.forest.apart index owner other clust both member
      · exact allocated.apart clust isLost owner member
    · rw [if_neg member, used]
      refine or_congr_left ⟨?_, fun ⟨index, _, before⟩ => ⟨index, before⟩⟩
      rintro ⟨index, before⟩
      exact ⟨index, fun equal => member (equal ▸ before), before⟩
  · intro clust isLost index member
    rcases Forest.exists_mem_remove.mp ⟨index, member⟩ with ⟨other, _, before⟩
    exact allocated.apart clust isLost other before
  · intro clust cluster
    rw [tabled.cluster] at cluster
    rw [entries clust cluster.2]
    split
    next => decide
    next => exact allocated.legal clust cluster

end Release

section Counts

variable {fs after : Fatfs} {count number : Nat}

theorem countUp_iterate (small : count + number < notCounted) :
    countUp^[number] count = count + number := by
  induction number with
  | zero => rfl
  | succ number inductionHypothesis =>
      have below : count + number < notCounted := Nat.lt_of_succ_lt small
      have limit : notCounted = 2 ^ 32 - 1 := rfl
      rw [Function.iterate_succ_apply', inductionHypothesis (Nat.lt_of_succ_lt small), countUp,
        if_pos (Nat.ne_of_lt below), Nat.mod_eq_of_lt (by omega)]
      rfl

theorem countDown_of_pos (positive : 0 < count) (small : count < notCounted) :
    countDown count = count - 1 := by
  have limit : notCounted = 2 ^ 32 - 1 := rfl
  rw [countDown, if_pos (Nat.ne_of_lt small)]
  have split : count + 2 ^ 32 - 1 = count - 1 + 2 ^ 32 := by omega
  rw [split, Nat.add_mod_right, Nat.mod_eq_of_lt (by omega)]

theorem countUp_notCounted (number : Nat) : countUp^[number] notCounted = notCounted :=
  Function.iterate_fixed rfl number

end Counts

end Fatfs

end BbbEth.FatFs
