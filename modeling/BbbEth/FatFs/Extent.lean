import BbbEth.FatFs.Consistency
import BbbEth.FatFs.File
import Mathlib.Data.List.GetD

/-!
# The sectors of a chain

The blocks of a file are the sectors of its clusters, in the order of the chain.  No two blocks
are the same sector, and two files have no sector in common.
-/

namespace BbbEth.Linked.Path

variable {α : Type} {next : α → Option α} {start : Option α} {cells : List α} {index : Nat}

theorem head?_eq (path : Path next start cells none) : cells.head? = start := by
  cases cells with
  | nil => exact path.symm
  | cons first rest => exact path.1.symm

/-- A cell is linked to the one behind it. -/
theorem next_getElem (path : Path next start cells none) (inside : index < cells.length) :
    next cells[index] = cells[index + 1]? := by
  induction cells generalizing start index with
  | nil => exact absurd inside (Nat.not_lt_zero _)
  | cons first rest inductionHypothesis =>
      cases index with
      | zero =>
          rw [List.getElem_cons_zero, List.getElem?_cons_succ, ← List.head?_eq_getElem?]
          exact path.2.head?_eq.symm
      | succ index =>
          rw [List.getElem_cons_succ, List.getElem?_cons_succ]
          exact inductionHypothesis path.2 (Nat.lt_of_succ_lt_succ inside)

end BbbEth.Linked.Path

namespace BbbEth.FatFs

open BbbEth.Console BbbEth.Stateful BbbEth.Linked

namespace Geometry

variable (geometry : Geometry)

/-- The sectors of a cluster. -/
def Holds (clust number : Nat) : Prop :=
  geometry.clust2sect clust ≤ number ∧ number < geometry.clust2sect clust + geometry.sectsClust

/-- The number of sectors of a chain. -/
def blocks (cells : List Nat) : Nat := cells.length * geometry.sectsClust

/-- The sector of a block of a chain. -/
def block (cells : List Nat) (index : Nat) : Nat :=
  geometry.clust2sect (cells.getD (index / geometry.sectsClust) 0) + index % geometry.sectsClust

variable {geometry} {clust other number index count : Nat} {cells others : List Nat}

/-! ## Clusters -/

theorem WellFormed.clust2sect_eq (wellFormed : geometry.WellFormed)
    (cluster : geometry.Cluster clust) :
    geometry.clust2sect clust = (clust - 2) * geometry.sectsClust + geometry.database := by
  have small := wellFormed.maxClust_lt
  have bounded := wellFormed.bounded
  have least := cluster.1
  have below := cluster.2
  have most : (clust - 2) * geometry.sectsClust ≤ (geometry.maxClust - 2) * geometry.sectsClust :=
    Nat.mul_le_mul_right _ (by omega)
  have shifted : ∀ value, 2 ≤ value → value < 2 ^ 28 → (value + 2 ^ 32 - 2) % 2 ^ 32 = value - 2 := by
    intro value positive limit
    have split : value + 2 ^ 32 - 2 = value - 2 + 2 ^ 32 := by omega
    rw [split, Nat.add_mod_right, Nat.mod_eq_of_lt (by omega)]
  unfold clust2sect
  simp only [shifted clust least (by omega), shifted geometry.maxClust (by omega) small]
  rw [if_neg (by omega), Nat.mod_eq_of_lt (by omega)]

/-- The sectors of a cluster are behind the copies of the FAT, and on the card. -/
theorem WellFormed.holds_bounds (wellFormed : geometry.WellFormed)
    (cluster : geometry.Cluster clust) (holds : geometry.Holds clust number) :
    geometry.copiesEnd ≤ number ∧ number < 2 ^ 32 := by
  have room := wellFormed.room
  have bounded := wellFormed.bounded
  have below := cluster.2
  have most : (clust - 2 + 1) * geometry.sectsClust ≤
      (geometry.maxClust - 2) * geometry.sectsClust :=
    Nat.mul_le_mul_right _ (by have := cluster.1; omega)
  rw [Nat.succ_mul] at most
  unfold Holds at holds
  rw [wellFormed.clust2sect_eq cluster] at holds
  omega

/-- A sector is in one cluster only. -/
theorem WellFormed.holds_unique (wellFormed : geometry.WellFormed)
    (cluster : geometry.Cluster clust) (otherCluster : geometry.Cluster other)
    (holds : geometry.Holds clust number) (otherHolds : geometry.Holds other number) :
    clust = other := by
  have position : ∀ value, geometry.Cluster value → geometry.Holds value number →
      (number - geometry.database) / geometry.sectsClust = value - 2 := by
    intro value inside holds
    unfold Holds at holds
    rw [wellFormed.clust2sect_eq inside] at holds
    exact Nat.div_eq_of_lt_le (by omega) (by rw [Nat.succ_mul]; omega)
  have same := (position clust cluster holds).symm.trans (position other otherCluster otherHolds)
  have := cluster.1
  have := otherCluster.1
  omega

/-! ## Blocks -/

theorem cell_lt (below : index < geometry.blocks cells) :
    index / geometry.sectsClust < cells.length :=
  Nat.div_lt_of_lt_mul (by rwa [Nat.mul_comm])

theorem cell_mem (below : index < geometry.blocks cells) :
    cells.getD (index / geometry.sectsClust) 0 ∈ cells := by
  rw [List.getD_eq_getElem _ _ (cell_lt below)]
  exact List.getElem_mem _

theorem WellFormed.holds_block (wellFormed : geometry.WellFormed) :
    geometry.Holds (cells.getD (index / geometry.sectsClust) 0) (geometry.block cells index) :=
  ⟨Nat.le_add_right _ _, Nat.add_lt_add_left (Nat.mod_lt _ wellFormed.sectsClust) _⟩

/-- Two blocks that are the same sector are at the same place of the same cluster. -/
theorem WellFormed.block_inj (wellFormed : geometry.WellFormed)
    (inside : ∀ clust ∈ cells, geometry.Cluster clust)
    (otherInside : ∀ clust ∈ others, geometry.Cluster clust)
    (below : index < geometry.blocks cells) (otherBelow : other < geometry.blocks others)
    (same : geometry.block cells index = geometry.block others other) :
    cells.getD (index / geometry.sectsClust) 0 = others.getD (other / geometry.sectsClust) 0 ∧
      index % geometry.sectsClust = other % geometry.sectsClust := by
  have cluster := wellFormed.holds_unique (inside _ (cell_mem below))
    (otherInside _ (cell_mem otherBelow)) wellFormed.holds_block
    (by rw [same]; exact wellFormed.holds_block)
  refine ⟨cluster, ?_⟩
  unfold block at same
  rw [cluster] at same
  exact Nat.add_left_cancel same

/-- No two blocks of a chain are the same sector. -/
theorem WellFormed.block_injective (wellFormed : geometry.WellFormed) (distinct : cells.Nodup)
    (inside : ∀ clust ∈ cells, geometry.Cluster clust) (below : index < geometry.blocks cells)
    (otherBelow : other < geometry.blocks cells)
    (same : geometry.block cells index = geometry.block cells other) : index = other := by
  obtain ⟨cluster, place⟩ := wellFormed.block_inj inside inside below otherBelow same
  rw [List.getD_eq_getElem _ _ (cell_lt below), List.getD_eq_getElem _ _ (cell_lt otherBelow)]
    at cluster
  have quotient := (distinct.getElem_inj_iff).mp cluster
  rw [← Nat.div_add_mod index geometry.sectsClust, quotient, place, Nat.div_add_mod]

/-- The blocks of a cluster follow one another. -/
theorem block_add (room : index % geometry.sectsClust + count < geometry.sectsClust) :
    geometry.block cells (index + count) = geometry.block cells index + count := by
  have positive : 0 < geometry.sectsClust := by omega
  have split : index + count = index % geometry.sectsClust + count +
      geometry.sectsClust * (index / geometry.sectsClust) := by
    have := Nat.div_add_mod index geometry.sectsClust
    omega
  unfold block
  rw [split, Nat.add_mul_div_left _ _ positive, Nat.add_mul_mod_self_left, Nat.div_eq_of_lt room,
    Nat.mod_eq_of_lt room, Nat.zero_add, Nat.add_assoc]

/-- The sectors of a cluster are all in the chain. -/
theorem add_le_blocks (inside : index < geometry.blocks cells)
    (part : index % geometry.sectsClust + count ≤ geometry.sectsClust) :
    index + count ≤ geometry.blocks cells := by
  have split := Nat.div_add_mod index geometry.sectsClust
  have most : (index / geometry.sectsClust + 1) * geometry.sectsClust ≤ geometry.blocks cells :=
    Nat.mul_le_mul_right _ (cell_lt inside)
  rw [Nat.succ_mul, Nat.mul_comm] at most
  omega

theorem block_of_start (start : index % geometry.sectsClust = 0) :
    geometry.block cells index =
      geometry.clust2sect (cells.getD (index / geometry.sectsClust) 0) := by
  unfold block
  rw [start, Nat.add_zero]

/-- A chain that grows keeps its blocks. -/
theorem block_append (below : index < geometry.blocks cells) :
    geometry.block (cells ++ others) index = geometry.block cells index := by
  unfold block
  rw [List.getD_append _ _ _ _ (cell_lt below)]

end Geometry

namespace Fatfs

variable {fs : Fatfs} {ι : Type} {chain : ι → List Nat} {lost : Nat → Prop} {owner : ι}
variable {index : Nat}

/-- The entry of a cluster is the next one of its chain. -/
theorem Allocated.entry_getD (allocated : fs.Allocated chain lost)
    (inside : index + 1 < (chain owner).length) :
    fs.entry ((chain owner).getD index 0) = (chain owner).getD (index + 1) 0 := by
  have linked := (allocated.forest.path owner).next_getElem (Nat.lt_of_succ_lt inside)
  rw [List.getElem?_eq_getElem inside] at linked
  rw [List.getD_eq_getElem _ _ inside, List.getD_eq_getElem _ _ (Nat.lt_of_succ_lt inside)]
  exact (Geometry.link_eq_some.mp linked).2

/-- The entry of the last cluster is none. -/
theorem Allocated.entry_last (allocated : fs.Allocated chain lost)
    (last : index + 1 = (chain owner).length) :
    ¬ fs.Cluster (fs.entry ((chain owner).getD index 0)) := by
  have inside : index < (chain owner).length := by omega
  have linked := (allocated.forest.path owner).next_getElem inside
  rw [List.getElem?_eq_none last.ge] at linked
  rw [List.getD_eq_getElem _ _ inside]
  intro cluster
  rw [next, Geometry.link, if_pos cluster] at linked
  cases linked

end Fatfs

end BbbEth.FatFs
