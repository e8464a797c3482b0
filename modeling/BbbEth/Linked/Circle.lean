import BbbEth.Linked.Path
import Mathlib.Data.List.Range
import Mathlib.Data.Nat.ModEq

/-!
# Arcs of a circle of cells

Cells are the numbers below `size`, each linked to its successor modulo `size`.
`place size start offset` is the cell `offset` links after `start`, and
`arc size start count` are the `count` cells from `start` on.
-/

namespace BbbEth.Linked

/-- The cell `offset` links after `start`. -/
def place (size start offset : Nat) : Nat := (start + offset) % size

/-- The `count` cells from `start` on, in link order. -/
def arc (size start count : Nat) : List Nat :=
  (List.range count).map (place size start)

variable {size start count offset other : Nat} {next : Nat → Option Nat}

theorem place_lt (positive : 0 < size) : place size start offset < size :=
  Nat.mod_lt _ positive

theorem place_zero (bound : start < size) : place size start 0 = start :=
  Nat.mod_eq_of_lt bound

@[simp] theorem place_place :
    place size (place size start offset) other = place size start (offset + other) := by
  simp only [place, Nat.mod_add_mod, Nat.add_assoc]

@[simp] theorem place_size : place size start (offset + size) = place size start offset := by
  simp only [place, ← Nat.add_assoc, Nat.add_mod_right]

/-- Once around the circle. -/
theorem place_around (bound : start < size) : place size start size = start := by
  rw [place, Nat.add_mod_right, Nat.mod_eq_of_lt bound]

theorem place_injective (small : offset < size) (otherSmall : other < size)
    (same : place size start offset = place size start other) : offset = other := by
  have congruent : Nat.ModEq size offset other := Nat.ModEq.add_left_cancel' start same
  rw [Nat.ModEq, Nat.mod_eq_of_lt small, Nat.mod_eq_of_lt otherSmall] at congruent
  exact congruent

/-- Every cell is at exactly one offset below `size`. -/
theorem exists_place (start : Nat) (bound : other < size) :
    ∃ offset, offset < size ∧ place size start offset = other := by
  refine ⟨(other + size - start % size) % size, Nat.mod_lt _ (by omega), ?_⟩
  have below : start % size < size := Nat.mod_lt _ (by omega)
  simp only [place, Nat.add_mod_mod]
  rw [← Nat.mod_add_mod start size, show start % size + (other + size - start % size) =
    other + size by omega, Nat.add_mod_right, Nat.mod_eq_of_lt bound]

@[simp] theorem arc_zero : arc size start 0 = [] := rfl

@[simp] theorem length_arc : (arc size start count).length = count := by
  simp [arc]

theorem getLast?_arc (positive : 0 < count) :
    (arc size start count).getLast? = some (place size start (count - 1)) := by
  rw [arc, List.getLast?_map, List.getLast?_range, if_neg (Nat.pos_iff_ne_zero.mp positive)]
  rfl

theorem mem_arc {cell : Nat} :
    cell ∈ arc size start count ↔ ∃ offset, offset < count ∧ place size start offset = cell := by
  simp [arc]

theorem arc_succ (bound : start < size) :
    arc size start (count + 1) = start :: arc size (place size start 1) count := by
  simp only [arc, List.range_succ_eq_map, List.map_cons, List.map_map, place_zero bound]
  congr 1
  apply List.map_congr_left
  intro offset _
  simp [Nat.add_comm]

theorem arc_append (left right : Nat) :
    arc size start (left + right) =
      arc size start left ++ arc size (place size start left) right := by
  simp only [arc, List.range_add, List.map_append, List.map_map]
  congr 1
  apply List.map_congr_left
  intro offset _
  simp

theorem nodup_arc (small : count ≤ size) : (arc size start count).Nodup := by
  apply List.Nodup.map_on
  · intro offset member other otherMember same
    rw [List.mem_range] at member otherMember
    exact place_injective (by omega) (by omega) same
  · exact List.nodup_range

/-- The cells before and behind an arc are not in it. -/
theorem notMem_arc_place {added : Nat} (fits : count + added ≤ size) (inside : offset < size)
    (outside : offset < count ∨ count + added ≤ offset) :
    place size start offset ∉ arc size (place size start count) added := by
  intro member
  rcases mem_arc.mp member with ⟨other, small, same⟩
  rw [place_place] at same
  have := place_injective (by omega) inside same
  omega

/-- An arc whose cells are linked to their successors is a path. -/
theorem path_arc (bound : start < size)
    (linked : ∀ offset < count, next (place size start offset) =
      some (place size start (offset + 1))) :
    Path next (some start) (arc size start count) (some (place size start count)) := by
  induction count generalizing start with
  | zero => simp [place_zero bound]
  | succ count inductionHypothesis =>
      have first := linked 0 (by omega)
      rw [place_zero bound] at first
      rw [arc_succ bound, Path.cons_iff, first]
      refine ⟨rfl, ?_⟩
      have rest := @inductionHypothesis (place size start 1) (place_lt (by omega)) (by
          intro offset small
          simpa [Nat.add_comm, Nat.add_left_comm] using linked (offset + 1) (by omega))
      simpa [Nat.add_comm] using rest

/-- An arc that is linked up to its last cell, and closed there. -/
theorem path_arc_closed (bound : start < size)
    (linked : ∀ offset < count, next (place size start offset) =
      some (place size start (offset + 1)))
    (closed : next (place size start count) = none) :
    Path next (some start) (arc size start (count + 1)) none := by
  rw [arc_append, Path.append_iff]
  refine ⟨_, path_arc bound linked, ?_⟩
  have last : arc size (place size start count) 1 = [place size start count] := by
    simp [arc]
  rw [last]
  exact ⟨rfl, closed⟩

end BbbEth.Linked
