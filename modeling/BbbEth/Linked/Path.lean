import Mathlib.Data.List.Nodup

/-!
# Chains of linked cells

`Path next start cells finish` says that following `next` from `start` visits
exactly `cells`, in order, and stops at `finish`.  A null pointer is `none`.
-/

namespace BbbEth.Linked

universe u

variable {α : Type u}

/-- Following `next` from `start` visits `cells` and arrives at `finish`. -/
def Path (next : α → Option α) : Option α → List α → Option α → Prop
  | start, [], finish => start = finish
  | start, cell :: cells, finish => start = some cell ∧ Path next (next cell) cells finish

namespace Path

variable {next other : α → Option α} {start middle finish : Option α}
variable {cells left right : List α} {cell : α}

@[simp] theorem nil_iff : Path next start [] finish ↔ start = finish := Iff.rfl

@[simp] theorem cons_iff :
    Path next start (cell :: cells) finish ↔
      start = some cell ∧ Path next (next cell) cells finish := Iff.rfl

theorem append_iff :
    Path next start (left ++ right) finish ↔
      ∃ middle, Path next start left middle ∧ Path next middle right finish := by
  induction left generalizing start with
  | nil => simp
  | cons cell left inductionHypothesis =>
      simp only [List.cons_append, cons_iff, inductionHypothesis]
      constructor
      · rintro ⟨rfl, middle, first, second⟩
        exact ⟨middle, ⟨rfl, first⟩, second⟩
      · rintro ⟨middle, ⟨rfl, first⟩, second⟩
        exact ⟨rfl, middle, first, second⟩

/-- A path only depends on the links of the cells it visits. -/
theorem congr (path : Path next start cells finish)
    (same : ∀ cell ∈ cells, other cell = next cell) : Path other start cells finish := by
  induction cells generalizing start with
  | nil => exact path
  | cons cell cells inductionHypothesis =>
      obtain ⟨rfl, rest⟩ := path
      refine ⟨rfl, ?_⟩
      rw [same cell (by simp)]
      exact inductionHypothesis rest fun other member => same other (by simp [member])

/-- What holds of the first cell and of the successors holds of all cells. -/
theorem forall_mem (holds : α → Prop) (path : Path next start cells finish)
    (first : ∀ cell, start = some cell → holds cell)
    (later : ∀ cell other, holds cell → next cell = some other → holds other) :
    ∀ cell ∈ cells, holds cell := by
  induction cells generalizing start with
  | nil => simp
  | cons head tail inductionHypothesis =>
      obtain ⟨rfl, rest⟩ := path
      have here := first head rfl
      intro cell member
      rcases List.mem_cons.mp member with rfl | inside
      · exact here
      · exact inductionHypothesis rest (fun other => later head other here) cell inside

/-- A null-terminated chain has only one list of cells. -/
theorem unique (first : Path next start left none) (second : Path next start right none) :
    left = right := by
  induction left generalizing start right with
  | nil =>
      cases right with
      | nil => rfl
      | cons cell right =>
          obtain ⟨startEq, _⟩ := second
          simp only [nil_iff] at first
          simp [first] at startEq
  | cons cell left inductionHypothesis =>
      obtain ⟨rfl, first⟩ := first
      cases right with
      | nil => simp at second
      | cons other right =>
          obtain ⟨same, second⟩ := second
          obtain rfl := Option.some.inj same
          rw [inductionHypothesis first second]

theorem of_some (path : Path next (some cell) cells none) :
    ∃ rest, cells = cell :: rest ∧ Path next (next cell) rest none := by
  cases cells with
  | nil => simp at path
  | cons head rest =>
      obtain ⟨same, tail⟩ := path
      obtain rfl := Option.some.inj same
      exact ⟨rest, rfl, tail⟩

/-- A null-terminated chain ends at its last cell. -/
theorem next_getLast (path : Path next start cells none) (nonempty : cells ≠ []) :
    next (cells.getLast nonempty) = none := by
  rw [← List.dropLast_append_getLast nonempty, append_iff] at path
  rcases path with ⟨middle, _, _, ended⟩
  exact ended

/-- Every tail of a null-terminated chain is null-terminated. -/
theorem suffix (path : Path next start cells none) (member : cell ∈ cells) :
    ∃ rest, Path next (some cell) (cell :: rest) none ∧ rest.length < cells.length := by
  induction cells generalizing start with
  | nil => simp at member
  | cons head tail inductionHypothesis =>
      obtain ⟨rfl, rest⟩ := path
      rcases List.mem_cons.mp member with rfl | later
      · exact ⟨tail, ⟨rfl, rest⟩, by simp⟩
      · obtain ⟨after, found, shorter⟩ := inductionHypothesis rest later
        exact ⟨after, found, by simp only [List.length_cons]; omega⟩

/-- A null-terminated chain visits no cell twice. -/
theorem nodup (path : Path next start cells none) : cells.Nodup := by
  induction cells generalizing start with
  | nil => exact List.nodup_nil
  | cons head tail inductionHypothesis =>
      obtain ⟨rfl, rest⟩ := path
      refine List.nodup_cons.mpr ⟨fun member => ?_, inductionHypothesis rest⟩
      obtain ⟨after, found, shorter⟩ := suffix rest member
      have same : head :: after = head :: tail := unique found ⟨rfl, rest⟩
      simp only [List.cons.injEq, true_and] at same
      subst same
      omega

end Path

end BbbEth.Linked
