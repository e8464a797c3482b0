import BbbEth.Linked.Path
import Mathlib.Logic.Function.Basic
import Mathlib.Tactic.Common

/-!
# Chains that share no cell

Every owner has a chain of cells that ends; a cell is in the chain of one owner only.
-/

namespace BbbEth.Linked

universe u v

variable {α : Type u} {ι : Type v}

/-- The chains of all owners, each from its first cell to the end. -/
structure Forest (next : α → Option α) (chain : ι → List α) : Prop where
  path : ∀ owner, Path next (chain owner).head? (chain owner) none
  apart : ∀ owner other, owner ≠ other → ∀ cell ∈ chain owner, cell ∉ chain other

namespace Path

variable {next other : α → Option α} {start : Option α} {cells : List α} {cell : α}

/-- A cell that is linked to the last one is the new end of the chain. -/
theorem snoc (path : Path next start cells none)
    (last : ∀ link, cells.getLast? = some link → other link = some cell)
    (same : ∀ link ∈ cells, cells.getLast? ≠ some link → other link = next link)
    (ended : other cell = none) :
    Path other (cells ++ [cell]).head? (cells ++ [cell]) none := by
  induction cells generalizing start with
  | nil => exact ⟨rfl, ended⟩
  | cons first rest inductionHypothesis =>
      have distinct := path.nodup
      refine ⟨rfl, ?_⟩
      change Path other (other first) (rest ++ [cell]) none
      cases rest with
      | nil =>
          rw [last first rfl]
          exact ⟨rfl, ended⟩
      | cons second others =>
          have notLast : (first :: second :: others).getLast? ≠ some first := by
            rw [List.getLast?_cons_cons]
            intro isLast
            exact (List.nodup_cons.mp distinct).1 (List.mem_of_getLast? isLast)
          have linked : next first = some second := path.2.1
          rw [same first (by simp) notLast, linked]
          rw [List.getLast?_cons_cons] at last
          refine inductionHypothesis path.2 last fun link member notEnd => ?_
          exact same link (by simp [member]) (by rwa [List.getLast?_cons_cons])

/-- Only the last cell of a chain is linked to none. -/
theorem getLast?_eq_some_iff (path : Path next start cells none) (member : cell ∈ cells) :
    cells.getLast? = some cell ↔ next cell = none := by
  induction cells generalizing start with
  | nil => cases member
  | cons first rest inductionHypothesis =>
      cases rest with
      | nil =>
          obtain rfl := List.mem_singleton.mp member
          exact iff_of_true rfl path.2
      | cons second others =>
          rw [List.getLast?_cons_cons]
          rcases List.mem_cons.mp member with rfl | later
          · refine iff_of_false (fun isLast => ?_) ?_
            · exact (List.nodup_cons.mp path.nodup).1 (List.mem_of_getLast? isLast)
            · rw [show next cell = some second from path.2.1]
              exact Option.some_ne_none second
          · exact inductionHypothesis path.2 later

end Path

namespace Forest

variable {next other : α → Option α} {chain : ι → List α} {owner : ι} {cell : α}

theorem nodup (forest : Forest next chain) : (chain owner).Nodup := (forest.path owner).nodup

/-- The chains depend on the links of their cells only. -/
theorem congr (forest : Forest next chain)
    (same : ∀ owner, ∀ cell ∈ chain owner, other cell = next cell) : Forest other chain where
  path owner := (forest.path owner).congr (same owner)
  apart := forest.apart

variable [DecidableEq ι]

theorem exists_mem_extend {new : α} :
    (∃ index, cell ∈ Function.update chain owner (chain owner ++ [new]) index) ↔
      cell = new ∨ ∃ index, cell ∈ chain index := by
  constructor
  · rintro ⟨index, member⟩
    by_cases here : index = owner
    · subst here
      rw [Function.update_self, List.mem_append, List.mem_singleton] at member
      exact member.symm.imp_right fun before => ⟨index, before⟩
    · rw [Function.update_of_ne here] at member
      exact .inr ⟨index, member⟩
  · rintro (rfl | ⟨index, member⟩)
    · exact ⟨owner, by rw [Function.update_self]; simp⟩
    · refine ⟨index, ?_⟩
      by_cases here : index = owner
      · subst here
        rw [Function.update_self]
        exact List.mem_append_left _ member
      · rwa [Function.update_of_ne here]

theorem exists_mem_remove : (∃ index, cell ∈ Function.update chain owner [] index) ↔
    ∃ index, index ≠ owner ∧ cell ∈ chain index := by
  constructor
  · rintro ⟨index, member⟩
    by_cases here : index = owner
    · subst here
      rw [Function.update_self] at member
      cases member
    · rw [Function.update_of_ne here] at member
      exact ⟨index, here, member⟩
  · rintro ⟨index, here, member⟩
    exact ⟨index, by rwa [Function.update_of_ne here]⟩

/-- A cell of no chain becomes the new end of one. -/
theorem extend (forest : Forest next chain) (fresh : ∀ owner, cell ∉ chain owner)
    (ended : other cell = none)
    (last : ∀ link, (chain owner).getLast? = some link → other link = some cell)
    (same : ∀ index, ∀ link ∈ chain index, (chain owner).getLast? ≠ some link →
      other link = next link) :
    Forest other (Function.update chain owner (chain owner ++ [cell])) where
  path index := by
    by_cases here : index = owner
    · subst here
      rw [Function.update_self]
      exact (forest.path index).snoc last (same index) ended
    · rw [Function.update_of_ne here]
      refine (forest.path index).congr fun link member => same index link member fun isLast => ?_
      exact forest.apart index owner here link member (List.mem_of_getLast? isLast)
  apart index another distinct link member := by
    by_cases here : index = owner
    · subst here
      rw [Function.update_self] at member
      rw [Function.update_of_ne (Ne.symm distinct)]
      rcases List.mem_append.mp member with before | added
      · exact forest.apart index another distinct link before
      · rw [List.mem_singleton.mp added]
        exact fresh another
    · rw [Function.update_of_ne here] at member
      by_cases there : another = owner
      · subst there
        rw [Function.update_self]
        intro both
        rcases List.mem_append.mp both with before | added
        · exact forest.apart index another distinct link member before
        · rw [List.mem_singleton.mp added] at member
          exact fresh index member
      · rw [Function.update_of_ne there]
        exact forest.apart index another distinct link member

/-- To cut the links of one chain leaves the others as they are. -/
theorem remove (forest : Forest next chain)
    (same : ∀ index, index ≠ owner → ∀ link ∈ chain index, other link = next link) :
    Forest other (Function.update chain owner []) where
  path index := by
    by_cases here : index = owner
    · subst here
      rw [Function.update_self]
      rfl
    · rw [Function.update_of_ne here]
      exact (forest.path index).congr (same index here)
  apart index another distinct link member := by
    by_cases here : index = owner
    · subst here
      rw [Function.update_self] at member
      cases member
    · rw [Function.update_of_ne here] at member
      by_cases there : another = owner
      · subst there
        rw [Function.update_self]
        exact List.not_mem_nil
      · rw [Function.update_of_ne there]
        exact forest.apart index another distinct link member

end Forest

end BbbEth.Linked
