import Mathlib.Logic.Function.Basic

/-!
# Sequences of stores

What a memory holds after a sequence of stores.  Where all stores to an address store one value,
their order does not matter.
-/

namespace BbbEth.Registers

universe u v

/-- A store of a value at an address. -/
structure Store (address : Type u) (value : Type v) where
  address : address
  value : value
  deriving DecidableEq

namespace Store

variable {address : Type u} {value : Type v} [DecidableEq address]

/-- A memory behind a sequence of stores. -/
def apply (memory : address → value) : List (Store address value) → address → value
  | [] => memory
  | store :: stores => apply (Function.update memory store.address store.value) stores

variable {memory : address → value} {stores later : List (Store address value)} {place : address}
  {stored : value}

theorem apply_append : apply memory (stores ++ later) = apply (apply memory stores) later := by
  induction stores generalizing memory with
  | nil => rfl
  | cons store stores inductionHypothesis => exact inductionHypothesis

/-- What no store is at. -/
theorem apply_of_forall_ne (apart : ∀ store ∈ stores, store.address ≠ place) :
    apply memory stores place = memory place := by
  induction stores generalizing memory with
  | nil => rfl
  | cons store stores inductionHypothesis =>
      rcases List.forall_mem_cons.mp apart with ⟨first, others⟩
      rw [apply, inductionHypothesis others, Function.update_of_ne first.symm]

/-- What every store at an address leaves there. -/
theorem apply_of_forall_eq (agree : ∀ store ∈ stores, store.address = place → store.value = stored)
    (reached : ∃ store ∈ stores, store.address = place) :
    apply memory stores place = stored := by
  induction stores generalizing memory with
  | nil =>
      rcases reached with ⟨_, member, _⟩
      cases member
  | cons store stores inductionHypothesis =>
      rcases List.forall_mem_cons.mp agree with ⟨first, others⟩
      by_cases again : ∃ store ∈ stores, store.address = place
      · exact inductionHypothesis others again
      · have apart : ∀ store ∈ stores, store.address ≠ place :=
          fun store member same => again ⟨store, member, same⟩
        have here : store.address = place := by
          rcases reached with ⟨other, member, same⟩
          rcases List.mem_cons.mp member with rfl | member
          · exact same
          · exact absurd same (apart other member)
        rw [apply, apply_of_forall_ne apart, here, Function.update_self, first here]

end Store

end BbbEth.Registers
