import Mathlib.Data.Finset.Basic

/-!
# Masks

A set of small numbers as the bits of a word.  A number is added to the set by setting its bit
and is taken out of it by clearing the bit.
-/

namespace BbbEth.Registers

variable {bound width : Nat} {members : Finset (Fin bound)} {mask : BitVec width}
  {number : Fin bound}

/-- The bits of a mask are the members of a set. -/
def Lists (members : Finset (Fin bound)) (mask : BitVec width) : Prop :=
  ∀ bit, mask.getLsbD bit = true ↔ ∃ member ∈ members, member.val = bit

theorem Lists.empty : Lists (∅ : Finset (Fin bound)) (0 : BitVec width) := by
  intro bit
  rw [BitVec.ofNat_eq_ofNat, BitVec.getLsbD_zero]
  refine iff_of_false Bool.false_ne_true ?_
  rintro ⟨member, inside, _⟩
  exact Finset.notMem_empty member inside

theorem Lists.insert (lists : Lists members mask) (inside : number.val < width) :
    Lists (insert number members) (mask ||| BitVec.twoPow width number) := by
  intro bit
  rw [BitVec.getLsbD_or, Bool.or_eq_true, lists bit, BitVec.getLsbD_twoPow, Bool.and_eq_true,
    decide_eq_true_iff, decide_eq_true_iff]
  constructor
  · rintro (⟨member, among, same⟩ | ⟨_, same⟩)
    · exact ⟨member, Finset.mem_insert_of_mem among, same⟩
    · exact ⟨number, Finset.mem_insert_self number members, same⟩
  · rintro ⟨member, among, same⟩
    rcases Finset.mem_insert.mp among with rfl | old
    · exact .inr ⟨inside, same⟩
    · exact .inl ⟨member, old, same⟩

theorem Lists.erase (lists : Lists members mask) :
    Lists (members.erase number) (mask &&& ~~~BitVec.twoPow width number) := by
  intro bit
  rw [BitVec.getLsbD_and, Bool.and_eq_true, lists bit, BitVec.getLsbD_not, Bool.and_eq_true,
    BitVec.getLsbD_twoPow, decide_eq_true_iff]
  constructor
  · rintro ⟨⟨member, among, same⟩, small, cleared⟩
    refine ⟨member, Finset.mem_erase.mpr ⟨?_, among⟩, same⟩
    rintro rfl
    rw [same, decide_eq_true small, decide_eq_true rfl] at cleared
    exact absurd cleared (by decide)
  · rintro ⟨member, among, same⟩
    rcases Finset.mem_erase.mp among with ⟨other, old⟩
    have set : mask.getLsbD bit = true := (lists bit).mpr ⟨member, old, same⟩
    have apart : number.val ≠ bit := fun here => other (Fin.ext (same.trans here.symm))
    refine ⟨⟨member, old, same⟩, BitVec.lt_of_getLsbD set, ?_⟩
    rw [decide_eq_false apart, Bool.and_false]
    rfl

end BbbEth.Registers
