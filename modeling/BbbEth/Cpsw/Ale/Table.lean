import Mathlib.Data.List.GetD
import Mathlib.Logic.Function.Basic

/-!
# The address table

The table of the address lookup engine with the registers through which it is read and
written, and the searches of `cpswif.c` in it.  An index is returned as an `err_t`, which has
eight bits.
-/

namespace BbbEth.Ale

/-- A byte. -/
abbrev Byte := BitVec 8

/-- A 32-bit word. -/
abbrev Word := BitVec 32

/-- The number of an entry, as the table control register holds it. -/
abbrev Pointer := BitVec 10

/-- The bytes of the three words of an entry, in the order of their addresses. -/
abbrev Entry := Nat → Byte

/-- `err_t`. -/
abbrev Err := BitVec 8

/-- `ERR_VAL`. -/
def errVal : Err := -6

/-- An `err_t` in a variable of 32 bits. -/
def Err.widen (err : Err) : Word := err.signExtend 32

/-- `MAX_ALE_ENTRIES`. -/
def maxAleEntries : Nat := 1024

/-! ## The registers -/

/-- The table, the registers `ALE_TBLW`, and the entries that have been written, each with
what it held before. -/
structure Engine where
  table : Pointer → Entry
  tblw : Entry
  written : List (Pointer × Entry)

/-- An entry has nine bytes: the third word is one byte. -/
def latch (entry : Entry) : Entry := fun index => if index < 9 then entry index else 0

namespace Engine

variable (ale : Engine)

/-- A store to `ALE_TBLCTL`: bit 31 selects a write of the entry. -/
def tblctl (value : Word) : Engine :=
  if value.msb then
    { ale with
      table := Function.update ale.table (value.setWidth 10) ale.tblw
      written := ale.written ++ [(value.setWidth 10, ale.table (value.setWidth 10))] }
  else { ale with tblw := ale.table (value.setWidth 10) }

/-- `CPSWALETableEntrySet`. -/
def cpswAleTableEntrySet (aleTblIdx : Word) (entry : Entry) : Engine :=
  { ale with tblw := latch entry }.tblctl (aleTblIdx ||| 0x80000000)

/-- `CPSWALETableEntryGet`. -/
def cpswAleTableEntryGet (aleTblIdx : Word) : Entry × Engine :=
  ((ale.tblctl aleTblIdx).tblw, ale.tblctl aleTblIdx)

/-- The loop of a search, with the number of entries that are left. -/
def searchFrom (test : Entry → Bool) : Nat → Nat → Engine → Err × Engine
  | 0, _, ale => (errVal, ale)
  | left + 1, idx, ale =>
      let (entry, ale) := ale.cpswAleTableEntryGet (BitVec.ofNat 32 idx)
      if test entry then (BitVec.ofNat 8 idx, ale) else searchFrom test left (idx + 1) ale

/-- A search. -/
def search (test : Entry → Bool) : Err × Engine := searchFrom test maxAleEntries 0 ale

end Engine

/-! ## The first entry -/

/-- The entry with a number. -/
def pointer (idx : Nat) : Pointer := BitVec.ofNat 10 idx

/-- The first entry that passes a test. -/
@[irreducible] def first (test : Entry → Bool) (table : Pointer → Entry) : Option Nat :=
  (List.range maxAleEntries).find? fun idx => test (table (pointer idx))

/-- What a search returns. -/
def Err.ofIndex : Option Nat → Err
  | some idx => BitVec.ofNat 8 idx
  | none => errVal

section First

variable {test : Entry → Bool} {table : Pointer → Entry} {idx : Nat}

theorem pointer_toNat (entry : Pointer) : pointer entry.toNat = entry := by
  unfold pointer
  rw [BitVec.ofNat_toNat, BitVec.setWidth_eq]

theorem toNat_pointer (inside : idx < maxAleEntries) : (pointer idx).toNat = idx := by
  unfold pointer
  rw [BitVec.toNat_ofNat]
  exact Nat.mod_eq_of_lt inside

theorem pointer_inj {other : Nat} (inside : idx < maxAleEntries) (inside' : other < maxAleEntries)
    (same : pointer idx = pointer other) : idx = other := by
  rw [← toNat_pointer inside, same, toNat_pointer inside']

theorem first_eq_some_iff : first test table = some idx ↔
    idx < maxAleEntries ∧ test (table (pointer idx)) = true ∧
      ∀ earlier, earlier < idx → test (table (pointer earlier)) = false := by
  unfold first
  rw [List.find?_range_eq_some, List.mem_range]
  constructor
  · rintro ⟨passes, inside, fail⟩
    exact ⟨inside, passes, fun earlier before => by simpa using fail earlier before⟩
  · rintro ⟨inside, passes, fail⟩
    exact ⟨passes, inside, fun earlier before => by simpa using fail earlier before⟩

theorem first_eq_none_iff : first test table = none ↔ ∀ entry, test (table entry) = false := by
  unfold first
  rw [List.find?_range_eq_none]
  constructor
  · intro fail entry
    have fails := fail entry.toNat entry.isLt
    rw [pointer_toNat] at fails
    simpa using fails
  · intro fail idx _
    rw [fail]
    rfl

end First

namespace Engine

variable {ale : Engine} {test : Entry → Bool} {entry : Entry} {idx : Nat}

theorem cpswAleTableEntryGet_eq (inside : idx < maxAleEntries) :
    ale.cpswAleTableEntryGet (BitVec.ofNat 32 idx) =
      (ale.table (pointer idx), { ale with tblw := ale.table (pointer idx) }) := by
  have small : idx < 1024 := inside
  have read : (BitVec.ofNat 32 idx).msb = false := by
    rw [BitVec.msb_eq_false_iff_two_mul_lt, BitVec.toNat_ofNat]
    omega
  have number : (BitVec.ofNat 32 idx).setWidth 10 = pointer idx :=
    BitVec.setWidth_ofNat_of_le (by decide) _
  unfold cpswAleTableEntryGet tblctl
  rw [read, number]
  rfl

theorem searchFrom_eq (test : Entry → Bool) (left idx : Nat) (ale : Engine)
    (inside : idx + left = maxAleEntries) : ∃ tblw, ale.searchFrom test left idx =
      (.ofIndex ((List.range' idx left).find? fun idx => test (ale.table (pointer idx))),
        { ale with tblw }) := by
  induction left generalizing idx ale with
  | zero => exact ⟨ale.tblw, rfl⟩
  | succ left inductionHypothesis =>
      have small : idx < maxAleEntries := by omega
      unfold searchFrom
      rw [cpswAleTableEntryGet_eq small, List.range'_succ]
      dsimp only
      cases passes : test (ale.table (pointer idx)) with
      | true =>
          simp only [List.find?_cons, passes]
          exact ⟨_, rfl⟩
      | false =>
          simp only [List.find?_cons, passes]
          exact inductionHypothesis (idx + 1) { ale with tblw := ale.table (pointer idx) }
            (by omega)

/-- A search returns the first entry, and leaves the table. -/
theorem search_eq (test : Entry → Bool) (ale : Engine) : ∃ tblw,
    ale.search test = (.ofIndex (first test ale.table), { ale with tblw }) := by
  unfold search first
  rw [List.range_eq_range']
  exact searchFrom_eq test maxAleEntries 0 ale (Nat.zero_add _)

/-- A write goes to the entry that ten bits of the index give. -/
theorem cpswAleTableEntrySet_eq {value : Word} :
    ale.cpswAleTableEntrySet value entry =
      { table := Function.update ale.table (value.setWidth 10) (latch entry)
        tblw := latch entry
        written := ale.written ++ [(value.setWidth 10, ale.table (value.setWidth 10))] } := by
  have write : (value ||| 0x80000000).msb = true := by
    rw [BitVec.msb_or]
    exact Bool.or_true _
  have number : (value ||| 0x80000000).setWidth 10 = value.setWidth 10 := by
    rw [BitVec.setWidth_or]
    exact BitVec.or_zero
  unfold cpswAleTableEntrySet tblctl
  rw [write, number]
  rfl

end Engine

/-! ## Indexes in eight bits -/

/-- The number of the entry that an index of a search gives when it is written. -/
def target (idx : Nat) : Nat := ((Err.ofIndex (some idx)).widen.setWidth 10 : Pointer).toNat

/-- An index below 128 is kept. -/
theorem widen_ofIndex {idx : Nat} (small : idx < 128) :
    (Err.ofIndex (some idx)).widen = BitVec.ofNat 32 idx := by
  have positive : (BitVec.ofNat 8 idx).msb = false := by
    rw [BitVec.msb_eq_false_iff_two_mul_lt, BitVec.toNat_ofNat]
    omega
  unfold Err.widen Err.ofIndex
  rw [BitVec.signExtend_eq_setWidth_of_msb_false positive]
  apply BitVec.eq_of_toNat_eq
  rw [BitVec.toNat_setWidth, BitVec.toNat_ofNat, BitVec.toNat_ofNat]
  omega

/-- No other index is. -/
theorem widen_ofIndex_iff {idx : Nat} (inside : idx < maxAleEntries) :
    (Err.ofIndex (some idx)).widen = BitVec.ofNat 32 idx ↔ idx < 128 := by
  refine ⟨fun same => ?_, widen_ofIndex⟩
  have small : idx < 1024 := inside
  have kept : ((BitVec.ofNat 8 idx).signExtend 32).toInt = (BitVec.ofNat 32 idx).toInt :=
    congrArg BitVec.toInt same
  rw [BitVec.toInt_signExtend_of_le (by decide), BitVec.toInt_eq_toNat_bmod,
    BitVec.toInt_eq_toNat_bmod, BitVec.toNat_ofNat, BitVec.toNat_ofNat] at kept
  simp only [Int.bmod] at kept
  omega

theorem target_lt (idx : Nat) : target idx < maxAleEntries := by
  unfold target maxAleEntries
  omega

end BbbEth.Ale
