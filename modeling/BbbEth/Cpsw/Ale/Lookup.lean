import BbbEth.Cpsw.Ale.Unique

/-!
# The entry of a key

The table gives for a key the first entry that has it.  An operation that adds an entry changes
what the table gives for its own key; another key loses its entry only if that one is replaced.
-/

namespace BbbEth.Ale

open Engine

/-- The entry of a key. -/
def lookup (wanted : Key) (table : Pointer → Entry) : Option Entry :=
  (first wanted.test table).map fun idx => table (pointer idx)

/-- The number of the entry that is written for a key: that of its own entry, of a free one or
of one that can age. -/
def place (wanted : Key) (table : Pointer → Entry) : Option Nat :=
  (first wanted.test table).or ((first isFree table).or (first isAgeable table))

section Lookup

variable {wanted : Key} {table : Pointer → Entry} {entry stored : Entry} {idx : Nat}

theorem lookup_eq_none_iff :
    lookup wanted table = none ↔ ∀ entry, key (table entry) ≠ some wanted := by
  unfold lookup
  rw [Option.map_eq_none_iff, first_test_none]

theorem lookup_first (found : first wanted.test table = some idx) :
    lookup wanted table = some (table (pointer idx)) := by
  unfold lookup
  rw [found]
  rfl

theorem key_lookup (found : lookup wanted table = some entry) : key entry = some wanted := by
  unfold lookup at found
  rcases Option.map_eq_some_iff.mp found with ⟨idx, isFirst, rfl⟩
  exact Key.test_iff.mp (first_eq_some_iff.mp isFirst).2.1

/-- What an operation fills is the entry of its key or none. -/
theorem ready_lookup : Ready wanted ((lookup wanted table).getD noEntry) := by
  cases found : lookup wanted table with
  | none => exact .inl rfl
  | some entry => exact .inr (key_lookup found)

theorem place_none (nowhere : place wanted table = none) :
    first wanted.test table = none ∧ first isFree table = none ∧
      first isAgeable table = none := by
  unfold place at nowhere
  rwa [Option.or_eq_none_iff, Option.or_eq_none_iff] at nowhere

theorem place_inside (placed : place wanted table = some idx) : idx < maxAleEntries := by
  unfold place at placed
  rcases Option.or_eq_some_iff.mp placed with own | ⟨_, other⟩
  · exact (first_eq_some_iff.mp own).1
  · rcases Option.or_eq_some_iff.mp other with free | ⟨_, ageable⟩
    · exact (first_eq_some_iff.mp free).1
    · exact (first_eq_some_iff.mp ageable).1

/-- No entry in front of the one that is written has the key. -/
theorem place_earlier (placed : place wanted table = some idx) {earlier : Nat}
    (before : earlier < idx) : key (table (pointer earlier)) ≠ some wanted := by
  unfold place at placed
  rcases Option.or_eq_some_iff.mp placed with own | ⟨absent, _⟩
  · rw [ne_eq, ← Key.test_iff, (first_eq_some_iff.mp own).2.2 earlier before]
    exact Bool.false_ne_true
  · exact first_test_none.mp absent _

end Lookup

/-! ## After a write -/

section Entered

variable {wanted : Key} {ale : Engine} {stored : Entry} {idx : Nat}

theorem entered_self : (ale.entered idx stored).table (pointer idx) = latch stored :=
  Function.update_self ..

theorem entered_other {entry : Pointer} (other : entry ≠ pointer idx) :
    (ale.entered idx stored).table entry = ale.table entry :=
  Function.update_of_ne other ..

/-- The entry that is written is the first one with its key, if there is none in front of it. -/
theorem first_entered (inside : idx < maxAleEntries) (filled : key stored = some wanted)
    (earlier : ∀ earlier, earlier < idx → key (ale.table (pointer earlier)) ≠ some wanted) :
    first wanted.test (ale.entered idx stored).table = some idx := by
  refine first_eq_some_iff.mpr ⟨inside, ?_, fun other before => ?_⟩
  · rw [entered_self, Key.test_iff, key_latch, filled]
  · have apart : pointer other ≠ pointer idx := fun same =>
      before.ne (pointer_inj (Nat.lt_trans before inside) inside same)
    rw [entered_other apart, ← Bool.not_eq_true, Key.test_iff]
    exact earlier other before

theorem lookup_entered (inside : idx < maxAleEntries) (filled : key stored = some wanted)
    (earlier : ∀ earlier, earlier < idx → key (ale.table (pointer earlier)) ≠ some wanted) :
    lookup wanted (ale.entered idx stored).table = some (latch stored) := by
  rw [lookup_first (first_entered inside filled earlier), entered_self]

/-- A key that neither the old nor the new entry has keeps its entry. -/
theorem lookup_entered_other (new : key stored ≠ some wanted)
    (old : key (ale.table (pointer idx)) ≠ some wanted) :
    lookup wanted (ale.entered idx stored).table = lookup wanted ale.table := by
  have same : ∀ entry, key ((ale.entered idx stored).table entry) = some wanted ↔
      key (ale.table entry) = some wanted := by
    intro entry
    by_cases here : entry = pointer idx
    · rw [here, entered_self, key_latch]
      exact iff_of_false new old
    · rw [entered_other here]
  cases found : first wanted.test ale.table with
  | none =>
      have absent := first_test_none.mp found
      rw [lookup_eq_none_iff.mpr absent, lookup_eq_none_iff]
      exact fun entry => mt (same entry).mp (absent entry)
  | some number =>
      rcases first_eq_some_iff.mp found with ⟨small, has, fails⟩
      have apart : pointer number ≠ pointer idx := by
        intro here
        rw [here] at has
        exact old (Key.test_iff.mp has)
      have isFirst : first wanted.test (ale.entered idx stored).table = some number := by
        refine first_eq_some_iff.mpr ⟨small, ?_, fun earlier before => ?_⟩
        · exact Key.test_iff.mpr ((same _).mpr (Key.test_iff.mp has))
        · have fail := fails earlier before
          rw [← Bool.not_eq_true, Key.test_iff] at fail ⊢
          exact mt (same _).mp fail
      rw [lookup_first found, lookup_first isFirst, entered_other apart]

end Entered

/-! ## Adding -/

section Add

variable {wanted : Key} {ale : Engine} {fill : Entry → Entry} {idx : Nat}

/-- What an operation that adds an entry starts from. -/
def base (reads : Bool) (wanted : Key) (table : Pointer → Entry) : Entry :=
  if reads then (lookup wanted table).getD noEntry else noEntry

theorem ready_base {reads : Bool} {table : Pointer → Entry} :
    Ready wanted (base reads wanted table) := by
  cases reads with
  | false => exact .inl rfl
  | true => exact ready_lookup

/-- The entry is written where its place is. -/
theorem add_at {reads : Bool} (placed : place wanted ale.table = some idx) (small : idx < 128) :
    add wanted.find reads fill ale =
      (.ofIndex (some idx), ale.entered idx (fill (base reads wanted ale.table))) := by
  unfold place at placed
  unfold base
  rcases Option.or_eq_some_iff.mp placed with own | ⟨absent, other⟩
  · rw [add_present own small, lookup_first own]
    rfl
  · have none : lookup wanted ale.table = .none :=
      lookup_eq_none_iff.mpr (first_test_none.mp absent)
    have start : (if reads then (lookup wanted ale.table).getD noEntry else noEntry) = noEntry := by
      rw [none]
      exact ite_self _
    rw [start]
    rcases Option.or_eq_some_iff.mp other with free | ⟨full, ageable⟩
    · have adds : ∃ tblw, add wanted.find reads fill ale = (.ofIndex (some idx), _) :=
        add_free absent free (ofIndex_ne small)
      rcases adds with ⟨tblw, adds⟩
      rw [adds, set_small small]
    · have adds : ∃ tblw, add wanted.find reads fill ale = _ := add_full absent full
      rcases adds with ⟨tblw, adds⟩
      rw [adds, ageable, if_neg (ofIndex_ne small), set_small small]

theorem add_place (placed : place wanted ale.table = some idx) (small : idx < 128) :
    add wanted.find true fill ale =
      (.ofIndex (some idx), ale.entered idx (fill ((lookup wanted ale.table).getD noEntry))) :=
  add_at placed small

/-- Without a place nothing is written. -/
theorem add_nowhere {reads : Bool} (nowhere : place wanted ale.table = none) : ∃ tblw,
    add wanted.find reads fill ale = (errVal, { ale with tblw }) := by
  rcases place_none nowhere with ⟨absent, full, none⟩
  have adds : ∃ tblw, add wanted.find reads fill ale = _ := add_full absent full
  rcases adds with ⟨tblw, adds⟩
  rw [none, if_pos ofIndex_none] at adds
  exact ⟨tblw, adds⟩

section Filled

variable (fills : ∀ entry, Ready wanted entry → key (fill entry) = some wanted)
  (placed : place wanted ale.table = some idx) (small : idx < 128)
include fills placed small

/-- The entry that an operation adds is the one of its key. -/
theorem lookup_add : lookup wanted (add wanted.find true fill ale).2.table =
    some (latch (fill ((lookup wanted ale.table).getD noEntry))) := by
  rw [add_place placed small]
  exact lookup_entered (place_inside placed) (fills _ ready_lookup)
    fun _ before => place_earlier placed before

/-- The next entry for the key is written to the same place. -/
theorem place_add : place wanted (add wanted.find true fill ale).2.table = some idx := by
  rw [add_place placed small]
  exact Option.or_eq_some_iff.mpr (.inl (first_entered (place_inside placed)
    (fills _ ready_lookup) fun _ before => place_earlier placed before))

end Filled

end Add

/-! ## The empty table -/

theorem place_vacant (wanted : Key) : place wanted vacant.table = some 0 := by
  have absent : first wanted.test vacant.table = none :=
    first_test_none.mpr fun _ found => by cases key_noEntry.symm.trans found
  have free : first isFree vacant.table = some 0 :=
    first_eq_some_iff.mpr ⟨by decide, isFree_iff.mpr key_noEntry, fun _ before => by cases before⟩
  unfold place
  rw [absent, free]
  rfl

theorem lookup_vacant (wanted : Key) : lookup wanted vacant.table = none :=
  lookup_eq_none_iff.mpr fun _ found => by cases key_noEntry.symm.trans found

end BbbEth.Ale
