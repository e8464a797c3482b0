import Mathlib.Logic.Function.Basic
import Mathlib.Logic.Relation

/-!
# A write-back cache in front of a memory

The cache holds copies of lines, which may be clean or dirty.  A dirty line may be
written back, and any line may be evicted, at any time.  A device reads and writes
the memory behind the cache.
-/

namespace BbbEth.Coherence

universe u v w

/-- A copy of a line, with the bytes at the addresses of the line. -/
structure Copy (Address : Type u) (Byte : Type w) where
  dirty : Bool
  bytes : Address → Byte

/-- A memory with the copies of its lines. -/
structure Cached (Address : Type u) (Line : Type v) (Byte : Type w) where
  memory : Address → Byte
  copies : Line → Option (Copy Address Byte)

/-- The operations by which software maintains one line. -/
inductive Maintenance where
  | clean
  | cleanInvalidate
  | invalidate
  deriving DecidableEq, Repr

namespace Cached

variable {Address : Type u} {Line : Type v} {Byte : Type w}
variable (lineOf : Address → Line) (cached : Cached Address Line Byte)

/-- What the processor reads. -/
def read (address : Address) : Byte :=
  match cached.copies (lineOf address) with
  | some copy => copy.bytes address
  | none => cached.memory address

/-- The line has a dirty copy. -/
def Dirty (line : Line) : Prop :=
  ∃ copy, cached.copies line = some copy ∧ copy.dirty = true

/-- A clean copy of the line has the bytes of the memory. -/
def Agrees (line : Line) : Prop :=
  ∀ copy, cached.copies line = some copy → copy.dirty = false →
    ∀ address, lineOf address = line → copy.bytes address = cached.memory address

/-- A store of a device. -/
def deposit [DecidableEq Address] (address : Address) (value : Byte) :
    Cached Address Line Byte :=
  { cached with memory := Function.update cached.memory address value }

section Read

variable {lineOf cached} {line : Line} {address : Address}

/-- A line is dirty, with its bytes, or it is clean. -/
theorem dirty_or_clean (cached : Cached Address Line Byte) (line : Line) :
    (∃ bytes, cached.copies line = some ⟨true, bytes⟩) ∨ ¬ cached.Dirty line := by
  by_cases dirty : cached.Dirty line
  · rcases dirty with ⟨⟨_, bytes⟩, found, isDirty⟩
    cases isDirty
    exact .inl ⟨bytes, found⟩
  · exact .inr dirty

theorem not_dirty_of_absent (absent : cached.copies line = none) : ¬ cached.Dirty line := by
  rintro ⟨copy, found, _⟩
  rw [absent] at found
  cases found

theorem read_of_absent (absent : cached.copies (lineOf address) = none) :
    cached.read lineOf address = cached.memory address := by
  simp only [read, absent]

theorem read_of_agrees (agrees : cached.Agrees lineOf (lineOf address))
    (clean : ¬ cached.Dirty (lineOf address)) :
    cached.read lineOf address = cached.memory address := by
  unfold read
  split
  · next copy found =>
      apply agrees copy found _ address rfl
      rw [Bool.eq_false_iff]
      exact fun dirty => clean ⟨copy, found, dirty⟩
  · rfl

end Read

section Deposit

variable [DecidableEq Address] {lineOf cached} {line : Line} {address target : Address}
variable {value : Byte}

@[simp] theorem copies_deposit : (cached.deposit target value).copies = cached.copies := rfl

@[simp] theorem memory_deposit : (cached.deposit target value).memory target = value :=
  Function.update_self ..

theorem memory_deposit_of_ne (apart : address ≠ target) :
    (cached.deposit target value).memory address = cached.memory address :=
  Function.update_of_ne apart _ _

theorem not_dirty_deposit (clean : ¬ cached.Dirty line) :
    ¬ (cached.deposit target value).Dirty line := clean

/-- A device changes nothing that the processor sees of another line. -/
theorem read_deposit (apart : lineOf address ≠ lineOf target) :
    (cached.deposit target value).read lineOf address = cached.read lineOf address := by
  have different : address ≠ target := fun same => apart (congrArg lineOf same)
  unfold read
  rw [copies_deposit, memory_deposit_of_ne different]

theorem agrees_deposit (apart : line ≠ lineOf target) (agrees : cached.Agrees lineOf line) :
    (cached.deposit target value).Agrees lineOf line := by
  intro copy found isClean address inside
  have different : address ≠ target := by
    intro same
    exact apart (inside ▸ congrArg lineOf same)
  rw [memory_deposit_of_ne different]
  exact agrees copy found isClean address inside

end Deposit

section Known

variable (lines : Line → Prop) (known : Address → Option Byte)

/-- No line is dirty, and the memory has the known bytes. -/
structure Settled (cached : Cached Address Line Byte) : Prop where
  clean : ∀ line, lines line → ¬ cached.Dirty line
  memory : ∀ address value, lines (lineOf address) → known address = some value →
    cached.memory address = value

/-- The processor reads the known bytes. -/
structure Shows (cached : Cached Address Line Byte) : Prop where
  agrees : ∀ line, lines line → cached.Agrees lineOf line
  reads : ∀ address value, lines (lineOf address) → known address = some value →
    cached.read lineOf address = value

variable {lineOf lines known cached} {after : Cached Address Line Byte}

/-- A device makes a byte known. -/
theorem Settled.deposit [DecidableEq Address] {target : Address} {value : Byte}
    (settled : Settled lineOf lines known cached) :
    Settled lineOf lines (Function.update known target (some value))
      (cached.deposit target value) where
  clean line member := not_dirty_deposit (settled.clean line member)
  memory address byte member isKnown := by
    by_cases same : address = target
    · rw [same, Function.update_self] at isKnown
      rw [same, memory_deposit]
      exact Option.some.inj isKnown
    · rw [Function.update_of_ne same] at isKnown
      rw [memory_deposit_of_ne same]
      exact settled.memory address byte member isKnown

/-- Where no line has a copy, the processor reads the memory. -/
theorem Settled.shows (settled : Settled lineOf lines known cached)
    (absent : ∀ line, lines line → cached.copies line = none) :
    Shows lineOf lines known cached where
  agrees line member copy found := by
    rw [absent line member] at found
    cases found
  reads address value member isKnown :=
    (read_of_absent (absent _ member)).trans (settled.memory address value member isKnown)

/-- Where no line is dirty, the memory has what the processor reads. -/
theorem Shows.settled (shows : Shows lineOf lines known cached)
    (clean : ∀ line, lines line → ¬ cached.Dirty line) :
    Settled lineOf lines known cached where
  clean := clean
  memory address value member isKnown :=
    (read_of_agrees (shows.agrees _ member) (clean _ member)).symm.trans
      (shows.reads address value member isKnown)

end Known

variable [DecidableEq Line]

/-- Write a dirty copy to the memory; the copy stays, and is clean. -/
def writeBack (line : Line) : Cached Address Line Byte :=
  match cached.copies line with
  | some ⟨true, bytes⟩ =>
      { memory := fun address =>
          if lineOf address = line then bytes address else cached.memory address
        copies := Function.update cached.copies line (some ⟨false, bytes⟩) }
  | _ => cached

/-- Drop a copy. -/
def discard (line : Line) : Cached Address Line Byte :=
  { cached with copies := Function.update cached.copies line none }

/-- Write a copy back if it is dirty, and drop it. -/
def evict (line : Line) : Cached Address Line Byte :=
  (cached.writeBack lineOf line).discard line

/-- The effect of a maintenance operation. -/
def maintain (operation : Maintenance) (line : Line) : Cached Address Line Byte :=
  match operation with
  | .clean => cached.writeBack lineOf line
  | .cleanInvalidate => cached.evict lineOf line
  | .invalidate => cached.discard line

/-- A store of the processor allocates the line and leaves it dirty. -/
def store [DecidableEq Address] (address : Address) (value : Byte) :
    Cached Address Line Byte :=
  let bytes := match cached.copies (lineOf address) with
    | some copy => copy.bytes
    | none => cached.memory
  { cached with
    copies := Function.update cached.copies (lineOf address)
      (some ⟨true, Function.update bytes address value⟩) }

/-- What the cache does of its own accord. -/
inductive Drift : Cached Address Line Byte → Cached Address Line Byte → Prop where
  | writeBack (cached : Cached Address Line Byte) (line : Line) :
      Drift cached (cached.writeBack lineOf line)
  | evict (cached : Cached Address Line Byte) (line : Line) :
      Drift cached (cached.evict lineOf line)

section WriteBack

variable {lineOf cached} {line other : Line} {address : Address}

theorem writeBack_of_clean (clean : ¬ cached.Dirty line) :
    cached.writeBack lineOf line = cached := by
  unfold writeBack
  split
  · next bytes found => exact absurd ⟨_, found, rfl⟩ clean
  · rfl

theorem writeBack_of_dirty {bytes : Address → Byte}
    (found : cached.copies line = some ⟨true, bytes⟩) :
    cached.writeBack lineOf line =
      { memory := fun address =>
          if lineOf address = line then bytes address else cached.memory address
        copies := Function.update cached.copies line (some ⟨false, bytes⟩) } := by
  simp only [writeBack, found]

/-- The bytes of a clean line stay in the memory while lines are written back. -/
theorem memory_writeBack (clean : ¬ cached.Dirty (lineOf address)) :
    (cached.writeBack lineOf line).memory address = cached.memory address := by
  rcases dirty_or_clean cached line with ⟨bytes, found⟩ | lineClean
  · have apart : lineOf address ≠ line := by
      intro same
      exact clean ⟨_, same ▸ found, rfl⟩
    rw [writeBack_of_dirty found]
    exact if_neg apart
  · rw [writeBack_of_clean lineClean]

theorem copies_writeBack_of_ne (apart : other ≠ line) :
    (cached.writeBack lineOf line).copies other = cached.copies other := by
  rcases dirty_or_clean cached line with ⟨bytes, found⟩ | clean
  · rw [writeBack_of_dirty found]
    exact Function.update_of_ne apart _ _
  · rw [writeBack_of_clean clean]

theorem memory_writeBack_of_ne (apart : lineOf address ≠ line) :
    (cached.writeBack lineOf line).memory address = cached.memory address := by
  rcases dirty_or_clean cached line with ⟨bytes, found⟩ | clean
  · rw [writeBack_of_dirty found]
    exact if_neg apart
  · rw [writeBack_of_clean clean]

theorem not_dirty_writeBack : ¬ (cached.writeBack lineOf line).Dirty line := by
  rcases dirty_or_clean cached line with ⟨bytes, found⟩ | clean
  · rintro ⟨copy, cleaned, dirty⟩
    rw [writeBack_of_dirty found] at cleaned
    simp only [Function.update_self] at cleaned
    cases Option.some.inj cleaned
    cases dirty
  · rw [writeBack_of_clean clean]
    exact clean

theorem not_dirty_writeBack_of (clean : ¬ cached.Dirty other) :
    ¬ (cached.writeBack lineOf line).Dirty other := by
  by_cases same : other = line
  · rw [same]
    exact not_dirty_writeBack
  · rintro ⟨copy, found, dirty⟩
    rw [copies_writeBack_of_ne same] at found
    exact clean ⟨copy, found, dirty⟩

theorem copies_writeBack_of_absent (absent : cached.copies other = none) :
    (cached.writeBack lineOf line).copies other = none := by
  by_cases same : other = line
  · rw [writeBack_of_clean (same ▸ not_dirty_of_absent absent), absent]
  · rw [copies_writeBack_of_ne same, absent]

/-- Writing a line back is invisible to the processor. -/
theorem read_writeBack : (cached.writeBack lineOf line).read lineOf address =
    cached.read lineOf address := by
  rcases dirty_or_clean cached line with ⟨bytes, found⟩ | clean
  · by_cases same : lineOf address = line
    · rw [writeBack_of_dirty found]
      simp only [read, same, Function.update_self, found]
    · unfold read
      rw [copies_writeBack_of_ne same, memory_writeBack_of_ne same]
  · rw [writeBack_of_clean clean]

theorem agrees_writeBack (agrees : cached.Agrees lineOf other) :
    (cached.writeBack lineOf line).Agrees lineOf other := by
  rcases dirty_or_clean cached line with ⟨bytes, found⟩ | clean
  · by_cases same : other = line
    · subst same
      intro copy cleaned _ address inside
      rw [writeBack_of_dirty found] at cleaned
      simp only [Function.update_self] at cleaned
      cases Option.some.inj cleaned
      rw [writeBack_of_dirty found]
      exact (if_pos inside).symm
    · intro copy found' isClean address inside
      have apart : lineOf address ≠ line := inside ▸ same
      rw [copies_writeBack_of_ne same] at found'
      rw [memory_writeBack_of_ne apart]
      exact agrees copy found' isClean address inside
  · rw [writeBack_of_clean clean]
    exact agrees

end WriteBack

section Discard

variable {lineOf cached} {line other : Line} {address : Address}

@[simp] theorem memory_discard : (cached.discard line).memory = cached.memory := rfl

@[simp] theorem copies_discard : (cached.discard line).copies line = none :=
  Function.update_self ..

theorem copies_discard_of_ne (apart : other ≠ line) :
    (cached.discard line).copies other = cached.copies other :=
  Function.update_of_ne apart _ _

theorem copies_discard_of_absent (absent : cached.copies other = none) :
    (cached.discard line).copies other = none := by
  by_cases same : other = line
  · rw [same]
    exact copies_discard
  · rw [copies_discard_of_ne same, absent]

theorem not_dirty_discard_of (clean : ¬ cached.Dirty other) :
    ¬ (cached.discard line).Dirty other := by
  rintro ⟨copy, found, dirty⟩
  by_cases same : other = line
  · rw [same, copies_discard] at found
    cases found
  · rw [copies_discard_of_ne same] at found
    exact clean ⟨copy, found, dirty⟩

theorem agrees_discard (agrees : cached.Agrees lineOf other) :
    (cached.discard line).Agrees lineOf other := by
  intro copy found isClean address inside
  by_cases same : other = line
  · rw [same, copies_discard] at found
    cases found
  · rw [copies_discard_of_ne same] at found
    exact agrees copy found isClean address inside

theorem read_discard_of_ne (apart : lineOf address ≠ line) :
    (cached.discard line).read lineOf address = cached.read lineOf address := by
  unfold read
  rw [copies_discard_of_ne apart, memory_discard]

/-- Dropping a clean copy is invisible to the processor. -/
theorem read_discard (agrees : cached.Agrees lineOf line) (clean : ¬ cached.Dirty line) :
    (cached.discard line).read lineOf address = cached.read lineOf address := by
  by_cases same : lineOf address = line
  · subst same
    rw [read_of_absent copies_discard, read_of_agrees agrees clean, memory_discard]
  · exact read_discard_of_ne same

end Discard

section Evict

variable {lineOf cached} {line other : Line} {address : Address}

theorem memory_evict (clean : ¬ cached.Dirty (lineOf address)) :
    (cached.evict lineOf line).memory address = cached.memory address :=
  memory_writeBack clean

theorem not_dirty_evict_of (clean : ¬ cached.Dirty other) :
    ¬ (cached.evict lineOf line).Dirty other :=
  not_dirty_discard_of (not_dirty_writeBack_of clean)

theorem copies_evict_of_absent (absent : cached.copies other = none) :
    (cached.evict lineOf line).copies other = none :=
  copies_discard_of_absent (copies_writeBack_of_absent absent)

theorem agrees_evict (agrees : cached.Agrees lineOf other) :
    (cached.evict lineOf line).Agrees lineOf other :=
  agrees_discard (agrees_writeBack agrees)

theorem read_evict_of_ne (apart : lineOf address ≠ line) :
    (cached.evict lineOf line).read lineOf address = cached.read lineOf address :=
  (read_discard_of_ne apart).trans read_writeBack

/-- Evicting a line is invisible to the processor. -/
theorem read_evict (agrees : cached.Agrees lineOf (lineOf address)) :
    (cached.evict lineOf line).read lineOf address = cached.read lineOf address := by
  by_cases same : lineOf address = line
  · subst same
    exact (read_discard (agrees_writeBack agrees) not_dirty_writeBack).trans read_writeBack
  · exact read_evict_of_ne same

/-- A dirty line that is evicted leaves its bytes in the memory. -/
theorem memory_evict_of_dirty {bytes : Address → Byte} (inside : lineOf address = line)
    (found : cached.copies line = some ⟨true, bytes⟩) :
    (cached.evict lineOf line).memory address = bytes address := by
  unfold evict
  rw [memory_discard, writeBack_of_dirty found]
  exact if_pos inside

end Evict

section Store

variable [DecidableEq Address] {lineOf cached} {line : Line} {address : Address} {value : Byte}

theorem dirty_store : (cached.store lineOf address value).Dirty (lineOf address) :=
  ⟨_, Function.update_self .., rfl⟩

theorem copies_store_of_ne (apart : line ≠ lineOf address) :
    (cached.store lineOf address value).copies line = cached.copies line :=
  Function.update_of_ne apart _ _

theorem not_dirty_store_of_ne (apart : line ≠ lineOf address) (clean : ¬ cached.Dirty line) :
    ¬ (cached.store lineOf address value).Dirty line := by
  unfold Dirty
  rwa [copies_store_of_ne apart]

/-- A store that is written back leaves no line dirty that was clean. -/
theorem not_dirty_writeBack_store (clean : ¬ cached.Dirty line) :
    ¬ ((cached.store lineOf address value).writeBack lineOf (lineOf address)).Dirty line := by
  by_cases same : line = lineOf address
  · rw [same]
    exact not_dirty_writeBack
  · exact not_dirty_writeBack_of (not_dirty_store_of_ne same clean)

theorem agrees_store (agrees : cached.Agrees lineOf line) :
    (cached.store lineOf address value).Agrees lineOf line := by
  intro copy found isClean
  by_cases same : line = lineOf address
  · subst same
    have stored : (cached.store lineOf address value).Dirty (lineOf address) := dirty_store
    rcases stored with ⟨_, is, dirty⟩
    rw [is] at found
    cases found
    rw [isClean] at dirty
    cases dirty
  · rw [copies_store_of_ne same] at found
    exact agrees copy found isClean

/-- A store is seen at its address, and nowhere else. -/
theorem read_store : (cached.store lineOf address value).read lineOf =
    Function.update (cached.read lineOf) address value := by
  funext other
  by_cases same : lineOf other = lineOf address
  · have bytes : (cached.store lineOf address value).read lineOf other =
        Function.update (match cached.copies (lineOf address) with
          | some copy => copy.bytes
          | none => cached.memory) address value other := by
      simp only [read, store, same, Function.update_self]
    rw [bytes, Function.update_apply, Function.update_apply, read, same]
    cases cached.copies (lineOf address) with
    | none => rfl
    | some copy => rfl
  · have different : other ≠ address := fun equal => same (congrArg lineOf equal)
    rw [Function.update_of_ne different, read, read, copies_store_of_ne same]
    rfl

end Store

section Maintain

variable {lineOf cached} {line other : Line} {address : Address}
variable {operation : Maintenance}

theorem memory_maintain (clean : ¬ cached.Dirty (lineOf address)) :
    (cached.maintain lineOf operation line).memory address = cached.memory address := by
  cases operation with
  | clean => exact memory_writeBack clean
  | cleanInvalidate => exact memory_evict clean
  | invalidate => rfl

theorem not_dirty_maintain_of (clean : ¬ cached.Dirty other) :
    ¬ (cached.maintain lineOf operation line).Dirty other := by
  cases operation with
  | clean => exact not_dirty_writeBack_of clean
  | cleanInvalidate => exact not_dirty_evict_of clean
  | invalidate => exact not_dirty_discard_of clean

theorem copies_maintain_of_absent (absent : cached.copies other = none) :
    (cached.maintain lineOf operation line).copies other = none := by
  cases operation with
  | clean => exact copies_writeBack_of_absent absent
  | cleanInvalidate => exact copies_evict_of_absent absent
  | invalidate => exact copies_discard_of_absent absent

/-- Invalidation leaves no copy. -/
theorem copies_maintain (invalidates : operation ≠ .clean) :
    (cached.maintain lineOf operation line).copies line = none := by
  cases operation with
  | clean => exact absurd rfl invalidates
  | cleanInvalidate => exact copies_discard
  | invalidate => exact copies_discard

theorem agrees_maintain (agrees : cached.Agrees lineOf other) :
    (cached.maintain lineOf operation line).Agrees lineOf other := by
  cases operation with
  | clean => exact agrees_writeBack agrees
  | cleanInvalidate => exact agrees_evict agrees
  | invalidate => exact agrees_discard agrees

theorem read_maintain_of_ne (apart : lineOf address ≠ line) :
    (cached.maintain lineOf operation line).read lineOf address =
      cached.read lineOf address := by
  cases operation with
  | clean => exact read_writeBack
  | cleanInvalidate => exact read_evict_of_ne apart
  | invalidate => exact read_discard_of_ne apart

end Maintain

namespace Drift

variable {lineOf} {before after : Cached Address Line Byte} {line : Line}
variable {address : Address}

theorem not_dirty (drift : Drift lineOf before after) (clean : ¬ before.Dirty line) :
    ¬ after.Dirty line := by
  cases drift with
  | writeBack => exact not_dirty_writeBack_of clean
  | evict => exact not_dirty_evict_of clean

theorem absent (drift : Drift lineOf before after) (missing : before.copies line = none) :
    after.copies line = none := by
  cases drift with
  | writeBack => exact copies_writeBack_of_absent missing
  | evict => exact copies_evict_of_absent missing

theorem memory (drift : Drift lineOf before after)
    (clean : ¬ before.Dirty (lineOf address)) :
    after.memory address = before.memory address := by
  cases drift with
  | writeBack => exact memory_writeBack clean
  | evict => exact memory_evict clean

theorem agrees (drift : Drift lineOf before after) (agrees : before.Agrees lineOf line) :
    after.Agrees lineOf line := by
  cases drift with
  | writeBack => exact agrees_writeBack agrees
  | evict => exact agrees_evict agrees

/-- What the cache does of its own accord is invisible to the processor. -/
theorem read (drift : Drift lineOf before after)
    (agrees : before.Agrees lineOf (lineOf address)) :
    after.read lineOf address = before.read lineOf address := by
  cases drift with
  | writeBack => exact read_writeBack
  | evict => exact read_evict agrees

end Drift

section Known

variable {lineOf cached} {lines : Line → Prop} {known : Address → Option Byte}
variable {after : Cached Address Line Byte}

theorem Settled.drift (settled : Settled lineOf lines known cached)
    (drift : Drift lineOf cached after) : Settled lineOf lines known after where
  clean line member := drift.not_dirty (settled.clean line member)
  memory address value member isKnown :=
    (drift.memory (settled.clean _ member)).trans (settled.memory address value member isKnown)

theorem Settled.maintain {operation : Maintenance} {line : Line}
    (settled : Settled lineOf lines known cached) :
    Settled lineOf lines known (cached.maintain lineOf operation line) where
  clean line member := not_dirty_maintain_of (settled.clean line member)
  memory address value member isKnown :=
    (memory_maintain (settled.clean _ member)).trans (settled.memory address value member isKnown)

theorem Shows.drift (shows : Shows lineOf lines known cached)
    (drift : Drift lineOf cached after) : Shows lineOf lines known after where
  agrees line member := drift.agrees (shows.agrees line member)
  reads address value member isKnown :=
    (drift.read (shows.agrees _ member)).trans (shows.reads address value member isKnown)

theorem Shows.writeBack {line : Line} (shows : Shows lineOf lines known cached) :
    Shows lineOf lines known (cached.writeBack lineOf line) :=
  shows.drift (.writeBack cached line)

theorem Shows.store [DecidableEq Address] {target : Address} {value : Byte}
    (shows : Shows lineOf lines known cached) :
    Shows lineOf lines (Function.update known target (some value))
      (cached.store lineOf target value) where
  agrees line member := agrees_store (shows.agrees line member)
  reads address byte member isKnown := by
    rw [read_store]
    by_cases same : address = target
    · rw [same, Function.update_self] at isKnown
      rw [same, Function.update_self]
      exact Option.some.inj isKnown
    · rw [Function.update_of_ne same] at isKnown
      rw [Function.update_of_ne same]
      exact shows.reads address byte member isKnown

end Known

end Cached

end BbbEth.Coherence
