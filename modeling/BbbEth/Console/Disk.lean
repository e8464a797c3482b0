import BbbEth.Console.Parse

/-!
# A disk

The files that the calls of the console act on, as FatFs has them: a file that is opened to
write is not cut, a read is short at the end of the file only, and a write is short when the
disk is full.
-/

namespace BbbEth.Console

open BbbEth.Interference

section Overwrite

variable {α : Type}

/-- Write data over a list, from a position on. -/
def overwrite (content : List α) (position : Nat) (data : List α) : List α :=
  content.take position ++ data ++ content.drop (position + data.length)

/-- The front of one list, and behind it the rest of another. -/
def mixed (source target : List α) (position : Nat) : List α :=
  source.take position ++ target.drop position

variable {source target : List α} {position count : Nat}

theorem length_mixed (inside : position ≤ source.length) :
    (mixed source target position).length = max position target.length := by
  unfold mixed
  rw [List.length_append, List.length_take_of_le inside, List.length_drop]
  omega

/-- To write the next part of the source moves the border. -/
theorem overwrite_mixed (inside : position + count ≤ source.length) :
    overwrite (mixed source target position) position ((source.drop position).take count) =
      mixed source target (position + count) := by
  have front : (source.take position).length = position :=
    List.length_take_of_le ((Nat.le_add_right _ _).trans inside)
  have data : ((source.drop position).take count).length = count := by
    rw [List.length_take_of_le]
    rw [List.length_drop]
    omega
  have rest : (mixed source target position).drop (position + count) =
      target.drop (position + count) := by
    unfold mixed
    rw [List.drop_append, front, Nat.add_sub_cancel_left, List.drop_drop,
      List.drop_eq_nil_of_le (front.trans_le (Nat.le_add_right _ _)), List.nil_append]
  have before : (mixed source target position).take position = source.take position := by
    unfold mixed
    rw [List.take_append_of_le_length front.ge, List.take_of_length_le front.le]
  unfold overwrite
  rw [data, before, rest, mixed, List.take_add]

theorem overwrite_nil (content : List α) : overwrite content position [] = content := by
  unfold overwrite
  rw [List.append_nil, List.length_nil, Nat.add_zero, List.take_append_drop]

/-- The whole source is left exactly if the target is not longer. -/
theorem mixed_eq_iff (short : count ≤ source.length) (longer : source.length ≤ target.length →
      count = source.length) :
    mixed source target count = source ↔ count = source.length ∧ target.length ≤ source.length := by
  constructor
  · intro same
    have length := congrArg List.length same
    rw [length_mixed short] at length
    constructor
    · by_contra other
      have whole : target.length = source.length := by omega
      exact other (longer whole.ge)
    · exact (le_max_right _ _).trans length.le
  · rintro ⟨rfl, notLonger⟩
    unfold mixed
    rw [List.take_length, List.drop_eq_nil_of_le notLonger, List.append_nil]

end Overwrite

/-- The files, the room by which files can grow, and the file and the position of each file
object. -/
structure Disk (file : Type) where
  content : file → Option (List Byte)
  room : Nat
  opened : FileObject → Option (file × Nat)

namespace Disk

variable {file : Type} (disk : Disk file)

def setOpened (object : FileObject) (name : file) (position : Nat) : Disk file :=
  { disk with opened := Function.update disk.opened object (some (name, position)) }

theorem setOpened_opened {disk : Disk file} {object : FileObject} {name : file} {position : Nat} :
    (disk.setOpened object name position).opened =
      Function.update disk.opened object (some (name, position)) := rfl

/-- A file after it is opened. -/
def openedContent (mode : Byte) (content : Option (List Byte)) : Option (List Byte) :=
  if mode = faRead then content
  else if mode = faWrite ||| faOpenAlways then some (content.getD [])
  else some []

/-- The number of bytes that can be written. -/
def writable (content : List Byte) (position count : Nat) : Nat :=
  min count (content.length - position + disk.room)

variable [DecidableEq file]

def setContent (name : file) (content : List Byte) : Disk file :=
  { disk with content := Function.update disk.content name (some content) }

/-- The disk after bytes are written. -/
def write (object : FileObject) (name : file) (position : Nat) (content data : List Byte) :
    Disk file where
  content := Function.update disk.content name (some (overwrite content position data))
  room := disk.room - (position + data.length - content.length)
  opened := Function.update disk.opened object (some (name, position + data.length))

section Lemmas

variable {disk} {object : FileObject} {name : file} {position : Nat} {content data : List Byte}

/-- To open a file leaves the others as they are. -/
theorem opened_other {other : file} {start : Nat} (distinct : name ≠ other) :
    ((disk.setContent name content).setOpened object name start).content other =
      disk.content other := by
  change Function.update disk.content name (some content) other = _
  rw [Function.update_of_ne distinct.symm]

theorem write_opened : (disk.write object name position content data).opened =
    Function.update disk.opened object (some (name, position + data.length)) := rfl

theorem write_content : (disk.write object name position content data).content =
    Function.update disk.content name (some (overwrite content position data)) := rfl

end Lemmas

end Disk

/-- How the disk answers a call.  Every call may fail; nothing is known of the disk then. -/
def Call.Serves {file : Type} [DecidableEq file] (resolve : List Byte → file) :
    {reply : Type} → Call reply → Disk file → reply → Disk file → Prop
  | _, .fOpen object path mode, before, fresult, after => fresult = .ok →
      ∃ content, Disk.openedContent mode (before.content (resolve path)) = some content ∧
        after = (before.setContent (resolve path) content).setOpened object (resolve path) 0
  | _, .fRead object count, before, (fresult, data), after => fresult = .ok →
      ∃ name position content, before.opened object = some (name, position) ∧
        before.content name = some content ∧ data = (content.drop position).take count ∧
        after = before.setOpened object name (position + data.length)
  | _, .fWrite object data, before, (fresult, written), after => fresult = .ok →
      ∃ name position content, before.opened object = some (name, position) ∧
        before.content name = some content ∧
        written = before.writable content position data.length ∧
        after = before.write object name position content (data.take written)
  | _, .fClose _, before, fresult, after => fresult = .ok → after = before
  | _, .fUnlink _, _, _, _ | _, .fMkdir _, _, _, _ | _, .fMount, _, _, _
  | _, .strcpyAt .., _, _, _ => True
  | _, .process _, before, _, after | _, .handler _ _, before, _, after
  | _, .loadArgv _, before, _, after | _, .consolePrintf _ _, before, _, after
  | _, .fOpendir _, before, _, after | _, .fReaddir, before, _, after
  | _, .pbufAlloc _, before, _, after | _, .udpSend _, before, _, after
  | _, .pbufFree, before, _, after => after = before

/-- The calls are answered by a disk. -/
def disks {file : Type} [DecidableEq file] (resolve : List Byte → file) :
    Server Call (Disk file) where
  answers := Call.Serves resolve

end BbbEth.Console
