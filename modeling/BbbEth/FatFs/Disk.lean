import BbbEth.FatFs.File
import BbbEth.Stateful.Trace
import Mathlib.Data.List.GetD

/-!
# Files as their users see them

A file is a sequence of bytes with a position in it.  The files of a disk share its clusters, and
a file may be cut short when there are none left.
-/

namespace BbbEth.FatFs

open BbbEth.Console BbbEth.Stateful

/-- A file that is open. -/
structure Handle where
  content : List Byte
  position : Nat
  clusters : Nat
  readable : Bool
  writable : Bool
  deriving DecidableEq

/-- The files of a disk, and how many clusters none of them has. -/
structure Disk (ι : Type) where
  csize : Nat
  free : Nat
  handle : ι → Handle

/-- A call on a file, with its answer. -/
inductive Event where
  | read (btr : Nat) (res : FResult) (bytes : List Byte)
  | write (data : List Byte) (res : FResult) (count : Nat)
  | seek (ofs : Nat) (res : FResult)
  | sync (res : FResult)
  deriving DecidableEq

/-- A content with some bytes over it, which may reach behind its end. -/
def patch (content : List Byte) (position : Nat) (data : List Byte) : List Byte :=
  content.take position ++ data ++ content.drop (position + data.length)

namespace Handle

variable (handle : Handle)

/-- The bytes that are read at the position. -/
def ahead (count : Nat) : List Byte := (handle.content.drop handle.position).take count

/-- Where a file that is not writable stops. -/
def target (ofs : Nat) : Nat :=
  if handle.content.length < ofs ∧ handle.writable = false then handle.content.length else ofs

/-- The answer to a call on a file for which there is some room, and the file after it. -/
inductive Answers (room : Nat) : Handle → Event → Handle → Prop where
  | notReadable {handle : Handle} {btr : Nat} (mode : handle.readable = false) :
      Answers room handle (.read btr .denied []) handle
  | read {handle : Handle} {btr : Nat} (mode : handle.readable = true) :
      Answers room handle (.read btr .ok (handle.ahead btr))
        { handle with position := handle.position + (handle.ahead btr).length }
  | notWritable {handle : Handle} {data : List Byte} (mode : handle.writable = false) :
      Answers room handle (.write data .denied 0) handle
  | tooLong {handle : Handle} {data : List Byte} (mode : handle.writable = true)
      (large : 2 ^ 32 ≤ handle.content.length + data.length) :
      Answers room handle (.write data .ok 0) handle
  | write {handle : Handle} {data : List Byte} {count clusters : Nat}
      (mode : handle.writable = true) (small : handle.content.length + data.length < 2 ^ 32)
      (most : count = min data.length (room - handle.position)) :
      Answers room handle (.write data .ok count)
        { handle with
          content := patch handle.content handle.position (data.take count)
          position := handle.position + count
          clusters }
  | seek {handle : Handle} {ofs clusters : Nat} {more : List Byte}
      (size : more.length = if handle.writable = true then
        min (handle.target ofs) room - handle.content.length else 0) :
      Answers room handle (.seek ofs .ok)
        { handle with
          content := handle.content ++ more
          position := min (handle.target ofs) room
          clusters }
  | sync {handle : Handle} : Answers room handle (.sync .ok) handle

namespace Answers

variable {room : Nat} {before after : Handle} {res : FResult}

theorem of_read {btr : Nat} {bytes : List Byte} (answers : Answers room before (.read btr res bytes) after)
    (mode : before.readable = true) : res = .ok ∧ bytes = before.ahead btr := by
  cases answers with
  | notReadable other => exact absurd (mode.symm.trans other) (by decide)
  | read => exact ⟨rfl, rfl⟩

/-- A write leaves the file, or puts bytes over its content at the position. -/
theorem of_write {data : List Byte} {count : Nat}
    (answers : Answers room before (.write data res count) after) :
    count = 0 ∧ after = before ∨ count ≤ data.length ∧ ∃ clusters, after =
      { before with
        content := patch before.content before.position (data.take count)
        position := before.position + count
        clusters } := by
  cases answers with
  | notWritable => exact .inl ⟨rfl, rfl⟩
  | tooLong => exact .inl ⟨rfl, rfl⟩
  | write mode small most => exact .inr ⟨most ▸ Nat.min_le_left _ _, _, rfl⟩

/-- A seek to where there are bytes. -/
theorem of_seek {ofs : Nat} (answers : Answers room before (.seek ofs res) after)
    (within : ofs ≤ before.content.length) (fits : before.content.length ≤ room) :
    ∃ clusters, after = { before with position := ofs, clusters } := by
  cases answers with
  | seek size =>
      have target : before.target ofs = ofs := if_neg (by omega)
      rw [target, Nat.min_eq_left (by omega), Nat.sub_eq_zero_of_le within, ite_self,
        List.length_eq_zero_iff] at size
      rw [target, Nat.min_eq_left (by omega), size, List.append_nil]
      exact ⟨_, rfl⟩

end Answers

end Handle

/-! ## Contents -/

section Contents

variable {content data : List Byte} {position index : Nat}

theorem length_patch (inside : position ≤ content.length) :
    (patch content position data).length = max content.length (position + data.length) := by
  unfold patch
  rw [List.length_append, List.length_append, List.length_take, List.length_drop]
  omega

theorem getD_patch (inside : position ≤ content.length) : (patch content position data).getD index 0 =
    if position ≤ index ∧ index < position + data.length then data.getD (index - position) 0
    else content.getD index 0 := by
  have taken : (content.take position).length = position := List.length_take_of_le inside
  unfold patch
  simp only [List.getD_eq_getElem?_getD, List.getElem?_append, List.length_append, taken,
    List.getElem?_take, List.getElem?_drop]
  split
  next before =>
    split
    next first => rw [if_neg (by omega)]
    next behind => rw [if_pos ⟨by omega, before⟩]
  next after =>
    rw [if_neg (by omega)]
    congr 2
    omega

/-- What was put over a content is read at its place. -/
theorem ahead_patch {count : Nat} (inside : position ≤ content.length) (size : data.length = count) :
    ((patch content position data).drop position).take count = data := by
  have taken : (content.take position).length = position := List.length_take_of_le inside
  unfold patch
  rw [List.append_assoc, List.drop_left' taken, List.take_left' size]

end Contents

/-! ## Disks -/

namespace Disk

variable {ι : Type}

/-- The bytes that a file may have. -/
def room (disk : Disk ι) (owner : ι) : Nat :=
  disk.csize * (disk.free + (disk.handle owner).clusters)

/-- A file is not longer than its clusters. -/
def Fits (disk : Disk ι) (owner : ι) : Prop :=
  (disk.handle owner).content.length ≤ disk.csize * (disk.handle owner).clusters

theorem Fits.room {disk : Disk ι} {owner : ι} (fits : disk.Fits owner) :
    (disk.handle owner).content.length ≤ disk.room owner :=
  fits.trans (Nat.mul_le_mul_left _ (Nat.le_add_left _ _))

variable [DecidableEq ι]

/-- A call on one file. -/
inductive Step : Disk ι → ι × Event → Disk ι → Prop where
  | call {disk : Disk ι} {owner : ι} {event : Event} {handle : Handle} {free : Nat}
      (answers : (disk.handle owner).Answers (disk.room owner) event handle)
      (grows : (disk.handle owner).clusters ≤ handle.clusters)
      (taken : free + handle.clusters = disk.free + (disk.handle owner).clusters)
      (fits : handle.content.length ≤ disk.csize * handle.clusters) :
      Step disk (owner, event)
        { disk with free, handle := Function.update disk.handle owner handle }

variable {disk next middle last : Disk ι} {owner other : ι} {event : Event}

/-- A call leaves the other files as they are. -/
theorem Step.others (step : Step disk (owner, event) next) (distinct : other ≠ owner) :
    next.handle other = disk.handle other := by
  cases step
  exact Function.update_of_ne distinct ..

/-- Calls on other files leave a file as it is. -/
theorem others {events : List (ι × Event)} (trace : Trace Step disk events next)
    (elsewhere : ∀ event ∈ events, event.1 ≠ owner) :
    next.handle owner = disk.handle owner := by
  refine trace.keeps (fun now => now.handle owner = disk.handle owner) ?_ elsewhere rfl
  exact fun _ _ _ distinct step same => (Step.others step (Ne.symm distinct)).trans same

/-- A call on a file answers as the file does. -/
theorem Step.answers (step : Step disk (owner, event) next) :
    (disk.handle owner).Answers (disk.room owner) event (next.handle owner) := by
  cases step with
  | call answers =>
      dsimp only
      rw [Function.update_self]
      exact answers

theorem Fits.step {call : ι × Event} (fits : disk.Fits owner) (step : Step disk call next) :
    next.Fits owner := by
  obtain ⟨file, event⟩ := call
  unfold Fits
  by_cases same : owner = file
  · cases step with
    | call _ _ _ kept =>
        dsimp only
        rw [same, Function.update_self]
        exact kept
  · rw [step.others same]
    cases step
    exact fits

theorem Fits.trace {events : List (ι × Event)} (fits : disk.Fits owner)
    (trace : Trace Step disk events next) : next.Fits owner :=
  trace.keeps (fun now => now.Fits owner) (fun _ _ _ (_ : True) step fits => fits.step step)
    (fun _ _ => trivial) fits

/-- What was written is read again from the same position, whatever is done to other files. -/
theorem readBack {data bytes : List Byte} {ofs count : Nat} {sought written again res : FResult}
    {first second : List (ι × Event)}
    (trace : Trace Step disk ((owner, .seek ofs sought) :: (owner, .write data written count) ::
      first ++ (owner, .seek ofs again) :: second ++ [(owner, .read count res bytes)]) last)
    (fits : disk.Fits owner) (readable : (disk.handle owner).readable = true)
    (within : ofs ≤ (disk.handle owner).content.length)
    (firstElsewhere : ∀ event ∈ first, event.1 ≠ owner)
    (secondElsewhere : ∀ event ∈ second, event.1 ≠ owner) :
    res = .ok ∧ bytes = data.take count := by
  obtain ⟨fifth, upTo, reads⟩ := Trace.append_iff.mp trace
  obtain ⟨third, start, seeks⟩ := Trace.append_iff.mp upTo
  cases start with
  | cons seek rest =>
      cases rest with
      | cons write firstOthers =>
          cases seeks with
          | cons seekAgain secondOthers =>
              obtain ⟨clusters, sought⟩ := seek.answers.of_seek within fits.room
              have between := others firstOthers firstElsewhere
              have after := others secondOthers secondElsewhere
              have fitsThird := ((fits.step seek).step write).trace firstOthers
              have read := (Trace.singleton_iff.mp reads).answers
              rcases write.answers.of_write with ⟨rfl, same⟩ | ⟨most, more, patched⟩
              · obtain ⟨_, again⟩ := seekAgain.answers.of_seek
                  (by rw [between, same, sought]; exact within) fitsThird.room
                obtain ⟨ok, rfl⟩ := read.of_read (by
                  rw [after, again, between, same, sought]
                  exact readable)
                exact ⟨ok, rfl⟩
              · rw [sought] at patched
                have taken : (data.take count).length = count := List.length_take_of_le most
                have long := @length_patch _ (data.take count) _ within
                obtain ⟨_, again⟩ := seekAgain.answers.of_seek (by
                  rw [between, patched]
                  dsimp only
                  rw [long]
                  omega) fitsThird.room
                obtain ⟨ok, rfl⟩ := read.of_read (by
                  rw [after, again, between, patched]
                  exact readable)
                refine ⟨ok, ?_⟩
                rw [after, again, between, patched]
                exact ahead_patch within taken

end Disk

end BbbEth.FatFs
