import BbbEth.Console.Disk

/-!
# Copies of files

The line `cat A > B`.  Where it returns 0, the file `B` begins with the blocks of `A` that found
room, and goes on with what it held before.
-/

namespace BbbEth.Console

open BbbEth.Interference

variable {file : Type} {resolve : List Byte → file}
variable {source target : file} {content old : List Byte} {room read : Nat} {disk : Disk file}

/-! ## Blocks -/

/-- The number of bytes that are written after a number of bytes is read. -/
def written (old : List Byte) (room read : Nat) : Nat := min read (old.length + room)

/-- The state of a copy between two blocks. -/
structure Copying (source target : file) (content old : List Byte) (room read : Nat)
    (disk : Disk file) : Prop where
  reading : disk.opened .fileObject = some (source, read)
  source : disk.content source = some content
  inside : read ≤ content.length
  writing : disk.opened .fileObjectWrite = some (target, written old room read)
  target : disk.content target = some (mixed content old (written old room read))
  left : disk.room = room - (written old room read - old.length)

/-- The next block of a file. -/
def block (content : List Byte) (read : Nat) : List Byte :=
  (content.drop read).take (dataBufSize - 1)

theorem length_block : (block content read).length = min (dataBufSize - 1) (content.length - read) := by
  unfold block
  rw [List.length_take, List.length_drop]

namespace Copying

/-- The disk after the next block is read. -/
def afterRead (source : file) (content : List Byte) (read : Nat) (disk : Disk file) : Disk file :=
  disk.setOpened .fileObject source (read + (block content read).length)

/-- What is written of the next block. -/
def part (content old : List Byte) (room read : Nat) (disk : Disk file) : List Byte :=
  (block content read).take (disk.writable (mixed content old (written old room read))
    (written old room read) (block content read).length)

theorem length_part (copying : Copying source target content old room read disk) :
    written old room read + (part content old room read disk).length =
      written old room (read + (block content read).length) := by
  have inside : written old room read ≤ content.length :=
    (min_le_left _ _).trans copying.inside
  have left := copying.left
  have size : (mixed content old (written old room read)).length = _ := length_mixed inside
  unfold part Disk.writable
  rw [List.length_take, size, left]
  unfold written
  omega

/-- A part that is written moves the border between the two files. -/
theorem overwrite_part (copying : Copying source target content old room read disk) :
    overwrite (mixed content old (written old room read)) (written old room read)
      (part content old room read disk) =
        mixed content old (written old room (read + (block content read).length)) := by
  have length := copying.length_part
  have inside : written old room (read + (block content read).length) ≤ content.length := by
    apply (min_le_left _ _).trans
    rw [length_block]
    have inside := copying.inside
    omega
  by_cases whole : written old room read = read
  · -- Everything that was read is written, too: the part begins where the border is.
    have front : part content old room read disk <+: content.drop (written old room read) := by
      rw [whole]
      exact (List.take_prefix ..).trans (List.take_prefix ..)
    have moves : written old room read + (part content old room read disk).length ≤
        content.length := length.trans_le inside
    rw [← length]
    conv_lhs => rw [List.prefix_iff_eq_take.mp front]
    exact overwrite_mixed moves
  · -- The disk is full: nothing more is written.
    have full : written old room (read + (block content read).length) = written old room read := by
      unfold written at whole ⊢
      omega
    have nothing : part content old room read disk = [] := by
      apply List.eq_nil_of_length_eq_zero
      omega
    rw [nothing, full]
    exact overwrite_nil _

variable [DecidableEq file]

/-- The disk after the next block is written. -/
def afterWrite (source target : file) (content old : List Byte) (room read : Nat)
    (disk : Disk file) : Disk file :=
  (afterRead source content read disk).write .fileObjectWrite target (written old room read)
    (mixed content old (written old room read)) (part content old room read disk)

theorem next (copying : Copying source target content old room read disk)
    (distinct : source ≠ target) :
    Copying source target content old room (read + (block content read).length)
      (afterWrite source target content old room read disk) := by
  have within : written old room read ≤ content.length :=
    (min_le_left _ _).trans copying.inside
  have length := copying.length_part
  refine ⟨?_, ?_, ?_, ?_, ?_, ?_⟩
  · have objects : FileObject.fileObject ≠ .fileObjectWrite := nofun
    unfold afterWrite afterRead
    rw [Disk.write_opened, Function.update_of_ne objects, Disk.setOpened_opened,
      Function.update_self]
  · exact (Function.update_of_ne distinct ..).trans copying.source
  · rw [length_block]
    have inside := copying.inside
    omega
  · rw [← length]
    unfold afterWrite
    rw [Disk.write_opened, Function.update_self]
  · rw [← copying.overwrite_part]
    unfold afterWrite
    rw [Disk.write_content, Function.update_self]
  · change disk.room - (written old room read + (part content old room read disk).length -
      (mixed content old (written old room read)).length) = _
    rw [length, length_mixed within, copying.left]
    unfold written
    omega

end Copying

/-! ## The loop -/

/-- What a copy leaves of both files, if it comes to its end. -/
structure CopyEnds (source target : file) (content old : List Byte) (room : Nat)
    (disk : Disk file) : Prop where
  source : disk.content source = some content
  target : disk.content target = some (mixed content old (written old room content.length))

theorem FResult.code_ne_zero {fresult : FResult} (fails : fresult ≠ .ok) : fresult.code ≠ 0 := by
  cases fresult with
  | ok => exact absurd rfl fails
  | _ => exact nofun

/-- The last block is shorter than the others. -/
theorem Copying.copied (copying : Copying source target content old room
      (read + (block content read).length) disk)
    (last : (block content read).length ≠ dataBufSize - 1) :
    CopyEnds source target content old room disk := by
  have whole : read + (block content read).length = content.length := by
    have inside := copying.inside
    rw [length_block] at last inside ⊢
    omega
  have copying := whole ▸ copying
  exact ⟨copying.source, copying.target⟩

variable [DecidableEq file]

/-- What `f_read` gives for the next block. -/
theorem read_block (copying : Copying source target content old room read disk)
    {answer : FResult × List Byte} {after : Disk file}
    (answered : (disks resolve).answers (.fRead .fileObject (dataBufSize - 1)) disk answer after)
    (fine : answer.1 = .ok) :
    answer.2 = block content read ∧ after = Copying.afterRead source content read disk := by
  rcases answered fine with ⟨name, position, found, opens, holds, data, same⟩
  rw [copying.reading] at opens
  cases opens
  rw [copying.source] at holds
  cases holds
  rw [data] at same ⊢
  exact ⟨rfl, same⟩

/-- What `f_write` does with the next block. -/
theorem write_block (copying : Copying source target content old room read disk)
    {answer : FResult × Nat} {after : Disk file}
    (answered : (disks resolve).answers (.fWrite .fileObjectWrite (block content read))
      (Copying.afterRead source content read disk) answer after) (fine : answer.1 = .ok) :
    after = Copying.afterWrite source target content old room read disk := by
  rcases answered fine with ⟨name, position, found, opens, holds, count, same⟩
  have objects : FileObject.fileObjectWrite ≠ .fileObject := nofun
  have writing : (Copying.afterRead source content read disk).opened .fileObjectWrite =
      some (target, written old room read) := by
    unfold Copying.afterRead
    rw [Disk.setOpened_opened, Function.update_of_ne objects]
    exact copying.writing
  rw [writing] at opens
  cases opens
  have same' : (Copying.afterRead source content read disk).content target =
      some (mixed content old (written old room read)) := copying.target
  rw [same'] at holds
  cases holds
  rw [count] at same
  exact same

/-- A round of the loop copies a block, and ends behind the last one. -/
theorem catRound_meets (distinct : source ≠ target)
    (copying : Copying source target content old room read disk) :
    (disks resolve).Meets (fun _ => True)
      (Server.RoundEnds (fun _ => True)
        (fun _ disk => ∃ read, Copying source target content old room read disk)
        fun status disk => status = 0 → CopyEnds source target content old room disk)
      (catRound true ()) disk := by
  unfold catRound
  rw [Program.bind_lift]
  apply Server.Meets.perform trivial
  rintro ⟨fresultRead, data⟩ after answered
  dsimp only
  by_cases fails : fresultRead ≠ .ok
  · rw [if_pos fails]
    exact .done trivial ⟨trivial, fun zero => absurd zero (FResult.code_ne_zero fails)⟩
  · rw [if_neg fails, if_pos rfl, Program.bind_lift]
    rcases read_block copying answered (not_not.mp fails) with ⟨rfl, rfl⟩
    apply Server.Meets.perform trivial
    rintro ⟨fresultWrite, count⟩ after' answered'
    dsimp only
    by_cases fails' : fresultWrite ≠ .ok
    · rw [if_pos fails']
      exact .done trivial ⟨trivial, fun zero => absurd zero (FResult.code_ne_zero fails')⟩
    · rw [if_neg fails']
      rcases write_block copying answered' (not_not.mp fails') with rfl
      have next := copying.next distinct
      by_cases more : (block content read).length = dataBufSize - 1
      · rw [if_pos more]
        exact .done trivial ⟨_, next⟩
      · rw [if_neg more]
        exact .done trivial ⟨trivial, fun _ => next.copied more⟩

/-! ## The handler -/

theorem copyBlocks_meets (distinct : source ≠ target)
    (copying : Copying source target content old room read disk) :
    (disks resolve).Meets (fun _ => True)
      (fun status disk => status = 0 → CopyEnds source target content old room disk)
      (copyBlocks true) disk := by
  have rounds : ∀ (start : Unit) current,
      (∃ read, Copying source target content old room read current) →
      (disks resolve).Meets (fun _ => True)
        (Server.RoundEnds (fun _ => True)
          (fun _ disk => ∃ read, Copying source target content old room read disk)
          fun status disk => status = 0 → CopyEnds source target content old room disk)
        (catRound true start) current := by
    rintro start current ⟨read, copying⟩
    exact catRound_meets distinct copying
  apply (Server.Meets.iterate rounds (fun _ _ _ => trivial) ⟨read, copying⟩).bind
  intro fresult after ends
  by_cases fails : fresult ≠ 0
  · rw [if_pos fails]
    exact .done trivial fun zero => absurd zero fails
  · have ends := ends (not_not.mp fails)
    have closes : ∀ object (next : Program Call Int) (current : Disk file),
        CopyEnds source target content old room current →
        (∀ current, CopyEnds source target content old room current →
          (disks resolve).Meets (fun _ => True)
            (fun status disk => status = 0 → CopyEnds source target content old room disk)
            next current) →
        (disks resolve).Meets (fun _ => True)
          (fun status disk => status = 0 → CopyEnds source target content old room disk)
          (closeFile object next) current := by
      intro object next current ends others
      unfold closeFile
      rw [Program.bind_lift]
      apply Server.Meets.perform trivial
      intro fresult after answered
      by_cases fails : fresult ≠ .ok
      · rw [if_pos fails, Program.bind_lift]
        apply Server.Meets.perform trivial
        intro _ after' _
        exact .done trivial fun zero => absurd zero (FResult.code_ne_zero fails)
      · rw [if_neg fails]
        rw [answered (not_not.mp fails)]
        exact others current ends
    rw [if_neg fails]
    apply closes _ _ _ ends
    intro current ends
    rw [if_pos rfl]
    apply closes _ _ _ ends
    exact fun current ends => .done trivial fun _ => ends

/-- The files of a copy: the one that is read, and the one that is written. -/
def startedCopy (source target : file) (content old : List Byte) (disk : Disk file) : Disk file :=
  (((disk.setContent source content).setOpened .fileObject source 0).setContent target
    old).setOpened .fileObjectWrite target 0

/-- Both files are opened. -/
theorem copying_started (distinct : source ≠ target) :
    Copying source target content old disk.room 0 (startedCopy source target content old disk) := by
  have objects : FileObject.fileObject ≠ .fileObjectWrite := nofun
  have nothing : written old disk.room 0 = 0 := Nat.zero_min _
  refine ⟨?_, ?_, Nat.zero_le _, ?_, ?_, ?_⟩
  · unfold startedCopy
    rw [Disk.setOpened_opened, Function.update_of_ne objects]
    exact Function.update_self FileObject.fileObject (some (source, 0)) disk.opened
  · change Function.update (Function.update disk.content _ _) _ _ _ = _
    rw [Function.update_of_ne distinct, Function.update_self]
  · rw [nothing]
    unfold startedCopy
    rw [Disk.setOpened_opened, Function.update_self]
  · rw [nothing]
    change Function.update (Function.update disk.content _ _) _ _ _ = _
    rw [Function.update_self]
    rfl
  · rw [nothing, Nat.zero_sub, Nat.sub_zero]
    rfl

/-! ## Copies that come to their end -/

/-- A round in which no call fails. -/
theorem catRound_exec (copying : Copying source target content old room read disk) :
    (disks resolve).Exec (catRound true ()) disk
      (.returns (if (block content read).length = dataBufSize - 1 then .inl () else .inr 0))
      (Copying.afterWrite source target content old room read disk) := by
  have objects : FileObject.fileObjectWrite ≠ .fileObject := nofun
  have writing : (Copying.afterRead source content read disk).opened .fileObjectWrite =
      some (target, written old room read) := by
    unfold Copying.afterRead
    rw [Disk.setOpened_opened, Function.update_of_ne objects]
    exact copying.writing
  have reads : (disks resolve).answers (.fRead .fileObject (dataBufSize - 1)) disk
      (.ok, block content read) (Copying.afterRead source content read disk) :=
    fun _ => ⟨source, read, content, copying.reading, copying.source, rfl, rfl⟩
  have writes : (disks resolve).answers (.fWrite .fileObjectWrite (block content read))
      (Copying.afterRead source content read disk)
      (.ok, disk.writable (mixed content old (written old room read)) (written old room read)
        (block content read).length)
      (Copying.afterWrite source target content old room read disk) :=
    fun _ => ⟨target, written old room read, _, writing, copying.target, rfl, rfl⟩
  unfold catRound
  rw [Program.bind_lift]
  apply Server.Exec.answer (.ok, block content read) reads
  dsimp only
  rw [if_neg (not_not.mpr rfl), if_pos rfl, Program.bind_lift]
  apply Server.Exec.answer _ writes
  dsimp only
  rw [if_neg (not_not.mpr rfl)]
  split
  · exact .done
  · exact .done

/-- A loop in which no call fails. -/
theorem rounds_exec (distinct : source ≠ target)
    (copying : Copying source target content old room read disk) : ∃ after,
      (disks resolve).Exec (.iterate (catRound true) ()) disk (.returns 0) after ∧
        CopyEnds source target content old room after := by
  -- By induction on the bytes that are left to read.
  generalize size : content.length - read = left
  induction left using Nat.strong_induction_on generalizing read disk with
  | _ left inductionHypothesis =>
      have round : (disks resolve).Exec (catRound true ()) disk _ _ := catRound_exec copying
      have next := copying.next distinct
      have unrolls : ∀ {after : Disk file},
          (disks resolve).Exec (catRound true () >>= Server.resume (catRound true)) disk
            (.returns 0) after →
          (disks resolve).Exec (.iterate (catRound true) ()) disk (.returns 0) after := by
        intro after exec
        apply Server.Exec.loop
        rwa [Server.unroll_resume]
      by_cases more : (block content read).length = dataBufSize - 1
      · rw [if_pos more] at round
        have shorter : content.length - (read + (block content read).length) < left := by
          have length : (block content read).length = min (dataBufSize - 1) _ := length_block
          rw [more] at length ⊢
          have positive : 0 < dataBufSize - 1 := by decide
          omega
        rcases inductionHypothesis _ shorter next rfl with ⟨after, exec, ends⟩
        exact ⟨after, unrolls (round.bind exec), ends⟩
      · rw [if_neg more] at round
        exact ⟨_, unrolls (round.bind .done), next.copied more⟩

/-- A copy in which no call fails. -/
theorem copyBlocks_exec (distinct : source ≠ target)
    (copying : Copying source target content old room read disk) : ∃ after,
      (disks resolve).Exec (copyBlocks true) disk (.returns 0) after ∧
        CopyEnds source target content old room after := by
  rcases rounds_exec distinct copying with ⟨after, exec, ends⟩
  refine ⟨after, exec.bind ?_, ends⟩
  exact .answer .ok (fun _ => rfl) (.answer .ok (fun _ => rfl) .done)

end BbbEth.Console
