import BbbEth.Console.Disk

/-!
# A card whose calls fail

The files of a card with their directory entries and the file objects of FatFs, where every
call may fail.  What FatFs has answered is kept, too.
-/

namespace BbbEth.Console

open BbbEth.Interference

/-- A file object whose `fs` is not NULL. -/
structure Handle (file : Type) where
  name : file
  fptr : Nat
  fsize : Nat
  /-- `FA__WRITTEN`. -/
  written : Bool

/-- The directory entries, with what they record of a file, and the data of the files.  The
rest is kept about the calls: which files have got data, and the results. -/
structure Card (file : Type) where
  entry : file → Option (List Byte)
  data : file → List Byte
  opened : FileObject → Option (Handle file)
  received : List file
  opens : List (FileObject × FResult)
  others : List FResult

namespace Card

variable {file : Type} (card : Card file)

/-- Nothing has been called yet. -/
structure Fresh : Prop where
  received : card.received = []
  opens : card.opens = []
  others : card.others = []

/-- The result of `f_open` is kept. -/
def answerOpen (object : FileObject) (fresult : FResult) : Card file :=
  { card with opens := card.opens ++ [(object, fresult)] }

/-- The result of another call is kept. -/
def answer (fresult : FResult) : Card file := { card with others := card.others ++ [fresult] }

def setHandle (object : FileObject) (handle : Option (Handle file)) : Card file :=
  { card with opened := Function.update card.opened object handle }

variable [DecidableEq file]

/-- A file is there, with its directory entry. -/
def setFile (name : file) (content : List Byte) : Card file :=
  { card with
    entry := Function.update card.entry name (some content)
    data := Function.update card.data name content }

/-- Data goes behind the file pointer. -/
def put (handle : Handle file) (part : List Byte) : Card file :=
  { card with
    data := Function.update card.data handle.name
      (overwrite (card.data handle.name) handle.fptr part)
    received := if part = [] then card.received else handle.name :: card.received }

/-- The directory entry is updated. -/
def record (handle : Handle file) : Card file :=
  { card with
    entry := Function.update card.entry handle.name
      (some ((card.data handle.name).take handle.fsize)) }

end Card

variable {file : Type} [DecidableEq file]

/-- `f_open`, which begins with `fp->fs = NULL`.  Only where it has to cut a file, more than
this may be left of a failure. -/
def OpensFile (object : FileObject) (name : file) (mode : Byte) (before : Card file)
    (fresult : FResult) (after : Card file) : Prop :=
  if fresult = .ok then
    ∃ content, Disk.openedContent mode (before.entry name) = some content ∧
      after = ((before.setFile name content).setHandle object
        (some ⟨name, 0, content.length, false⟩)).answerOpen object .ok
  else
    mode = faWrite ||| faCreateAlways ∨
      after = (before.setHandle object none).answerOpen object fresult

/-- `f_read`. -/
def ReadsFile (object : FileObject) (count : Nat) (before : Card file) (fresult : FResult)
    (data : List Byte) (after : Card file) : Prop :=
  if fresult = .ok then
    ∃ handle, before.opened object = some handle ∧
      data = (((before.data handle.name).take handle.fsize).drop handle.fptr).take count ∧
      after = (before.setHandle object
        (some { handle with fptr := handle.fptr + data.length })).answer .ok
  else
    ∃ fptr, after = (before.setHandle object ((before.opened object).map fun handle =>
      { handle with fptr := fptr })).answer fresult

/-- `f_write`.  A part of the data may be written, also if it fails; nothing is written if the
file would be too long. -/
def WritesFile (object : FileObject) (data : List Byte) (before : Card file) (fresult : FResult)
    (written : Nat) (after : Card file) : Prop :=
  (∃ handle, before.opened object = some handle ∧ written ≤ data.length ∧
    after = ((before.put handle (data.take written)).setHandle object (some
      { handle with
        fptr := handle.fptr + written
        fsize := if fresult = .ok then max handle.fsize (handle.fptr + written)
          else handle.fsize
        written := handle.written || fresult = .ok })).answer fresult) ∨
    written = 0 ∧ after = before.answer fresult

/-- `f_close`, which leaves the file object as it is if `f_sync` fails, before or after it has
updated the directory entry. -/
def ClosesFile (object : FileObject) (before : Card file) (fresult : FResult)
    (after : Card file) : Prop :=
  match before.opened object with
  | none => fresult ≠ .ok ∧ after = before.answer fresult
  | some handle =>
      let recorded := if handle.written then before.record handle else before
      if fresult = .ok then after = (recorded.setHandle object none).answer .ok
      else after = before.answer fresult ∨
        after = (recorded.setHandle object
          (some { handle with written := false })).answer fresult

/-- How the card answers a call.  Nothing is said of what `cat` does not call. -/
def Call.Stores (resolve : List Byte → file) :
    {reply : Type} → Call reply → Card file → reply → Card file → Prop
  | _, .fOpen object path mode, before, fresult, after =>
      OpensFile object (resolve path) mode before fresult after
  | _, .fRead object count, before, (fresult, data), after =>
      ReadsFile object count before fresult data after
  | _, .fWrite object data, before, (fresult, written), after =>
      WritesFile object data before fresult written after
  | _, .fClose object, before, fresult, after => ClosesFile object before fresult after
  | _, .fUnlink _, _, _, _ | _, .fMkdir _, _, _, _ | _, .fMount, _, _, _
  | _, .strcpyAt .., _, _, _ => True
  | _, .process _, before, _, after | _, .handler _ _, before, _, after
  | _, .loadArgv _, before, _, after | _, .consolePrintf _ _, before, _, after
  | _, .fOpendir _, before, _, after | _, .fReaddir, before, _, after
  | _, .pbufAlloc _, before, _, after | _, .udpSend _, before, _, after
  | _, .pbufFree, before, _, after => after = before

/-- The calls are answered by a card. -/
def cards (resolve : List Byte → file) : Server Call (Card file) where
  answers := Call.Stores resolve

/-! ## What a call leaves -/

/-- A call leaves every file object open that is open, and closed that is closed. -/
structure Holding (fresult : FResult) (before after : Card file) : Prop where
  opens : after.opens = before.opens
  others : after.others = before.others ++ [fresult]
  opened : ∀ object, (after.opened object).isSome = (before.opened object).isSome

section Calls

variable {object : FileObject} {before after : Card file} {fresult : FResult}

omit [DecidableEq file] in
theorem holding_setHandle {card : Card file} {handle : Option (Handle file)}
    (opens : card.opens = before.opens) (others : card.others = before.others)
    (opened : card.opened = before.opened) (same : handle.isSome = (before.opened object).isSome) :
    Holding fresult before ((card.setHandle object handle).answer fresult) := by
  refine ⟨opens, congrArg (· ++ [fresult]) others, fun object' => ?_⟩
  change (Function.update card.opened object handle object').isSome = _
  by_cases here : object' = object
  · rw [here, Function.update_self]
    exact same
  · rw [Function.update_of_ne here, opened]

omit [DecidableEq file] in
theorem ReadsFile.holding {count : Nat} {data : List Byte}
    (reads : ReadsFile object count before fresult data after) : Holding fresult before after := by
  unfold ReadsFile at reads
  split at reads
  · next ok =>
      rcases reads with ⟨handle, opened, _, rfl⟩
      rw [ok]
      exact holding_setHandle rfl rfl rfl (opened ▸ rfl)
  · rcases reads with ⟨fptr, rfl⟩
    exact holding_setHandle rfl rfl rfl (Option.isSome_map ..)

theorem WritesFile.holding {data : List Byte} {written : Nat}
    (writes : WritesFile object data before fresult written after) :
    Holding fresult before after := by
  rcases writes with ⟨handle, opened, _, rfl⟩ | ⟨_, rfl⟩
  · exact holding_setHandle rfl rfl rfl (opened ▸ rfl)
  · exact ⟨rfl, rfl, fun _ => rfl⟩

/-- A file that cannot be closed stays open. -/
theorem ClosesFile.holding (fails : fresult ≠ .ok)
    (closes : ClosesFile object before fresult after) : Holding fresult before after := by
  unfold ClosesFile at closes
  split at closes
  · rw [closes.2]
    exact ⟨rfl, rfl, fun _ => rfl⟩
  · next handle opened =>
      dsimp only at closes
      rw [if_neg fails] at closes
      rcases closes with rfl | rfl
      · exact ⟨rfl, rfl, fun _ => rfl⟩
      · apply holding_setHandle _ _ _ (opened ▸ rfl)
        · split
          · rfl
          · rfl
        · split
          · rfl
          · rfl
        · split
          · rfl
          · rfl

/-- A file that has been opened. -/
theorem OpensFile.succeeds {name : file} {mode : Byte}
    (opens : OpensFile object name mode before .ok after) :
    after.opens = before.opens ++ [(object, .ok)] ∧ after.others = before.others ∧
      (after.opened object).isSome ∧
        ∀ other, other ≠ object → after.opened other = before.opened other := by
  unfold OpensFile at opens
  rw [if_pos rfl] at opens
  rcases opens with ⟨content, _, rfl⟩
  refine ⟨rfl, rfl, ?_, fun _ apart => Function.update_of_ne apart ..⟩
  change (Function.update before.opened object _ object).isSome
  rw [Function.update_self]
  rfl

/-- A file that cannot be opened: the card stays as it is, and the file object is closed. -/
theorem OpensFile.fails {name : file} {mode : Byte} (fails : fresult ≠ .ok)
    (keeps : mode ≠ faWrite ||| faCreateAlways)
    (opens : OpensFile object name mode before fresult after) :
    after = (before.setHandle object none).answerOpen object fresult := by
  unfold OpensFile at opens
  rw [if_neg fails] at opens
  exact opens.resolve_left keeps

/-- What is left of the other file objects when a file is closed. -/
theorem ClosesFile.closed (closes : ClosesFile object before .ok after) :
    after.opens = before.opens ∧ after.others = before.others ++ [.ok] ∧
      ∀ other, other ≠ object → after.opened other = before.opened other := by
  unfold ClosesFile at closes
  split at closes
  · exact absurd rfl closes.1
  · next handle _ =>
      dsimp only at closes
      rw [if_pos rfl] at closes
      rw [closes]
      cases handle.written with
      | true => exact ⟨rfl, rfl, fun _ apart => Function.update_of_ne apart ..⟩
      | false => exact ⟨rfl, rfl, fun _ apart => Function.update_of_ne apart ..⟩

end Calls

end BbbEth.Console
