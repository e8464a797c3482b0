import BbbEth.FatFs.Service
import BbbEth.Console.Card

/-!
# The files of a volume as the console has them

The commands of the console are about a disk, or about a card, that answers their calls.  The
calls of FatFs on the files of a volume are answered so: what the console relies on is what
`f_read`, `f_write` and `f_close` do.
-/

namespace BbbEth.FatFs

open BbbEth.Console BbbEth.Interference BbbEth.Stateful

/-! ## `f_close` -/

/-- `f_close` does what `f_sync` does; then the file object has no volume. -/
theorem fClose_eq {fp : Fil} {tim : Nat} {fs : Fatfs} :
    fClose fp tim fs = (fSync fp tim fs).map fun answer =>
      ((answer.1.1, if answer.1.1 = .ok then { answer.1.2 with fs := false } else answer.1.2),
        answer.2) := by
  unfold fClose
  change Option.bind (fSync fp tim fs) _ = _
  cases fSync fp tim fs <;> rfl

/-- Where a file is synced in a run, `f_close` gives the same result and leaves the same volume. -/
theorem Files.Step.closes {ι : Type} [DecidableEq ι] {isFile : ι → Prop} {before after : Files ι}
    {owner : ι} {res : FResult} (step : Files.Step isFile before (owner, .sync res) after) :
    ∃ tim last, fClose (before.fil owner) tim before.fs = some ((res, last), after.fs) := by
  cases step with
  | sync owned ran =>
      rename_i tim last after fine
      have closes := @fClose_eq (before.fil owner) tim before.fs
      rw [ran] at closes
      exact ⟨tim, _, closes⟩

/-! ## The calls of the console -/

/-- A server answers the call that an event is; the console does not call `f_lseek`. -/
def Event.Asks {state : Type} (server : Server Call state) (object : FileObject) :
    Event → state → state → Prop
  | .read btr res found, before, after =>
      server.answers (.fRead object btr) before (res, found) after
  | .write data res count, before, after =>
      server.answers (.fWrite object data) before (res, count) after
  | .sync res, before, after => server.answers (.fClose object) before res after
  | .seek _ _, _, _ => False

/-- No position is moved. -/
def Event.Unsought (event : Event) : Prop := ∀ ofs res, event ≠ .seek ofs res

section Servers

variable {ι file : Type}

/-- One file is written, and it does not get longer than its size can say. -/
def Event.Alone (writer owner : ι) (size : Nat) (event : Event) : Prop :=
  ∀ data res count, event = .write data res count → owner = writer ∧ size + data.length < 2 ^ 32

/-- The files that are open after a call. -/
def stillOpen (live : ι → Prop) : ι × Event → ι → Prop
  | (owner, .sync .ok), other => live other ∧ other ≠ owner
  | _, other => live other

/-- A disk of the console has the files of a disk; one of them is written. -/
structure Disk.Shown (disk : Disk ι) (object : ι → FileObject) (name : ι → file) (writer : ι)
    (console : Console.Disk file) : Prop where
  opened owner : console.opened (object owner) = some (name owner, (disk.handle owner).position)
  content owner : console.content (name owner) = some (disk.handle owner).content
  room : console.room = disk.room writer - (disk.handle writer).content.length
  within : (disk.handle writer).position ≤ (disk.handle writer).content.length
  fits : disk.Fits writer

/-- A card of the console has the files of a disk.  Of a file that is closed the directory entry
says what it is; of one that is open it may be older. -/
structure Disk.Held (disk : Disk ι) (object : ι → FileObject) (name : ι → file) (live : ι → Prop)
    (card : Console.Card file) : Prop where
  opened owner : live owner → ∃ written, card.opened (object owner) =
      some ⟨name owner, (disk.handle owner).position, (disk.handle owner).content.length, written⟩ ∧
    (written = false → card.entry (name owner) = some (disk.handle owner).content)
  closed owner : ¬ live owner → card.entry (name owner) = some (disk.handle owner).content
  data owner : card.data (name owner) = (disk.handle owner).content
  within owner : (disk.handle owner).position ≤ (disk.handle owner).content.length

variable {disk next : Disk ι} {object : ι → FileObject} {name : ι → file}
variable {owner other writer : ι} {event : Event} {handle : Handle} {free : Nat} {live : ι → Prop}

/-- What is read at a position is not behind the end. -/
theorem Handle.ahead_le {count : Nat} (within : handle.position ≤ handle.content.length) :
    handle.position + (handle.ahead count).length ≤ handle.content.length := by
  unfold Handle.ahead
  rw [List.length_take, List.length_drop]
  omega

section Entries

variable {card : Console.Card file}

/-- What is answered does not count. -/
theorem Disk.Held.answer {fresult : FResult} (held : disk.Held object name live card) :
    disk.Held object name live (card.answer fresult) :=
  ⟨held.opened, held.closed, held.data, held.within⟩

/-- The card does not answer a read of a file that is not readable. -/
theorem Disk.Held.notRead (held : disk.Held object name live card) (btr : Nat)
    (isLive : live owner) :
    ∃ later, ReadsFile (object owner) btr card .denied [] later ∧
      disk.Held object name live later := by
  obtain ⟨written, opened, recorded⟩ := held.opened owner isLive
  refine ⟨card.answer .denied, ?_, held.answer⟩
  unfold ReadsFile
  rw [if_neg (by decide)]
  refine ⟨(disk.handle owner).position, ?_⟩
  rw [opened]
  unfold Console.Card.setHandle
  rw [Option.map_some, ← opened, Function.update_eq_self]

variable [DecidableEq file]

/-- The directory entry is updated where it is needed: then it says what the file is. -/
theorem Disk.Held.recorded {fptr : Nat} {written : Bool} (held : disk.Held object name live card)
    (clean : written = false → card.entry (name owner) = some (disk.handle owner).content) :
    ∃ after, (if written then card.record ⟨name owner, fptr, (disk.handle owner).content.length,
        written⟩ else card) = after ∧
      after.entry = Function.update card.entry (name owner) (some (disk.handle owner).content) ∧
      after.opened = card.opened ∧ after.data = card.data := by
  cases written with
  | true =>
      refine ⟨_, rfl, ?_, rfl, rfl⟩
      rw [if_pos rfl]
      unfold Console.Card.record
      dsimp only
      rw [held.data owner, List.take_length]
  | false =>
      refine ⟨card, rfl, ?_, rfl, rfl⟩
      rw [← clean rfl, Function.update_eq_self]

end Entries

/-! ### The disk -/

variable [DecidableEq ι]

/-- A call that keeps a file as it is. -/
theorem Disk.call_idle
    (taken : free + (disk.handle owner).clusters = disk.free + (disk.handle owner).clusters) :
    ({ disk with free, handle := Function.update disk.handle owner (disk.handle owner) } : Disk ι) =
      disk := by
  have same := Nat.add_right_cancel taken
  subst same
  rw [Function.update_eq_self]

/-- The room for a file is what it was if a call is on this file, or takes no cluster. -/
theorem Disk.room_call
    (taken : free + handle.clusters = disk.free + (disk.handle owner).clusters)
    (own : owner = writer ∨ handle.clusters = (disk.handle owner).clusters) :
    ({ disk with free, handle := Function.update disk.handle owner handle } : Disk ι).room writer =
      disk.room writer := by
  unfold Disk.room
  dsimp only
  by_cases same : writer = owner
  · subst same
    rw [Function.update_self, taken]
  · rw [own.resolve_left (Ne.symm same)] at taken
    rw [Function.update_of_ne same, Nat.add_right_cancel taken]

variable [DecidableEq file] {console : Console.Disk file} {resolve : List Byte → file}

/-- The disk of the console after a call on a file. -/
theorem Disk.Shown.call (shown : disk.Shown object name writer console)
    (objects : object.Injective) (names : name.Injective) (handle : Handle)
    (taken : free + handle.clusters = disk.free + (disk.handle owner).clusters)
    (own : owner = writer ∨ handle.clusters = (disk.handle owner).clusters)
    (within : owner = writer → handle.position ≤ handle.content.length)
    (fits : handle.content.length ≤ disk.csize * handle.clusters) :
    let later : Disk ι := { disk with free, handle := Function.update disk.handle owner handle }
    later.Shown object name writer
      { content := Function.update console.content (name owner) (some handle.content)
        room := disk.room writer - (later.handle writer).content.length
        opened := Function.update console.opened (object owner)
          (some (name owner, handle.position)) } := by
  intro later
  have kept : ∀ other, other ≠ owner → later.handle other = disk.handle other :=
    fun other distinct => Function.update_of_ne distinct ..
  have here : later.handle owner = handle := Function.update_self ..
  refine ⟨fun other => ?_, fun other => ?_, ?_, ?_, ?_⟩
  · by_cases same : other = owner
    · rw [same, here]
      exact Function.update_self ..
    · rw [kept other same]
      exact (Function.update_of_ne (fun equal => same (objects equal)) ..).trans
        (shown.opened other)
  · by_cases same : other = owner
    · rw [same, here]
      exact Function.update_self ..
    · rw [kept other same]
      exact (Function.update_of_ne (fun equal => same (names equal)) ..).trans
        (shown.content other)
  · rw [Disk.room_call taken own]
  · by_cases same : writer = owner
    · rw [same, here]
      exact within same.symm
    · rw [kept writer same]
      exact shown.within
  · unfold Disk.Fits
    by_cases same : writer = owner
    · rw [same, here]
      exact fits
    · rw [kept writer same]
      exact shown.fits

/-- The disk of the console answers a read. -/
theorem Disk.Shown.read {btr : Nat} (shown : disk.Shown object name writer console)
    (objects : object.Injective) (names : name.Injective)
    (taken : free + (disk.handle owner).clusters = disk.free + (disk.handle owner).clusters)
    (fits : (disk.handle owner).content.length ≤ disk.csize * (disk.handle owner).clusters) :
    ∃ later, Event.Asks (disks resolve) (object owner)
        (.read btr .ok ((disk.handle owner).ahead btr)) console later ∧
      Disk.Shown { disk with
        free
        handle := Function.update disk.handle owner { disk.handle owner with
          position := (disk.handle owner).position + ((disk.handle owner).ahead btr).length } }
        object name writer later := by
  refine ⟨console.setOpened (object owner) (name owner) ((disk.handle owner).position +
    ((disk.handle owner).ahead btr).length), fun _ => ⟨name owner, _, _, shown.opened owner,
      shown.content owner, rfl, rfl⟩, ?_⟩
  have moved := shown.call objects names { disk.handle owner with
    position := (disk.handle owner).position + ((disk.handle owner).ahead btr).length } taken
    (.inr rfl) (fun same => Handle.ahead_le (same ▸ shown.within)) fits
  have same : (Function.update disk.handle owner { disk.handle owner with
      position := (disk.handle owner).position + ((disk.handle owner).ahead btr).length }
        writer).content = (disk.handle writer).content := by
    by_cases own : writer = owner
    · rw [own, Function.update_self]
    · rw [Function.update_of_ne own]
  have content : Function.update console.content (name owner) (some (disk.handle owner).content) =
      console.content := by
    rw [← shown.content owner, Function.update_eq_self]
  dsimp only at moved
  rw [content, same, ← shown.room] at moved
  exact moved

/-- The disk of the console answers a write. -/
theorem Disk.Shown.write {data : List Byte} {count clusters : Nat}
    (shown : disk.Shown object name writer console)
    (objects : object.Injective) (names : name.Injective)
    (most : count = min data.length (disk.room writer - (disk.handle writer).position))
    (taken : free + clusters = disk.free + (disk.handle writer).clusters)
    (fits : (patch (disk.handle writer).content (disk.handle writer).position
      (data.take count)).length ≤ disk.csize * clusters) :
    ∃ later, Event.Asks (disks resolve) (object writer) (.write data .ok count) console later ∧
      Disk.Shown { disk with
        free
        handle := Function.update disk.handle writer { disk.handle writer with
          content := patch (disk.handle writer).content (disk.handle writer).position
            (data.take count)
          position := (disk.handle writer).position + count
          clusters } }
        object name writer later := by
  have within := shown.within
  have room := shown.room
  have fit := shown.fits.room
  have length : (data.take count).length = count := List.length_take_of_le (by omega)
  have long := @length_patch _ (data.take count) _ within
  refine ⟨console.write (object writer) (name writer) (disk.handle writer).position
    (disk.handle writer).content (data.take count), fun _ => ⟨name writer, _, _,
      shown.opened writer, shown.content writer, ?_, rfl⟩, ?_⟩
  · unfold Console.Disk.writable
    omega
  · have moved := shown.call objects names { disk.handle writer with
      content := patch (disk.handle writer).content (disk.handle writer).position
        (data.take count)
      position := (disk.handle writer).position + count
      clusters } taken (.inl rfl) (fun _ => by dsimp only; omega) fits
    have left : disk.room writer - (patch (disk.handle writer).content
        (disk.handle writer).position (data.take count)).length =
          console.room - ((disk.handle writer).position + (data.take count).length -
            (disk.handle writer).content.length) := by
      omega
    dsimp only at moved
    rw [Function.update_self] at moved
    dsimp only at moved
    rw [left] at moved
    unfold Console.Disk.write
    rw [length] at moved ⊢
    exact moved

/-- What the disk answers is an answer of the disk of the console. -/
theorem Disk.Shown.step (shown : disk.Shown object name writer console)
    (objects : object.Injective) (names : name.Injective)
    (step : Disk.Step disk (owner, event) next) (unsought : event.Unsought)
    (alone : event.Alone writer owner (disk.handle writer).content.length) :
    ∃ later, event.Asks (disks resolve) (object owner) console later ∧
      next.Shown object name writer later := by
  cases step with
  | call answers _ taken fits =>
      cases answers with
      | notReadable =>
          rw [Disk.call_idle taken]
          exact ⟨console, (fun ok => by cases ok), shown⟩
      | read => exact shown.read objects names taken fits
      | notWritable =>
          rw [Disk.call_idle taken]
          exact ⟨console, (fun ok => by cases ok), shown⟩
      | tooLong _ large =>
          obtain ⟨rfl, small⟩ := alone _ _ _ rfl
          omega
      | write _ _ most =>
          obtain ⟨rfl, _⟩ := alone _ _ _ rfl
          exact shown.write objects names most taken fits
      | seek => exact absurd rfl (unsought _ _)
      | sync =>
          rw [Disk.call_idle taken]
          exact ⟨console, fun _ => rfl, shown⟩

/-! ### The card -/

section Cards

variable {card : Console.Card file}

/-- The card after a call on a file that stays open. -/
theorem Disk.Held.call (held : disk.Held object name live card)
    (objects : object.Injective) (names : name.Injective) (handle : Handle) (written : Bool)
    {later : Console.Card file}
    (isLive : live owner) (within : handle.position ≤ handle.content.length)
    (opened : later.opened = Function.update card.opened (object owner)
      (some ⟨name owner, handle.position, handle.content.length, written⟩))
    (entry : later.entry = card.entry)
    (clean : written = false → card.entry (name owner) = some handle.content)
    (data : later.data = Function.update card.data (name owner) handle.content) :
    Disk.Held { disk with free, handle := Function.update disk.handle owner handle }
      object name live later := by
  refine ⟨fun other isOpen => ?_, fun other shut => ?_, fun other => ?_, fun other => ?_⟩
  · by_cases same : other = owner
    · subst same
      dsimp only
      rw [opened, entry, Function.update_self, Function.update_self]
      exact ⟨written, rfl, clean⟩
    · dsimp only
      rw [opened, entry, Function.update_of_ne same,
        Function.update_of_ne fun equal => same (objects equal)]
      exact held.opened other isOpen
  · have same : other ≠ owner := fun same => shut (same ▸ isLive)
    dsimp only
    rw [entry, Function.update_of_ne same]
    exact held.closed other shut
  · by_cases same : other = owner
    · subst same
      dsimp only
      rw [data, Function.update_self, Function.update_self]
    · dsimp only
      rw [data, Function.update_of_ne same, Function.update_of_ne fun equal => same (names equal)]
      exact held.data other
  · by_cases same : other = owner
    · subst same
      dsimp only
      rw [Function.update_self]
      exact within
    · dsimp only
      rw [Function.update_of_ne same]
      exact held.within other

/-- The card answers a read. -/
theorem Disk.Held.read {btr : Nat} (held : disk.Held object name live card)
    (objects : object.Injective) (names : name.Injective) (isLive : live owner) :
    ∃ later, ReadsFile (object owner) btr card .ok ((disk.handle owner).ahead btr) later ∧
      Disk.Held { disk with
        free
        handle := Function.update disk.handle owner { disk.handle owner with
          position := (disk.handle owner).position + ((disk.handle owner).ahead btr).length } }
        object name live later := by
  obtain ⟨written, opened, recorded⟩ := held.opened owner isLive
  have data := held.data owner
  refine ⟨(card.setHandle (object owner) (some ⟨name owner, (disk.handle owner).position +
    ((disk.handle owner).ahead btr).length, (disk.handle owner).content.length, written⟩)).answer
      .ok, ?_, held.call objects names { disk.handle owner with
        position := (disk.handle owner).position + ((disk.handle owner).ahead btr).length } written
      isLive (Handle.ahead_le (held.within owner)) rfl rfl recorded ?_⟩
  · unfold ReadsFile
    rw [if_pos rfl]
    refine ⟨_, opened, ?_, rfl⟩
    dsimp only
    rw [data, List.take_length]
    rfl
  · dsimp only
    rw [← data, Function.update_eq_self]
    rfl

/-- The card answers a write. -/
theorem Disk.Held.write {data : List Byte} {count clusters : Nat}
    (held : disk.Held object name live card)
    (objects : object.Injective) (names : name.Injective) (isLive : live owner)
    (most : count ≤ data.length) :
    ∃ later, WritesFile (object owner) data card .ok count later ∧
      Disk.Held { disk with
        free
        handle := Function.update disk.handle owner { disk.handle owner with
          content := patch (disk.handle owner).content (disk.handle owner).position
            (data.take count)
          position := (disk.handle owner).position + count
          clusters } }
        object name live later := by
  obtain ⟨written, opened, _⟩ := held.opened owner isLive
  have length : (data.take count).length = count := List.length_take_of_le most
  have long := @length_patch _ (data.take count) _ (held.within owner)
  rw [length] at long
  have size : (if FResult.ok = .ok then max (disk.handle owner).content.length
      ((disk.handle owner).position + count) else (disk.handle owner).content.length) =
        (patch (disk.handle owner).content (disk.handle owner).position (data.take count)).length :=
    (if_pos rfl).trans long.symm
  refine ⟨_, .inl ⟨_, opened, most, rfl⟩, held.call objects names { disk.handle owner with
    content := patch (disk.handle owner).content (disk.handle owner).position (data.take count)
    position := (disk.handle owner).position + count
    clusters } (written || decide (FResult.ok = .ok)) isLive (by dsimp only; omega) ?_ rfl ?_ ?_⟩
  · dsimp only
    rw [← size]
    rfl
  · intro clean
    rw [decide_eq_true rfl, Bool.or_true] at clean
    cases clean
  · dsimp only
    rw [← held.data owner]
    rfl

/-- The card answers when a file is closed. -/
theorem Disk.Held.close (held : disk.Held object name live card) (objects : object.Injective)
    (names : name.Injective) (isLive : live owner) :
    ∃ later, ClosesFile (object owner) card .ok later ∧
      disk.Held object name (stillOpen live (owner, .sync .ok)) later := by
  obtain ⟨written, opened, clean⟩ := held.opened owner isLive
  obtain ⟨after, recorded, entry, opens, data⟩ := held.recorded clean
  refine ⟨(after.setHandle (object owner) none).answer .ok, ?_, fun other isOpen => ?_,
    fun other shut => ?_, fun other => (congrFun data _).trans (held.data other), held.within⟩
  · unfold ClosesFile
    rw [opened]
    dsimp only
    rw [if_pos rfl, recorded]
  · obtain ⟨isOpen, distinct⟩ := isOpen
    change ∃ written, Function.update after.opened _ none (object other) = _ ∧
      (_ → after.entry (name other) = _)
    rw [opens, entry, Function.update_of_ne fun equal => distinct (objects equal),
      Function.update_of_ne fun equal => distinct (names equal)]
    exact held.opened other isOpen
  · change after.entry (name other) = _
    rw [entry]
    by_cases same : other = owner
    · rw [same, Function.update_self]
    · rw [Function.update_of_ne fun equal => same (names equal)]
      exact held.closed other fun isOpen => shut ⟨isOpen, same⟩

/-- What the disk answers is an answer of the card. -/
theorem Disk.Held.step (held : disk.Held object name live card)
    (objects : object.Injective) (names : name.Injective)
    (step : Disk.Step disk (owner, event) next) (unsought : event.Unsought) (isLive : live owner) :
    ∃ later, event.Asks (cards resolve) (object owner) card later ∧
      next.Held object name (stillOpen live (owner, event)) later := by
  cases step with
  | call answers _ taken fits =>
      cases answers with
      | @notReadable btr =>
          rw [Disk.call_idle taken]
          exact held.notRead btr isLive
      | read => exact held.read objects names isLive
      | notWritable =>
          rw [Disk.call_idle taken]
          exact ⟨_, .inr ⟨rfl, rfl⟩, held.answer⟩
      | tooLong =>
          rw [Disk.call_idle taken]
          exact ⟨_, .inr ⟨rfl, rfl⟩, held.answer⟩
      | write _ _ most => exact held.write objects names isLive (most ▸ Nat.min_le_left ..)
      | seek => exact absurd rfl (unsought _ _)
      | sync =>
          rw [Disk.call_idle taken]
          exact held.close objects names isLive

end Cards

/-! ## Runs -/

/-- A call of the console on a volume, where one file is written only. -/
structure Files.Writing (isFile : ι → Prop) (writer : ι) (before : Files ι) (call : ι × Event)
    (after : Files ι) : Prop where
  step : Files.Step isFile before call after
  unsought : call.2.Unsought
  alone : call.2.Alone writer call.1 (before.fil writer).fsize

/-- A call of the console on a volume, and the files that are open. -/
structure Files.Using (isFile : ι → Prop) (before : Files ι × (ι → Prop)) (call : ι × Event)
    (after : Files ι × (ι → Prop)) : Prop where
  step : Files.Step isFile before.1 call after.1
  unsought : call.2.Unsought
  live : before.2 call.1
  left : after.2 = stillOpen before.2 call

/-- A volume is what a disk of the console is. -/
def Files.Shown (lost : Nat → Prop) (isFile : ι → Prop) (object : ι → FileObject) (name : ι → file)
    (writer : ι) (files : Files ι) (console : Console.Disk file) : Prop :=
  ∃ disk, files.Refines lost isFile disk ∧ disk.Shown object name writer console

/-- A volume is what a card of the console is. -/
def Files.Held (lost : Nat → Prop) (isFile : ι → Prop) (object : ι → FileObject) (name : ι → file)
    (now : Files ι × (ι → Prop)) (card : Console.Card file) : Prop :=
  ∃ disk, now.1.Refines lost isFile disk ∧ disk.Held object name now.2 card

section Runs

variable {isFile : ι → Prop} {lost : Nat → Prop} {first last : Files ι}
variable {events : List (ι × Event)} {opened left : ι → Prop} {card : Console.Card file}

/-- The calls of the console on the files of a volume are answered as its disk answers them, while
one file is written and no write follows one that was cut short. -/
theorem files_disks (shown : first.Shown lost isFile object name writer console)
    (writes : isFile writer) (objects : object.Injective) (names : name.Injective)
    (run : Trace (Files.Writing isFile writer) first events last) :
    ∃ later, Trace (fun before call after =>
        Event.Asks (disks resolve) (object call.1) call.2 before after) console events later ∧
      last.Shown lost isFile object name writer later := by
  refine run.simulate ?_ shown
  rintro before ⟨owner, event⟩ after console ⟨disk, refines, shown⟩ ⟨step, unsought, alone⟩
  obtain ⟨next, goes, again⟩ := refines.step step
  obtain ⟨chain, models⟩ := refines
  rw [(models.serves writer writes).size] at alone
  obtain ⟨later, asks, shown⟩ := shown.step objects names goes unsought alone
  exact ⟨later, asks, next, again, shown⟩

/-- The calls of the console on the open files of a volume are answered as its card answers them:
a file that is closed has its content in its directory entry. -/
theorem files_cards (held : Files.Held lost isFile object name (first, opened) card)
    (objects : object.Injective) (names : name.Injective)
    (run : Trace (Files.Using isFile) (first, opened) events (last, left)) :
    ∃ later, Trace (fun before call after =>
        Event.Asks (cards resolve) (object call.1) call.2 before after) card events later ∧
      Files.Held lost isFile object name (last, left) later := by
  refine run.simulate ?_ held
  rintro before ⟨owner, event⟩ after card ⟨disk, refines, held⟩ ⟨step, unsought, live, left⟩
  obtain ⟨next, goes, again⟩ := refines.step step
  obtain ⟨later, asks, held⟩ := held.step objects names goes unsought live
  exact ⟨later, asks, next, again, left ▸ held⟩

end Runs

end Servers

/-! ### A copy -/

/-- The file object of `cat` for a file. -/
def copyObject (target : Bool) : FileObject := if target then .fileObjectWrite else .fileObject

theorem copyObject_injective : copyObject.Injective := by decide

namespace Disk

variable (disk : Disk Bool)

/-- The disk of the console during a copy. -/
def console : Console.Disk Bool where
  content target := some (disk.handle target).content
  room := disk.room true - (disk.handle true).content.length
  opened
    | .fileObject => some (false, (disk.handle false).position)
    | .fileObjectWrite => some (true, (disk.handle true).position)
    | .udpFo => none

/-- The card of the console during a copy. -/
def card : Console.Card Bool where
  entry target := some (disk.handle target).content
  data target := (disk.handle target).content
  opened
    | .fileObject =>
        some ⟨false, (disk.handle false).position, (disk.handle false).content.length, false⟩
    | .fileObjectWrite =>
        some ⟨true, (disk.handle true).position, (disk.handle true).content.length, false⟩
    | .udpFo => none
  received := []
  opens := []
  others := []

end Disk

theorem Files.Refines.copying {files : Files Bool} {lost : Nat → Prop} {disk : Disk Bool}
    (refines : files.Refines lost (fun _ => True) disk) :
    files.Shown lost (fun _ => True) copyObject id true disk.console ∧
      Files.Held lost (fun _ => True) copyObject id (files, fun _ => True) disk.card := by
  obtain ⟨chain, models⟩ := refines
  refine ⟨⟨disk, ⟨chain, models⟩, fun target => ?_, fun _ => rfl, rfl, models.within trivial,
      models.fits trivial⟩,
    ⟨disk, ⟨chain, models⟩, fun target _ => ?_, fun _ shut => absurd trivial shut, fun _ => rfl,
      fun _ => models.within trivial⟩⟩
  · cases target <;> rfl
  · cases target <;> exact ⟨false, rfl, fun _ => rfl⟩

theorem filledOnce_ends : (fWrite (emptyFil 0) (fun _ => 9) 5 emptyVolume).isSome = true := by
  decide

/-- Five bytes in the other file. -/
def filledOnce : (FResult × Transfer) × Fatfs := Option.get _ filledOnce_ends

theorem rewoundOnce_ends : (fLseek filledOnce.1.2.fp 0 filledOnce.2).isSome = true := by decide

def rewoundOnce : (FResult × Fil) × Fatfs := Option.get _ rewoundOnce_ends

/-- A file with five bytes, and one that is empty. -/
def sourceFiles : Files Bool :=
  (emptyFiles.called false filledOnce.1.2.fp filledOnce.2).called false rewoundOnce.1.2
    rewoundOnce.2

theorem takenOnce_ends : (fRead rewoundOnce.1.2 (fun _ => 0) 5 rewoundOnce.2).isSome = true := by
  decide

def takenOnce : (FResult × Transfer) × Fatfs := Option.get _ takenOnce_ends

theorem putOnce_ends : (fWrite (emptyFil 32) takenOnce.1.2.buff 5 takenOnce.2).isSome = true := by
  decide

def putOnce : (FResult × Transfer) × Fatfs := Option.get _ putOnce_ends

theorem closedOnce_ends : (fSync putOnce.1.2.fp 0 putOnce.2).isSome = true := by decide

def closedOnce : (FResult × Fil) × Fatfs := Option.get _ closedOnce_ends

def takenFiles : Files Bool := sourceFiles.called false takenOnce.1.2.fp takenOnce.2

def putFiles : Files Bool := takenFiles.called true putOnce.1.2.fp putOnce.2

/-- Both files after the copy. -/
def copiedFiles : Files Bool := putFiles.called true closedOnce.1.2 closedOnce.2

theorem sourceFiles_refines :
    ∃ disk, sourceFiles.Refines (fun _ => False) (fun _ => True) disk := by
  have fill : Files.Step (fun _ => True) emptyFiles (false, .write (bytes (fun _ => 9) 5) .ok 5)
      (emptyFiles.called false filledOnce.1.2.fp filledOnce.2) :=
    @Files.Step.write Bool _ (fun _ => True) emptyFiles false (fun _ => 9) 5 .ok filledOnce.1.2
      filledOnce.2 trivial (by decide) (.inl (by decide)) (Option.some_get filledOnce_ends).symm
      (not_failed rfl)
  have rewind : Files.Step (fun _ => True)
      (emptyFiles.called false filledOnce.1.2.fp filledOnce.2) (false, .seek 0 .ok) sourceFiles :=
    @Files.Step.seek Bool _ (fun _ => True) _ false 0 .ok rewoundOnce.1.2 rewoundOnce.2 trivial
      (by decide) (Option.some_get rewoundOnce_ends).symm (not_failed rfl)
  obtain ⟨_, _, filled⟩ := emptyFiles_refines.step fill
  obtain ⟨disk, _, refines⟩ := filled.step rewind
  exact ⟨disk, refines⟩

theorem sourceFiles_step : Files.Step (fun _ => True) sourceFiles
    (false, .read 5 .ok (bytes takenOnce.1.2.buff 5)) takenFiles :=
  @Files.Step.read Bool _ (fun _ => True) sourceFiles false (fun _ => 0) 5 .ok takenOnce.1.2
    takenOnce.2 trivial (by decide) (Option.some_get takenOnce_ends).symm (not_failed rfl)

theorem takenFiles_step : Files.Step (fun _ => True) takenFiles
    (true, .write (bytes takenOnce.1.2.buff 5) .ok 5) putFiles :=
  @Files.Step.write Bool _ (fun _ => True) takenFiles true takenOnce.1.2.buff 5 .ok putOnce.1.2
    putOnce.2 trivial (by decide) (.inl (by decide)) (Option.some_get putOnce_ends).symm
    (not_failed rfl)

theorem putFiles_step : Files.Step (fun _ => True) putFiles (true, .sync .ok) copiedFiles :=
  @Files.Step.sync Bool _ (fun _ => True) putFiles true 0 .ok closedOnce.1.2 closedOnce.2 trivial
    (Option.some_get closedOnce_ends).symm (not_failed rfl)

/-- The calls of a copy of five bytes, with their answers. -/
def copyCalls : List (Bool × Event) :=
  [(false, .read 5 .ok (bytes takenOnce.1.2.buff 5)),
    (true, .write (bytes takenOnce.1.2.buff 5) .ok 5), (true, .sync .ok)]

/-- The disk of the console answers the calls of the copy. -/
theorem files_disks_copy : ∃ disk, sourceFiles.Refines (fun _ => False) (fun _ => True) disk ∧
    ∃ later, Trace (fun before call after =>
        Event.Asks (disks fun _ => true) (copyObject call.1) call.2 before after) disk.console
          copyCalls later ∧
      copiedFiles.Shown (fun _ => False) (fun _ => True) copyObject id true later := by
  obtain ⟨disk, refines⟩ := sourceFiles_refines
  refine ⟨disk, refines, files_disks refines.copying.1 trivial copyObject_injective
    Function.injective_id ?_⟩
  refine .cons ⟨sourceFiles_step, nofun, nofun⟩ (.cons ⟨takenFiles_step, nofun, ?_⟩
    (.cons ⟨putFiles_step, nofun, nofun⟩ .nil))
  rintro _ _ _ ⟨⟩
  exact ⟨rfl, by decide⟩

/-- The card answers them, too, and the copy is closed then. -/
theorem files_cards_copy : ∃ disk, sourceFiles.Refines (fun _ => False) (fun _ => True) disk ∧
    ∃ later, Trace (fun before call after =>
        Event.Asks (cards fun _ => true) (copyObject call.1) call.2 before after) disk.card
          copyCalls later ∧
      Files.Held (fun _ => False) (fun _ => True) copyObject id
        (copiedFiles, fun target => True ∧ target ≠ true) later := by
  obtain ⟨disk, refines⟩ := sourceFiles_refines
  refine ⟨disk, refines, files_cards refines.copying.2 copyObject_injective
    Function.injective_id ?_⟩
  have source : Files.Using (fun _ => True) (sourceFiles, fun _ => True)
      (false, .read 5 .ok (bytes takenOnce.1.2.buff 5)) (takenFiles, fun _ => True) :=
    ⟨sourceFiles_step, nofun, trivial, rfl⟩
  have target : Files.Using (fun _ => True) (takenFiles, fun _ => True)
      (true, .write (bytes takenOnce.1.2.buff 5) .ok 5) (putFiles, fun _ => True) :=
    ⟨takenFiles_step, nofun, trivial, rfl⟩
  exact .cons source (.cons target (.cons ⟨putFiles_step, nofun, trivial, rfl⟩ .nil))

end BbbEth.FatFs
