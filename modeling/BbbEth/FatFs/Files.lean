import BbbEth.FatFs.Disk
import BbbEth.FatFs.Sync

/-!
# Files that are used side by side

The volume with its open files against the disk: every answer that a call gives is one that the
disk gives, in any order of the calls and on any files.
-/

namespace BbbEth.FatFs

open BbbEth.Console BbbEth.Stateful BbbEth.Linked

/-! ## Calls -/

/-- The volume, and the objects of the files on it. -/
structure Files (ι : Type) where
  fs : Fatfs
  fil : ι → Fil

/-- Some bytes of a buffer. -/
def bytes (buff : Nat → Byte) (count : Nat) : List Byte := (List.range count).map buff

namespace Files

variable {ι : Type} [DecidableEq ι]

/-- The volume and an object after a call. -/
def called (files : Files ι) (owner : ι) (fp : Fil) (after : Fatfs) : Files ι :=
  ⟨after, Function.update files.fil owner fp⟩

/-- A call on an open file, where no call of the card fails.  A write that was cut short is not
followed by another one: the caller moves the position before. -/
inductive Step (file : ι → Prop) : Files ι → ι × Event → Files ι → Prop where
  | read {files : Files ι} {owner : ι} {buff : Nat → Byte} {btr : Nat} {res : FResult}
      {last : Transfer} {after : Fatfs} (isFile : file owner) (word : btr < 2 ^ 16)
      (ran : fRead (files.fil owner) buff btr files.fs = some ((res, last), after))
      (fine : ¬ files.fs.card.Failed after.card) :
      Step file files (owner, .read btr res (bytes last.buff last.done))
        (files.called owner last.fp after)
  | write {files : Files ι} {owner : ι} {buff : Nat → Byte} {btw : Nat} {res : FResult}
      {last : Transfer} {after : Fatfs} (isFile : file owner) (word : btw < 2 ^ 16)
      (counter : (files.fil owner).sectClust ≠ 0 ∨ btw = 0)
      (ran : fWrite (files.fil owner) buff btw files.fs = some ((res, last), after))
      (fine : ¬ files.fs.card.Failed after.card) :
      Step file files (owner, .write (bytes buff btw) res last.done)
        (files.called owner last.fp after)
  | seek {files : Files ι} {owner : ι} {ofs : Nat} {res : FResult} {last : Fil} {after : Fatfs}
      (isFile : file owner) (dword : ofs < 2 ^ 32)
      (ran : fLseek (files.fil owner) ofs files.fs = some ((res, last), after))
      (fine : ¬ files.fs.card.Failed after.card) :
      Step file files (owner, .seek ofs res) (files.called owner last after)
  | sync {files : Files ι} {owner : ι} {tim : Nat} {res : FResult} {last : Fil} {after : Fatfs}
      (isFile : file owner)
      (ran : fSync (files.fil owner) tim files.fs = some ((res, last), after))
      (fine : ¬ files.fs.card.Failed after.card) :
      Step file files (owner, .sync res) (files.called owner last after)

end Files

/-! ## Bytes -/

section Bytes

variable {buff : Nat → Byte} {content : List Byte} {count position index : Nat}

@[simp] theorem length_bytes : (bytes buff count).length = count := by
  unfold bytes
  rw [List.length_map, List.length_range]

theorem getD_bytes (inside : index < count) : (bytes buff count).getD index 0 = buff index := by
  unfold bytes
  rw [List.getD_eq_getElem?_getD, List.getElem?_map, List.getElem?_range inside]
  rfl

theorem take_bytes : (bytes buff count).take position = bytes buff (min position count) := by
  unfold bytes
  rw [← List.map_take, List.take_range]

/-- What was read from a position. -/
theorem bytes_eq (done : count = min index (content.length - position))
    (arrived : ∀ place < count, buff place = content.getD (position + place) 0) :
    bytes buff count = (content.drop position).take index := by
  refine List.ext_getElem ?_ fun place inside other => ?_
  · rw [length_bytes, List.length_take, List.length_drop, done]
  · rw [length_bytes] at inside
    rw [← List.getD_eq_getElem _ 0, getD_bytes inside, arrived place inside, List.getElem_take,
      List.getElem_drop, List.getD_eq_getElem]

/-- What was written over a content. -/
theorem overlay_eq (inside : position ≤ content.length) :
    overlay (fun index => content.getD index 0) position count buff index =
      (patch content position (bytes buff count)).getD index 0 := by
  rw [getD_patch inside, length_bytes]
  unfold overlay
  split
  next here => rw [getD_bytes (by omega)]
  next => rfl

end Bytes

/-! ## The volume and the disk -/

namespace Fil

/-- The object with a counter of sectors that is not used up. -/
def steady (fp : Fil) : Fil := fp.counted (max 1 fp.sectClust)

variable {fp : Fil}

theorem steady_eq (counter : 0 < fp.sectClust) : fp.steady = fp := by
  unfold steady counted
  rw [max_eq_right counter]

/-- What no call changes of an object. -/
structure Kept (before after : Fil) : Prop where
  id : after.id = before.id
  mounted : after.fs = before.fs
  dirSect : after.dirSect = before.dirSect
  dirPtr : after.dirPtr = before.dirPtr
  read : after.flag.read = before.flag.read
  write : after.flag.write = before.flag.write
  error : after.flag.error = before.flag.error

theorem Kept.refl : Kept fp fp := ⟨rfl, rfl, rfl, rfl, rfl, rfl, rfl⟩

variable {last : Fil} {size : Nat} {written : Bool}

theorem Kept.of_fixed
    (same : last.fixed = (({ fp with fsize := size } : Fil).setWritten written).fixed) :
    Kept fp last ∧ last.fsize = size ∧ last.flag.written = written := by
  have id := congrArg (fun fp : Fil => fp.id) same
  have mounted := congrArg (fun fp : Fil => fp.fs) same
  have dirSect := congrArg (fun fp : Fil => fp.dirSect) same
  have dirPtr := congrArg (fun fp : Fil => fp.dirPtr) same
  have flag := congrArg (fun fp : Fil => fp.flag) same
  have fsize := congrArg (fun fp : Fil => fp.fsize) same
  have read := congrArg Flag.read flag
  have write := congrArg Flag.write flag
  have error := congrArg Flag.error flag
  have marked := congrArg Flag.written flag
  exact ⟨⟨id, mounted, dirSect, dirPtr, read, write, error⟩, fsize, marked⟩

end Fil

namespace Sector

variable {left right : Sector} {dir : Nat}

theorem fileSize_congr (same : ∀ index < 32, left.get (dir + index) = right.get (dir + index)) :
    left.fileSize dir = right.fileSize dir := by
  unfold fileSize ldDword
  simp only [Nat.add_assoc, Nat.reduceAdd]
  rw [same 28 (by decide), same 29 (by decide), same 30 (by decide), same 31 (by decide)]

theorem startClust_congr (same : ∀ index < 32, left.get (dir + index) = right.get (dir + index)) :
    left.startClust dir = right.startClust dir := by
  unfold startClust ldWord
  simp only [Nat.add_assoc, Nat.reduceAdd]
  rw [same 20 (by decide), same 21 (by decide), same 26 (by decide), same 27 (by decide)]

end Sector

namespace Fatfs

variable {fs : Fatfs} {cells : List Nat} {size : Nat} {content other : Nat → Byte} {fp : Fil}

theorem Shows.agree (shows : fs.Shows cells size content fp)
    (same : ∀ position < size, other position = content position) :
    fs.Shows cells size other fp where
  first := shows.first
  room := shows.room
  fptr_le := shows.fptr_le
  bytes position below := (shows.bytes position below).trans (same position below).symm
  top := shows.top
  within := shows.within
  loaded := shows.loaded

/-- The counter is never used up between two calls. -/
theorem Shows.counter (shows : fs.Shows cells size content fp) (wellFormed : fs.WellFormed) :
    0 < fp.sectClust := by
  by_cases zero : fp.fptr = 0
  · rw [(shows.top zero).1]
    exact Nat.one_pos
  · rw [(shows.within (Nat.pos_of_ne_zero zero)).sectClust]
    exact Nat.sub_pos_of_lt (Nat.mod_lt _ wellFormed.sectsClust)

end Fatfs

namespace Session

variable {ι : Type}

/-- A file object that is what a file of the disk is. -/
structure Serves (session : Session ι) (file : ι → Prop) (owner : ι) (fp : Fil)
    (handle : Handle) : Prop where
  shows : session.fs.Shows (session.chain owner) handle.content.length
    (fun index => handle.content.getD index 0) fp.steady
  usable : fp.Usable session.fs
  listed : session.Listed file fp
  size : fp.fsize = handle.content.length
  position : fp.fptr = handle.position
  clusters : (session.chain owner).length = handle.clusters
  readable : fp.flag.read = handle.readable
  writable : fp.flag.write = handle.writable
  small : fp.fsize < 2 ^ 32
  spent : fp.sectClust = 0 → fp.fptr = fp.fsize
  marked : fp.flag.dirty = true → fp.flag.written = true
  entry : fp.flag.written = false →
    (session.fs.view fp.dirSect).fileSize fp.dirPtr = fp.fsize ∧
      (session.fs.view fp.dirSect).startClust fp.dirPtr = fp.orgClust

/-- The entries of two files are not the same. -/
def Separate (left right : Fil) : Prop :=
  left.dirSect ≠ right.dirSect ∨ left.dirPtr % sSiz / 32 ≠ right.dirPtr % sSiz / 32

/-- The volume with its file objects is what the disk is. -/
structure Models (session : Session ι) (lost : Nat → Prop) (file : ι → Prop) (fil : ι → Fil)
    (disk : Disk ι) : Prop where
  intact : session.Intact lost
  apart : session.Apart file
  mirrored : session.fs.Mirrored
  csize : disk.csize = sSiz * session.fs.sectsClust
  free : disk.free = session.fs.free.card
  serves : ∀ owner, file owner → session.Serves file owner (fil owner) (disk.handle owner)
  separate : ∀ owner other, file owner → file other → owner ≠ other →
    Separate (fil owner) (fil other)

/-- The volume after a call on a file. -/
structure Called (lost : Nat → Prop) (file : ι → Prop) (owner : ι) (fil : ι → Fil)
    (mine : Nat → Prop) (session next : Session ι) : Prop where
  intact : next.Intact lost
  apart : next.Apart file
  others : ∀ other, other ≠ owner → next.chain other = session.chain other
  grown : session.chain owner <+: next.chain owner
  around : session.fs.Around mine next.fs
  elsewhere : ∀ other, other ≠ owner → file other → ∀ number, mine number →
    ¬ session.Sectors other number
  entries : ∀ other, other ≠ owner → file other → ∀ index < 32,
    (next.fs.view (fil other).dirSect).get ((fil other).dirPtr + index) =
      (session.fs.view (fil other).dirSect).get ((fil other).dirPtr + index)

variable {session next : Session ι} {lost mine : Nat → Prop} {file : ι → Prop} {owner other : ι}
variable {fil : ι → Fil} {disk : Disk ι} {fp : Fil} {handle : Handle} {number : Nat}

/-- The room for a file does not reach into directories. -/
theorem Intact.beside_room (intact : session.Intact lost) (beside : session.Beside file number)
    (isFile : file owner) : ¬ session.Room owner number := by
  rintro ⟨clust, member, holds⟩
  obtain ⟨cluster, _, others⟩ := intact.mem_pool.mp member
  obtain ⟨directory, isDirectory, has⟩ := beside clust cluster holds
  refine others directory ?_ has
  rintro rfl
  exact isDirectory isFile

/-- The object of a file stays valid, and its entry where it is. -/
theorem Called.kept {last : Fil} (called : Called lost file owner fil mine session next)
    (owned : file owner) (kept : Fil.Kept fp last) (usable : fp.Usable session.fs)
    (listed : session.Listed file fp) : last.Usable next.fs ∧ next.Listed file last := by
  have geometry := called.around.geometry
  refine ⟨⟨kept.mounted.trans usable.mounted, ?_, kept.error.trans usable.fine⟩, ?_, ?_, ?_⟩
  · rw [kept.id, geometry]
    exact usable.id
  · rw [kept.dirSect, geometry]
    exact listed.behind
  · rw [kept.dirSect]
    refine listed.beside.congr geometry fun directory isDirectory => ?_
    rw [called.others directory fun same => isDirectory (same ▸ owned)]
    exact fun _ member => member
  · rw [kept.dirPtr]
    exact listed.entry

theorem Serves.fptr_le (serves : session.Serves file owner fp handle) : fp.fptr ≤ fp.fsize := by
  rw [serves.size]
  exact serves.shows.fptr_le

/-- A file object is the same as long as its file, its entry and the directories are. -/
theorem Serves.frame (serves : session.Serves file other (fil other) handle)
    (intact : session.Intact lost) (apart : session.Apart file)
    (called : Called lost file owner fil mine session next)
    (isFile : file other) (owned : file owner) (distinct : other ≠ owner) :
    next.Serves file other (fil other) handle := by
  have stays := called.others other distinct
  have opened : session.Opened lost file other handle.content.length
      (fun index => handle.content.getD index 0) (fil other).steady :=
    ⟨intact, apart, isFile, serves.shows⟩
  have entries := called.entries other distinct isFile
  obtain ⟨usable, listed⟩ := called.kept owned .refl serves.usable serves.listed
  refine ⟨?_, usable, listed, serves.size, serves.position, ?_, serves.readable, serves.writable,
    serves.small, serves.spent, serves.marked, fun clean => ?_⟩
  · exact (opened.frame called.intact called.apart called.around stays
      (called.elsewhere other distinct isFile)).shows
  · rw [stays]
    exact serves.clusters
  · rw [Sector.fileSize_congr entries, Sector.startClust_congr entries]
    exact serves.entry clean

/-- What is done in the room for a file leaves the entries of the others. -/
theorem Called.of_served (models : session.Models lost file fil disk)
    (isFile : file owner) (served : Served lost file owner session next) :
    Called lost file owner fil (session.Room owner) session next where
  intact := served.intact
  apart := served.apart
  others := served.others
  grown := served.grown
  around := served.around
  elsewhere other distinct _ _ room := models.intact.room_apart distinct room
  entries other _ isOther _ _ := by
    have listed := (models.serves other isOther).listed
    rw [served.around.view _ listed.behind (models.intact.beside_room listed.beside isFile)]

/-- What `f_sync` writes leaves the other files and their entries. -/
theorem Called.of_synced {content : Nat → Byte} {sectClust tim : Nat} {after : Fatfs}
    (models : session.Models lost file fil disk) (isFile : file owner)
    (synced : session.Synced { session with fs := after } lost file owner content sectClust
      (fil owner) tim) :
    Called lost file owner fil
      (fun number => session.Sectors owner number ∨ number = (fil owner).dirSect) session
      { session with fs := after } where
  intact := synced.accessed.intact
  apart := synced.accessed.apart
  others _ _ := rfl
  grown := List.prefix_rfl
  around := synced.accessed.around
  elsewhere other distinct isOther number := by
    rintro (sectors | rfl)
    · exact models.intact.sectors_apart (Ne.symm distinct) sectors
    · exact models.intact.beside_apart (models.serves owner isFile).listed.beside isOther
  entries other distinct isOther index inside := by
    have listed := (models.serves other isOther).listed
    dsimp only
    by_cases same : (fil other).dirSect = (fil owner).dirSect
    · have slots := (models.separate other owner isOther isFile distinct).resolve_left
        (not_not.mpr same)
      have own := (models.serves owner isFile).listed.entry
      have entry := listed.entry
      rw [same, synced.entry, Fil.record_outside own]
      unfold sSiz at slots ⊢
      omega
    · rw [synced.accessed.around.view _ listed.behind]
      rintro (sectors | here)
      · exact models.intact.beside_apart listed.beside isFile sectors
      · exact same here

theorem Models.room (models : session.Models lost file fil disk) (isFile : file owner) :
    disk.room owner = session.capacity owner := by
  unfold Disk.room capacity
  rw [models.csize, models.free, ← (models.serves owner isFile).clusters,
    ← models.intact.card_pool owner, Nat.mul_comm (session.pool owner).card, Nat.mul_assoc]

theorem Models.opened (models : session.Models lost file fil disk) (isFile : file owner) :
    session.Opened lost file owner (fil owner).fsize
      (fun index => (disk.handle owner).content.getD index 0) (fil owner).steady := by
  refine ⟨models.intact, models.apart, isFile, ?_⟩
  rw [(models.serves owner isFile).size]
  exact (models.serves owner isFile).shows

theorem Models.within (models : session.Models lost file fil disk) (isFile : file owner) :
    (disk.handle owner).position ≤ (disk.handle owner).content.length := by
  rw [← (models.serves owner isFile).position]
  exact (models.serves owner isFile).shows.fptr_le

theorem Models.fits (models : session.Models lost file fil disk) (isFile : file owner) :
    disk.Fits owner := by
  have serves := models.serves owner isFile
  have room := serves.shows.room
  unfold Disk.Fits
  rw [models.csize, ← serves.clusters, Nat.mul_assoc, Nat.mul_comm session.fs.sectsClust]
  exact room

/-- After `f_sync` the file is opened again on any mount of the card. -/
theorem Models.reopened {tim : Nat} {after fresh : Fatfs} {other : Fil} {read write : Bool}
    (models : session.Models lost file fil disk) (isFile : file owner)
    (synced : session.Synced { session with fs := after } lost file owner
      (fun index => (disk.handle owner).content.getD index 0) (max 1 (fil owner).sectClust)
      (fil owner) tim)
    (remounted : after.Remounted fresh) (here : fresh.winsect = (fil owner).dirSect) :
    Serves { session with fs := fresh } file owner
      (other.assign fresh read write (fil owner).dirPtr)
      { disk.handle owner with position := 0, readable := read, writable := write } := by
  have serves := models.serves owner isFile
  obtain ⟨opened, size, listed⟩ := synced.reopened isFile serves.listed serves.small remounted here
  have shows := opened.shows
  rw [serves.size] at shows
  refine ⟨shows, ⟨rfl, rfl, rfl⟩, listed, size.trans serves.size, rfl, serves.clusters, rfl, rfl,
    size.trans_lt serves.small, (fun zero => absurd zero Nat.one_ne_zero), (fun dirty => by cases dirty),
    fun _ => ?_⟩
  change (fresh.view fresh.winsect).fileSize (fil owner).dirPtr =
    fresh.win.fileSize (fil owner).dirPtr ∧
      (fresh.view fresh.winsect).startClust (fil owner).dirPtr =
        fresh.win.startClust (fil owner).dirPtr
  rw [Fatfs.view_winsect rfl]
  exact ⟨rfl, rfl⟩

variable [DecidableEq ι]

/-- A call that answers as the disk does is a step of the disk. -/
theorem Models.call {event : Event} (models : session.Models lost file fil disk)
    (isFile : file owner) (called : Called lost file owner fil mine session next)
    (fine : ¬ session.fs.card.Failed next.fs.card) (serves : next.Serves file owner fp handle)
    (sector : fp.dirSect = (fil owner).dirSect) (dir : fp.dirPtr = (fil owner).dirPtr)
    (answers : (disk.handle owner).Answers (session.capacity owner) event handle) :
    ∃ later, Disk.Step disk (owner, event) later ∧
      next.Models lost file (Function.update fil owner fp) later := by
  have geometry := called.around.geometry
  have before := (models.serves owner isFile).clusters
  have pool := models.intact.pool_congr called.intact geometry called.others
  have card := models.intact.card_pool owner
  have cardAfter := called.intact.card_pool owner
  have clusters := serves.clusters
  have longer := called.grown.length_le
  rw [pool] at cardAfter
  rw [← models.room isFile] at answers
  refine ⟨{ disk with free := next.fs.free.card, handle := Function.update disk.handle owner handle },
    .call answers ?_ ?_ ?_, ?_⟩
  · omega
  · rw [models.free]
    omega
  · have room := serves.shows.room
    rw [models.csize, ← clusters, Nat.mul_assoc, ← geometry]
    unfold Geometry.blocks at room
    rw [Nat.mul_comm next.fs.sectsClust]
    exact room
  · refine ⟨called.intact, called.apart,
      (called.around.mirrored models.mirrored).resolve_right fine, ?_, rfl, ?_, ?_⟩
    · rw [geometry]
      exact models.csize
    · intro other isOther
      dsimp only
      by_cases same : other = owner
      · rw [same, Function.update_self, Function.update_self]
        exact serves
      · rw [Function.update_of_ne same, Function.update_of_ne same]
        exact (models.serves other isOther).frame models.intact models.apart called isOther isFile
          same
    · have slot : ∀ other, (Function.update fil owner fp other).dirSect = (fil other).dirSect ∧
          (Function.update fil owner fp other).dirPtr = (fil other).dirPtr := by
        intro other
        by_cases same : other = owner
        · rw [same, Function.update_self]
          exact ⟨sector, dir⟩
        · rw [Function.update_of_ne same]
          exact ⟨rfl, rfl⟩
      intro left right isLeft isRight distinct
      unfold Separate
      rw [(slot left).1, (slot left).2, (slot right).1, (slot right).2]
      exact models.separate left right isLeft isRight distinct

/-- A call that leaves all as it is. -/
theorem Models.idle {event : Event} (models : session.Models lost file fil disk)
    (isFile : file owner)
    (answers : (disk.handle owner).Answers (session.capacity owner) event (disk.handle owner)) :
    ∃ later, Disk.Step disk (owner, event) later ∧
      session.Models lost file (Function.update fil owner (fil owner)) later :=
  models.call isFile
    (.of_served models isFile (.refl models.intact models.apart))
    (fun ⟨_, least, below, _⟩ => absurd (least.trans_lt below) (lt_irrefl _))
    (models.serves owner isFile) rfl rfl answers

/-- A call that was served in the room for the file. -/
theorem Models.served {event : Event} {last : Fil} (models : session.Models lost file fil disk)
    (isFile : file owner) (served : Served lost file owner session next)
    (fine : ¬ session.fs.card.Failed next.fs.card)
    (answers : (disk.handle owner).Answers (session.capacity owner) event handle)
    (kept : Fil.Kept (fil owner) last) (shows : next.fs.Shows (next.chain owner) last.fsize
      (fun index => handle.content.getD index 0) last.steady)
    (size : last.fsize = handle.content.length) (position : last.fptr = handle.position)
    (clusters : (next.chain owner).length = handle.clusters)
    (mode : handle.readable = (disk.handle owner).readable ∧
      handle.writable = (disk.handle owner).writable)
    (small : last.fsize < 2 ^ 32) (spent : last.sectClust = 0 → last.fptr = last.fsize)
    (marked : last.flag.dirty = true → last.flag.written = true)
    (clean : last.flag.written = false → (fil owner).flag.written = false ∧
      last.fsize = (fil owner).fsize ∧
      (next.chain owner).headD 0 = (session.chain owner).headD 0) :
    ∃ later, Disk.Step disk (owner, event) later ∧
      next.Models lost file (Function.update fil owner last) later := by
  have serves := models.serves owner isFile
  have called := Called.of_served models isFile served
  obtain ⟨usable, listed⟩ := called.kept isFile kept serves.usable serves.listed
  have entry : next.fs.view last.dirSect = session.fs.view (fil owner).dirSect := by
    rw [kept.dirSect]
    exact served.around.view _ serves.listed.behind
      (models.intact.beside_room serves.listed.beside isFile)
  refine models.call isFile called fine ?_ kept.dirSect kept.dirPtr answers
  refine ⟨size ▸ shows, usable, listed, size, position, clusters,
    kept.read.trans (serves.readable.trans mode.1.symm),
    kept.write.trans (serves.writable.trans mode.2.symm), small, spent, marked, fun unmarked => ?_⟩
  obtain ⟨before, same, head⟩ := clean unmarked
  have first : last.orgClust = (fil owner).orgClust :=
    (shows.first.trans head).trans serves.shows.first.symm
  rw [entry, kept.dirPtr, same, first]
  exact serves.entry before

end Session

end BbbEth.FatFs
