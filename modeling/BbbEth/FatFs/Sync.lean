import BbbEth.FatFs.Seek

/-!
# Files on the card

What `f_sync` leaves: the bytes of the file, its directory entry, and all that was in the window
are on the card.  A volume that is mounted anew has them.
-/

namespace BbbEth.FatFs

open BbbEth.Console BbbEth.Stateful BbbEth.Linked

/-! ## The directory entry -/

namespace Sector

variable {sector : Sector}

theorem startClust_eq {dir : Nat} : sector.startClust dir =
    sector.ldWord (dir + 20) * 2 ^ 16 + sector.ldWord (dir + 26) := by
  have small : sector.ldWord (dir + 26) < 2 ^ 16 := by
    have := (sector.get (dir + 26 + 1)).isLt
    have := (sector.get (dir + 26)).isLt
    rw [ldWord_eq, FatType.word]
    omega
  unfold startClust
  rw [← Nat.shiftLeft_add_eq_or_of_lt small, Nat.shiftLeft_eq]

/-- A byte next to one that is stored. -/
theorem get_add_set {dir place index : Nat} {byte : Byte} (placed : place < sSiz)
    (inside : index < sSiz) : (sector.set (dir + place) byte).get (dir + index) =
      if place = index then byte else sector.get (dir + index) := by
  split
  next same => rw [same, get_set_self]
  next distinct =>
    refine get_set_of_ne fun same => distinct ?_
    unfold sSiz at placed inside same
    omega

end Sector

namespace Fil

variable {fp : Fil} {tim offset : Nat} {win : Sector}

/-- The other entries of the sector stay. -/
theorem record_outside (entry : fp.dirPtr % 32 = 0)
    (elsewhere : offset % sSiz / 32 ≠ fp.dirPtr % sSiz / 32) :
    (fp.record tim win).get offset = win.get offset := by
  have apart : ∀ index < 32, (fp.dirPtr + index) % sSiz ≠ offset % sSiz := by
    intro index small same
    unfold sSiz at elsewhere same
    omega
  unfold record Sector.stDword Sector.stWord
  simp only [Nat.add_assoc, Nat.reduceAdd]
  repeat rw [Sector.get_set_of_ne (apart _ (by decide))]

/-- The name stays. -/
theorem record_name (name : offset < 11) :
    (fp.record tim win).get (fp.dirPtr + offset) = win.get (fp.dirPtr + offset) := by
  have small : offset < sSiz := name.trans (by decide)
  have elsewhere : ∀ place, 11 ≤ place → place ≠ offset := by omega
  unfold record Sector.stDword Sector.stWord
  simp only [Nat.add_assoc, Nat.reduceAdd]
  repeat rw [Sector.get_add_set (by decide) small, if_neg (elsewhere _ (by decide))]

/-- The archive bit is set. -/
theorem record_attr : (fp.record tim win).get (fp.dirPtr + 11) =
    win.get (fp.dirPtr + 11) ||| 0x20 := by
  unfold record Sector.stDword Sector.stWord
  simp (disch := decide) [Nat.add_assoc, Sector.get_add_set]

theorem record_fileSize (small : fp.fsize < 2 ^ 32) :
    (fp.record tim win).fileSize fp.dirPtr = fp.fsize := by
  rw [Sector.fileSize, Sector.ldDword_eq]
  unfold FatType.word record Sector.stDword Sector.stWord
  simp (disch := decide) only [Nat.add_assoc, Nat.reduceAdd, Sector.get_add_set, Nat.reduceEqDiff,
    if_true, if_false, BitVec.toNat_ofNat, Nat.shiftRight_eq_div_pow]
  omega

theorem record_startClust (small : fp.orgClust < 2 ^ 32) :
    (fp.record tim win).startClust fp.dirPtr = fp.orgClust := by
  rw [Sector.startClust_eq, Sector.ldWord_eq, Sector.ldWord_eq]
  unfold FatType.word record Sector.stDword Sector.stWord
  simp (disch := decide) only [Nat.add_assoc, Nat.reduceAdd, Sector.get_add_set, Nat.reduceEqDiff,
    if_true, if_false, BitVec.toNat_ofNat, Nat.shiftRight_eq_div_pow]
  omega

theorem record_wrtTime : (fp.record tim win).ldDword (fp.dirPtr + 22) = tim % 2 ^ 32 := by
  rw [Sector.ldDword_eq]
  unfold FatType.word record Sector.stDword Sector.stWord
  simp (disch := decide) only [Nat.add_assoc, Nat.reduceAdd, Sector.get_add_set, Nat.reduceEqDiff,
    if_true, if_false, BitVec.toNat_ofNat, Nat.shiftRight_eq_div_pow]
  omega

end Fil

/-! ## What is on the card -/

namespace Fatfs

variable {fs after : Fatfs} {cells : List Nat} {size : Nat} {content : Nat → Byte} {fp : Fil}

/-- A file object whose buffer was written back. -/
theorem Shows.flushed (shows : fs.Shows cells size content fp)
    (geometry : after.toGeometry = fs.toGeometry)
    (data : ∀ number, after.card.data number = fs.shown fp number) :
    after.Shows cells size content (fp.setDirty false) where
  first := shows.first
  room := by
    rw [geometry]
    exact shows.room
  fptr_le := shows.fptr_le
  bytes position below := by
    rw [← shows.bytes position below]
    unfold byteOf
    rw [geometry, ← data]
    rfl
  top zero := ⟨(shows.top zero).1, rfl⟩
  within positive := by
    have within := shows.within positive
    rw [geometry]
    refine ⟨within.inside, within.currClust, within.sectClust, ?_⟩
    rintro (dirty | rest)
    · cases dirty
    · exact within.currSect (.inr rest)
  loaded inside := (data fp.currSect).trans (shows.loaded inside)

/-- Where nothing is to be written back, the bytes are on the card. -/
theorem Shows.onCard (shows : fs.Shows cells size content fp) (clean : fp.flag.dirty = false)
    {position : Nat} (below : position < size) :
    (fs.card.data (fs.block cells (position / sSiz))).get position = content position := by
  rw [← shows.bytes position below]
  unfold byteOf shown
  rw [if_neg (by simp [clean])]

end Fatfs

/-! ## `f_sync` -/

namespace Session

variable {ι : Type}

theorem Intact.head_lt {session : Session ι} {lost : Nat → Prop} {owner : ι}
    (intact : session.Intact lost) : (session.chain owner).headD 0 < 2 ^ 32 := by
  cases cells : session.chain owner with
  | nil => exact Nat.two_pow_pos 32
  | cons clust rest =>
      have cluster := intact.allocated.inside owner clust (by
        rw [cells]
        exact List.mem_cons_self)
      have := intact.sound.geometry.maxClust_lt
      have := cluster.2
      change clust < _
      omega

/-- Where the entry of a file is. -/
structure Listed (session : Session ι) (file : ι → Prop) (fp : Fil) : Prop where
  behind : session.fs.copiesEnd ≤ fp.dirSect
  beside : session.Beside file fp.dirSect
  entry : fp.dirPtr % 32 = 0

/-- What a successful `f_sync` leaves. -/
structure Synced (session next : Session ι) (lost : Nat → Prop) (file : ι → Prop) (owner : ι)
    (content : Nat → Byte) (sectClust : Nat) (fp : Fil) (tim : Nat) : Prop where
  accessed : Accessed lost file
    (fun number => session.Sectors owner number ∨ number = fp.dirSect) session next
  shows : next.fs.Shows (session.chain owner) fp.fsize content
    (((fp.setDirty false).setWritten false).counted sectClust)
  entry : next.fs.view fp.dirSect = fp.record tim (session.fs.view fp.dirSect)
  saved : next.fs.Saved

section Call

variable {session : Session ι} {lost : Nat → Prop} {file : ι → Prop} {owner : ι}
variable {content : Nat → Byte} {fp : Fil} {sectClust tim : Nat}

/-- The entry is written into the window, which is written to the card. -/
theorem Intact.record (intact : session.Intact lost)
    (listed : session.Listed file fp) {moved : Fatfs} (move : session.fs.Moved fp.dirSect moved) :
    Meets sync { moved with win := fp.record tim moved.win } fun done after =>
      (done = true ∧
        Accessed lost file (fun number => number = fp.dirSect) session { session with fs := after } ∧
        after.view fp.dirSect = fp.record tim (session.fs.view fp.dirSect) ∧ after.Saved) ∨
      (done = false ∧ session.fs.card.Failed after.card) := by
  have own := Fatfs.own_behind listed.behind
  have positive := own.pos intact.sound.geometry
  have here := move.here positive
  have behind : moved.copiesEnd ≤ moved.winsect := by
    rw [here, move.geometry]
    exact listed.behind
  let marked : Fatfs := { moved with win := fp.record tim moved.win, winflag := true }
  have stored : Intact { session with fs := marked } lost :=
    (intact.same move.toSame move.sound).stored behind
  have around : session.fs.Around (fun number => number = fp.dirSect) marked := by
    refine move.toSame.around.trans ⟨rfl, fun number _ other => ?_, fun _ _ => rfl, .refl, .inl⟩
    have elsewhere : moved.winsect ≠ number := by
      rw [here]
      exact Ne.symm other
    rw [Fatfs.view_of_ne elsewhere]
    exact Fatfs.view_of_ne elsewhere
  have loaded : moved.winsect ≠ 0 := by
    rw [here]
    exact positive
  refine (sync_stored move.sound loaded).mono fun done after outcome => ?_
  split at outcome
  next success =>
    obtain ⟨same, sound, stays, saved⟩ := outcome
    have entry : after.view fp.dirSect = fp.record tim (session.fs.view fp.dirSect) := by
      rw [same.view _ (by rw [move.geometry]; exact own), ← move.view _ own,
        Fatfs.view_winsect here]
      exact Fatfs.view_winsect here
    refine .inl ⟨success, ⟨stored.same same sound, ?_, around.trans same.around⟩, entry, saved⟩
    unfold Apart
    rw [stays, here]
    exact listed.beside.congr (same.geometry.trans move.geometry) fun _ _ _ member => member
  next failure =>
    exact .inr ⟨Bool.eq_false_of_not_eq_true failure, .after move.later outcome⟩

/-- `f_sync` leaves all of the file on the card, and all of the contents of the window. -/
theorem fSync_meets
    (opened : session.Opened lost file owner fp.fsize content (fp.counted sectClust))
    (usable : fp.Usable session.fs) (listed : session.Listed file fp)
    (written : fp.flag.written = true) :
    Meets (fSync fp tim) session.fs fun ended after =>
      (ended = (.ok, (fp.setDirty false).setWritten false) ∧
        session.Synced { session with fs := after } lost file owner content sectClust fp tim) ∨
      (ended.1 = .rwError ∧ session.fs.card.Failed after.card) := by
  have intact := opened.intact
  have wellFormed := intact.sound.geometry
  unfold fSync
  rw [meets_validate_bind usable, if_neg (by decide), if_neg (by simp [written])]
  refine Meets.bind (flushBuffer_meets wellFormed.drive) ?_
  rintro flushed middle (⟨rfl, wrote, data⟩ | ⟨failure, failed⟩)
  · have accessed := Accessed.wrote intact opened.apart opened.isFile wrote (by
      rintro number ⟨dirty, rfl⟩
      exact opened.dirty dirty)
    have own := Fatfs.own_behind listed.behind
    have ownMiddle : middle.Own fp.dirSect := by
      rw [wrote.geometry]
      exact own
    have outside := intact.beside_apart listed.beside opened.isFile
    dsimp only
    rw [if_neg (by decide)]
    refine Meets.orReturn (moveWindow_meets accessed.intact.sound (.inr ownMiddle)) ?_ ?_
    · intro moved move
      rw [meets_modify_bind]
      have listedMiddle : Listed { session with fs := middle } file fp :=
        ⟨by rw [wrote.geometry]; exact listed.behind,
          listed.beside.congr wrote.geometry fun _ _ _ member => member, listed.entry⟩
      refine meets_orReturn.mpr ((accessed.intact.record listedMiddle move).mono ?_)
      rintro done after (⟨rfl, recorded, entry, saved⟩ | ⟨rfl, failed⟩)
      · refine (if_pos rfl).mpr (meets_pure.mpr (.inl ⟨rfl, ?_, ?_, ?_, saved⟩))
        · exact (accessed.mono fun _ => .inl).trans (recorded.mono fun _ => .inr)
        · have flushed : Opened { session with fs := middle } lost file owner fp.fsize content
              ((fp.counted sectClust).setDirty false) :=
            ⟨accessed.intact, accessed.apart, opened.isFile,
              opened.shows.flushed wrote.geometry data⟩
          refine (flushed.frame recorded.intact recorded.apart recorded.around rfl ?_).shows.marked
          rintro _ rfl
          rw [sectors_congr wrote.geometry]
          exact outside
        · rw [entry, wrote.view]
          rintro ⟨dirty, same⟩
          exact outside (same ▸ opened.dirty dirty)
      · exact (if_neg (by decide)).mpr (.inr ⟨rfl, .after accessed.around.later failed⟩)
    · intro last failed
      exact .inr ⟨rfl, .after accessed.around.later failed⟩
  · obtain ⟨done, moved⟩ := flushed
    obtain rfl : done = false := failure
    exact meets_pure.mpr (.inr ⟨rfl, failed⟩)

end Call

/-! ## A card that is mounted anew -/

end Session

/-- Another file system object for the same volume: nothing of it is in memory but the window. -/
structure Fatfs.Remounted (before after : Fatfs) : Prop where
  geometry : after.toGeometry = { before.toGeometry with id := after.id }
  data : after.card.data = before.card.data
  sound : after.Sound
  clean : after.winflag = false
  uncounted : after.freeClust = notCounted

theorem Fatfs.Saved.view {fs fresh : Fatfs} {number : Nat} (saved : fs.Saved)
    (wellFormed : fs.WellFormed) (remounted : fs.Remounted fresh) (own : fs.Own number) :
    fresh.view number = fs.view number := by
  rw [remounted.sound.saved remounted.clean (own.pos wellFormed), remounted.data]
  exact saved number own

/-- A file object at the top of a file whose bytes are on the card. -/
theorem Fatfs.Shows.remounted {fs fresh : Fatfs} {cells : List Nat} {size : Nat}
    {content : Nat → Byte} {fp other : Fil} (shows : fs.Shows cells size content fp)
    (clean : fp.flag.dirty = false) (remounted : fs.Remounted fresh)
    (first : other.orgClust = cells.headD 0) (fptr : other.fptr = 0)
    (top : other.sectClust = 1 ∧ other.flag.dirty = false) : fresh.Shows cells size content other where
  first := first
  room := by
    rw [remounted.geometry]
    exact shows.room
  fptr_le := by
    rw [fptr]
    exact Nat.zero_le _
  bytes position below := by
    have saved : fresh.byteOf cells other position =
        (fresh.card.data (fresh.block cells (position / sSiz))).get position := by
      unfold byteOf shown
      rw [if_neg (by simp [top.2])]
    rw [saved, ← shows.onCard clean below, remounted.geometry, remounted.data]
    rfl
  top _ := top
  within positive := absurd (fptr ▸ positive) (lt_irrefl _)
  loaded inside := absurd (by rw [fptr]; exact Nat.zero_mod _) inside

namespace Session

section Remount

variable {session : Session ι} {lost : Nat → Prop} {file : ι → Prop} {owner : ι}
variable {content : Nat → Byte} {fp other : Fil} {fresh : Fatfs} {size : Nat}

/-- The entries do not depend on the mount, or on the count. -/
theorem Intact.renamed (intact : session.Intact lost) (id : Nat) :
    Intact { session with fs := { session.fs with id, freeClust := notCounted } } lost := by
  obtain ⟨sound, allocated, _, tidy⟩ := intact
  have wellFormed := sound.geometry
  refine ⟨⟨⟨wellFormed.mounted, wellFormed.drive, wellFormed.reserved, wellFormed.copies,
    wellFormed.clusters, wellFormed.reach, wellFormed.distinct, wellFormed.room,
    wellFormed.sectsClust, wellFormed.sectors, wellFormed.bounded⟩, sound.place, sound.dirty,
    sound.clean⟩, ?_, fun known => absurd rfl known, ⟨tidy.reserved, tidy.clear⟩⟩
  exact ⟨allocated.forest, allocated.inside, allocated.used, allocated.apart, allocated.legal⟩

/-- Where all is on the card, the volume is found again. -/
theorem Intact.remounted (intact : session.Intact lost) (saved : session.fs.Saved)
    (remounted : session.fs.Remounted fresh) : Intact { session with fs := fresh } lost :=
  (intact.renamed fresh.id).behind remounted.sound remounted.geometry
    (fun _ _ own => saved.view intact.sound.geometry remounted own) remounted.uncounted

/-- The file that is opened after `f_sync` on another mount has all of its bytes. -/
theorem Synced.reopened {sectClust tim : Nat} {after : Fatfs} {read write : Bool}
    (synced : session.Synced { session with fs := after } lost file owner content sectClust fp tim)
    (isFile : file owner) (listed : session.Listed file fp) (small : fp.fsize < 2 ^ 32)
    (remounted : after.Remounted fresh) (here : fresh.winsect = fp.dirSect) :
    Opened { session with fs := fresh } lost file owner fp.fsize content
        (other.assign fresh read write fp.dirPtr) ∧
      (other.assign fresh read write fp.dirPtr).fsize = fp.fsize ∧
      Listed { session with fs := fresh } file (other.assign fresh read write fp.dirPtr) := by
  have intact := synced.accessed.intact
  have wellFormed : after.WellFormed := intact.sound.geometry
  have geometry : after.toGeometry = session.fs.toGeometry := synced.accessed.around.geometry
  have shows := synced.shows
  have behind : after.copiesEnd ≤ fp.dirSect := by
    rw [geometry]
    exact listed.behind
  have entry : fresh.win = fp.record tim (session.fs.view fp.dirSect) := by
    rw [← Fatfs.view_winsect here, ← synced.entry]
    exact synced.saved.view wellFormed remounted (Fatfs.own_behind behind)
  have first : fresh.win.startClust fp.dirPtr = fp.orgClust := by
    rw [entry]
    exact Fil.record_startClust (shows.first.trans_lt intact.head_lt)
  have size : fresh.win.fileSize fp.dirPtr = fp.fsize := by
    rw [entry]
    exact Fil.record_fileSize small
  have same : fresh.toGeometry = { session.fs.toGeometry with id := fresh.id } := by
    rw [← geometry]
    exact remounted.geometry
  have beside : Beside { session with fs := fresh } file fresh.winsect := by
    intro clust cluster holds
    rw [same] at cluster holds
    rw [here] at holds
    exact listed.beside clust cluster holds
  refine ⟨⟨intact.remounted synced.saved remounted, beside, isFile, ?_⟩, size, ?_, beside,
    listed.entry⟩
  · exact shows.remounted rfl remounted (first.trans shows.first) rfl ⟨rfl, rfl⟩
  · change fresh.copiesEnd ≤ fresh.winsect
    rw [here, remounted.geometry]
    exact behind

end Remount

end Session

end BbbEth.FatFs
