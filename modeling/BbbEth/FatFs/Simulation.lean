import BbbEth.FatFs.Files

/-!
# Every call on a file

`f_read`, `f_write`, `f_lseek` and `f_sync` answer as the disk does, in any order and on any files.
-/

namespace BbbEth.FatFs

open BbbEth.Console BbbEth.Stateful BbbEth.Linked

/-! ## Calls that do nothing -/

section Nothing

variable {fs : Fatfs} {fp : Fil} {buff : Nat → Byte} {btr btw tim fuel : Nat}
variable {transfer : Transfer}

theorem readLoop_done (none : transfer.left = 0) :
    Meets (loop readRound (fuel + 1) transfer) fs fun ended after =>
      ended = (.ok, transfer) ∧ after = fs := by
  unfold loop readRound
  rw [if_pos none, meets_bind, meets_pure, meets_pure]
  exact ⟨rfl, rfl⟩

theorem writeLoop_done (none : transfer.left = 0) :
    Meets (loop writeRound (fuel + 1) transfer) fs fun ended after =>
      ended = (.ok, transfer) ∧ after = fs := by
  unfold loop writeRound
  rw [if_pos none, meets_bind, meets_pure, meets_pure]
  exact ⟨rfl, rfl⟩

theorem fRead_denied (usable : fp.Usable fs) (mode : fp.flag.read = false) :
    Meets (fRead fp buff btr) fs fun ended after =>
      ended = (.denied, ⟨fp, buff, 0, 0⟩) ∧ after = fs := by
  unfold fRead
  rw [meets_validate_bind usable, if_neg (by decide), if_neg (by simp [usable.fine]),
    if_pos (by simp [mode]), meets_pure]
  exact ⟨rfl, rfl⟩

/-- At the end of the file nothing is read. -/
theorem fRead_end (usable : fp.Usable fs) (mode : fp.flag.read = true) (whole : fp.fptr = fp.fsize) :
    Meets (fRead fp buff btr) fs fun ended after =>
      ended = (.ok, ⟨fp, buff, 0, 0⟩) ∧ after = fs := by
  have remain : (fp.fsize + 2 ^ 32 - fp.fptr) % 2 ^ 32 = 0 := by
    rw [whole, Nat.add_sub_cancel_left, Nat.mod_self]
  have count : (if 0 < btr then 0 % 2 ^ 16 else btr) = 0 := by
    split <;> omega
  unfold fRead
  rw [meets_validate_bind usable, if_neg (by decide), if_neg (by simp [usable.fine]),
    if_neg (by simp [mode])]
  dsimp only
  rw [remain, count]
  exact readLoop_done rfl

theorem fWrite_denied (usable : fp.Usable fs) (mode : fp.flag.write = false) :
    Meets (fWrite fp buff btw) fs fun ended after =>
      ended = (.denied, ⟨fp, buff, 0, btw⟩) ∧ after = fs := by
  unfold fWrite
  rw [meets_validate_bind usable, if_neg (by decide), if_neg (by simp [usable.fine]),
    if_pos (by simp [mode]), meets_pure]
  exact ⟨rfl, rfl⟩

/-- A file that would be too long is not written at all. -/
theorem fWrite_long (usable : fp.Usable fs) (mode : fp.flag.write = true)
    (small : fp.fsize < 2 ^ 32) (word : btw < 2 ^ 16) (large : 2 ^ 32 ≤ fp.fsize + btw) :
    Meets (fWrite fp buff btw) fs fun ended after =>
      ended = (.ok, ⟨fp, buff, 0, btw⟩) ∧ after = fs := by
  have overflow : (fp.fsize + btw) % 2 ^ 32 < fp.fsize := by omega
  unfold fWrite
  rw [meets_validate_bind usable, if_neg (by decide), if_neg (by simp [usable.fine]),
    if_neg (by simp [mode]), if_pos overflow, meets_pure]
  exact ⟨rfl, rfl⟩

/-- To write no bytes marks the file. -/
theorem fWrite_nothing (usable : fp.Usable fs) (mode : fp.flag.write = true)
    (small : fp.fsize < 2 ^ 32) (within : fp.fptr ≤ fp.fsize) :
    Meets (fWrite fp buff 0) fs fun ended after =>
      ended = (.ok, ⟨fp.setWritten true, buff, 0, 0⟩) ∧ after = fs := by
  unfold fWrite
  rw [meets_validate_bind usable, if_neg (by decide), if_neg (by simp [usable.fine]),
    if_neg (by simp [mode]), if_neg (by rw [Nat.add_zero, Nat.mod_eq_of_lt small]; exact lt_irrefl _)]
  refine Meets.bind (writeLoop_done rfl) ?_
  rintro _ after ⟨rfl, same⟩
  refine meets_pure.mpr ⟨?_, same⟩
  unfold Transfer.finish
  rw [if_pos rfl, if_neg (Nat.not_lt_of_le within)]

theorem fSync_clean (usable : fp.Usable fs) (clean : fp.flag.written = false) :
    Meets (fSync fp tim) fs fun ended after => ended = (.ok, fp) ∧ after = fs := by
  unfold fSync
  rw [meets_validate_bind usable, if_neg (by decide), if_pos (by simp [clean]), meets_pure]
  exact ⟨rfl, rfl⟩

end Nothing

namespace Session

variable {ι : Type} [DecidableEq ι] {session next : Session ι} {lost : Nat → Prop}
variable {file : ι → Prop} {owner : ι} {fil : ι → Fil} {disk : Disk ι}

/-! ### Every call -/

/-- A call gives an answer of the disk, or a call of the card has failed. -/
def Simulated (session : Session ι) (lost : Nat → Prop) (file : ι → Prop) (fil : ι → Fil)
    (disk : Disk ι) (owner : ι) (event : Event) (fp : Fil) (after : Fatfs) : Prop :=
  (∃ chain later, Disk.Step disk (owner, event) later ∧
    Models ⟨after, chain⟩ lost file (Function.update fil owner fp) later) ∨
  session.fs.card.Failed after.card

/-- What is read is the content at the position. -/
theorem Models.read {buff : Nat → Byte} {btr : Nat} (models : session.Models lost file fil disk)
    (isFile : file owner) (word : btr < 2 ^ 16) :
    Meets (fRead (fil owner) buff btr) session.fs fun ended after =>
      session.Simulated lost file fil disk owner
        (.read btr ended.1 (bytes ended.2.buff ended.2.done)) ended.2.fp after := by
  have serves := models.serves owner isFile
  have opened := models.opened isFile
  have wellFormed := models.intact.sound.geometry
  cases mode : (fil owner).flag.read with
  | false =>
      refine (fRead_denied serves.usable mode).mono ?_
      rintro _ _ ⟨rfl, rfl⟩
      exact .inl ⟨session.chain, models.idle isFile (.notReadable (serves.readable ▸ mode))⟩
  | true =>
      have readable := serves.readable ▸ mode
      by_cases counter : (fil owner).sectClust = 0
      · refine (fRead_end serves.usable mode (serves.spent counter)).mono ?_
        rintro _ _ ⟨rfl, rfl⟩
        have whole : (disk.handle owner).ahead btr = [] := by
          unfold Handle.ahead
          rw [← serves.position, serves.spent counter, serves.size, List.drop_length, List.take_nil]
        have answers : (disk.handle owner).Answers (session.capacity owner)
            (.read btr .ok ((disk.handle owner).ahead btr)) _ := .read readable
        rw [whole] at answers
        exact .inl ⟨session.chain, models.idle isFile answers⟩
      · rw [Fil.steady_eq (Nat.pos_of_ne_zero counter)] at opened
        refine (fRead_meets opened serves.usable mode serves.small word).mono ?_
        rintro ⟨_, last⟩ after (⟨rfl, none, reading⟩ | ⟨_, failed⟩)
        · by_cases failed : session.fs.card.Failed after.card
          · exact .inr failed
          have total := reading.total
          have arrived := reading.arrived
          have fptr := reading.fptr
          dsimp only at none total arrived fptr ⊢
          have done : last.done = min btr
              ((disk.handle owner).content.length - (disk.handle owner).position) := by
            rw [← serves.size, ← serves.position]
            omega
          have delivered : bytes last.buff last.done = (disk.handle owner).ahead btr := by
            refine bytes_eq done fun index inside => ?_
            rw [arrived, if_pos inside, serves.position]
          have served : Served lost file owner session ⟨after, session.chain⟩ :=
            (Served.refl models.intact models.apart).accessed models.intact
              ⟨reading.opened.intact, reading.opened.apart, reading.around⟩
          have same : last.fp.fixed = (({ fil owner with fsize := (fil owner).fsize } : Fil).setWritten
            (fil owner).flag.written).fixed := reading.fixed
          obtain ⟨kept, size, written⟩ := Fil.Kept.of_fixed same
          have shows := reading.opened.shows
          have more := shows.counter reading.opened.intact.sound.geometry
          have steady := Fil.steady_eq more
          rw [delivered]
          refine .inl ⟨session.chain, models.served isFile served failed (.read readable) kept ?_
            (size.trans serves.size) ?_ serves.clusters ⟨rfl, rfl⟩ (size ▸ serves.small)
            (fun zero => absurd zero (Nat.ne_of_gt more)) (fun dirty => ?_)
            (fun clean => ⟨written.symm.trans clean, size, rfl⟩)⟩
          · rw [steady, size]
            exact shows
          · rw [← delivered, length_bytes, fptr, serves.position]
          · exact written.trans (serves.marked (reading.dirty dirty))
        · exact .inr failed

/-- To write no bytes marks the file. -/
theorem Models.wroteNothing (models : session.Models lost file fil disk) (isFile : file owner)
    (mode : (fil owner).flag.write = true) :
    ∃ later, Disk.Step disk (owner, .write [] .ok 0) later ∧
      session.Models lost file (Function.update fil owner ((fil owner).setWritten true)) later := by
  have serves := models.serves owner isFile
  have small : (disk.handle owner).content.length + ([] : List Byte).length < 2 ^ 32 := by
    rw [← serves.size]
    exact serves.small
  have same : patch (disk.handle owner).content (disk.handle owner).position
      (([] : List Byte).take 0) = (disk.handle owner).content := by
    unfold patch
    rw [List.take_nil, List.append_nil]
    exact List.take_append_drop ..
  have answers : (disk.handle owner).Answers (session.capacity owner) (.write [] .ok 0)
      { disk.handle owner with
        content := patch (disk.handle owner).content (disk.handle owner).position
          (([] : List Byte).take 0)
        position := (disk.handle owner).position + 0
        clusters := (disk.handle owner).clusters } :=
    .write (serves.writable ▸ mode) small (Nat.zero_min _).symm
  rw [same] at answers
  refine models.served isFile (.refl models.intact models.apart)
    (fun ⟨_, least, below, _⟩ => absurd (least.trans_lt below) (lt_irrefl _)) answers
    ⟨rfl, rfl, rfl, rfl, rfl, rfl, rfl⟩ ?_ serves.size serves.position serves.clusters ⟨rfl, rfl⟩
    serves.small serves.spent (fun _ => rfl) fun clean => by cases clean
  exact (models.opened isFile).shows.marked

/-- The bytes that were written are over the content. -/
theorem Models.wrote {buff : Nat → Byte} {btw : Nat} {last : Transfer}
    (models : session.Models lost file fil disk) (isFile : file owner)
    (mode : (fil owner).flag.write = true) (small : (fil owner).fsize + btw < 2 ^ 32)
    (written : session.Written next lost file owner
      (fun index => (disk.handle owner).content.getD index 0) (fil owner) buff btw last)
    (fine : ¬ session.fs.card.Failed next.fs.card) :
    ∃ later, Disk.Step disk (owner, .write (bytes buff btw) .ok last.done) later ∧
      next.Models lost file (Function.update fil owner last.fp) later := by
  have serves := models.serves owner isFile
  have within := models.within isFile
  have size := serves.size
  have place := serves.position
  have count := written.count
  have fptr := written.fptr
  have fsize := written.fsize
  have shows := written.shows
  have most := (written.served.capacity models.intact).1
  obtain ⟨kept, _, marked⟩ := Fil.Kept.of_fixed written.fixed
  have taken : (bytes buff btw).take last.done = bytes buff last.done := by
    rw [take_bytes, Nat.min_eq_left (by omega)]
  have long := @length_patch _ (bytes buff last.done) _ within
  rw [length_bytes] at long
  have counter : ¬ last.done < btw → 0 < last.fp.sectClust := by
    intro all
    rw [if_neg all] at shows
    exact shows.counter written.served.intact.sound.geometry
  have steady : last.fp.steady = if last.done < btw then last.fp.renew else last.fp := by
    split
    next less =>
      unfold Fil.steady
      rw [written.counter less]
      rfl
    next all => exact Fil.steady_eq (counter all)
  rw [← steady] at shows
  have answers : (disk.handle owner).Answers (session.capacity owner)
      (.write (bytes buff btw) .ok last.done)
      { disk.handle owner with
        content := patch (disk.handle owner).content (disk.handle owner).position
          ((bytes buff btw).take last.done)
        position := (disk.handle owner).position + last.done
        clusters := (next.chain owner).length } := by
    refine .write (serves.writable ▸ mode) ?_ ?_
    · rw [length_bytes, ← size]
      exact small
    · rw [length_bytes, ← place]
      exact count
  rw [taken] at answers
  refine models.served isFile written.served fine answers kept (shows.agree fun position _ => ?_)
    ?_ ?_ rfl ⟨rfl, rfl⟩ ?_ (fun zero => ?_) (fun _ => marked)
    fun clean => absurd (marked.symm.trans clean) (by decide)
  · rw [place, overlay_eq within]
  · dsimp only
    rw [long, fsize, fptr, size, place]
  · dsimp only
    rw [fptr, place]
  · rw [fsize, fptr]
    omega
  · have less : last.done < btw := by
      by_contra all
      exact absurd zero (Nat.ne_of_gt (counter all))
    have room := shows.room
    omega

/-- What is written goes over the content at the position. -/
theorem Models.write {buff : Nat → Byte} {btw : Nat} (models : session.Models lost file fil disk)
    (isFile : file owner) (word : btw < 2 ^ 16) (counter : (fil owner).sectClust ≠ 0 ∨ btw = 0) :
    Meets (fWrite (fil owner) buff btw) session.fs fun ended after =>
      session.Simulated lost file fil disk owner
        (.write (bytes buff btw) ended.1 ended.2.done) ended.2.fp after := by
  have serves := models.serves owner isFile
  have opened := models.opened isFile
  cases mode : (fil owner).flag.write with
  | false =>
      refine (fWrite_denied serves.usable mode).mono ?_
      rintro _ _ ⟨rfl, rfl⟩
      exact .inl ⟨session.chain, models.idle isFile (.notWritable (serves.writable ▸ mode))⟩
  | true =>
      by_cases large : 2 ^ 32 ≤ (fil owner).fsize + btw
      · refine (fWrite_long serves.usable mode serves.small word large).mono ?_
        rintro _ _ ⟨rfl, rfl⟩
        refine .inl ⟨session.chain, models.idle isFile (.tooLong (serves.writable ▸ mode) ?_)⟩
        rw [length_bytes, ← serves.size]
        exact large
      · by_cases none : btw = 0
        · subst none
          refine (fWrite_nothing serves.usable mode serves.small serves.fptr_le).mono ?_
          rintro _ _ ⟨rfl, rfl⟩
          exact .inl ⟨session.chain, models.wroteNothing isFile mode⟩
        · have small := Nat.lt_of_not_le large
          rw [Fil.steady_eq (Nat.pos_of_ne_zero (counter.resolve_right none))] at opened
          refine (fWrite_meets opened serves.usable mode small).mono ?_
          rintro ⟨_, last⟩ after (⟨rfl, chain, written⟩ | ⟨_, failed⟩)
          · by_cases failed : session.fs.card.Failed after.card
            · exact .inr failed
            · exact .inl ⟨chain, models.wrote isFile mode small written failed⟩
          · exact .inr failed

/-- The file after a seek, with bytes behind its end where the position is moved there. -/
theorem Models.sought {ofs : Nat} {last : Fil} (models : session.Models lost file fil disk)
    (isFile : file owner) (dword : ofs < 2 ^ 32)
    (sought : session.Sought next lost file owner
      (fun index => (disk.handle owner).content.getD index 0) (fil owner) ofs last)
    (fine : ¬ session.fs.card.Failed next.fs.card) :
    ∃ later, Disk.Step disk (owner, .seek ofs .ok) later ∧
      next.Models lost file (Function.update fil owner last) later := by
  have serves := models.serves owner isFile
  have size := serves.size
  have writable := serves.writable
  have fsize := sought.fsize
  obtain ⟨kept, _, marked⟩ := Fil.Kept.of_fixed sought.fixed
  obtain ⟨other, same, shows⟩ := sought.shows
  have counter := shows.counter sought.served.intact.sound.geometry
  have target : (if (fil owner).fsize < ofs ∧ (fil owner).flag.write = false then (fil owner).fsize
      else ofs) = (disk.handle owner).target ofs := by
    unfold Handle.target
    rw [size, writable]
  have fptr := sought.fptr
  rw [target] at fptr
  have below : (disk.handle owner).target ofs < 2 ^ 32 := by
    rw [← target]
    split
    next => exact serves.small
    next => exact dword
  have longer : (fil owner).fsize ≤ last.fsize := by
    rw [fsize]
    split <;> omega
  have answers : (disk.handle owner).Answers (session.capacity owner) (.seek ofs .ok)
      { disk.handle owner with
        content := (disk.handle owner).content ++
          bytes (fun index => other ((disk.handle owner).content.length + index))
            (last.fsize - (fil owner).fsize)
        position := min ((disk.handle owner).target ofs) (session.capacity owner)
        clusters := (next.chain owner).length } := by
    refine .seek ?_
    rw [length_bytes, fsize, ← writable, ← fptr, size]
    split <;> omega
  refine models.served isFile sought.served fine answers kept ?_ ?_ fptr rfl ⟨rfl, rfl⟩ ?_
    (fun zero => absurd zero (Nat.ne_of_gt counter))
    (fun dirty => absurd (sought.clean.symm.trans dirty) (by decide)) fun clean => ?_
  · rw [Fil.steady_eq counter]
    refine shows.agree fun position inside => ?_
    by_cases before : position < (disk.handle owner).content.length
    · rw [List.getD_append _ _ _ _ before, same position (size ▸ before)]
    · have behind := Nat.le_of_not_lt before
      rw [List.getD_append_right _ _ _ _ behind, getD_bytes (by omega), Nat.add_sub_cancel' behind]
  · rw [List.length_append, length_bytes, ← size]
    omega
  · rw [fsize, fptr]
    have := serves.small
    split <;> omega
  · rw [marked, Bool.or_eq_false_iff, decide_eq_false_iff_not] at clean
    refine ⟨clean.1, by omega, ?_⟩
    obtain ⟨more, grown⟩ := sought.served.grown
    cases cells : session.chain owner with
    | cons head rest =>
        rw [← grown, cells]
        rfl
    | nil =>
        have room := serves.shows.room
        rw [cells] at room
        have none : (disk.handle owner).content.length ≤ 0 := by
          refine room.trans_eq ?_
          unfold Geometry.blocks
          rw [List.length_nil, Nat.zero_mul, Nat.mul_zero]
        have fits := shows.fptr_le
        rw [sought.empty (by omega), cells]

/-- A seek moves the position, within the room for the file. -/
theorem Models.seek {ofs : Nat} (models : session.Models lost file fil disk) (isFile : file owner)
    (dword : ofs < 2 ^ 32) :
    Meets (fLseek (fil owner) ofs) session.fs fun ended after =>
      session.Simulated lost file fil disk owner (.seek ofs ended.1) ended.2 after := by
  have serves := models.serves owner isFile
  refine (fLseek_meets (models.opened isFile) serves.usable serves.small dword).mono ?_
  rintro ⟨_, last⟩ after (⟨rfl, chain, sought⟩ | ⟨_, failed⟩)
  · by_cases failed : session.fs.card.Failed after.card
    · exact .inr failed
    · exact .inl ⟨chain, models.sought isFile dword sought failed⟩
  · exact .inr failed

/-- `f_sync` leaves the file, and its entry says what it is. -/
theorem Models.synced {tim : Nat} {after : Fatfs} (models : session.Models lost file fil disk)
    (isFile : file owner)
    (synced : session.Synced { session with fs := after } lost file owner
      (fun index => (disk.handle owner).content.getD index 0) (max 1 (fil owner).sectClust)
      (fil owner) tim)
    (fine : ¬ session.fs.card.Failed after.card) :
    ∃ later, Disk.Step disk (owner, .sync .ok) later ∧
      Models { session with fs := after } lost file
        (Function.update fil owner (((fil owner).setDirty false).setWritten false)) later := by
  have serves := models.serves owner isFile
  have called := Called.of_synced models isFile synced
  have kept : Fil.Kept (fil owner) (((fil owner).setDirty false).setWritten false) :=
    ⟨rfl, rfl, rfl, rfl, rfl, rfl, rfl⟩
  obtain ⟨usable, listed⟩ := called.kept isFile kept serves.usable serves.listed
  have head : (fil owner).orgClust < 2 ^ 32 := serves.shows.first.trans_lt models.intact.head_lt
  refine models.call isFile called fine ?_ rfl rfl .sync
  refine ⟨?_, usable, listed, serves.size, serves.position, serves.clusters, serves.readable,
    serves.writable, serves.small, serves.spent, (fun dirty => by cases dirty), fun _ => ?_⟩
  · have shows := synced.shows
    rw [serves.size] at shows
    exact shows
  · change (after.view (fil owner).dirSect).fileSize (fil owner).dirPtr = (fil owner).fsize ∧
      (after.view (fil owner).dirSect).startClust (fil owner).dirPtr = (fil owner).orgClust
    have entry : after.view (fil owner).dirSect =
        (fil owner).record tim (session.fs.view (fil owner).dirSect) := synced.entry
    rw [entry]
    exact ⟨Fil.record_fileSize serves.small, Fil.record_startClust head⟩

/-- `f_sync` changes nothing of the file. -/
theorem Models.sync {tim : Nat} (models : session.Models lost file fil disk) (isFile : file owner) :
    Meets (fSync (fil owner) tim) session.fs fun ended after =>
      session.Simulated lost file fil disk owner (.sync ended.1) ended.2 after := by
  have serves := models.serves owner isFile
  cases written : (fil owner).flag.written with
  | false =>
      refine (fSync_clean serves.usable written).mono ?_
      rintro _ _ ⟨rfl, rfl⟩
      exact .inl ⟨session.chain, models.idle isFile .sync⟩
  | true =>
      refine (fSync_meets (models.opened isFile) serves.usable serves.listed written).mono ?_
      rintro _ after (⟨rfl, synced⟩ | ⟨_, failed⟩)
      · by_cases failed : session.fs.card.Failed after.card
        · exact .inr failed
        · exact .inl ⟨session.chain, models.synced isFile synced failed⟩
      · exact .inr failed

end Session

/-! ## Runs -/

namespace Files

variable {ι : Type} {files first middle last : Files ι} {lost : Nat → Prop} {file : ι → Prop}
variable {owner : ι} {event : Event} {events : List (ι × Event)} {disk : Disk ι}

/-- The volume is what the disk is, with some chains for its files. -/
def Refines (lost : Nat → Prop) (file : ι → Prop) (files : Files ι) (disk : Disk ι) : Prop :=
  ∃ chain, Session.Models ⟨files.fs, chain⟩ lost file files.fil disk

variable [DecidableEq ι]

/-- Every call does what a call on the disk does. -/
theorem Refines.step (refines : files.Refines lost file disk)
    (step : Step file files (owner, event) last) :
    ∃ later, Disk.Step disk (owner, event) later ∧ last.Refines lost file later := by
  obtain ⟨chain, models⟩ := refines
  have outcome : ∀ {fp : Fil} {after : Fatfs}, ¬ files.fs.card.Failed after.card →
      Session.Simulated ⟨files.fs, chain⟩ lost file files.fil disk owner event fp after →
        ∃ later, Disk.Step disk (owner, event) later ∧
          (files.called owner fp after).Refines lost file later := by
    rintro fp after fine (⟨chain, later, goes, models⟩ | failed)
    · exact ⟨later, goes, chain, models⟩
    · exact absurd failed fine
  cases step with
  | read isFile word ran fine => exact outcome fine ((models.read isFile word).of_eq ran)
  | write isFile word counter ran fine =>
      exact outcome fine ((models.write isFile word counter).of_eq ran)
  | seek isFile dword ran fine => exact outcome fine ((models.seek isFile dword).of_eq ran)
  | sync isFile ran fine => exact outcome fine ((models.sync isFile).of_eq ran)

/-- No call hangs. -/
theorem Refines.ends (refines : files.Refines lost file disk) (isFile : file owner) :
    (∀ buff, ∀ btr < 2 ^ 16, ∃ answer, fRead (files.fil owner) buff btr files.fs = some answer) ∧
    (∀ buff, ∀ btw < 2 ^ 16, (files.fil owner).sectClust ≠ 0 ∨ btw = 0 →
      ∃ answer, fWrite (files.fil owner) buff btw files.fs = some answer) ∧
    (∀ ofs < 2 ^ 32, ∃ answer, fLseek (files.fil owner) ofs files.fs = some answer) ∧
    ∀ tim, ∃ answer, fSync (files.fil owner) tim files.fs = some answer := by
  obtain ⟨chain, models⟩ := refines
  refine ⟨fun buff btr word => ?_, fun buff btw word counter => ?_, fun ofs dword => ?_,
    fun tim => ?_⟩
  · obtain ⟨value, after, ran, _⟩ := models.read isFile word
    exact ⟨(value, after), ran⟩
  · obtain ⟨value, after, ran, _⟩ := models.write isFile word counter
    exact ⟨(value, after), ran⟩
  · obtain ⟨value, after, ran, _⟩ := models.seek isFile dword
    exact ⟨(value, after), ran⟩
  · obtain ⟨value, after, ran, _⟩ := models.sync isFile
    exact ⟨(value, after), ran⟩

end Files

end BbbEth.FatFs
