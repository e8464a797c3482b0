import BbbEth.FatFs.Simulation

/-!
# What the files of a volume are good for

The answers of every run are those of the disk, what `f_sync` has saved is found on another mount,
and what was written is read back.
-/

namespace BbbEth.FatFs

open BbbEth.Console BbbEth.Stateful BbbEth.Linked

/-! ## Two files on an empty volume -/

/-- An empty file, with its entry in the root directory. -/
def emptyFil (dirPtr : Nat) : Fil where
  id := 1
  flag := ⟨true, true, false, false, false⟩
  sectClust := 1
  fs := true
  fptr := 0
  fsize := 0
  orgClust := 0
  currClust := 0
  currSect := 0
  dirSect := 3
  dirPtr
  buffer := .zero

/-- Two empty files. -/
def emptyFiles : Files Bool := ⟨emptyVolume, fun owner => emptyFil (if owner then 32 else 0)⟩

def emptyDisk : Disk Bool := ⟨512, 4, fun _ => ⟨[], 0, 0, true, true⟩⟩

theorem emptyFiles_refines :
    emptyFiles.Refines (fun _ => False) (fun _ => True) emptyDisk := by
  have consistent : Session.Consistent ⟨emptyVolume, fun _ : Bool => []⟩ fun _ => False :=
    emptyVolume_fresh.consistent
  have beside : ∀ number, number < 4 →
      Session.Beside ⟨emptyVolume, fun _ : Bool => []⟩ (fun _ => True) number := by
    intro number low clust cluster holds
    have place := emptyVolume_sound.geometry.clust2sect_eq cluster
    have := holds.1
    change emptyVolume.clust2sect clust ≤ number at this
    change emptyVolume.clust2sect clust = (clust - 2) * 1 + 4 at place
    omega
  refine ⟨fun _ => [], consistent.toIntact, beside 0 (by decide), consistent.mirrored, rfl,
    (by decide), fun owner _ => ?_, ?_⟩
  · have size : emptyVolume.view 3 = .zero := rfl
    refine ⟨⟨rfl, Nat.zero_le _, Nat.zero_le _, fun _ below => absurd below (Nat.not_lt_zero _),
      fun _ => ⟨rfl, rfl⟩, fun positive => absurd positive (lt_irrefl _),
      fun inside => absurd rfl inside⟩, ⟨rfl, rfl, rfl⟩, ⟨?_, beside 3 (by decide), ?_⟩, rfl, rfl, rfl,
      rfl, rfl, Nat.two_pow_pos 32, (fun _ => rfl), (fun dirty => by cases dirty), fun _ => ?_⟩
    · change emptyVolume.copiesEnd ≤ 3
      decide
    · cases owner <;> rfl
    · change (emptyVolume.view 3).fileSize _ = 0 ∧ (emptyVolume.view 3).startClust _ = 0
      rw [size]
      cases owner <;> decide
  · intro left right _ _ distinct
    cases left <;> cases right <;> first | exact absurd rfl distinct | exact .inr (by decide)

theorem wroteOnce_ends : (fWrite (emptyFil 32) (fun _ => 7) 3 emptyVolume).isSome = true := by
  decide

/-- Three bytes in one of the files. -/
def wroteOnce : (FResult × Transfer) × Fatfs := Option.get _ wroteOnce_ends

theorem wroteOnce_ran :
    fWrite (emptyFil 32) (fun _ => 7) 3 emptyVolume = some ((.ok, wroteOnce.1.2), wroteOnce.2) :=
  (Option.some_get wroteOnce_ends).symm

def wroteFiles : Files Bool := emptyFiles.called true wroteOnce.1.2.fp wroteOnce.2

theorem wroteFiles_step : Files.Step (fun _ => True) emptyFiles
    (true, .write (bytes (fun _ => 7) 3) .ok 3) wroteFiles :=
  @Files.Step.write Bool _ (fun _ => True) emptyFiles true (fun _ => 7) 3 .ok wroteOnce.1.2
    wroteOnce.2 trivial (by decide) (.inl (by decide)) wroteOnce_ran (not_failed rfl)

theorem savedOnce_ends : (fSync wroteOnce.1.2.fp 0 wroteOnce.2).isSome = true := by decide

def savedOnce : (FResult × Fil) × Fatfs := Option.get _ savedOnce_ends

theorem savedOnce_ran :
    fSync wroteOnce.1.2.fp 0 wroteOnce.2 = some ((.ok, savedOnce.1.2), savedOnce.2) :=
  (Option.some_get savedOnce_ends).symm

def savedFiles : Files Bool := wroteFiles.called true savedOnce.1.2 savedOnce.2

theorem savedFiles_step : Files.Step (fun _ => True) wroteFiles (true, .sync .ok) savedFiles :=
  @Files.Step.sync Bool _ (fun _ => True) wroteFiles true 0 .ok savedOnce.1.2 savedOnce.2
    trivial savedOnce_ran (not_failed rfl)

/-- The card in another mount, with the sector of the entry in the window. -/
def mountedOnce : Fatfs := { savedOnce.2 with id := 2, freeClust := notCounted }

theorem mountedOnce_remounted : savedFiles.fs.Remounted mountedOnce := by
  obtain ⟨_, _, refines⟩ := emptyFiles_refines.step wroteFiles_step
  obtain ⟨_, _, chain, models⟩ := refines.step savedFiles_step
  have sound : savedOnce.2.Sound := models.intact.sound
  exact ⟨rfl, rfl, (models.intact.renamed 2).sound, rfl, rfl⟩

/-! ### Back to the start of the file -/

theorem otherOnce_ends : (fWrite (emptyFil 0) (fun _ => 9) 5 wroteOnce.2).isSome = true := by decide

def otherOnce : (FResult × Transfer) × Fatfs := Option.get _ otherOnce_ends

theorem soughtOnce_ends : (fLseek wroteOnce.1.2.fp 0 otherOnce.2).isSome = true := by decide

def soughtOnce : (FResult × Fil) × Fatfs := Option.get _ soughtOnce_ends

theorem foundOnce_ends : (fRead soughtOnce.1.2 (fun _ => 0) 3 soughtOnce.2).isSome = true := by
  decide

def foundOnce : (FResult × Transfer) × Fatfs := Option.get _ foundOnce_ends

/-- A write to each file, and the first one is read again. -/
def readBackEvents : List (Bool × Event) :=
  [(true, .seek 0 .ok), (true, .write (bytes (fun _ => 7) 3) .ok 3),
    (false, .write (bytes (fun _ => 9) 5) .ok 5), (true, .seek 0 .ok),
    (true, .read 3 .ok (bytes foundOnce.1.2.buff 3))]

def readBackFiles : Files Bool :=
  ((((emptyFiles.called true (emptyFil 32) emptyVolume).called true wroteOnce.1.2.fp
    wroteOnce.2).called false otherOnce.1.2.fp otherOnce.2).called true soughtOnce.1.2
      soughtOnce.2).called true foundOnce.1.2.fp foundOnce.2

theorem readBackFiles_run :
    Trace (Files.Step fun _ => True) emptyFiles readBackEvents readBackFiles := by
  refine .cons (@Files.Step.seek Bool _ _ _ true 0 .ok (emptyFil 32) emptyVolume trivial (by decide)
    rfl (not_failed rfl)) ?_
  refine .cons (@Files.Step.write Bool _ _ _ true (fun _ => 7) 3 .ok wroteOnce.1.2 wroteOnce.2
    trivial (by decide) (.inl (by decide)) wroteOnce_ran (not_failed rfl)) ?_
  refine .cons (@Files.Step.write Bool _ _ _ false (fun _ => 9) 5 .ok otherOnce.1.2 otherOnce.2
    trivial (by decide) (.inl (by decide)) (Option.some_get otherOnce_ends).symm
    (not_failed rfl)) ?_
  refine .cons (@Files.Step.seek Bool _ _ _ true 0 .ok soughtOnce.1.2 soughtOnce.2 trivial
    (by decide) (Option.some_get soughtOnce_ends).symm (not_failed rfl)) ?_
  refine .cons (@Files.Step.read Bool _ _ _ true (fun _ => 0) 3 .ok foundOnce.1.2 foundOnce.2
    trivial (by decide) (Option.some_get foundOnce_ends).symm (not_failed rfl)) .nil

section Runs

variable {ι : Type} [DecidableEq ι] {first middle last : Files ι} {lost : Nat → Prop}
variable {file : ι → Prop} {owner : ι} {disk : Disk ι} {events : List (ι × Event)}

theorem Files.Refines.run (refines : first.Refines lost file disk)
    (run : Trace (Files.Step file) first events last) :
    ∃ next, Trace Disk.Step disk events next ∧ last.Refines lost file next :=
  run.simulate (fun _ _ _ _ models step => models.step step) refines

/-- Every run of `f_read`, `f_write`, `f_lseek` and `f_sync` on any files of a volume gives the
answers of the disk, and no call hangs after it. -/
theorem files_refine (refines : first.Refines lost file disk)
    (run : Trace (Files.Step file) first events last) :
    (∃ next, Trace Disk.Step disk events next ∧ last.Refines lost file next) ∧
      ∀ owner, file owner →
        (∀ buff, ∀ btr < 2 ^ 16, ∃ answer, fRead (last.fil owner) buff btr last.fs = some answer) ∧
        (∀ buff, ∀ btw < 2 ^ 16, (last.fil owner).sectClust ≠ 0 ∨ btw = 0 →
          ∃ answer, fWrite (last.fil owner) buff btw last.fs = some answer) ∧
        (∀ ofs < 2 ^ 32, ∃ answer, fLseek (last.fil owner) ofs last.fs = some answer) ∧
        ∀ tim, ∃ answer, fSync (last.fil owner) tim last.fs = some answer := by
  obtain ⟨next, trace, models⟩ := refines.run run
  exact ⟨⟨next, trace, models⟩, fun _ isFile => models.ends isFile⟩

/-- Writes to two files, and all that the disk says of them. -/
theorem files_refine_empty :
    (∃ next, Trace Disk.Step emptyDisk readBackEvents next ∧
        readBackFiles.Refines (fun _ => False) (fun _ => True) next) ∧
      ∀ owner, True →
        (∀ buff, ∀ btr < 2 ^ 16,
          ∃ answer, fRead (readBackFiles.fil owner) buff btr readBackFiles.fs = some answer) ∧
        (∀ buff, ∀ btw < 2 ^ 16, (readBackFiles.fil owner).sectClust ≠ 0 ∨ btw = 0 →
          ∃ answer, fWrite (readBackFiles.fil owner) buff btw readBackFiles.fs = some answer) ∧
        (∀ ofs < 2 ^ 32,
          ∃ answer, fLseek (readBackFiles.fil owner) ofs readBackFiles.fs = some answer) ∧
        ∀ tim, ∃ answer, fSync (readBackFiles.fil owner) tim readBackFiles.fs = some answer :=
  files_refine emptyFiles_refines readBackFiles_run

/-- What was written is on the card once `f_sync` has succeeded: on any other mount of the card the
entry leads to a file with the content that the disk has. -/
theorem files_durable {other : Fil} {read write : Bool} {fresh : Fatfs}
    (refines : first.Refines lost file disk) (run : Trace (Files.Step file) first events middle)
    (written : (middle.fil owner).flag.written = true)
    (sync : Files.Step file middle (owner, .sync .ok) last) (remounted : last.fs.Remounted fresh)
    (here : fresh.winsect = (last.fil owner).dirSect) :
    ∃ next chain, Trace Disk.Step disk events next ∧ Session.Intact ⟨fresh, chain⟩ lost ∧
      Session.Serves ⟨fresh, chain⟩ file owner
        (other.assign fresh read write (last.fil owner).dirPtr)
        { next.handle owner with position := 0, readable := read, writable := write } := by
  obtain ⟨next, trace, chain, models⟩ := refines.run run
  refine ⟨next, chain, trace, ?_⟩
  cases sync with
  | sync isFile ran fine =>
      have serves := models.serves owner isFile
      have outcome := (Session.fSync_meets (models.opened isFile) serves.usable serves.listed
        written).of_eq ran
      rcases outcome with ⟨ended, synced⟩ | ⟨_, failed⟩
      · obtain ⟨_, rfl⟩ := Prod.mk.inj ended
        unfold Files.called at here remounted ⊢
        dsimp only at here remounted ⊢
        rw [Function.update_self] at here ⊢
        exact ⟨synced.accessed.intact.remounted synced.saved remounted,
          models.reopened isFile synced remounted here⟩
      · exact absurd failed fine

/-- The same write, with `f_sync` after it. -/
theorem files_durable_empty :
    ∃ next chain, Trace Disk.Step emptyDisk [(true, .write (bytes (fun _ => 7) 3) .ok 3)] next ∧
      Session.Intact ⟨mountedOnce, chain⟩ (fun _ => False) ∧
      Session.Serves ⟨mountedOnce, chain⟩ (fun _ => True) true
        ((emptyFil 0).assign mountedOnce true false (savedFiles.fil true).dirPtr)
        { next.handle true with position := 0, readable := true, writable := false } :=
  files_durable emptyFiles_refines (.cons wroteFiles_step .nil) rfl savedFiles_step
    mountedOnce_remounted rfl

/-- What was written is read back from the same place, whatever is done to other files before the
position is moved there again and before the read. -/
theorem files_readBack {data found : List Byte} {ofs count : Nat} {sought wrote again res : FResult}
    {before after : List (ι × Event)} (refines : first.Refines lost file disk) (isFile : file owner)
    (run : Trace (Files.Step file) first ((owner, .seek ofs sought) ::
      (owner, .write data wrote count) :: before ++ (owner, .seek ofs again) :: after ++
        [(owner, .read count res found)]) last)
    (readable : (first.fil owner).flag.read = true) (within : ofs ≤ (first.fil owner).fsize)
    (beforeElsewhere : ∀ event ∈ before, event.1 ≠ owner)
    (afterElsewhere : ∀ event ∈ after, event.1 ≠ owner) :
    res = .ok ∧ found = data.take count := by
  obtain ⟨next, trace, _⟩ := refines.run run
  obtain ⟨chain, models⟩ := refines
  have serves := models.serves owner isFile
  rw [serves.readable] at readable
  rw [serves.size] at within
  exact Disk.readBack trace (models.fits isFile) readable within beforeElsewhere afterElsewhere

/-- The bytes of one file are read back after a write to the other one. -/
theorem files_readBack_empty : FResult.ok = .ok ∧
    bytes foundOnce.1.2.buff 3 = (bytes (fun _ => 7) 3).take 3 :=
  @files_readBack Bool _ emptyFiles _ _ _ true emptyDisk _ _ 0 3 _ _ _ .ok
    [(false, .write (bytes (fun _ => 9) 5) .ok 5)] [] emptyFiles_refines trivial readBackFiles_run rfl
    (Nat.le_refl 0) (by decide) (by decide)

end Runs

end BbbEth.FatFs
