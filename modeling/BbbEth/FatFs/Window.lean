import BbbEth.FatFs.Volume
import Mathlib.Tactic.Common

/-!
# What the window keeps

The contents of the volume are those of the card under the window.  To move the window changes
none of them, and the copies of the FAT stay copies.
-/

namespace BbbEth.FatFs

open BbbEth.Console BbbEth.Stateful

/-! ## Calls of the card -/

/-- A card after some calls. -/
structure Card.Later (before after : Card) : Prop where
  fails : after.fails = before.fails
  calls : before.calls ≤ after.calls

/-- One of the calls between failed. -/
def Card.Failed (before after : Card) : Prop :=
  ∃ call, before.calls ≤ call ∧ call < after.calls ∧ before.fails call = true

namespace Card

variable {first second third card : Card} {sector count number : Nat} {buff : Nat → Sector}

theorem Later.refl : card.Later card := ⟨rfl, Nat.le_refl _⟩

theorem Later.trans (left : first.Later second) (right : second.Later third) :
    first.Later third :=
  ⟨right.fails.trans left.fails, left.calls.trans right.calls⟩

theorem Failed.after (later : first.Later second) (failed : second.Failed third) :
    first.Failed third := by
  rcases failed with ⟨call, least, below, fails⟩
  exact ⟨call, later.calls.trans least, below, later.fails ▸ fails⟩

theorem Failed.before (failed : first.Failed second) (later : second.Later third) :
    first.Failed third := by
  rcases failed with ⟨call, least, below, fails⟩
  exact ⟨call, least, below.trans_le later.calls, fails⟩

theorem read_later : card.Later (card.read sector).2 := ⟨rfl, Nat.le_succ _⟩

theorem write_later : card.Later (card.write sector count buff).2 := ⟨rfl, Nat.le_succ _⟩

theorem read_failed (failed : (card.read sector).1.1 = false) :
    card.Failed (card.read sector).2 := by
  refine ⟨card.calls, Nat.le_refl _, Nat.lt_succ_self _, ?_⟩
  unfold read at failed
  by_contra fine
  rw [if_neg fine] at failed
  cases failed

theorem write_failed (failed : (card.write sector count buff).1 = false) :
    card.Failed (card.write sector count buff).2 :=
  ⟨card.calls, Nat.le_refl _, Nat.lt_succ_self _, by simpa [write] using failed⟩

theorem read_success (success : (card.read sector).1.1 = true) (index : Nat) :
    (card.read sector).1.2 index = card.data (sector + index) := by
  unfold read at success ⊢
  split at success
  next => cases success
  next fine => rw [if_neg fine]

@[simp] theorem read_data : (card.read sector).2.data = card.data := rfl

theorem write_data_outside (outside : ¬ (sector ≤ number ∧ number < sector + count)) :
    (card.write sector count buff).2.data number = card.data number :=
  if_neg outside

theorem write_data_inside (success : (card.write sector count buff).1 = true)
    (inside : sector ≤ number ∧ number < sector + count) :
    (card.write sector count buff).2.data number = buff (number - sector) := by
  have fine : ¬ card.fails card.calls = true := by simpa [write] using success
  exact (if_pos inside).trans (if_neg fine)

end Card

/-! ## Routines on any volume -/

/-- The routine ends on any volume, with the same geometry. -/
def Advances {α : Type} (routine : Volume α) : Prop :=
  ∀ fs, Meets routine fs fun _ after =>
    fs.card.Later after.card ∧ after.toGeometry = fs.toGeometry

namespace Advances

variable {α β : Type} {routine : Volume α} {next : α → Volume β} {test : Volume Bool}

theorem done {value : α} : Advances (pure value : Volume α) :=
  fun _ => meets_pure.mpr ⟨.refl, rfl⟩

theorem bind (first : Advances routine) (rest : ∀ value, Advances (next value)) :
    Advances (routine >>= next) := by
  intro fs
  refine (first fs).bind fun value middle before => ?_
  refine (rest value middle).mono fun _ after behind => ?_
  exact ⟨before.1.trans behind.1, behind.2.trans before.2⟩

theorem get_bind {rest : Fatfs → Volume β} (all : ∀ fs, Advances (rest fs)) :
    Advances (get >>= rest) := by
  intro fs
  rw [meets_get_bind]
  exact all fs fs

theorem change_bind {update : Fatfs → Fatfs} {rest : PUnit → Volume β}
    (card : ∀ fs, (update fs).card = fs.card)
    (geometry : ∀ fs, (update fs).toGeometry = fs.toGeometry) (all : Advances (rest ⟨⟩)) :
    Advances ((modify update : Volume PUnit) >>= rest) := by
  intro fs
  rw [meets_modify_bind, ← card fs, ← geometry fs]
  exact all (update fs)

theorem orReturn {failure : α} (tested : Advances test) (rest : Advances routine) :
    Advances (orReturn test failure routine) := by
  refine tested.bind fun success => ?_
  cases success with
  | true => exact rest
  | false => exact done

theorem diskRead {sector : Nat} {buff : Nat → Sector} : Advances (diskRead sector buff) := by
  intro fs
  by_cases drive : fs.drive = driveNumMmc
  · refine ⟨_, _, if_pos drive, @Card.read_later _ sector, rfl⟩
  · exact ⟨_, _, if_neg drive, .refl, rfl⟩

theorem diskWrite {sector count : Nat} {buff : Nat → Sector} :
    Advances (diskWrite sector count buff) := by
  intro fs
  by_cases drive : fs.drive = driveNumMmc
  · exact ⟨_, _, if_pos drive, @Card.write_later _ sector count buff, rfl⟩
  · exact ⟨_, _, if_neg drive, .refl, rfl⟩

theorem reflectCopies {left wsect : Nat} : Advances (reflectCopies left wsect) := by
  induction left generalizing wsect with
  | zero => exact done
  | succ left inductionHypothesis =>
      exact get_bind fun _ => diskWrite.bind fun _ => inductionHypothesis

theorem writeBack : Advances writeBack := by
  refine get_bind fun fs => ?_
  split
  · refine diskWrite.orReturn (change_bind (fun _ => rfl) (fun _ => rfl) ?_)
    refine bind (get_bind fun now => ?_) fun _ => done
    split
    · exact reflectCopies
    · exact done
  · exact done

theorem moveWindow {sector : Nat} : Advances (moveWindow sector) := by
  refine get_bind fun fs => ?_
  split
  · refine writeBack.orReturn ?_
    split
    · refine diskRead.bind fun answer => change_bind (fun _ => rfl) (fun _ => rfl) ?_
      split
      · exact change_bind (fun _ => rfl) (fun _ => rfl) done
      · exact done
    · exact done
  · exact done

end Advances

/-! ## The areas of the volume -/

namespace FatType

/-- The first byte of the entry of a cluster. -/
def offset : FatType → Nat → Nat
  | .fat12, clust => clust * 3 / 2
  | .fat16, clust => clust * 2
  | .fat32, clust => clust * 4
  | .unmounted, _ => 0

/-- The bytes that an entry reaches into. -/
def size : FatType → Nat
  | .fat32 => 4
  | _ => 2

theorem size_pos {fsType : FatType} : 0 < fsType.size := by cases fsType <;> decide

/-- The values of an entry. -/
def modulus : FatType → Nat
  | .fat12 => 2 ^ 12
  | .fat16 => 2 ^ 16
  | .fat32 => 2 ^ 28
  | .unmounted => 0

end FatType

namespace Geometry

variable (geometry : Geometry)

def fatEnd : Nat := geometry.fatbase + geometry.sectsFat

def copiesEnd : Nat := geometry.fatbase + geometry.nFats * geometry.sectsFat

/-- A volume that the numbers of `auto_mount` describe without overlap or overflow. -/
structure WellFormed : Prop where
  mounted : geometry.fsType ≠ .unmounted
  drive : geometry.drive = driveNumMmc
  reserved : 0 < geometry.fatbase
  copies : 0 < geometry.nFats
  clusters : 2 ≤ geometry.maxClust
  reach : geometry.fsType.offset (geometry.maxClust - 1) + geometry.fsType.size ≤
    sSiz * geometry.sectsFat
  distinct : geometry.maxClust + 8 < geometry.fsType.modulus
  room : geometry.copiesEnd ≤ geometry.database
  sectsClust : 0 < geometry.sectsClust
  sectors : geometry.sectsClust < 2 ^ 8
  bounded : geometry.database + (geometry.maxClust - 2) * geometry.sectsClust < 2 ^ 32

/-- The sectors of the volume but the copies of the FAT. -/
def Own (number : Nat) : Prop :=
  geometry.fatbase ≤ number ∧ (number < geometry.fatEnd ∨ geometry.copiesEnd ≤ number)

variable {geometry} {number : Nat}

theorem WellFormed.fatEnd_le (wellFormed : geometry.WellFormed) :
    geometry.fatEnd ≤ geometry.copiesEnd := by
  have := Nat.le_mul_of_pos_left geometry.sectsFat wellFormed.copies
  unfold fatEnd copiesEnd
  omega

theorem WellFormed.small (wellFormed : geometry.WellFormed) : geometry.copiesEnd < 2 ^ 32 := by
  have := wellFormed.room
  have := wellFormed.bounded
  omega

theorem Own.pos (wellFormed : geometry.WellFormed) (own : geometry.Own number) : number ≠ 0 := by
  have := wellFormed.reserved
  have := own.1
  omega

end Geometry

/-! ## The contents of the volume -/

namespace Fatfs

variable (fs : Fatfs)

/-- A sector with what the window has of it. -/
def view (number : Nat) : Sector := if fs.winsect = number then fs.win else fs.card.data number

/-- The copies of the FAT on the card are copies of the first. -/
def Mirrored : Prop :=
  ∀ copy < fs.nFats, ∀ index < fs.sectsFat,
    fs.card.data (fs.fatbase + copy * fs.sectsFat + index) = fs.card.data (fs.fatbase + index)

/-- The window is one of the sectors of the volume, and what is not on the card is marked. -/
structure Sound : Prop where
  geometry : fs.WellFormed
  place : fs.winsect = 0 ∨ fs.Own fs.winsect
  dirty : fs.winflag = true → fs.winsect ≠ 0
  clean : fs.winflag = false → fs.winsect ≠ 0 → fs.win = fs.card.data fs.winsect

/-- The whole of the contents is on the card. -/
def Saved : Prop := ∀ number, fs.Own number → fs.card.data number = fs.view number

/-- The contents of the volume are the same, on a card after some calls. -/
structure Same (before after : Fatfs) : Prop where
  geometry : after.toGeometry = before.toGeometry
  lastClust : after.lastClust = before.lastClust
  freeClust : after.freeClust = before.freeClust
  view : ∀ number, before.Own number → after.view number = before.view number
  boot : ∀ number < before.fatbase, after.card.data number = before.card.data number
  later : before.card.Later after.card
  mirrored : before.Mirrored → after.Mirrored ∨ before.card.Failed after.card

variable {fs} {before middle after : Fatfs} {number : Nat}

theorem view_winsect (here : fs.winsect = number) : fs.view number = fs.win := if_pos here

theorem view_of_ne (elsewhere : fs.winsect ≠ number) : fs.view number = fs.card.data number :=
  if_neg elsewhere

/-- Where nothing is to be written back, the card has all of the contents. -/
theorem Sound.saved (sound : fs.Sound) (clean : fs.winflag = false) (positive : number ≠ 0) :
    fs.view number = fs.card.data number := by
  by_cases here : fs.winsect = number
  · rw [view_winsect here, sound.clean clean (here ▸ positive), here]
  · exact view_of_ne here

/-- The copies are not touched by what is done behind them. -/
theorem Mirrored.behind (mirrored : before.Mirrored)
    (geometry : after.toGeometry = before.toGeometry)
    (data : ∀ number < before.copiesEnd, after.card.data number = before.card.data number) :
    after.Mirrored := by
  intro copy low index small
  rw [geometry] at low small ⊢
  have most : (copy + 1) * before.sectsFat ≤ before.nFats * before.sectsFat :=
    Nat.mul_le_mul_right _ low
  rw [Nat.succ_mul] at most
  have least : before.sectsFat ≤ before.nFats * before.sectsFat :=
    Nat.le_mul_of_pos_left _ (Nat.zero_lt_of_lt low)
  unfold Geometry.copiesEnd at data
  rw [data _ (by omega), data _ (by omega)]
  exact mirrored copy low index small

namespace Same

theorem refl : Same fs fs := ⟨rfl, rfl, rfl, fun _ _ => rfl, fun _ _ => rfl, .refl, .inl⟩

theorem own (same : Same before after) : after.Own number ↔ before.Own number := by
  rw [same.geometry]

theorem trans (first : Same before middle) (second : Same middle after) : Same before after where
  geometry := second.geometry.trans first.geometry
  lastClust := second.lastClust.trans first.lastClust
  freeClust := second.freeClust.trans first.freeClust
  view number own := (second.view number (first.own.mpr own)).trans (first.view number own)
  boot number early := by
    rw [second.boot number (by rw [first.geometry]; exact early), first.boot number early]
  later := first.later.trans second.later
  mirrored mirrored := by
    rcases first.mirrored mirrored with middle | failed
    · exact (second.mirrored middle).imp_right (.after first.later)
    · exact .inr (failed.before second.later)

end Same

/-- The contents are the same, and the window is where it was or in the FAT. -/
structure Still (before after : Fatfs) : Prop extends Same before after where
  near : after.winsect = before.winsect ∨ after.winsect < before.copiesEnd

namespace Still

theorem refl : Still fs fs := ⟨.refl, .inl rfl⟩

theorem trans (first : Still before middle) (second : Still middle after) :
    Still before after where
  toSame := first.toSame.trans second.toSame
  near := by
    have near := second.near
    rw [first.geometry] at near
    rcases near with stays | inFat
    · rw [stays]
      exact first.near
    · exact .inr inFat

end Still

end Fatfs

/-! ## `move_window` -/

section Calls

variable {fs : Fatfs} {sector count wsect left number : Nat} {buff : Nat → Sector}

theorem meets_diskRead {post : Bool × (Nat → Sector) → Fatfs → Prop}
    (drive : fs.drive = driveNumMmc) : Meets (diskRead sector buff) fs post ↔
      post (fs.card.read sector).1 { fs with card := (fs.card.read sector).2 } := by
  simp [Meets, diskRead, drive]

theorem meets_diskWrite {post : Bool → Fatfs → Prop} (drive : fs.drive = driveNumMmc) :
    Meets (diskWrite sector count buff) fs post ↔
      post (fs.card.write sector count buff).1
        { fs with card := (fs.card.write sector count buff).2 } := by
  simp [Meets, diskWrite, drive]

/-- The loop over the copies writes the window into each of them, and nothing else. -/
theorem reflectCopies_meets (drive : fs.drive = driveNumMmc) (step : 0 < fs.sectsFat)
    (bound : wsect + left * fs.sectsFat < 2 ^ 32) :
    Meets (reflectCopies left wsect) fs fun _ after =>
      after = { fs with card := after.card } ∧ fs.card.Later after.card ∧
        (∀ number, (∀ copy < left, number ≠ wsect + (copy + 1) * fs.sectsFat) →
          after.card.data number = fs.card.data number) ∧
        (fs.card.Failed after.card ∨
          ∀ copy < left, after.card.data (wsect + (copy + 1) * fs.sectsFat) = fs.win) := by
  induction left generalizing fs wsect with
  | zero =>
      refine meets_pure.mpr ⟨rfl, .refl, fun _ _ => rfl, .inr fun copy small => ?_⟩
      exact absurd small (Nat.not_lt_zero copy)
  | succ left inductionHypothesis =>
      have split : (left + 1) * fs.sectsFat = left * fs.sectsFat + fs.sectsFat := Nat.succ_mul ..
      unfold reflectCopies
      rw [meets_get_bind, Nat.mod_eq_of_lt (by omega), meets_bind, meets_diskWrite drive]
      let written : Fatfs :=
        { fs with card := (fs.card.write (wsect + fs.sectsFat) 1 (single fs.win)).2 }
      have room : wsect + fs.sectsFat + left * written.sectsFat < 2 ^ 32 := by
        change wsect + fs.sectsFat + left * fs.sectsFat < 2 ^ 32
        omega
      refine (@inductionHypothesis written _ drive step room).mono ?_
      rintro _ after ⟨shape, later, frame, copied⟩
      have others : ∀ copy, wsect + fs.sectsFat + (copy + 1) * fs.sectsFat =
          wsect + (copy + 1 + 1) * fs.sectsFat := fun copy => by
        rw [Nat.succ_mul (copy + 1)]
        omega
      refine ⟨shape, Card.write_later.trans later, ?_, ?_⟩
      · intro number outside
        have first := outside 0 (Nat.succ_pos left)
        rw [frame number, Card.write_data_outside]
        · rw [Nat.zero_add, Nat.one_mul] at first
          omega
        · intro copy small
          change number ≠ wsect + fs.sectsFat + (copy + 1) * fs.sectsFat
          rw [others]
          exact outside (copy + 1) (Nat.succ_lt_succ small)
      · rcases copied with failed | copied
        · exact .inl (.after Card.write_later failed)
        cases written : (fs.card.write (wsect + fs.sectsFat) 1 (single fs.win)).1 with
        | false => exact .inl ((Card.write_failed written).before later)
        | true =>
            refine .inr fun copy small => ?_
            cases copy with
            | zero =>
                rw [frame, Nat.zero_add, Nat.one_mul, Card.write_data_inside written (by omega)]
                · rfl
                · intro copy _
                  have positive : 0 < (copy + 1) * fs.sectsFat :=
                    Nat.mul_pos (Nat.succ_pos copy) step
                  change _ ≠ wsect + fs.sectsFat + (copy + 1) * fs.sectsFat
                  omega
            | succ copy =>
                rw [← others]
                exact copied copy (Nat.lt_of_succ_lt_succ small)

end Calls

/-! ## Writing back and moving -/

section Moves

variable {fs : Fatfs} {sector : Nat}

theorem Geometry.WellFormed.step {geometry : Geometry} (wellFormed : geometry.WellFormed) :
    0 < geometry.sectsFat := by
  have reach := wellFormed.reach
  have positive : 0 < geometry.fsType.size := FatType.size_pos
  by_contra none
  rw [Nat.eq_zero_of_not_pos none] at reach
  omega

/-- What the copies are but for the sector of the window. -/
def Fatfs.MirroredBut (fs : Fatfs) (wsect : Nat) : Prop :=
  ∀ copy < fs.nFats, ∀ index < fs.sectsFat, fs.fatbase + index ≠ wsect →
    fs.card.data (fs.fatbase + copy * fs.sectsFat + index) = fs.card.data (fs.fatbase + index)

/-- The window is in every copy afterwards, and the rest of the card is as it was. -/
theorem reflect_meets {wsect : Nat} (wellFormed : fs.WellFormed) (own : fs.Own wsect) :
    Meets (reflect wsect) fs fun _ after =>
      after = { fs with card := after.card } ∧ fs.card.Later after.card ∧
        (∀ number, number < fs.fatEnd ∨ fs.copiesEnd ≤ number →
          after.card.data number = fs.card.data number) ∧
        (fs.MirroredBut wsect → fs.card.data wsect = fs.win →
          after.Mirrored ∨ fs.card.Failed after.card) := by
  have step := wellFormed.step
  have small := wellFormed.small
  have ends := wellFormed.fatEnd_le
  have split : fs.nFats * fs.sectsFat = (fs.nFats - 1) * fs.sectsFat + fs.sectsFat := by
    rw [← Nat.succ_mul, Nat.succ_eq_add_one, Nat.sub_add_cancel wellFormed.copies]
  unfold Geometry.fatEnd at ends
  unfold Geometry.copiesEnd at ends small
  unfold reflect
  rw [meets_get_bind, Nat.mod_eq_of_lt (by omega)]
  split
  next inFat =>
    refine (reflectCopies_meets wellFormed.drive step (by omega)).mono ?_
    rintro _ after ⟨shape, later, frame, copied⟩
    have front : ∀ number, number < fs.fatbase + fs.sectsFat ∨
        fs.fatbase + fs.nFats * fs.sectsFat ≤ number →
          after.card.data number = fs.card.data number := by
      intro number apart
      refine frame number fun copy low => ?_
      have least : fs.sectsFat ≤ (copy + 1) * fs.sectsFat :=
        Nat.le_mul_of_pos_left _ (Nat.succ_pos copy)
      have most : (copy + 1) * fs.sectsFat ≤ (fs.nFats - 1) * fs.sectsFat :=
        Nat.mul_le_mul_right _ low
      have := own.1
      omega
    refine ⟨shape, later, front, fun mirrored here => ?_⟩
    refine copied.symm.imp_left fun copied copy low index inside => ?_
    rw [shape] at low inside ⊢
    change copy < fs.nFats at low
    change index < fs.sectsFat at inside
    change after.card.data (fs.fatbase + copy * fs.sectsFat + index) =
      after.card.data (fs.fatbase + index)
    rw [front (fs.fatbase + index) (.inl (by omega))]
    by_cases same : fs.fatbase + index = wsect
    · rw [same, here]
      cases copy with
      | zero => rw [Nat.zero_mul, Nat.add_zero, same, front wsect (.inl inFat), here]
      | succ copy =>
          rw [← copied copy (by omega)]
          congr 1
          omega
    · rw [← mirrored copy low index inside same]
      refine frame _ fun other _ => ?_
      intro equal
      apply same
      have position : copy * fs.sectsFat + index =
          (other + 1) * fs.sectsFat + (wsect - fs.fatbase) := by
        have := own.1
        omega
      have residue := congrArg (· % fs.sectsFat) position
      simp only [Nat.mul_add_mod_self_right] at residue
      rw [Nat.mod_eq_of_lt inside, Nat.mod_eq_of_lt (by have := own.1; omega)] at residue
      have := own.1
      omega
  next behind =>
    refine meets_pure.mpr ⟨rfl, .refl, fun _ _ => rfl, fun mirrored _ => .inl ?_⟩
    intro copy low index inside
    exact mirrored copy low index inside (by omega)

namespace Fatfs

/-- The state after the window is written to its place on the card. -/
def flushed (fs : Fatfs) : Fatfs :=
  { fs with winflag := false, card := (fs.card.write fs.winsect 1 (single fs.win)).2 }

theorem flushed_here (written : (fs.card.write fs.winsect 1 (single fs.win)).1 = true) :
    fs.flushed.card.data fs.winsect = fs.win :=
  Card.write_data_inside written ⟨Nat.le_refl _, Nat.lt_succ_self _⟩

theorem flushed_elsewhere {number : Nat} (elsewhere : number ≠ fs.winsect) :
    fs.flushed.card.data number = fs.card.data number :=
  Card.write_data_outside (by omega)

theorem Mirrored.flushed (mirrored : fs.Mirrored) (own : fs.Own fs.winsect) :
    fs.flushed.MirroredBut fs.winsect := by
  intro copy low index inside distinct
  change copy < fs.nFats at low
  change index < fs.sectsFat at inside
  change fs.fatbase + index ≠ fs.winsect at distinct
  change fs.flushed.card.data (fs.fatbase + copy * fs.sectsFat + index) =
    fs.flushed.card.data (fs.fatbase + index)
  rw [flushed_elsewhere distinct, ← mirrored copy low index inside]
  cases copy with
  | zero => rw [Nat.zero_mul, Nat.add_zero, flushed_elsewhere distinct]
  | succ copy =>
      refine flushed_elsewhere fun equal => ?_
      have least : fs.sectsFat ≤ (copy + 1) * fs.sectsFat :=
        Nat.le_mul_of_pos_left _ (Nat.succ_pos copy)
      have most : (copy + 1 + 1) * fs.sectsFat ≤ fs.nFats * fs.sectsFat :=
        Nat.mul_le_mul_right _ low
      rw [Nat.succ_mul (copy + 1)] at most
      have place := own.2
      unfold Geometry.fatEnd Geometry.copiesEnd at place
      omega

end Fatfs

/-- The window is on the card afterwards. -/
theorem writeBack_meets (sound : fs.Sound) :
    Meets writeBack fs fun written after =>
      if written = true then
        fs.Same after ∧ after.Sound ∧ after.winflag = false ∧ after.winsect = fs.winsect
      else fs.card.Failed after.card := by
  have wellFormed := sound.geometry
  unfold writeBack
  rw [meets_get_bind]
  cases flag : fs.winflag with
  | false =>
      refine meets_pure.mpr ?_
      exact (if_pos rfl).mpr ⟨.refl, sound, flag, rfl⟩
  | true =>
      have positive := sound.dirty flag
      have own := sound.place.resolve_left positive
      rw [if_pos rfl, meets_orReturn, meets_diskWrite wellFormed.drive]
      cases written : (fs.card.write fs.winsect 1 (single fs.win)).1 with
      | false => exact Card.write_failed written
      | true =>
          rw [if_pos rfl, meets_modify_bind, meets_bind]
          refine (@reflect_meets fs.flushed fs.winsect wellFormed own).mono ?_
          rintro _ after ⟨shape, later, frame, copied⟩
          refine meets_pure.mpr ((if_pos rfl).mpr ?_)
          have geometry : after.toGeometry = fs.toGeometry := by rw [shape]; rfl
          have winsect : after.winsect = fs.winsect := by rw [shape]; rfl
          have win : after.win = fs.win := by rw [shape]; rfl
          have saved : after.card.data fs.winsect = fs.win := by
            rw [frame _ (own.2.imp_right id), Fatfs.flushed_here written]
          have others : ∀ number, number ≠ fs.winsect → number < fs.fatEnd ∨ fs.copiesEnd ≤ number →
              after.card.data number = fs.card.data number := by
            intro number elsewhere apart
            rw [frame number apart, Fatfs.flushed_elsewhere elsewhere]
          refine ⟨⟨geometry, by rw [shape]; rfl, by rw [shape]; rfl, ?_, ?_, ?_, ?_⟩, ?_,
            by rw [shape]; rfl, winsect⟩
          · intro number ownNumber
            by_cases here : fs.winsect = number
            · rw [Fatfs.view_winsect here, Fatfs.view_winsect (winsect.trans here), win]
            · rw [Fatfs.view_of_ne here, Fatfs.view_of_ne (winsect ▸ here),
                others number (Ne.symm here) ownNumber.2]
          · intro number early
            have := own.1
            have : number < fs.fatEnd := by
              unfold Geometry.fatEnd
              omega
            exact others number (by omega) (.inl this)
          · exact Card.write_later.trans later
          · intro mirrored
            exact (copied (mirrored.flushed own) (Fatfs.flushed_here written)).imp_right
              (.after Card.write_later)
          · refine ⟨geometry ▸ wellFormed, .inr ?_, fun dirty => ?_, fun _ _ => ?_⟩
            · rw [winsect, geometry]
              exact own
            · rw [shape] at dirty
              cases dirty
            · rw [winsect, win, saved]

/-- The volume after the window was moved. -/
structure Fatfs.Moved (sector : Nat) (before after : Fatfs) : Prop extends Same before after where
  sound : after.Sound
  here : sector ≠ 0 → after.winsect = sector
  idle : sector = 0 → after.winsect = before.winsect
  saved : before.winsect ≠ sector → after.winflag = false
  stays : before.winsect = sector → after = before

theorem Fatfs.Moved.still {before after : Fatfs} (moved : Fatfs.Moved sector before after)
    (inFat : sector < before.copiesEnd) : before.Still after where
  toSame := moved.toSame
  near := by
    by_cases zero : sector = 0
    · exact .inl (moved.idle zero)
    · exact .inr (by rwa [moved.here zero])

/-- To move the window changes nothing of the contents. -/
theorem moveWindow_meets (sound : fs.Sound) (target : sector = 0 ∨ fs.Own sector) :
    Meets (moveWindow sector) fs fun moved after =>
      if moved = true then fs.Moved sector after else fs.card.Failed after.card := by
  unfold moveWindow
  rw [meets_get_bind]
  split
  next elsewhere =>
    refine Meets.orReturn (writeBack_meets sound) ?_ fun _ failed => failed
    rintro middle ⟨same, soundMiddle, clean, winsect⟩
    split
    next positive =>
      have own := target.resolve_left positive
      have ownMiddle := same.own.mpr own
      rw [meets_bind, meets_diskRead soundMiddle.geometry.drive, meets_modify_bind]
      cases done : (middle.card.read sector).1.1 with
      | false =>
          rw [if_neg (by decide)]
          refine meets_pure.mpr ((if_neg (by decide)).mpr ?_)
          exact .after same.later (Card.read_failed done)
      | true =>
          rw [if_pos rfl, meets_modify_bind]
          refine meets_pure.mpr ((if_pos rfl).mpr ?_)
          have loaded := Card.read_success done 0
          refine ⟨same.trans ⟨rfl, rfl, rfl, ?_, fun _ _ => rfl, @Card.read_later _ sector, .inl⟩, ?_,
            fun _ => rfl, fun zero => absurd zero positive, fun _ => clean,
            fun here => absurd here elsewhere⟩
          · intro number ownNumber
            rw [soundMiddle.saved clean (ownNumber.pos soundMiddle.geometry)]
            by_cases here : sector = number
            · rw [Fatfs.view_winsect here, ← here]
              exact loaded
            · exact Fatfs.view_of_ne here
          · refine ⟨soundMiddle.geometry, .inr ownMiddle, fun dirty => ?_, fun _ _ => loaded⟩
            exact absurd (clean.symm.trans dirty) (by decide)
    next zero =>
      refine meets_pure.mpr ((if_pos rfl).mpr ⟨same, soundMiddle, fun positive => ?_, fun _ => winsect,
        fun _ => clean, fun here => absurd here elsewhere⟩)
      exact absurd positive zero
  next here =>
    have here := Decidable.not_not.mp here
    refine meets_pure.mpr ((if_pos rfl).mpr ⟨.refl, sound, fun _ => here, fun _ => rfl,
      fun elsewhere => ?_, fun _ => rfl⟩)
    exact absurd here elsewhere

/-- `sync` writes the window, whether it is marked or not. -/
theorem sync_stored {win : Sector} (sound : fs.Sound) (loaded : fs.winsect ≠ 0) :
    Meets sync { fs with win } fun done after =>
      if done = true then
        Fatfs.Same { fs with win, winflag := true } after ∧ after.Sound ∧
          after.winsect = fs.winsect ∧ after.Saved
      else fs.card.Failed after.card := by
  let marked : Fatfs := { fs with win, winflag := true }
  have markedSound : marked.Sound :=
    ⟨sound.geometry, sound.place, fun _ => loaded, fun clean => by cases clean⟩
  unfold sync
  rw [meets_modify_bind]
  refine Meets.orReturn (moveWindow_meets markedSound (.inl rfl)) ?_ fun _ failed => failed
  intro after moved
  refine meets_pure.mpr ((if_pos rfl).mpr ⟨moved.toSame, moved.sound, moved.idle rfl, ?_⟩)
  intro number own
  rw [moved.geometry] at own
  exact (moved.sound.saved (moved.saved loaded) (own.pos sound.geometry)).symm

/-- `sync` leaves the whole of the contents on the card. -/
theorem sync_meets (sound : fs.Sound) (loaded : fs.winsect ≠ 0) :
    Meets sync fs fun done after =>
      if done = true then
        fs.Same after ∧ after.Sound ∧ after.Saved
      else fs.card.Failed after.card := by
  have marked : fs.Same { fs with winflag := true } :=
    ⟨rfl, rfl, rfl, fun _ _ => rfl, fun _ _ => rfl, .refl, .inl⟩
  refine (@sync_stored fs fs.win sound loaded).mono fun done after outcome => ?_
  split at outcome
  next success =>
    exact (if_pos success).mpr ⟨marked.trans outcome.1, outcome.2.1, outcome.2.2.2⟩
  next failure => exact (if_neg failure).mpr outcome

end Moves

end BbbEth.FatFs
