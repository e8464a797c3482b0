import BbbEth.Console.Memory
import BbbEth.Stateful.Meets
import Mathlib.Algebra.Group.Nat.Defs
import Mathlib.Logic.Function.Basic

/-!
# The volume of FatFs

The file system object of `ff.c` with the card behind `diskio.c`.  Sectors go through `win`,
which is written back when another sector is wanted, and then to every copy of the FAT.
-/

namespace BbbEth.FatFs

open BbbEth.Console BbbEth.Stateful

/-- `S_SIZ`. -/
def sSiz : Nat := 512

theorem sSiz_pos : 0 < sSiz := by decide

abbrev Sector := Fin sSiz → Byte

namespace Sector

/-- The place of an offset, under the mask `S_SIZ - 1`. -/
def index (offset : Nat) : Fin sSiz := ⟨offset % sSiz, Nat.mod_lt _ sSiz_pos⟩

def get (sector : Sector) (offset : Nat) : Byte := sector (index offset)

def set (sector : Sector) (offset : Nat) (value : Byte) : Sector :=
  Function.update sector (index offset) value

/-- `memset`. -/
def zero : Sector := fun _ => 0

variable {sector : Sector} {offset other : Nat} {value : Byte}

theorem index_eq_iff : index offset = index other ↔ offset % sSiz = other % sSiz := Fin.ext_iff

@[simp] theorem get_set_self : (sector.set offset value).get offset = value :=
  Function.update_self ..

theorem get_set_of_ne (distinct : offset % sSiz ≠ other % sSiz) :
    (sector.set offset value).get other = sector.get other :=
  Function.update_of_ne (fun same => distinct (index_eq_iff.mp same).symm) ..

end Sector

/-- The card, with an account of the calls that fail and of what these leave behind. -/
structure Card where
  data : Nat → Sector
  calls : Nat
  fails : Nat → Bool
  junk : Nat → Nat → Sector

namespace Card

variable (card : Card)

/-- The transfer of `disk_read`: whether it is a success, and what it leaves in the buffer. -/
def read (sector : Nat) : (Bool × (Nat → Sector)) × Card :=
  (if card.fails card.calls then (false, card.junk card.calls)
    else (true, fun index => card.data (sector + index)),
    { card with calls := card.calls + 1 })

/-- The transfer of `disk_write`. -/
def write (sector count : Nat) (buff : Nat → Sector) : Bool × Card :=
  (!card.fails card.calls,
    { card with
      calls := card.calls + 1
      data := fun number =>
        if sector ≤ number ∧ number < sector + count then
          if card.fails card.calls then card.junk card.calls (number - sector)
          else buff (number - sector)
        else card.data number })

end Card

/-- The values of `fs_type`. -/
inductive FatType where
  | unmounted | fat12 | fat16 | fat32
  deriving DecidableEq, Repr

/-- What `auto_mount` reads of the boot sector. -/
structure Geometry where
  id : Nat
  fsType : FatType
  drive : Nat
  nRootdir : Nat
  sectsFat : Nat
  nFats : Nat
  sectsClust : Nat
  maxClust : Nat
  fatbase : Nat
  dirbase : Nat
  database : Nat
  deriving DecidableEq, Repr

/-- `FATFS`, and the card. -/
structure Fatfs extends Geometry where
  winsect : Nat
  winflag : Bool
  win : Sector
  lastClust : Nat
  freeClust : Nat
  card : Card

abbrev Volume := StateT Fatfs Option

/-- `DRIVE_NUM_MMC`. -/
def driveNumMmc : Nat := 0

/-- `disk_read`, with what is left in the buffer. -/
def diskRead (sector : Nat) (buff : Nat → Sector) : Volume (Bool × (Nat → Sector)) := fun fs =>
  if fs.drive = driveNumMmc then
    some ((fs.card.read sector).1, { fs with card := (fs.card.read sector).2 })
  else some ((false, buff), fs)

/-- `disk_write`. -/
def diskWrite (sector count : Nat) (buff : Nat → Sector) : Volume Bool := fun fs =>
  if fs.drive = driveNumMmc then
    some ((fs.card.write sector count buff).1,
      { fs with card := (fs.card.write sector count buff).2 })
  else some (false, fs)

/-- The window as the buffer of a transfer. -/
def single (win : Sector) : Nat → Sector := fun _ => win

/-- The loop of `move_window` over the copies of the FAT. -/
def reflectCopies : Nat → Nat → Volume Unit
  | 0, _ => pure ()
  | left + 1, wsect => do
      let fs ← get
      let wsect := (wsect + fs.sectsFat) % 2 ^ 32
      let _ ← diskWrite wsect 1 (single fs.win)
      reflectCopies left wsect

/-- What `move_window` does for the copies of the FAT. -/
def reflect (wsect : Nat) : Volume Unit := do
  let fs ← get
  if wsect < (fs.fatbase + fs.sectsFat) % 2 ^ 32 then reflectCopies (fs.nFats - 1) wsect

/-- What `move_window` does before it reads: write back the window. -/
def writeBack : Volume Bool := do
  let fs ← get
  if fs.winflag then
    orReturn (diskWrite fs.winsect 1 (single fs.win)) false do
      modify fun fs => { fs with winflag := false }
      reflect fs.winsect
      return true
  else return true

/-- `move_window`. -/
def moveWindow (sector : Nat) : Volume Bool := do
  let fs ← get
  if fs.winsect ≠ sector then
    orReturn writeBack false do
      if sector ≠ 0 then
        let answer ← diskRead sector (single fs.win)
        modify fun fs => { fs with win := answer.2 0 }
        if answer.1 then
          modify fun fs => { fs with winsect := sector }
          return true
        else return false
      else return true
  else return true

/-- `disk_ioctl`. -/
def diskIoctl : Volume Bool := pure true

/-- `sync`: whether it gives `FR_OK`. -/
def sync : Volume Bool := do
  modify fun fs => { fs with winflag := true }
  orReturn (moveWindow 0) false diskIoctl

end BbbEth.FatFs
