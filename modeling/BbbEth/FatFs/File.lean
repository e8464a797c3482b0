import BbbEth.FatFs.Chain

/-!
# Open files

`f_read`, `f_write`, `f_lseek`, `f_sync` and `f_close` on a file object.  Whole sectors go between
the card and the buffer of the caller, and the ends of a transfer go through the buffer of the
file object, which is written back when the next sector is wanted.
-/

namespace BbbEth.FatFs

open BbbEth.Console BbbEth.Stateful

/-! ## The file object -/

/-- The bits of `FIL.flag` that are read after `f_open`. -/
structure Flag where
  read : Bool
  write : Bool
  written : Bool
  dirty : Bool
  error : Bool
  deriving DecidableEq, Repr

/-- `FIL`; `fs` says whether it is not null. -/
structure Fil where
  id : Nat
  flag : Flag
  sectClust : Nat
  fs : Bool
  fptr : Nat
  fsize : Nat
  orgClust : Nat
  currClust : Nat
  currSect : Nat
  dirSect : Nat
  dirPtr : Nat
  buffer : Sector

namespace Fil

variable (fp : Fil)

def setDirty (dirty : Bool) : Fil := { fp with flag := { fp.flag with dirty } }

def setWritten (written : Bool) : Fil := { fp with flag := { fp.flag with written } }

def setError : Fil := { fp with flag := { fp.flag with error := true } }

/-- `--fp->sect_clust`. -/
def countSector : Fil := { fp with sectClust := (fp.sectClust + 2 ^ 8 - 1) % 2 ^ 8 }

/-- The sector that follows the current one. -/
def nextSector : Nat := (fp.currSect + 1) % 2 ^ 32

end Fil

/-- `clust2sect`. -/
def Geometry.clust2sect (geometry : Geometry) (clust : Nat) : Nat :=
  let clust := (clust + 2 ^ 32 - 2) % 2 ^ 32
  if (geometry.maxClust + 2 ^ 32 - 2) % 2 ^ 32 ≤ clust then 0
  else (clust * geometry.sectsClust + geometry.database) % 2 ^ 32

/-- `validate`; `disk_status` is always 0. -/
def validate (fp : Fil) : Volume FResult := do
  let fs ← get
  if fp.fs = false ∨ fs.id ≠ fp.id then return .invalidObject else return .ok

/-- Write back the buffer of a file object, if it is needed. -/
def flushBuffer (fp : Fil) : Volume (Bool × Fil) := do
  if fp.flag.dirty then
    let written ← diskWrite fp.currSect 1 (single fp.buffer)
    return (written, if written then fp.setDirty false else fp)
  else return (true, fp)

/-! ## `f_read` -/

/-- A transfer: the file object, the buffer of the caller, and the bytes that are done and left. -/
structure Transfer where
  fp : Fil
  buff : Nat → Byte
  done : Nat
  left : Nat

namespace Transfer

variable (transfer : Transfer)

/-- The counters after some bytes. -/
def advance (count : Nat) : Transfer :=
  { transfer with
    fp := { transfer.fp with fptr := (transfer.fp.fptr + count) % 2 ^ 32 }
    done := transfer.done + count
    left := transfer.left - count }

/-- The rest of the buffer of the caller as sectors. -/
def sectors : Nat → Sector := fun index offset =>
  transfer.buff (transfer.done + sSiz * index + offset)

/-- Sectors that arrive in the buffer of the caller. -/
def paste (count : Nat) (sectors : Nat → Sector) : Transfer :=
  { transfer with buff := fun index =>
      if transfer.done ≤ index ∧ index < transfer.done + sSiz * count then
        (sectors ((index - transfer.done) / sSiz)).get (index - transfer.done)
      else transfer.buff index }

/-- The whole sectors that can be moved at once. -/
def whole : Nat :=
  if transfer.fp.sectClust < transfer.left / sSiz % 2 ^ 8 then transfer.fp.sectClust
  else transfer.left / sSiz % 2 ^ 8

/-- The file object after whole sectors. -/
def skip (count : Nat) : Transfer :=
  { transfer with fp := { transfer.fp with
      sectClust := (transfer.fp.sectClust + 2 ^ 8 - (count - 1)) % 2 ^ 8
      currSect := (transfer.fp.currSect + (count - 1)) % 2 ^ 32 } }

/-- The bytes that go through the buffer of the file object. -/
def part : Nat :=
  if transfer.left < sSiz - transfer.fp.fptr % sSiz then transfer.left
  else sSiz - transfer.fp.fptr % sSiz

/-- Copy bytes from the buffer of the file object. -/
def copyOut : Transfer :=
  { transfer with buff := fun index =>
      if transfer.done ≤ index ∧ index < transfer.done + transfer.part then
        transfer.fp.buffer.get (transfer.fp.fptr % sSiz + (index - transfer.done))
      else transfer.buff index }

/-- Copy bytes into the buffer of the file object. -/
def copyIn : Transfer :=
  { transfer with fp := { transfer.fp with
      buffer := fun offset =>
        if transfer.fp.fptr % sSiz ≤ offset ∧ offset < transfer.fp.fptr % sSiz + transfer.part then
          transfer.buff (transfer.done + (offset - transfer.fp.fptr % sSiz))
        else transfer.fp.buffer offset } }

end Transfer

/-- What a round of a transfer gives: the transfer to go on with, or the end of it. -/
abbrev Round := Volume (Transfer ⊕ (FResult × Transfer))

/-- `fr_error` and `fw_error`. -/
def Transfer.abort (transfer : Transfer) : Round :=
  return .inr (.rwError, { transfer with fp := transfer.fp.setError })

/-- The next sector of a file that is read, or none. -/
def readNext (fp : Fil) : Volume (Option Nat × Fil) := do
  let fs ← get
  let fp := fp.countSector
  if fp.sectClust ≠ 0 then return (some fp.nextSector, fp)
  else
    let clust ← if fp.fptr = 0 then pure fp.orgClust else getCluster fp.currClust
    if clust < 2 ∨ fs.maxClust ≤ clust then return (none, fp)
    else return (some (fs.clust2sect clust),
      { fp with currClust := clust, sectClust := fs.sectsClust })

/-- Read at the start of a sector. -/
def readSector (transfer : Transfer) (sect : Nat) : Round := do
  if transfer.left / sSiz % 2 ^ 8 ≠ 0 then
    let answer ← diskRead sect transfer.sectors
    let pasted := transfer.paste transfer.whole answer.2
    if answer.1 then
      return .inl ((pasted.skip transfer.whole).advance (transfer.whole * sSiz))
    else pasted.abort
  else
    let answer ← diskRead sect (single transfer.fp.buffer)
    let loaded := { transfer with fp := { transfer.fp with buffer := answer.2 0 } }
    if answer.1 then return .inl (loaded.copyOut.advance loaded.part)
    else loaded.abort

/-- A round of `f_read`. -/
def readRound (transfer : Transfer) : Round := do
  if transfer.left = 0 then return .inr (.ok, transfer)
  else if transfer.fp.fptr % sSiz = 0 then
    let (next, fp) ← readNext transfer.fp
    next.elim ({ transfer with fp } : Transfer).abort fun sect => do
      let (flushed, fp) ← flushBuffer fp
      if flushed then readSector { transfer with fp := { fp with currSect := sect } } sect
      else ({ transfer with fp } : Transfer).abort
  else return .inl (transfer.copyOut.advance transfer.part)

/-- `f_read`: the result, and the file object, the buffer and the number of bytes. -/
def fRead (fp : Fil) (buff : Nat → Byte) (btr : Nat) : Volume (FResult × Transfer) := do
  let start : Transfer := ⟨fp, buff, 0, 0⟩
  let res ← validate fp
  if res ≠ .ok then return (res, start)
  else if fp.flag.error then return (.rwError, start)
  else if !fp.flag.read then return (.denied, start)
  else
    let remain := (fp.fsize + 2 ^ 32 - fp.fptr) % 2 ^ 32
    let btr := if remain < btr then remain % 2 ^ 16 else btr
    loop readRound (btr + 1) { start with left := btr }

/-! ## `f_write` -/

/-- The next sector of a file that is written. -/
inductive Next where
  | sector (number : Nat)
  | full
  | error

/-- The cluster that a file is written to next; the first one of an empty file is recorded. -/
def writeCluster (fp : Fil) : Volume (Nat × Fil) := do
  if fp.fptr = 0 then
    if fp.orgClust = 0 then
      let clust ← createChain 0
      return (clust, { fp with orgClust := clust })
    else return (fp.orgClust, fp)
  else
    let clust ← createChain fp.currClust
    return (clust, fp)

def writeNext (fp : Fil) : Volume (Next × Fil) := do
  let fs ← get
  let fp := fp.countSector
  if fp.sectClust ≠ 0 then return (.sector fp.nextSector, fp)
  else
    let (clust, fp) ← writeCluster fp
    if clust = 0 then return (.full, fp)
    else if clust = 1 ∨ fs.maxClust ≤ clust then return (.error, fp)
    else return (.sector (fs.clust2sect clust),
      { fp with currClust := clust, sectClust := fs.sectsClust })

/-- The end of a round that goes through the buffer. -/
def Transfer.fill (transfer : Transfer) : Transfer :=
  let copied := transfer.copyIn
  ({ copied with fp := copied.fp.setDirty true } : Transfer).advance transfer.part

/-- Write at the start of a sector. -/
def writeSector (transfer : Transfer) (sect : Nat) : Round := do
  if transfer.left / sSiz % 2 ^ 8 ≠ 0 then
    let written ← diskWrite sect transfer.whole transfer.sectors
    if written then
      return .inl ((transfer.skip transfer.whole).advance (transfer.whole * sSiz))
    else transfer.abort
  else if transfer.fp.fptr < transfer.fp.fsize then
    let answer ← diskRead sect (single transfer.fp.buffer)
    let loaded := { transfer with fp := { transfer.fp with buffer := answer.2 0 } }
    if answer.1 then return .inl loaded.fill else loaded.abort
  else return .inl transfer.fill

/-- A round of `f_write`. -/
def writeRound (transfer : Transfer) : Round := do
  if transfer.left = 0 then return .inr (.ok, transfer)
  else if transfer.fp.fptr % sSiz = 0 then
    let (next, fp) ← writeNext transfer.fp
    match next with
    | .full => return .inr (.ok, { transfer with fp })
    | .error => ({ transfer with fp } : Transfer).abort
    | .sector sect => do
        let (flushed, fp) ← flushBuffer fp
        if flushed then writeSector { transfer with fp := { fp with currSect := sect } } sect
        else ({ transfer with fp } : Transfer).abort
  else return .inl transfer.fill

/-- The end of `f_write`: update the size, and mark the file. -/
def Transfer.finish (transfer : Transfer) : Transfer :=
  { transfer with fp :=
      { transfer.fp with
        fsize := if transfer.fp.fsize < transfer.fp.fptr then transfer.fp.fptr
          else transfer.fp.fsize }.setWritten true }

/-- `f_write`: the result, and the file object and the number of bytes. -/
def fWrite (fp : Fil) (buff : Nat → Byte) (btw : Nat) : Volume (FResult × Transfer) := do
  let start : Transfer := ⟨fp, buff, 0, btw⟩
  let res ← validate fp
  if res ≠ .ok then return (res, start)
  else if fp.flag.error then return (.rwError, start)
  else if !fp.flag.write then return (.denied, start)
  else if (fp.fsize + btw) % 2 ^ 32 < fp.fsize then return (.ok, start)
  else
    let (res, transfer) ← loop writeRound (btw + 1) start
    return (res, if res = .ok then transfer.finish else transfer)

/-! ## `f_lseek` -/

/-- The loop of `f_lseek`: the file object, the cluster, and what is left of the offset. -/
structure Seek where
  fp : Fil
  clust : Nat
  ofs : Nat

/-- The loop after a cluster that the offset is behind. -/
def Seek.pass (seek : Seek) (csize clust : Nat) : Seek where
  fp := { seek.fp with currClust := seek.clust, fptr := (seek.fp.fptr + csize) % 2 ^ 32 }
  clust := clust
  ofs := seek.ofs - csize

/-- A round of the loop: the next cluster, or the cluster to stop at and whether it is no error. -/
def seekRound (csize : Nat) (seek : Seek) : Volume (Seek ⊕ (Bool × Seek)) := do
  let fs ← get
  let fp := { seek.fp with currClust := seek.clust }
  if seek.ofs ≤ csize then return .inr (true, { seek with fp })
  else
    let clust ← if fp.flag.write then createChain seek.clust else getCluster seek.clust
    if clust = 0 then return .inr (true, ⟨fp, clust, csize⟩)
    else if clust = 1 ∨ fs.maxClust ≤ clust then return .inr (false, ⟨fp, clust, seek.ofs⟩)
    else return .inl (seek.pass csize clust)

/-- The file object in the sector that the loop has found. -/
def Seek.arrive (seek : Seek) (geometry : Geometry) : Fil :=
  let csect := (seek.ofs + 2 ^ 32 - 1) % 2 ^ 32 / sSiz % 2 ^ 8
  { seek.fp with
    currSect := (geometry.clust2sect seek.clust + csect) % 2 ^ 32
    sectClust := (geometry.sectsClust + 2 ^ 8 - csect) % 2 ^ 8
    fptr := (seek.fp.fptr + seek.ofs) % 2 ^ 32 }

/-- Load the current sector, if it is needed. -/
def loadSector (fp : Fil) (ofs : Nat) : Volume (Bool × Fil) := do
  if ofs % sSiz ≠ 0 then
    let answer ← diskRead fp.currSect (single fp.buffer)
    return (answer.1, { fp with buffer := answer.2 0 })
  else return (true, fp)

/-- Follow or stretch the chain from its first cluster, and load the sector. -/
def seekFrom (fp : Fil) (clust ofs : Nat) : Volume (Bool × Fil) := do
  let fs ← get
  let (found, seek) ← loop (seekRound (fs.sectsClust * sSiz)) (ofs + 1) ⟨fp, clust, ofs⟩
  if !found then return (false, seek.fp)
  else loadSector (seek.arrive fs.toGeometry) seek.ofs

/-- The first cluster of a file; where there is none, one is created. -/
def seekStart (fp : Fil) : Volume Nat :=
  if fp.orgClust = 0 then createChain 0 else pure fp.orgClust

/-- Move to an offset from the top of the file. -/
def seekTo (fp : Fil) (ofs : Nat) : Volume (Bool × Fil) := do
  if ofs = 0 then return (true, fp)
  else
    let clust ← seekStart fp
    if fp.orgClust = 0 ∧ clust = 1 then return (false, fp)
    else
      let fp := { fp with orgClust := clust }
      if clust = 0 then return (true, fp) else seekFrom fp clust ofs

/-- The end of `f_lseek`: what is written behind its end makes the file longer. -/
def Fil.stretch (fp : Fil) : Fil :=
  if fp.flag.write = true ∧ fp.fsize < fp.fptr then
    { fp with fsize := fp.fptr }.setWritten true
  else fp

/-- `f_lseek`: the result, and the file object. -/
def fLseek (fp : Fil) (ofs : Nat) : Volume (FResult × Fil) := do
  let res ← validate fp
  if res ≠ .ok then return (res, fp)
  else if fp.flag.error then return (.rwError, fp)
  else
    let (flushed, fp) ← flushBuffer fp
    if !flushed then return (.rwError, fp.setError)
    else
      let ofs := if fp.fsize < ofs ∧ fp.flag.write = false then fp.fsize else ofs
      let (done, fp) ← seekTo { fp with fptr := 0, sectClust := 1 } ofs
      return if done then (.ok, fp.stretch) else (.rwError, fp.setError)

/-! ## `f_open` -/

namespace Sector

/-- The file size of an entry. -/
def fileSize (sector : Sector) (dir : Nat) : Nat := sector.ldDword (dir + 28)

/-- The first cluster of an entry. -/
def startClust (sector : Sector) (dir : Nat) : Nat :=
  sector.ldWord (dir + 20) <<< 16 ||| sector.ldWord (dir + 26)

end Sector

/-- The end of `f_open`: the file object of the entry in the window. -/
def Fil.assign (fp : Fil) (fs : Fatfs) (read write : Bool) (dir : Nat) : Fil :=
  { fp with
    dirSect := fs.winsect
    dirPtr := dir
    flag := { read, write, written := false, dirty := false, error := false }
    orgClust := fs.win.startClust dir
    fsize := fs.win.fileSize dir
    fptr := 0
    sectClust := 1
    fs := true
    id := fs.id }

/-! ## `f_sync` and `f_close` -/

/-- What `f_sync` writes into the directory entry. -/
def Fil.record (fp : Fil) (tim : Nat) (win : Sector) : Sector :=
  ((((win.set (fp.dirPtr + 11) (win.get (fp.dirPtr + 11) ||| 0x20)).stDword
    (fp.dirPtr + 28) fp.fsize).stWord (fp.dirPtr + 26) fp.orgClust).stWord
    (fp.dirPtr + 20) (fp.orgClust / 2 ^ 16)).stDword (fp.dirPtr + 22) tim

/-- `f_sync`, with what `get_fattime` gives. -/
def fSync (fp : Fil) (tim : Nat) : Volume (FResult × Fil) := do
  let res ← validate fp
  if res ≠ .ok then return (res, fp)
  else if !fp.flag.written then return (.ok, fp)
  else
    let (flushed, fp) ← flushBuffer fp
    if !flushed then return (.rwError, fp)
    else orReturn (moveWindow fp.dirSect) (.rwError, fp) do
      modify fun fs => { fs with win := fp.record tim fs.win }
      let fp := fp.setWritten false
      orReturn sync (.rwError, fp) (pure (.ok, fp))

/-- `f_close`. -/
def fClose (fp : Fil) (tim : Nat) : Volume (FResult × Fil) := do
  let (res, fp) ← fSync fp tim
  return (res, if res = .ok then { fp with fs := false } else fp)

end BbbEth.FatFs
