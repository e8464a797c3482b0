import BbbEth.FatFs.Window

/-!
# The entries of the FAT

`get_cluster` and `put_cluster` for the three widths of an entry.  One entry of FAT12 shares a
byte with its neighbour, and may lie across two sectors.
-/

namespace BbbEth.FatFs

open BbbEth.Console BbbEth.Stateful

/-! ## Words of a sector -/

/-- `LD_WORD`. -/
def Sector.ldWord (sector : Sector) (offset : Nat) : Nat :=
  (sector.get (offset + 1)).toNat <<< 8 ||| (sector.get offset).toNat

/-- `LD_DWORD`. -/
def Sector.ldDword (sector : Sector) (offset : Nat) : Nat :=
  (sector.get (offset + 3)).toNat <<< 24 ||| (sector.get (offset + 2)).toNat <<< 16 |||
    (sector.get (offset + 1)).toNat <<< 8 ||| (sector.get offset).toNat

/-- `ST_WORD`. -/
def Sector.stWord (sector : Sector) (offset value : Nat) : Sector :=
  (sector.set offset (.ofNat 8 value)).set (offset + 1) (.ofNat 8 (value >>> 8))

/-- `ST_DWORD`. -/
def Sector.stDword (sector : Sector) (offset value : Nat) : Sector :=
  (((sector.set offset (.ofNat 8 value)).set (offset + 1) (.ofNat 8 (value >>> 8))).set
    (offset + 2) (.ofNat 8 (value >>> 16))).set (offset + 3) (.ofNat 8 (value >>> 24))

/-! ## `get_cluster` and `put_cluster` -/

/-- `get_cluster`. -/
def getCluster (clust : Nat) : Volume Nat := do
  let fs ← get
  if 2 ≤ clust ∧ clust < fs.maxClust then
    match fs.fsType with
    | .fat12 =>
        let bc := clust % 2 ^ 16 * 3 / 2 % 2 ^ 16
        orReturn (moveWindow (fs.fatbase + bc / sSiz)) 1 do
          let low := ((← get).win.get bc).toNat
          let bc := (bc + 1) % 2 ^ 16
          orReturn (moveWindow (fs.fatbase + bc / sSiz)) 1 do
            let wc := low ||| ((← get).win.get bc).toNat <<< 8
            return if clust % 2 = 1 then wc >>> 4 else wc &&& 0xFFF
    | .fat16 =>
        orReturn (moveWindow (fs.fatbase + clust / (sSiz / 2))) 1 do
          return (← get).win.ldWord (clust % 2 ^ 16 * 2)
    | .fat32 =>
        orReturn (moveWindow (fs.fatbase + clust / (sSiz / 4))) 1 do
          return (← get).win.ldDword (clust % 2 ^ 16 * 4) &&& 0x0FFFFFFF
    | .unmounted => return 1
  else return 1

/-- A store into the window, which marks it. -/
def storeWin (update : Sector → Sector) : Volume Unit :=
  modify fun fs => { fs with win := update fs.win, winflag := true }

/-- The first byte of an entry of FAT12. -/
def lowByte (clust val : Nat) (byte : Byte) : Byte :=
  if clust % 2 = 1 then (byte &&& 0x0F#8) ||| (BitVec.ofNat 8 val <<< 4) else BitVec.ofNat 8 val

/-- The second byte of an entry of FAT12. -/
def highByte (clust val : Nat) (byte : Byte) : Byte :=
  if clust % 2 = 1 then BitVec.ofNat 8 (val >>> 4)
  else (byte &&& 0xF0#8) ||| (BitVec.ofNat 8 (val >>> 8) &&& 0x0F#8)

/-- `put_cluster`. -/
def putCluster (clust val : Nat) : Volume Bool := do
  let fs ← get
  match fs.fsType with
  | .fat12 =>
      let bc := clust % 2 ^ 16 * 3 / 2 % 2 ^ 16
      orReturn (moveWindow (fs.fatbase + bc / sSiz)) false do
        storeWin fun win => win.set bc (lowByte clust val (win.get bc))
        let bc := (bc + 1) % 2 ^ 16
        orReturn (moveWindow (fs.fatbase + bc / sSiz)) false do
          storeWin fun win => win.set bc (highByte clust val (win.get bc))
          return true
  | .fat16 =>
      orReturn (moveWindow (fs.fatbase + clust / (sSiz / 2))) false do
        storeWin fun win => win.stWord (clust % 2 ^ 16 * 2) (val % 2 ^ 16)
        return true
  | .fat32 =>
      orReturn (moveWindow (fs.fatbase + clust / (sSiz / 4))) false do
        storeWin fun win => win.stDword (clust % 2 ^ 16 * 4) val
        return true
  | .unmounted => return false

/-! ## Entries in the bytes of a FAT -/

namespace FatType

/-- Two bytes as a number. -/
def word (bytes : Nat → Byte) (offset : Nat) : Nat :=
  (bytes (offset + 1)).toNat * 2 ^ 8 + (bytes offset).toNat

theorem word_lt (bytes : Nat → Byte) (offset : Nat) : word bytes offset < 2 ^ 16 := by
  have := (bytes offset).isLt
  have := (bytes (offset + 1)).isLt
  unfold word
  omega

/-- The entry of a cluster, with all of its bits. -/
def decode (fsType : FatType) (bytes : Nat → Byte) (clust : Nat) : Nat :=
  match fsType with
  | .fat12 =>
      if clust % 2 = 1 then word bytes (clust * 3 / 2) / 2 ^ 4
      else word bytes (clust * 3 / 2) % 2 ^ 12
  | .fat16 => word bytes (clust * 2)
  | .fat32 => word bytes (clust * 4 + 2) * 2 ^ 16 + word bytes (clust * 4)
  | .unmounted => 0

/-- The bytes with another entry. -/
def encode (fsType : FatType) (clust val : Nat) (bytes : Nat → Byte) : Nat → Byte :=
  match fsType with
  | .fat12 => fun offset =>
      if offset = clust * 3 / 2 then lowByte clust val (bytes offset)
      else if offset = clust * 3 / 2 + 1 then highByte clust val (bytes offset)
      else bytes offset
  | .fat16 => fun offset =>
      if offset / 2 = clust then .ofNat 8 (val >>> (8 * (offset % 2))) else bytes offset
  | .fat32 => fun offset =>
      if offset / 4 = clust then .ofNat 8 (val >>> (8 * (offset % 4))) else bytes offset
  | .unmounted => bytes

/-- The bits that are kept of a value. -/
def width : FatType → Nat
  | .fat12 => 12
  | .fat16 => 16
  | .fat32 => 32
  | .unmounted => 0

end FatType

section Bytes

variable {clust val other : Nat} {byte : Byte} {bytes : Nat → Byte} {fsType : FatType}

theorem toNat_nibbles (low : byte.toNat < 2 ^ 4) (value : Byte) :
    (byte ||| value <<< 4).toNat = value.toNat % 2 ^ 4 * 2 ^ 4 + byte.toNat := by
  rw [BitVec.toNat_or, BitVec.toNat_shiftLeft, Nat.shiftLeft_eq, Nat.or_comm]
  have shifted : value.toNat * 2 ^ 4 % 2 ^ 8 = 2 ^ 4 * (value.toNat % 2 ^ 4) := by omega
  rw [shifted, ← Nat.two_pow_add_eq_or_of_lt low, Nat.mul_comm]

theorem toNat_lowNibble : (byte &&& 0x0F#8).toNat = byte.toNat % 2 ^ 4 := by
  rw [BitVec.toNat_and]
  exact Nat.and_two_pow_sub_one_eq_mod byte.toNat 4

theorem toNat_highNibble : (byte &&& 0xF0#8).toNat = byte.toNat / 2 ^ 4 * 2 ^ 4 := by
  revert byte
  decide

theorem lowByte_odd (odd : clust % 2 = 1) :
    (lowByte clust val byte).toNat = val % 2 ^ 4 * 2 ^ 4 + byte.toNat % 2 ^ 4 := by
  have low : (byte &&& 0x0F#8).toNat < 2 ^ 4 := by
    rw [toNat_lowNibble]
    omega
  rw [lowByte, if_pos odd, toNat_nibbles low, toNat_lowNibble, BitVec.toNat_ofNat]
  omega

theorem lowByte_even (even : clust % 2 ≠ 1) : (lowByte clust val byte).toNat = val % 2 ^ 8 := by
  rw [lowByte, if_neg even, BitVec.toNat_ofNat]

theorem highByte_odd (odd : clust % 2 = 1) :
    (highByte clust val byte).toNat = val / 2 ^ 4 % 2 ^ 8 := by
  rw [highByte, if_pos odd, BitVec.toNat_ofNat, Nat.shiftRight_eq_div_pow]

theorem highByte_even (even : clust % 2 ≠ 1) :
    (highByte clust val byte).toNat = byte.toNat / 2 ^ 4 * 2 ^ 4 + val / 2 ^ 8 % 2 ^ 4 := by
  have bound := byte.isLt
  have low : (BitVec.ofNat 8 (val >>> 8) &&& 0x0F#8).toNat < 2 ^ 4 := by
    rw [toNat_lowNibble]
    omega
  rw [highByte, if_neg even, BitVec.toNat_or, toNat_highNibble, Nat.mul_comm,
    ← Nat.two_pow_add_eq_or_of_lt low, toNat_lowNibble, BitVec.toNat_ofNat,
    Nat.shiftRight_eq_div_pow]
  omega

/-! ## Encoding and decoding -/

namespace FatType

theorem twelve_even (clust : Nat) : 2 * clust * 3 / 2 = 3 * clust := by omega

theorem twelve_odd (clust : Nat) : (2 * clust + 1) * 3 / 2 = 3 * clust + 1 := by omega

theorem decode_even (index : Nat) : FatType.fat12.decode bytes (2 * index) =
    ((bytes (3 * index + 1)).toNat * 2 ^ 8 + (bytes (3 * index)).toNat) % 2 ^ 12 := by
  rw [decode, if_neg (by omega), twelve_even, word]

theorem decode_odd (index : Nat) : FatType.fat12.decode bytes (2 * index + 1) =
    ((bytes (3 * index + 2)).toNat * 2 ^ 8 + (bytes (3 * index + 1)).toNat) / 2 ^ 4 := by
  rw [decode, if_pos (by omega), twelve_odd, word]

theorem encode_even (index : Nat) : FatType.fat12.encode (2 * index) val bytes = fun offset =>
    if offset = 3 * index then lowByte (2 * index) val (bytes offset)
    else if offset = 3 * index + 1 then highByte (2 * index) val (bytes offset)
    else bytes offset := by
  rw [encode, twelve_even]

theorem encode_odd (index : Nat) : FatType.fat12.encode (2 * index + 1) val bytes = fun offset =>
    if offset = 3 * index + 1 then lowByte (2 * index + 1) val (bytes offset)
    else if offset = 3 * index + 2 then highByte (2 * index + 1) val (bytes offset)
    else bytes offset := by
  rw [encode, twelve_odd]

/-- Two neighbours in FAT12 share a byte, of which each keeps its half. -/
theorem decode_encode_fat12 : FatType.fat12.decode (FatType.fat12.encode clust val bytes) other =
    if other = clust then val % 2 ^ 12 else FatType.fat12.decode bytes other := by
  have parity : ∀ number, ∃ index, number = 2 * index ∨ number = 2 * index + 1 :=
    fun number => ⟨number / 2, by omega⟩
  rcases parity clust with ⟨k, rfl | rfl⟩ <;> rcases parity other with ⟨j, rfl | rfl⟩
  · rw [decode_even, decode_even, encode_even]
    by_cases same : j = k
    · subst same
      simp only [if_true, Nat.succ_ne_self, if_false]
      rw [highByte_even (by omega), lowByte_even (by omega)]
      omega
    · have apart : 3 * j ≠ 3 * k ∧ 3 * j ≠ 3 * k + 1 ∧ 3 * j + 1 ≠ 3 * k ∧ 3 * j + 1 ≠ 3 * k + 1 := by
        omega
      simp only [apart, if_false]
      rw [if_neg (by omega)]
  · rw [decode_odd, decode_odd, encode_even, if_neg (by omega)]
    by_cases same : j = k
    · subst same
      have apart : 3 * j + 2 ≠ 3 * j ∧ 3 * j + 2 ≠ 3 * j + 1 ∧ 3 * j + 1 ≠ 3 * j := by omega
      simp only [apart, if_false, if_true]
      rw [highByte_even (by omega)]
      omega
    · have apart : 3 * j + 2 ≠ 3 * k ∧ 3 * j + 2 ≠ 3 * k + 1 ∧ 3 * j + 1 ≠ 3 * k ∧
          3 * j + 1 ≠ 3 * k + 1 := by omega
      simp only [apart, if_false]
  · rw [decode_even, decode_even, encode_odd, if_neg (by omega)]
    by_cases same : j = k
    · subst same
      have apart : 3 * j ≠ 3 * j + 1 ∧ 3 * j ≠ 3 * j + 2 := by omega
      simp only [apart, if_false, if_true]
      rw [lowByte_odd (by omega)]
      omega
    · have apart : 3 * j ≠ 3 * k + 1 ∧ 3 * j ≠ 3 * k + 2 ∧ 3 * j + 1 ≠ 3 * k + 1 ∧
          3 * j + 1 ≠ 3 * k + 2 := by omega
      simp only [apart, if_false]
  · rw [decode_odd, decode_odd, encode_odd]
    by_cases same : j = k
    · subst same
      have apart : 3 * j + 2 ≠ 3 * j + 1 := by omega
      simp only [apart, if_true, if_false]
      rw [highByte_odd (by omega), lowByte_odd (by omega)]
      omega
    · have apart : 3 * j + 2 ≠ 3 * k + 1 ∧ 3 * j + 2 ≠ 3 * k + 2 ∧ 3 * j + 1 ≠ 3 * k + 1 ∧
          3 * j + 1 ≠ 3 * k + 2 := by omega
      simp only [apart, if_false]
      rw [if_neg (by omega)]

/-- A value that is put into an entry is what is found there, cut to the width of the entry, and
the other entries are as they were. -/
theorem decode_encode (mounted : fsType ≠ .unmounted) :
    fsType.decode (fsType.encode clust val bytes) other =
      if other = clust then val % 2 ^ fsType.width else fsType.decode bytes other := by
  cases fsType with
  | fat12 => exact decode_encode_fat12
  | fat16 =>
      have low : other * 2 / 2 = other ∧ other * 2 % 2 = 0 ∧ (other * 2 + 1) / 2 = other ∧
        (other * 2 + 1) % 2 = 1 := by omega
      simp only [decode, encode, word, low]
      split
      next same =>
        subst same
        simp only [BitVec.toNat_ofNat, Nat.shiftRight_eq_div_pow, width]
        omega
      next => rfl
  | fat32 =>
      have low : other * 4 / 4 = other ∧ other * 4 % 4 = 0 ∧ (other * 4 + 1) / 4 = other ∧
        (other * 4 + 1) % 4 = 1 ∧ (other * 4 + 2) / 4 = other ∧ (other * 4 + 2) % 4 = 2 ∧
        (other * 4 + 2 + 1) / 4 = other ∧ (other * 4 + 2 + 1) % 4 = 3 := by omega
      simp only [decode, encode, word, low]
      split
      next same =>
        subst same
        simp only [BitVec.toNat_ofNat, Nat.shiftRight_eq_div_pow, width]
        omega
      next => rfl
  | unmounted => exact absurd rfl mounted

end FatType

end Bytes

/-! ## Entries under the window -/

namespace Sector

variable {sector : Sector} {offset other : Nat}

theorem get_congr (same : offset % sSiz = other % sSiz) : sector.get offset = sector.get other := by
  unfold get
  rw [index_eq_iff.mpr same]

theorem set_congr {value : Byte} (same : offset % sSiz = other % sSiz) :
    sector.set offset value = sector.set other value := by
  unfold set
  rw [index_eq_iff.mpr same]

theorem ldWord_eq : sector.ldWord offset = FatType.word sector.get offset := by
  unfold ldWord FatType.word
  rw [← Nat.shiftLeft_add_eq_or_of_lt (sector.get offset).isLt, Nat.shiftLeft_eq]

theorem ldDword_eq : sector.ldDword offset =
    FatType.word sector.get (offset + 2) * 2 ^ 16 + FatType.word sector.get offset := by
  have := (sector.get (offset + 2)).isLt
  have := (sector.get (offset + 1)).isLt
  have := (sector.get offset).isLt
  have shift : ∀ high low bits : Nat, low < 2 ^ bits → high <<< bits ||| low = high * 2 ^ bits + low :=
    fun high low bits small => by
      rw [← Nat.shiftLeft_add_eq_or_of_lt small, Nat.shiftLeft_eq]
  unfold ldDword FatType.word
  rw [Nat.or_assoc, Nat.or_assoc, shift _ _ 8 (by omega)]
  have split : ((sector.get (offset + 3)).toNat <<< 24 |||
      ((sector.get (offset + 2)).toNat <<< 16 |||
        ((sector.get (offset + 1)).toNat * 2 ^ 8 + (sector.get offset).toNat))) =
      ((sector.get (offset + 3)).toNat * 2 ^ 8 + (sector.get (offset + 2)).toNat) * 2 ^ 16 +
        ((sector.get (offset + 1)).toNat * 2 ^ 8 + (sector.get offset).toNat) := by
    rw [shift _ _ 16 (by omega), shift _ _ 24 (by omega)]
    omega
  exact split

end Sector

namespace Fatfs

/-- A byte of the FAT. -/
def fatByte (fs : Fatfs) (offset : Nat) : Byte :=
  (fs.view (fs.fatbase + offset / sSiz)).get offset

/-- The entry of a cluster, with all of its bits. -/
def raw (fs : Fatfs) (clust : Nat) : Nat := fs.fsType.decode fs.fatByte clust

/-- The entry of a cluster. -/
def entry (fs : Fatfs) (clust : Nat) : Nat := fs.raw clust % fs.fsType.modulus

/-- Nothing but the FAT is another. -/
structure Rest (before after : Fatfs) : Prop where
  sound : after.Sound
  geometry : after.toGeometry = before.toGeometry
  view : ∀ number, before.copiesEnd ≤ number → after.view number = before.view number
  boot : ∀ number < before.fatbase, after.card.data number = before.card.data number
  later : before.card.Later after.card
  mirrored : before.Mirrored → after.Mirrored ∨ before.card.Failed after.card
  near : after.winsect = before.winsect ∨ after.winsect < before.copiesEnd

/-- The FAT has these bytes, and the rest is the same. -/
structure Stored (bytes : Nat → Byte) (before after : Fatfs) : Prop extends Rest before after where
  lastClust : after.lastClust = before.lastClust
  freeClust : after.freeClust = before.freeClust
  fat : ∀ offset < sSiz * before.sectsFat, after.fatByte offset = bytes offset

variable {fs before middle after : Fatfs} {bytes : Nat → Byte} {offset clust number : Nat}

theorem own_fat (inside : offset < sSiz * fs.sectsFat) :
    fs.Own (fs.fatbase + offset / sSiz) := by
  have := Nat.div_lt_of_lt_mul inside
  refine ⟨Nat.le_add_right _ _, .inl ?_⟩
  unfold Geometry.fatEnd
  omega

theorem own_behind (behind : fs.copiesEnd ≤ number) : fs.Own number := by
  refine ⟨?_, .inr behind⟩
  unfold Geometry.copiesEnd at behind
  omega

theorem Same.fatByte (same : Same before after) (inside : offset < sSiz * before.sectsFat) :
    after.fatByte offset = before.fatByte offset := by
  unfold Fatfs.fatByte
  rw [same.geometry, same.view _ (own_fat inside)]

theorem Still.rest (same : Still before after) (sound : after.Sound) : Rest before after where
  sound := sound
  geometry := same.geometry
  view _ behind := same.view _ (own_behind behind)
  boot := same.boot
  later := same.later
  mirrored := same.mirrored
  near := same.near

theorem Still.stored (same : Still before after) (sound : after.Sound) :
    Stored before.fatByte before after where
  toRest := same.rest sound
  lastClust := same.lastClust
  freeClust := same.freeClust
  fat _ inside := same.fatByte inside

/-- A byte of the FAT in the window. -/
theorem fatByte_here (here : fs.winsect = fs.fatbase + offset / sSiz) :
    fs.fatByte offset = fs.win.get offset := by
  rw [fatByte, view_winsect here]

/-- A store into the window is a store into the FAT. -/
theorem fatByte_store {value : Byte} (here : fs.winsect = fs.fatbase + offset / sSiz) :
    ({ fs with win := fs.win.set offset value, winflag := true } : Fatfs).fatByte =
      Function.update fs.fatByte offset value := by
  let stored : Fatfs := { fs with win := fs.win.set offset value, winflag := true }
  change stored.fatByte = _
  funext other
  by_cases same : other = offset
  · subst same
    have place : stored.winsect = stored.fatbase + other / sSiz := here
    rw [Function.update_self, fatByte_here place]
    exact Sector.get_set_self
  · rw [Function.update_of_ne same]
    by_cases sector : other / sSiz = offset / sSiz
    · have place : fs.winsect = fs.fatbase + other / sSiz := by rw [here, sector]
      have storedPlace : stored.winsect = stored.fatbase + other / sSiz := place
      rw [fatByte_here place, fatByte_here storedPlace]
      refine Sector.get_set_of_ne fun residue => same ?_
      rw [← Nat.div_add_mod other sSiz, sector, ← residue, Nat.div_add_mod]
    · have place : fs.winsect ≠ fs.fatbase + other / sSiz := by omega
      have storedPlace : stored.winsect ≠ stored.fatbase + other / sSiz := place
      unfold Fatfs.fatByte
      rw [view_of_ne place, view_of_ne storedPlace]

theorem Rest.trans (first : Rest before middle) (second : Rest middle after) :
    Rest before after where
  sound := second.sound
  geometry := second.geometry.trans first.geometry
  view number behind := (second.view number (by rw [first.geometry]; exact behind)).trans
    (first.view number behind)
  boot number early := (second.boot number (by rw [first.geometry]; exact early)).trans
    (first.boot number early)
  later := first.later.trans second.later
  mirrored mirrored := by
    rcases first.mirrored mirrored with middle | failed
    · exact (second.mirrored middle).imp_right (.after first.later)
    · exact .inr (failed.before second.later)
  near := by
    have near := second.near
    rw [first.geometry] at near
    rcases near with stays | inFat
    · rw [stays]
      exact first.near
    · exact .inr inFat

/-- What the window shows is what the FAT has. -/
theorem Stored.same (first : Stored bytes before middle) (same : Still middle after)
    (sound : after.Sound) : Stored bytes before after where
  toRest := first.toRest.trans (same.rest sound)
  lastClust := same.lastClust.trans first.lastClust
  freeClust := same.freeClust.trans first.freeClust
  fat offset inside := by
    rw [same.fatByte (by rw [first.geometry]; exact inside), first.fat offset inside]

/-- A store into the window at a byte of the FAT. -/
theorem Stored.store (stored : Stored bytes before middle)
    (inside : offset < sSiz * before.sectsFat)
    (here : middle.winsect = before.fatbase + offset / sSiz) (value : Byte) :
    Stored (Function.update bytes offset value) before
      { middle with win := middle.win.set offset value, winflag := true } := by
  have place : middle.winsect = middle.fatbase + offset / sSiz := by rw [stored.geometry, here]
  have own : middle.Own middle.winsect := by
    rw [place]
    exact own_fat (by rw [stored.geometry]; exact inside)
  have positive := own.pos stored.sound.geometry
  refine ⟨⟨⟨stored.sound.geometry, .inr own, fun _ => positive, fun clean => by cases clean⟩,
    stored.geometry, fun number behind => ?_, stored.boot, stored.later, stored.mirrored, stored.near⟩,
    stored.lastClust, stored.freeClust, fun other otherInside => ?_⟩
  · rw [← stored.view number behind]
    have elsewhere : middle.winsect ≠ number := by
      have := Nat.div_lt_of_lt_mul inside
      have ends := (stored.geometry ▸ stored.sound.geometry : before.WellFormed).fatEnd_le
      unfold Geometry.fatEnd at ends
      omega
    rw [view_of_ne elsewhere]
    exact view_of_ne elsewhere
  · rw [fatByte_store place]
    by_cases same : other = offset
    · rw [same, Function.update_self, Function.update_self]
    · rw [Function.update_of_ne same, Function.update_of_ne same, stored.fat other otherInside]

end Fatfs

section Functions

variable {fs after : Fatfs} {clust val offset other sector limit : Nat} {fsType : FatType}

theorem FatType.offset_le (below : clust < limit) :
    fsType.offset clust ≤ fsType.offset (limit - 1) := by
  cases fsType <;> simp only [FatType.offset] <;> omega

/-- The bytes of an entry are within the first FAT. -/
theorem Geometry.WellFormed.inside (wellFormed : fs.WellFormed) (below : clust < fs.maxClust)
    {index : Nat} (small : index < fs.fsType.size) :
    fs.fsType.offset clust + index < sSiz * fs.sectsFat := by
  have := wellFormed.reach
  have := @FatType.offset_le clust fs.maxClust fs.fsType below
  omega

theorem meets_storeWin_bind {α : Type} {update : Sector → Sector} {rest : Unit → Volume α}
    {post : α → Fatfs → Prop} : Meets (storeWin update >>= rest) fs post ↔
      Meets (rest ()) { fs with win := update fs.win, winflag := true } post := meets_modify_bind

theorem Fatfs.Stored.own {bytes : Nat → Byte} (stored : Fatfs.Stored bytes fs after) {number : Nat} :
    after.Own number ↔ fs.Own number := by
  rw [stored.geometry]

theorem Fatfs.Moved.place (moved : Fatfs.Moved sector fs after) (wellFormed : fs.WellFormed)
    (inside : offset < sSiz * fs.sectsFat) (place : sector = fs.fatbase + offset / sSiz) :
    after.winsect = fs.fatbase + offset / sSiz :=
  (moved.here (place ▸ (Fatfs.own_fat inside).pos wellFormed)).trans place

/-- To move the window within the FAT. -/
theorem Fatfs.Moved.inFat (moved : Fatfs.Moved sector fs after) (wellFormed : fs.WellFormed)
    (inside : offset < sSiz * fs.sectsFat) (place : sector = fs.fatbase + offset / sSiz) :
    fs.Still after := by
  refine moved.still ?_
  have ends := wellFormed.fatEnd_le
  have := Nat.div_lt_of_lt_mul inside
  unfold Geometry.fatEnd at ends
  omega

/-- A byte of the FAT, read from the window. -/
theorem Fatfs.Stored.get {bytes : Nat → Byte} (stored : Fatfs.Stored bytes fs after)
    (inside : offset < sSiz * fs.sectsFat) (here : after.winsect = fs.fatbase + offset / sSiz)
    (residue : other % sSiz = offset % sSiz) : after.win.get other = bytes offset := by
  have place : after.winsect = after.fatbase + offset / sSiz := by rw [here, stored.geometry]
  rw [← stored.fat offset inside, Fatfs.fatByte_here place, Sector.get_congr residue]

/-- A byte of the FAT, read from the window that was moved to it. -/
theorem Fatfs.Moved.get (moved : Fatfs.Moved sector fs after) (wellFormed : fs.WellFormed)
    (inside : offset < sSiz * fs.sectsFat) (place : sector = fs.fatbase + offset / sSiz)
    (residue : other % sSiz = offset % sSiz) : after.win.get other = fs.fatByte offset :=
  ((moved.inFat wellFormed inside place).stored moved.sound).get inside
    (moved.place wellFormed inside place) residue

/-- What `get_cluster` makes of two bytes of FAT12. -/
theorem fat12_entry {bytes : Nat → Byte} :
    (if clust % 2 = 1 then
        ((bytes (clust * 3 / 2)).toNat ||| (bytes (clust * 3 / 2 + 1)).toNat <<< 8) >>> 4
      else ((bytes (clust * 3 / 2)).toNat ||| (bytes (clust * 3 / 2 + 1)).toNat <<< 8) &&& 0xFFF) =
      FatType.fat12.decode bytes clust % FatType.fat12.modulus := by
  have low := (bytes (clust * 3 / 2)).isLt
  have high := (bytes (clust * 3 / 2 + 1)).isLt
  have joined : (bytes (clust * 3 / 2)).toNat ||| (bytes (clust * 3 / 2 + 1)).toNat <<< 8 =
      FatType.word bytes (clust * 3 / 2) := by
    rw [Nat.or_comm, ← Nat.shiftLeft_add_eq_or_of_lt low, Nat.shiftLeft_eq, FatType.word]
  rw [joined, Nat.shiftRight_eq_div_pow, Nat.and_two_pow_sub_one_eq_mod _ 12, FatType.decode,
    FatType.modulus]
  unfold FatType.word
  split <;> omega

/-- `get_cluster` gives the entry of a cluster, or 1 when a call of the card has failed. -/
theorem getCluster_meets (sound : fs.Sound) (least : 2 ≤ clust) (below : clust < fs.maxClust) :
    Meets (getCluster clust) fs fun value after =>
      (value = fs.entry clust ∧ fs.Still after ∧ after.Sound) ∨
        (value = 1 ∧ fs.card.Failed after.card) := by
  have wellFormed := sound.geometry
  have distinct := wellFormed.distinct
  have inside : ∀ index < fs.fsType.size, fs.fsType.offset clust + index < sSiz * fs.sectsFat :=
    fun index small => wellFormed.inside below small
  unfold getCluster
  rw [meets_get_bind, if_pos ⟨least, below⟩]
  unfold Fatfs.entry Fatfs.raw
  cases fsType : fs.fsType with
  | fat12 =>
      rw [fsType] at inside distinct
      have first := inside 0 (by decide)
      have second := inside 1 (by decide)
      simp only [FatType.offset, FatType.modulus] at first second distinct
      rw [Nat.add_zero] at first
      have low : clust % 2 ^ 16 * 3 / 2 % 2 ^ 16 = clust * 3 / 2 := by
        rw [Nat.mod_eq_of_lt (by omega : clust < 2 ^ 16), Nat.mod_eq_of_lt (by omega)]
      have high : (clust * 3 / 2 + 1) % 2 ^ 16 = clust * 3 / 2 + 1 :=
        Nat.mod_eq_of_lt (by omega)
      simp only [low, high]
      refine Meets.orReturn (moveWindow_meets sound (.inr (Fatfs.own_fat first))) ?_
        fun after failed => .inr ⟨rfl, failed⟩
      intro middle moved
      rw [meets_get_bind]
      have ownSecond : middle.Own (fs.fatbase + (clust * 3 / 2 + 1) / sSiz) :=
        moved.own.mpr (Fatfs.own_fat second)
      refine Meets.orReturn (moveWindow_meets moved.sound (.inr ownSecond)) ?_
        fun after failed => .inr ⟨rfl, .after moved.later failed⟩
      intro after movedAgain
      rw [meets_get_bind, meets_pure]
      have place : fs.fatbase + (clust * 3 / 2 + 1) / sSiz =
          middle.fatbase + (clust * 3 / 2 + 1) / sSiz := by rw [moved.geometry]
      have insideMiddle : clust * 3 / 2 + 1 < sSiz * middle.sectsFat := by
        rw [moved.geometry]
        exact second
      refine .inl ⟨?_, (moved.inFat wellFormed first rfl).trans
        (movedAgain.inFat moved.sound.geometry insideMiddle place), movedAgain.sound⟩
      rw [moved.get wellFormed first rfl rfl,
        movedAgain.get moved.sound.geometry insideMiddle place rfl, moved.toSame.fatByte second]
      exact fat12_entry
  | fat16 =>
      rw [fsType] at inside distinct
      have bytes : ∀ index < 2, clust * 2 + index < sSiz * fs.sectsFat := inside
      have place : ∀ index < 2,
          fs.fatbase + clust / (sSiz / 2) = fs.fatbase + (clust * 2 + index) / sSiz := by
        intro index small
        unfold sSiz
        omega
      have own := place 0 (by decide) ▸ Fatfs.own_fat (bytes 0 (by decide))
      refine Meets.orReturn (moveWindow_meets sound (.inr own)) ?_
        fun after failed => .inr ⟨rfl, failed⟩
      intro after moved
      rw [meets_get_bind, meets_pure]
      refine .inl ⟨?_, moved.inFat wellFormed (bytes 0 (by decide)) (place 0 (by decide)),
        moved.sound⟩
      have loaded : ∀ index < 2,
          after.win.get (clust % 2 ^ 16 * 2 + index) = fs.fatByte (clust * 2 + index) :=
        fun index small => moved.get wellFormed (bytes index small) (place index small)
          (by unfold sSiz; omega)
      rw [Sector.ldWord_eq, FatType.word, loaded 1 (by decide), ← Nat.add_zero (clust % _ * 2),
        loaded 0 (by decide)]
      exact (Nat.mod_eq_of_lt (FatType.word_lt _ _)).symm
  | fat32 =>
      rw [fsType] at inside distinct
      have bytes : ∀ index < 4, clust * 4 + index < sSiz * fs.sectsFat := inside
      have place : ∀ index < 4,
          fs.fatbase + clust / (sSiz / 4) = fs.fatbase + (clust * 4 + index) / sSiz := by
        intro index small
        unfold sSiz
        omega
      have own := place 0 (by decide) ▸ Fatfs.own_fat (bytes 0 (by decide))
      refine Meets.orReturn (moveWindow_meets sound (.inr own)) ?_
        fun after failed => .inr ⟨rfl, failed⟩
      intro after moved
      rw [meets_get_bind, meets_pure]
      refine .inl ⟨?_, moved.inFat wellFormed (bytes 0 (by decide)) (place 0 (by decide)),
        moved.sound⟩
      have loaded : ∀ index < 4,
          after.win.get (clust % 2 ^ 16 * 4 + index) = fs.fatByte (clust * 4 + index) :=
        fun index small => moved.get wellFormed (bytes index small) (place index small)
          (by unfold sSiz; omega)
      rw [Sector.ldDword_eq, FatType.word, FatType.word, Nat.add_assoc _ 2 1,
        loaded 3 (by decide), loaded 2 (by decide), loaded 1 (by decide),
        ← Nat.add_zero (clust % _ * 4), loaded 0 (by decide)]
      exact Nat.and_two_pow_sub_one_eq_mod _ 28
  | unmounted => exact absurd fsType wellFormed.mounted

/-! ## Stores of an entry -/

namespace FatType

variable {bytes : Nat → Byte}

theorem encode_fat12_eq : FatType.fat12.encode clust val bytes =
    Function.update (Function.update bytes (clust * 3 / 2)
        (lowByte clust val (bytes (clust * 3 / 2)))) (clust * 3 / 2 + 1)
      (highByte clust val (bytes (clust * 3 / 2 + 1))) := by
  funext offset
  unfold encode
  by_cases second : offset = clust * 3 / 2 + 1
  · rw [second, Function.update_self]
    simp only [Nat.succ_ne_self, if_false, if_true]
  · rw [Function.update_of_ne second]
    by_cases first : offset = clust * 3 / 2
    · rw [first, Function.update_self]
      exact if_pos rfl
    · rw [Function.update_of_ne first]
      exact (if_neg first).trans (if_neg second)

theorem encode_fat16_eq : FatType.fat16.encode clust val bytes =
    Function.update (Function.update bytes (clust * 2) (.ofNat 8 (val % 2 ^ 16))) (clust * 2 + 1)
      (.ofNat 8 ((val % 2 ^ 16) >>> 8)) := by
  have low : BitVec.ofNat 8 (val % 2 ^ 16) = .ofNat 8 val := by
    apply BitVec.eq_of_toNat_eq
    rw [BitVec.toNat_ofNat, BitVec.toNat_ofNat]
    omega
  have high : BitVec.ofNat 8 ((val % 2 ^ 16) >>> 8) = .ofNat 8 (val >>> 8) := by
    apply BitVec.eq_of_toNat_eq
    rw [BitVec.toNat_ofNat, BitVec.toNat_ofNat, Nat.shiftRight_eq_div_pow,
      Nat.shiftRight_eq_div_pow]
    omega
  rw [low, high]
  have at_offset : ∀ index < 2, FatType.fat16.encode clust val bytes (clust * 2 + index) =
      .ofNat 8 (val >>> (8 * index)) := by
    intro index small
    have quotient : (clust * 2 + index) / 2 = clust := by omega
    have residue : (clust * 2 + index) % 2 = index := by omega
    simp only [encode, quotient, residue, if_true]
  funext offset
  by_cases second : offset = clust * 2 + 1
  · rw [second, Function.update_self, at_offset 1 (by decide)]
  · rw [Function.update_of_ne second]
    by_cases first : offset = clust * 2
    · rw [first, Function.update_self]
      exact at_offset 0 (by decide)
    · rw [Function.update_of_ne first]
      exact if_neg (by omega)

theorem encode_fat32_eq : FatType.fat32.encode clust val bytes =
    Function.update (Function.update (Function.update (Function.update bytes
        (clust * 4) (.ofNat 8 val)) (clust * 4 + 1) (.ofNat 8 (val >>> 8)))
        (clust * 4 + 2) (.ofNat 8 (val >>> 16))) (clust * 4 + 3) (.ofNat 8 (val >>> 24)) := by
  have at_offset : ∀ index < 4, FatType.fat32.encode clust val bytes (clust * 4 + index) =
      .ofNat 8 (val >>> (8 * index)) := by
    intro index small
    have quotient : (clust * 4 + index) / 4 = clust := by omega
    have residue : (clust * 4 + index) % 4 = index := by omega
    simp only [encode, quotient, residue, if_true]
  funext offset
  by_cases inside : offset / 4 = clust
  · have position : offset = clust * 4 + offset % 4 := by omega
    have residue : offset % 4 < 4 := Nat.mod_lt _ (by decide)
    rw [position, at_offset _ residue]
    generalize offset % 4 = index at residue
    rcases index with _ | _ | _ | _ | index
    · simp
    · simp
    · simp
    · simp
    · omega
  · rw [Function.update_of_ne (by omega), Function.update_of_ne (by omega),
      Function.update_of_ne (by omega), Function.update_of_ne (by omega)]
    exact if_neg inside

end FatType

theorem Advances.getCluster : Advances (getCluster clust) := by
  refine get_bind fun now => ?_
  split
  · split
    · exact moveWindow.orReturn (get_bind fun _ => moveWindow.orReturn (get_bind fun _ => done))
    · exact moveWindow.orReturn (get_bind fun _ => done)
    · exact moveWindow.orReturn (get_bind fun _ => done)
    · exact done
  · exact done

theorem getCluster_outside (outside : ¬ (2 ≤ clust ∧ clust < fs.maxClust)) :
    Meets (getCluster clust) fs fun value after => value = 1 ∧ after = fs := by
  unfold getCluster
  rw [meets_get_bind, if_neg outside, meets_pure]
  exact ⟨rfl, rfl⟩

/-- `put_cluster` puts a value into the entry of a cluster, or a call of the card has failed. -/
theorem putCluster_meets (sound : fs.Sound) (below : clust < fs.maxClust) :
    Meets (putCluster clust val) fs fun done after =>
      if done = true then fs.Stored (fs.fsType.encode clust val fs.fatByte) after
      else fs.card.Failed after.card := by
  have wellFormed := sound.geometry
  have distinct := wellFormed.distinct
  have inside : ∀ index < fs.fsType.size, fs.fsType.offset clust + index < sSiz * fs.sectsFat :=
    fun index small => wellFormed.inside below small
  unfold putCluster
  rw [meets_get_bind]
  cases fsType : fs.fsType with
  | fat12 =>
      rw [fsType] at inside distinct
      have first := inside 0 (by decide)
      have second := inside 1 (by decide)
      simp only [FatType.offset, FatType.modulus] at first second distinct
      rw [Nat.add_zero] at first
      have low : clust % 2 ^ 16 * 3 / 2 % 2 ^ 16 = clust * 3 / 2 := by
        rw [Nat.mod_eq_of_lt (by omega : clust < 2 ^ 16), Nat.mod_eq_of_lt (by omega)]
      have high : (clust * 3 / 2 + 1) % 2 ^ 16 = clust * 3 / 2 + 1 :=
        Nat.mod_eq_of_lt (by omega)
      simp only [low, high]
      refine Meets.orReturn (moveWindow_meets sound (.inr (Fatfs.own_fat first))) ?_
        fun after failed => failed
      intro middle moved
      rw [meets_storeWin_bind]
      have stored := ((moved.inFat wellFormed first rfl).stored moved.sound).store first
        (moved.place wellFormed first rfl) (lowByte clust val (fs.fatByte (clust * 3 / 2)))
      rw [← moved.get wellFormed first rfl rfl] at stored
      have ownSecond : fs.Own (fs.fatbase + (clust * 3 / 2 + 1) / sSiz) := Fatfs.own_fat second
      refine Meets.orReturn (moveWindow_meets stored.sound (.inr (stored.own.mpr ownSecond))) ?_
        fun after failed => .after stored.later failed
      intro after movedAgain
      rw [meets_storeWin_bind]
      refine meets_pure.mpr ((if_pos rfl).mpr ?_)
      have here := movedAgain.here (ownSecond.pos wellFormed)
      have shown := stored.same (movedAgain.inFat stored.sound.geometry
        (by rw [stored.geometry]; exact second) (by rw [stored.geometry])) movedAgain.sound
      have high := shown.get second here rfl
      rw [moved.get wellFormed first rfl rfl, Function.update_of_ne (Nat.succ_ne_self _)] at high
      rw [FatType.encode_fat12_eq, ← high, ← moved.get wellFormed first rfl rfl]
      exact shown.store second here _
  | fat16 =>
      rw [fsType] at inside distinct
      have bytes : ∀ index < 2, clust * 2 + index < sSiz * fs.sectsFat := inside
      have place : ∀ index < 2,
          fs.fatbase + clust / (sSiz / 2) = fs.fatbase + (clust * 2 + index) / sSiz := by
        intro index small
        unfold sSiz
        omega
      have residue : ∀ index < 2,
          (clust % 2 ^ 16 * 2 + index) % sSiz = (clust * 2 + index) % sSiz := by
        intro index small
        unfold sSiz
        omega
      have own := place 0 (by decide) ▸ Fatfs.own_fat (bytes 0 (by decide))
      refine Meets.orReturn (moveWindow_meets sound (.inr own)) ?_ fun after failed => failed
      intro after moved
      have here := moved.here (own.pos wellFormed)
      have shown := (moved.inFat wellFormed (bytes 0 (by decide)) (place 0 (by decide))).stored
        moved.sound
      rw [meets_storeWin_bind]
      refine meets_pure.mpr ((if_pos rfl).mpr ?_)
      have first : clust % 2 ^ 16 * 2 % sSiz = clust * 2 % sSiz := residue 0 (by decide)
      rw [FatType.encode_fat16_eq, Sector.stWord, Sector.set_congr first,
        Sector.set_congr (residue 1 (by decide))]
      exact (shown.store (bytes 0 (by decide)) (here.trans (place 0 (by decide))) _).store
        (bytes 1 (by decide)) (here.trans (place 1 (by decide))) _
  | fat32 =>
      rw [fsType] at inside distinct
      have bytes : ∀ index < 4, clust * 4 + index < sSiz * fs.sectsFat := inside
      have place : ∀ index < 4,
          fs.fatbase + clust / (sSiz / 4) = fs.fatbase + (clust * 4 + index) / sSiz := by
        intro index small
        unfold sSiz
        omega
      have residue : ∀ index < 4,
          (clust % 2 ^ 16 * 4 + index) % sSiz = (clust * 4 + index) % sSiz := by
        intro index small
        unfold sSiz
        omega
      have own := place 0 (by decide) ▸ Fatfs.own_fat (bytes 0 (by decide))
      refine Meets.orReturn (moveWindow_meets sound (.inr own)) ?_ fun after failed => failed
      intro after moved
      have here := moved.here (own.pos wellFormed)
      have shown := (moved.inFat wellFormed (bytes 0 (by decide)) (place 0 (by decide))).stored
        moved.sound
      rw [meets_storeWin_bind]
      refine meets_pure.mpr ((if_pos rfl).mpr ?_)
      have first : clust % 2 ^ 16 * 4 % sSiz = clust * 4 % sSiz := residue 0 (by decide)
      rw [FatType.encode_fat32_eq, Sector.stDword, Sector.set_congr first,
        Sector.set_congr (residue 1 (by decide)), Sector.set_congr (residue 2 (by decide)),
        Sector.set_congr (residue 3 (by decide))]
      exact (((shown.store (bytes 0 (by decide)) (here.trans (place 0 (by decide))) _).store
        (bytes 1 (by decide)) (here.trans (place 1 (by decide))) _).store
        (bytes 2 (by decide)) (here.trans (place 2 (by decide))) _).store
        (bytes 3 (by decide)) (here.trans (place 3 (by decide))) _
  | unmounted => exact absurd fsType wellFormed.mounted

end Functions

/-! ## A small volume -/

/-- The FAT of a small volume on which nothing is stored. -/
def emptyFat : Sector := fun offset =>
  if offset.val = 0 then 0xf8 else if offset.val < 3 then 0xff else 0

/-- A volume of FAT12 with four clusters. -/
def emptyVolume : Fatfs where
  id := 1
  fsType := .fat12
  drive := driveNumMmc
  nRootdir := 16
  sectsFat := 1
  nFats := 2
  sectsClust := 1
  maxClust := 6
  fatbase := 1
  dirbase := 3
  database := 4
  winsect := 0
  winflag := false
  win := .zero
  lastClust := 0
  freeClust := 0xFFFFFFFF
  card :=
    { data := fun sector => if sector = 1 ∨ sector = 2 then emptyFat else .zero
      calls := 0
      fails := fun _ => false
      junk := fun _ _ => .zero }

theorem emptyVolume_sound : emptyVolume.Sound where
  geometry := ⟨by decide, rfl, by decide, by decide, by decide, by decide, by decide, by decide,
    by decide, by decide, by decide⟩
  place := .inl rfl
  dirty marked := absurd marked Bool.false_ne_true
  clean _ loaded := absurd rfl loaded

end BbbEth.FatFs
