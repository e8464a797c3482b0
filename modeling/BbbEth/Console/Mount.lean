import BbbEth.Console.Line
import Mathlib.Tactic.IntervalCases

/-!
# Mounting a card

`con_uif.c` defines `CwdBuf` as an array, and `mmc_api.c` declares it as a pointer.  The
stores of `FATFsMount` and of `mmc0_isr` are followed to the bytes that they hit, where the
linker may have placed the objects anywhere.
-/

namespace BbbEth.Console

/-! ## Objects -/

/-- The global flags of the driver. -/
inductive Flag where
  | callbackOccured
  | xferCompFlag
  | dataTimeout
  | cmdCompFlag
  | cmdTimeout
  | errFlag
  deriving DecidableEq

/-- The objects that are stored to. -/
inductive Object where
  | cwdBuf
  | cmdBuf
  | fatDevices
  | fatFsObj
  | flag (flag : Flag)
  deriving DecidableEq

/-- Addresses of an object. -/
def Within (base : Word) (size : Nat) (address : Word) : Prop :=
  base.toNat ≤ address.toNat ∧ address.toNat < base.toNat + size

instance (base : Word) (size : Nat) (address : Word) : Decidable (Within base size address) :=
  inferInstanceAs (Decidable (_ ∧ _))

/-- The size of an entry of `fat_devices`. -/
def fatDeviceSize : Nat := 12

/-- The size of an object; `sizeof(FATFS)` depends on the cache line. -/
def Object.size (fatFsSize : Nat) : Object → Nat
  | .cwdBuf => pathBufSize
  | .cmdBuf => cmdBufSize
  | .fatDevices => 2 * fatDeviceSize
  | .fatFsObj => fatFsSize
  | .flag _ => 4

/-- Where the linker places the objects. -/
structure Layout where
  base : Object → Word
  fatFsSize : Nat
  /-- The address of `sdCard`. -/
  sdCard : Word
  fits : ∀ object, (base object).toNat + object.size fatFsSize ≤ 2 ^ 32
  apart : ∀ object other, object ≠ other →
    (base object).toNat + object.size fatFsSize ≤ (base other).toNat ∨
      (base other).toNat + other.size fatFsSize ≤ (base object).toNat

/-! ## Stores -/

/-- The bytes of the memory. -/
abbrev Bytes := Word → Byte

/-- An address and the byte that is stored at it. -/
abbrev Store := Word × Byte

/-- The memory after stores, one after the other. -/
def Bytes.apply (bytes : Bytes) (stores : List Store) : Bytes :=
  stores.foldl (fun bytes store => Function.update bytes store.1 store.2) bytes

/-- The word at an address. -/
def Bytes.word (bytes : Bytes) (address : Word) : Word :=
  bytes (address + 3) ++ bytes (address + 2) ++ bytes (address + 1) ++ bytes address

/-- The stores of `strcpy` through `d`. -/
def strcpyStores (d : Word) : List Byte → List Store
  | [] => [(d, 0)]
  | char :: rest => (d, char) :: strcpyStores (d + 1) rest

/-- The stores of a word. -/
def wordStores (address value : Word) : List Store :=
  [(address, value.extractLsb' 0 8), (address + 1, value.extractLsb' 8 8),
    (address + 2, value.extractLsb' 16 8), (address + 3, value.extractLsb' 24 8)]

/-- `memset` with zero. -/
def Bytes.clear (bytes : Bytes) (base : Word) (size : Nat) : Bytes := fun address =>
  if Within base size address then 0 else bytes address

theorem Bytes.apply_of_ne {bytes : Bytes} {stores : List Store} {address : Word}
    (other : ∀ store ∈ stores, address ≠ store.1) : bytes.apply stores address = bytes address := by
  induction stores generalizing bytes with
  | nil => rfl
  | cons store rest inductionHypothesis =>
      refine (inductionHypothesis fun later member =>
        other later (List.mem_cons_of_mem _ member)).trans ?_
      exact Function.update_of_ne (other store List.mem_cons_self) ..

theorem Bytes.apply_append {bytes : Bytes} {first second : List Store} :
    bytes.apply (first ++ second) = (bytes.apply first).apply second :=
  List.foldl_append

theorem Bytes.clear_of_not {bytes : Bytes} {base : Word} {size : Nat} {address : Word}
    (other : ¬ Within base size address) : bytes.clear base size address = bytes address :=
  if_neg other

/-! ## The code -/

/-- The memory, and whether `FatFs[0]` is `&FatFsObj`; before the first mount it is NULL. -/
structure Machine where
  bytes : Bytes
  mounted : Bool

/-- Stores that leave `FatFs` as it is. -/
def Machine.store (machine : Machine) (stores : List Store) : Machine :=
  { machine with bytes := machine.bytes.apply stores }

namespace Layout

variable (layout : Layout) (machine : Machine)

/-- `&CwdBuf[index]` in `con_uif.c`. -/
def cwdBuf (index : Nat) : Word := layout.base .cwdBuf + BitVec.ofNat 32 index

/-- The string of `con_uif.c` in `CwdBuf`. -/
def cwd : Str := ⟨pathBufSize, fun index => machine.bytes (layout.cwdBuf index)⟩

/-- `CmdBuf`. -/
def line : Str :=
  ⟨cmdBufSize, fun index => machine.bytes (layout.base .cmdBuf + BitVec.ofNat 32 index)⟩

/-- The value of `CwdBuf` in `mmc_api.c`, which declares a pointer. -/
def pointer : Word := machine.bytes.word (layout.base .cwdBuf)

/-- The stores of the two calls of `strcpy` in `FATFsMount`. -/
def mountStores : List Store :=
  strcpyStores (layout.pointer machine) [slash] ++ strcpyStores (layout.base .cmdBuf) []

/-- `f_mount` of drive 0. -/
def fMount : Machine where
  bytes :=
    let bytes :=
      if machine.mounted then machine.bytes.clear (layout.base .fatFsObj) layout.fatFsSize
      else machine.bytes
    bytes.clear (layout.base .fatFsObj) layout.fatFsSize
  mounted := true

/-- The stores to `fat_devices[0]`. -/
def deviceStores (ptr : Word) : List Store :=
  wordStores (layout.base .fatDevices) ptr ++
    wordStores (layout.base .fatDevices + 4) (layout.base .fatFsObj) ++
    wordStores (layout.base .fatDevices + 8) 0

/-- `FATFsMount` of drive 0. -/
def fatFsMount (ptr : Word) : Machine :=
  (layout.fMount (machine.store (layout.mountStores machine))).store (layout.deviceStores ptr)

/-- The part of `mmc0_isr` for a card that is inserted.  `FATFsMount` leaves an empty line, of
which `CmdLineProcess` stores the NUL. -/
def cardInserted : Machine :=
  (layout.fatFsMount machine layout.sdCard).store [(layout.base .cmdBuf, 0)]

/-- The string store of `mmc0_isr` for a card that is removed. -/
def wipeStores : List Store := [(layout.pointer machine, 0)]

def flagStores (flag : Flag) (value : Word) : List Store :=
  wordStores (layout.base (.flag flag)) value

/-- The part of `mmc0_isr` for a card that is removed, up to the calls for the controller. -/
def cardRemoved : Machine :=
  (machine.store (layout.wipeStores machine)).store
    (layout.flagStores .callbackOccured 0 ++ layout.flagStores .xferCompFlag 0 ++
      layout.flagStores .dataTimeout 0 ++ layout.flagStores .cmdCompFlag 0 ++
      layout.flagStores .cmdTimeout 0)

/-- The bits of the status register. -/
def statCmdcomp : Word := 0x1
def statTrnfcomp : Word := 0x2
def statCardins : Word := 0x40
def statCrem : Word := 0x80
def statErr : Word := 0x8000
def statCmdtimeout : Word := 0x10000
def statDatatimeout : Word := 0x100000

/-- Stores under a bit of the status. -/
def storesIf (status bit : Word) (stores : List Store) : List Store :=
  if status &&& bit ≠ 0 then stores else []

/-- The flags that `mmc0_isr` sets. -/
def signalStores (status : Word) : List Store :=
  storesIf status statCmdcomp (layout.flagStores .cmdCompFlag 1) ++
    storesIf status statErr (layout.flagStores .errFlag (status &&& 0xffff0000) ++
      storesIf status statCmdtimeout (layout.flagStores .cmdTimeout 1) ++
      storesIf status statDatatimeout (layout.flagStores .dataTimeout 1)) ++
    storesIf status statTrnfcomp (layout.flagStores .xferCompFlag 1)

/-- `mmc0_isr` behind the flags. -/
def signalled (status : Word) : Machine := machine.store (layout.signalStores status)

/-- `mmc0_isr` behind the part for a card that is inserted. -/
def inserted (status : Word) : Machine :=
  if status &&& statCardins ≠ 0 then layout.cardInserted (layout.signalled machine status)
  else layout.signalled machine status

/-- `mmc0_isr`. -/
def mmc0Isr (status : Word) : Machine :=
  if status &&& statCrem ≠ 0 then layout.cardRemoved (layout.inserted machine status)
  else layout.inserted machine status

end Layout

/-! ## What is asked of the stores -/

namespace Layout

variable (layout : Layout) (before after : Machine)

/-- `CwdBuf`, the first byte of the command buffer, the entry of `fat_devices` and the flags. -/
def Allowed (address : Word) : Prop :=
  Within (layout.base .cwdBuf) pathBufSize address ∨ address = layout.base .cmdBuf ∨
    Within (layout.base .fatDevices) fatDeviceSize address ∨
    ∃ flag, Within (layout.base (.flag flag)) 4 address

/-- The console starts in the root directory with an empty line. -/
structure Reset : Prop where
  cwd : Holds (layout.cwd after) [slash]
  line : Holds (layout.line after) []
  frame : ∀ store ∈ layout.mountStores before, layout.Allowed store.1

/-- The console has no directory. -/
structure Wiped : Prop where
  cwd : Holds (layout.cwd after) []
  frame : ∀ store ∈ layout.wipeStores before, layout.Allowed store.1

/-- The first bytes of the array are a pointer to an allowed object: to the array itself, or
to another place while the array holds `/` already. -/
def MountSafe (machine : Machine) : Prop :=
  layout.Allowed (layout.pointer machine) ∧ layout.Allowed (layout.pointer machine + 1) ∧
    (layout.pointer machine = layout.base .cwdBuf ∨
      Holds (layout.cwd machine) [slash] ∧ layout.pointer machine ≠ layout.base .cwdBuf + 1 ∧
        layout.pointer machine + 1 ≠ layout.base .cwdBuf)

/-- The first bytes of the array are a pointer to an allowed object: to the array itself, or
to another place while the array is empty already. -/
def RemoveSafe (machine : Machine) : Prop :=
  layout.Allowed (layout.pointer machine) ∧
    (layout.pointer machine = layout.base .cwdBuf ∨ Holds (layout.cwd machine) [])

end Layout

/-! ## Bytes that are not hit -/

section Apart

variable {layout : Layout} {machine : Machine} {object other : Object} {address : Word}

namespace Layout

/-- An address of one object is not an address of another one. -/
theorem not_within (different : object ≠ other)
    (inside : Within (layout.base object) (object.size layout.fatFsSize) address) :
    ¬ Within (layout.base other) (other.size layout.fatFsSize) address := by
  rintro ⟨lower, upper⟩
  rcases inside with ⟨lower', upper'⟩
  rcases layout.apart object other different with before | behind
  · omega
  · omega

theorem within_base_add {index : Nat} (inside : index < object.size layout.fatFsSize) :
    Within (layout.base object) (object.size layout.fatFsSize)
      (layout.base object + BitVec.ofNat 32 index) := by
  have fits := layout.fits object
  have exact : (layout.base object + BitVec.ofNat 32 index).toNat =
      (layout.base object).toNat + index := by
    rw [BitVec.toNat_add, BitVec.toNat_ofNat, Nat.mod_eq_of_lt (a := index) (by omega)]
    exact Nat.mod_eq_of_lt (by omega)
  unfold Within
  rw [exact]
  omega

/-- The stores hit an object. -/
def Hits (layout : Layout) (object : Object) (stores : List Store) : Prop :=
  ∀ store ∈ stores, Within (layout.base object) (object.size layout.fatFsSize) store.1

theorem Hits.append {first second : List Store} (hits : layout.Hits object first)
    (hits' : layout.Hits object second) : layout.Hits object (first ++ second) :=
  fun store member => (List.mem_append.mp member).elim (hits store) (hits' store)

/-- Stores to one object leave the others. -/
theorem Hits.kept {stores : List Store} (hits : layout.Hits object stores) {bytes : Bytes}
    (different : object ≠ other)
    (inside : Within (layout.base other) (other.size layout.fatFsSize) address) :
    bytes.apply stores address = bytes address := by
  apply Bytes.apply_of_ne
  rintro store member rfl
  exact layout.not_within different (hits store member) inside

theorem hits_wordStores {index : Nat} {value : Word}
    (inside : index + 3 < object.size layout.fatFsSize) :
    layout.Hits object (wordStores (layout.base object + BitVec.ofNat 32 index) value) := by
  have hits : ∀ offset, offset ≤ 3 → Within (layout.base object) (object.size layout.fatFsSize)
      (layout.base object + BitVec.ofNat 32 index + BitVec.ofNat 32 offset) := by
    intro offset few
    rw [BitVec.add_assoc, ← BitVec.ofNat_add]
    exact layout.within_base_add (by omega)
  intro store member
  rcases List.mem_cons.mp member with rfl | member
  · exact layout.within_base_add (by omega)
  rcases List.mem_cons.mp member with rfl | member
  · exact hits 1 (by decide)
  rcases List.mem_cons.mp member with rfl | member
  · exact hits 2 (by decide)
  · cases List.mem_singleton.mp member
    exact hits 3 le_rfl

theorem hits_wordStores_base {value : Word} (inside : 3 < object.size layout.fatFsSize) :
    layout.Hits object (wordStores (layout.base object) value) := by
  have inside : 0 + 3 < object.size layout.fatFsSize := (Nat.zero_add 3).symm ▸ inside
  have hits : layout.Hits object (wordStores (layout.base object + BitVec.ofNat 32 0) value) :=
    hits_wordStores inside
  rwa [show BitVec.ofNat 32 0 = 0#32 from rfl, BitVec.add_zero] at hits

theorem hits_deviceStores (ptr : Word) : layout.Hits .fatDevices (layout.deviceStores ptr) := by
  have room : ∀ index, index ≤ 8 → index + 3 < Object.fatDevices.size layout.fatFsSize :=
    fun index few => Nat.lt_of_le_of_lt (Nat.add_le_add_right few 3) (by decide : 8 + 3 < 24)
  exact ((hits_wordStores_base (room 0 (by decide))).append
    (hits_wordStores (room 4 (by decide)))).append (hits_wordStores (room 8 le_rfl))

theorem hits_flagStores (flag : Flag) (value : Word) :
    layout.Hits (.flag flag) (layout.flagStores flag value) :=
  hits_wordStores_base (Nat.lt_succ_self 3)

/-- `f_mount` clears its object. -/
theorem fMount_kept (different : object ≠ .fatFsObj)
    (inside : Within (layout.base object) (object.size layout.fatFsSize) address) :
    (layout.fMount machine).bytes address = machine.bytes address := by
  have outside : ¬ Within (layout.base .fatFsObj) layout.fatFsSize address :=
    layout.not_within different inside
  unfold fMount
  dsimp only
  rw [Bytes.clear_of_not outside]
  split
  · exact Bytes.clear_of_not outside
  · rfl

/-- Behind the copies `FATFsMount` stores to the file system and to `fat_devices` only. -/
theorem fatFsMount_kept {ptr : Word} (different : object ≠ .fatFsObj)
    (different' : object ≠ .fatDevices)
    (inside : Within (layout.base object) (object.size layout.fatFsSize) address) :
    (layout.fatFsMount machine ptr).bytes address =
      machine.bytes.apply (layout.mountStores machine) address :=
  ((hits_deviceStores ptr).kept different'.symm inside).trans (fMount_kept different inside)

theorem hits_line : layout.Hits .cmdBuf [(layout.base .cmdBuf, 0)] := by
  rintro store member
  cases List.mem_singleton.mp member
  exact ⟨le_rfl, Nat.lt_add_of_pos_right (by decide : 0 < 512)⟩

/-- What `FATFsMount` leaves in `CwdBuf`. -/
theorem fatFsMount_cwd (ptr : Word) {index : Nat} (inside : index < pathBufSize) :
    (layout.fatFsMount machine ptr).bytes (layout.cwdBuf index) =
      machine.bytes.apply (strcpyStores (layout.pointer machine) [slash])
        (layout.cwdBuf index) := by
  have within : Within (layout.base .cwdBuf) (Object.cwdBuf.size layout.fatFsSize)
      (layout.cwdBuf index) := layout.within_base_add inside
  rw [fatFsMount_kept (by decide) (by decide) within, mountStores, Bytes.apply_append]
  exact hits_line.kept (by decide) within

/-- `FATFsMount` clears the line. -/
theorem fatFsMount_line (ptr : Word) :
    (layout.fatFsMount machine ptr).bytes (layout.base .cmdBuf) = 0 := by
  have within : Within (layout.base .cmdBuf) (Object.cmdBuf.size layout.fatFsSize)
      (layout.base .cmdBuf) := hits_line _ List.mem_cons_self
  rw [fatFsMount_kept (by decide) (by decide) within, mountStores, Bytes.apply_append]
  exact Function.update_self ..

/-- The stores leave an address as it is. -/
def Quiet (stores : List Store) (address : Word) : Prop :=
  ∀ bytes : Bytes, bytes.apply stores address = bytes address

theorem Quiet.append {first second : List Store} (quiet : Quiet first address)
    (quiet' : Quiet second address) : Quiet (first ++ second) address := by
  intro bytes
  rw [Bytes.apply_append, quiet', quiet]

theorem Quiet.storesIf {status bit : Word} {stores : List Store} (quiet : Quiet stores address) :
    Quiet (storesIf status bit stores) address := by
  unfold Layout.storesIf
  split
  · exact quiet
  · exact fun _ => rfl

section Flags

variable (within : Within (layout.base .cwdBuf) (Object.cwdBuf.size layout.fatFsSize) address)
include within

/-- The flags are not in `CwdBuf`. -/
theorem quiet_flag (flag : Flag) (value : Word) : Quiet (layout.flagStores flag value) address :=
  fun _ => (hits_flagStores flag value).kept Object.noConfusion within

theorem quiet_signalStores (status : Word) : Quiet (layout.signalStores status) address := by
  have flag := fun flag value => quiet_flag within flag value
  exact ((flag _ _).storesIf.append
    (((flag _ _).append (flag _ _).storesIf).append (flag _ _).storesIf).storesIf).append
    (flag _ _).storesIf

end Flags

/-- What a removed card leaves in `CwdBuf`. -/
theorem cardRemoved_cwd {index : Nat} (inside : index < pathBufSize) :
    (layout.cardRemoved machine).bytes (layout.cwdBuf index) =
      machine.bytes.apply (layout.wipeStores machine) (layout.cwdBuf index) := by
  have within : Within (layout.base .cwdBuf) (Object.cwdBuf.size layout.fatFsSize)
      (layout.cwdBuf index) := layout.within_base_add inside
  have flag := fun flag value => quiet_flag within flag value
  exact ((((flag _ _).append (flag _ _)).append (flag _ _)).append (flag _ _)).append (flag _ _) _

/-- The flags do not matter to `CwdBuf`. -/
theorem signalled_cwd (status : Word) {index : Nat} (inside : index < pathBufSize) :
    (layout.signalled machine status).bytes (layout.cwdBuf index) =
      machine.bytes (layout.cwdBuf index) :=
  quiet_signalStores (layout.within_base_add inside) status _

/-! ## Strings -/

theorem cwdBuf_zero : layout.cwdBuf 0 = layout.base .cwdBuf := BitVec.add_zero _

theorem cwdBuf_one : layout.cwdBuf 1 = layout.base .cwdBuf + 1 := rfl

theorem holds_root_iff : Holds (layout.cwd machine) [slash] ↔
    machine.bytes (layout.base .cwdBuf) = slash ∧ machine.bytes (layout.base .cwdBuf + 1) = 0 := by
  rw [← cwdBuf_one, ← cwdBuf_zero]
  constructor
  · intro holds
    exact ⟨holds.char 0 (Nat.zero_le _), holds.char 1 le_rfl⟩
  · rintro ⟨first, second⟩
    refine ⟨fun index inside => ?_, by decide, (by decide : 1 < 512)⟩
    cases index with
    | zero => exact first
    | succ index =>
        cases Nat.le_zero.mp (Nat.le_of_succ_le_succ inside)
        exact second

theorem holds_nil_iff : Holds (layout.cwd machine) [] ↔
    machine.bytes (layout.base .cwdBuf) = 0 := by
  rw [← cwdBuf_zero]
  constructor
  · exact fun holds => holds.char 0 le_rfl
  · intro first
    refine ⟨fun index inside => ?_, nofun, Nat.zero_lt_succ _⟩
    cases Nat.le_zero.mp inside
    exact first

theorem holds_line (nul : machine.bytes (layout.base .cmdBuf) = 0) :
    Holds (layout.line machine) [] := by
  rw [← BitVec.add_zero (layout.base .cmdBuf)] at nul
  refine ⟨fun index inside => ?_, nofun, Nat.zero_lt_succ _⟩
  cases Nat.le_zero.mp inside
  exact nul

/-- What the copy of `/` leaves in the array. -/
theorem copied_iff {pointer : Word} {bytes : Bytes} {base : Word} :
    (bytes.apply (strcpyStores pointer [slash]) base = slash ∧
      bytes.apply (strcpyStores pointer [slash]) (base + 1) = 0) ↔
    pointer = base ∨ (bytes base = slash ∧ bytes (base + 1) = 0) ∧ pointer ≠ base + 1 ∧
      pointer + 1 ≠ base := by
  change (Function.update (Function.update bytes pointer slash) (pointer + 1) 0 base = slash ∧
    Function.update (Function.update bytes pointer slash) (pointer + 1) 0 (base + 1) = 0) ↔ _
  have next : ∀ address : Word, address + 1 ≠ address := fun _ => by bv_omega
  by_cases array : pointer = base
  · subst array
    rw [Function.update_of_ne (next pointer).symm, Function.update_self, Function.update_self]
    exact iff_of_true ⟨rfl, rfl⟩ (.inl rfl)
  by_cases behind : pointer = base + 1
  · subst behind
    rw [Function.update_of_ne (next (base + 1)).symm, Function.update_self]
    apply iff_of_false
    · rintro ⟨_, second⟩
      exact absurd second (by decide)
    · rintro (same | ⟨_, other, _⟩)
      · exact next base same
      · exact other rfl
  by_cases before : pointer + 1 = base
  · subst before
    rw [Function.update_self]
    apply iff_of_false
    · rintro ⟨first, _⟩
      exact absurd first (by decide)
    · rintro (same | ⟨_, _, other⟩)
      · exact next pointer same.symm
      · exact other rfl
  · have apart : base + 1 ≠ pointer + 1 := fun same => array (by bv_omega)
    rw [Function.update_of_ne (Ne.symm before), Function.update_of_ne (Ne.symm array),
      Function.update_of_ne apart, Function.update_of_ne (Ne.symm behind)]
    constructor
    · exact fun holds => .inr ⟨holds, behind, before⟩
    · rintro (same | ⟨holds, _⟩)
      · exact absurd same array
      · exact holds

end Layout

end Apart

/-! ## The card -/

section Reset

variable (layout : Layout) (machine : Machine)

namespace Layout

theorem allowed_mountStores : (∀ store ∈ layout.mountStores machine, layout.Allowed store.1) ↔
    layout.Allowed (layout.pointer machine) ∧ layout.Allowed (layout.pointer machine + 1) := by
  change (∀ store ∈ [(layout.pointer machine, slash), (layout.pointer machine + 1, 0),
    (layout.base .cmdBuf, 0)], _) ↔ _
  rw [List.forall_mem_cons, List.forall_mem_cons, List.forall_mem_singleton]
  constructor
  · exact fun allowed => ⟨allowed.1, allowed.2.1⟩
  · exact fun allowed => ⟨allowed.1, allowed.2, .inr (.inl rfl)⟩

/-- A mount is right if the bytes it leaves are those of the copy. -/
theorem reset_iff {after : Machine}
    (copied : ∀ index, index < pathBufSize → after.bytes (layout.cwdBuf index) =
      machine.bytes.apply (strcpyStores (layout.pointer machine) [slash]) (layout.cwdBuf index))
    (nul : after.bytes (layout.base .cmdBuf) = 0) :
    layout.Reset machine after ↔ layout.MountSafe machine := by
  have first := copied 0 (by decide)
  have second := copied 1 (by decide)
  rw [cwdBuf_zero] at first
  rw [cwdBuf_one] at second
  have root : Holds (layout.cwd after) [slash] ↔
      layout.pointer machine = layout.base .cwdBuf ∨ Holds (layout.cwd machine) [slash] ∧
        layout.pointer machine ≠ layout.base .cwdBuf + 1 ∧
        layout.pointer machine + 1 ≠ layout.base .cwdBuf := by
    rw [holds_root_iff, holds_root_iff, first, second]
    exact copied_iff
  constructor
  · rintro ⟨cwd, _, frame⟩
    rcases (layout.allowed_mountStores machine).mp frame with ⟨here, next⟩
    exact ⟨here, next, root.mp cwd⟩
  · rintro ⟨here, next, kept⟩
    exact ⟨root.mpr kept, holds_line nul, (layout.allowed_mountStores machine).mpr ⟨here, next⟩⟩

/-- The flags do not matter to the console. -/
theorem mountSafe_signalled (status : Word) :
    layout.MountSafe (layout.signalled machine status) ↔ layout.MountSafe machine := by
  have same : ∀ index, index < pathBufSize →
      (layout.signalled machine status).bytes (layout.cwdBuf index) =
        machine.bytes (layout.cwdBuf index) := fun _ inside => signalled_cwd status inside
  have first := same 0 (by decide)
  have second : _ = machine.bytes (layout.base .cwdBuf + 1) := same 1 (by decide)
  have third : _ = machine.bytes (layout.base .cwdBuf + 2) := same 2 (by decide)
  have fourth : _ = machine.bytes (layout.base .cwdBuf + 3) := same 3 (by decide)
  rw [cwdBuf_zero] at first
  have pointer : layout.pointer (layout.signalled machine status) = layout.pointer machine := by
    unfold Layout.pointer Bytes.word
    rw [first, ← second, ← third, ← fourth]
    rfl
  unfold MountSafe
  rw [pointer, holds_root_iff, holds_root_iff, first, ← second]
  rfl

theorem wiped_iff : layout.Wiped machine (layout.cardRemoved machine) ↔
    layout.RemoveSafe machine := by
  have first : (layout.cardRemoved machine).bytes (layout.cwdBuf 0) =
      Function.update machine.bytes (layout.pointer machine) 0 (layout.cwdBuf 0) :=
    cardRemoved_cwd (by decide)
  rw [cwdBuf_zero] at first
  have empty : Holds (layout.cwd (layout.cardRemoved machine)) [] ↔
      layout.pointer machine = layout.base .cwdBuf ∨ Holds (layout.cwd machine) [] := by
    rw [holds_nil_iff, holds_nil_iff, first]
    by_cases array : layout.pointer machine = layout.base .cwdBuf
    · rw [array, Function.update_self]
      exact iff_of_true rfl (.inl rfl)
    · rw [Function.update_of_ne (Ne.symm array), or_iff_right array]
  constructor
  · rintro ⟨cwd, frame⟩
    exact ⟨frame _ List.mem_cons_self, empty.mp cwd⟩
  · rintro ⟨here, kept⟩
    refine ⟨empty.mpr kept, ?_⟩
    rintro store member
    cases List.mem_singleton.mp member
    exact here

end Layout

/-- At start-up and in `mmc0_isr`, a mount resets the console exactly if the first bytes of the
array `CwdBuf` are a pointer to the array, or to an allowed object while the array holds `/`
already; likewise for a card that is removed. -/
theorem console_reset_iff :
    (∀ ptr, layout.Reset machine (layout.fatFsMount machine ptr) ↔ layout.MountSafe machine) ∧
      (∀ status, status &&& Layout.statCardins ≠ 0 →
        (layout.Reset (layout.signalled machine status) (layout.inserted machine status) ↔
          layout.MountSafe machine)) ∧
      ∀ status, status &&& Layout.statCrem ≠ 0 →
        (layout.Wiped (layout.inserted machine status) (layout.mmc0Isr machine status) ↔
          layout.RemoveSafe (layout.inserted machine status)) := by
  refine ⟨fun ptr => ?_, fun status bit => ?_, fun status bit => ?_⟩
  · exact layout.reset_iff machine (fun _ inside => Layout.fatFsMount_cwd ptr inside)
      (Layout.fatFsMount_line ptr)
  · rw [Layout.inserted, if_pos bit, ← layout.mountSafe_signalled machine status]
    apply layout.reset_iff
    · intro index inside
      rw [← Layout.fatFsMount_cwd layout.sdCard inside]
      exact Layout.hits_line.kept Object.noConfusion (layout.within_base_add inside)
    · exact Function.update_self ..
  · rw [Layout.mmc0Isr, if_pos bit]
    exact layout.wiped_iff _

end Reset

/-! ## The start -/

/-- Objects in the RAM of the linker script. -/
def ramBase : Object → Word
  | .cwdBuf => 0x80100000
  | .cmdBuf => 0x80100200
  | .fatDevices => 0x80100400
  | .flag .callbackOccured => 0x80100420
  | .flag .xferCompFlag => 0x80100424
  | .flag .dataTimeout => 0x80100428
  | .flag .cmdCompFlag => 0x8010042c
  | .flag .cmdTimeout => 0x80100430
  | .flag .errFlag => 0x80100434
  | .fatFsObj => 0x80100440

/-- The order of the objects. -/
def ramOrder : List Object :=
  [.cwdBuf, .cmdBuf, .fatDevices, .flag .callbackOccured, .flag .xferCompFlag,
    .flag .dataTimeout, .flag .cmdCompFlag, .flag .cmdTimeout, .flag .errFlag, .fatFsObj]

theorem mem_ramOrder (object : Object) : object ∈ ramOrder := by
  cases object with
  | flag flag => cases flag <;> decide
  | _ => decide

/-- A layout in RAM. -/
def ramLayout : Layout where
  base := ramBase
  fatFsSize := 576
  sdCard := 0x80100800
  fits object := by
    have all : ∀ object ∈ ramOrder, (ramBase object).toNat + object.size 576 ≤ 2 ^ 32 := by decide
    exact all object (mem_ramOrder object)
  apart object other := by
    have all : ∀ object ∈ ramOrder, ∀ other ∈ ramOrder, object ≠ other →
        (ramBase object).toNat + object.size 576 ≤ (ramBase other).toNat ∨
          (ramBase other).toNat + other.size 576 ≤ (ramBase object).toNat := by decide
    exact all object (mem_ramOrder object) other (mem_ramOrder other)

/-- A memory in which the array begins with a pointer to itself. -/
def pointingMachine : Machine where
  bytes := Function.update (Function.update (fun _ => 0) (ramBase .cwdBuf + 2) 0x10)
    (ramBase .cwdBuf + 3) 0x80
  mounted := false

/-- There the mount works. -/
theorem pointing_reset :
    ramLayout.Reset pointingMachine (ramLayout.fatFsMount pointingMachine ramLayout.sdCard) := by
  have pointer : ramLayout.pointer pointingMachine = ramLayout.base .cwdBuf := by decide
  apply ((console_reset_iff ramLayout pointingMachine).1 _).mpr
  refine ⟨.inl ?_, .inl ?_, .inl pointer⟩
  · rw [pointer]
    decide
  · rw [pointer]
    decide

/-- The memory before the first mount: `CwdBuf` holds `/`. -/
def startMachine : Machine where
  bytes := Function.update (fun _ => 0) (ramBase .cwdBuf) slash
  mounted := false

/-- The array does not begin with a pointer. -/
theorem startMachine_pointer : ramLayout.pointer startMachine = 0x2f := by decide

theorem not_allowed_start : ¬ ramLayout.Allowed (ramLayout.pointer startMachine) := by
  rw [startMachine_pointer]
  have all : ∀ object ∈ ramOrder, ¬ Within (ramBase object) (object.size 576) 0x2f := by decide
  have outside := fun object => all object (mem_ramOrder object)
  rintro (array | line | device | ⟨flag, here⟩)
  · exact outside .cwdBuf array
  · exact absurd line (by decide)
  · exact outside .fatDevices ⟨device.1, device.2.trans (by decide)⟩
  · exact outside (.flag flag) here

/-- The mount at start-up does not reset the console, nor does a card. -/
theorem not_console_reset : ¬ ∀ (layout : Layout) (machine : Machine),
    (∀ ptr, layout.Reset machine (layout.fatFsMount machine ptr)) ∧
      (∀ status, status &&& Layout.statCardins ≠ 0 →
        layout.Reset (layout.signalled machine status) (layout.inserted machine status)) ∧
      ∀ status, status &&& Layout.statCrem ≠ 0 →
        layout.Wiped (layout.inserted machine status) (layout.mmc0Isr machine status) := by
  intro holds
  have reset := (holds ramLayout startMachine).1 ramLayout.sdCard
  exact not_allowed_start ((ramLayout.allowed_mountStores startMachine).mp reset.frame).1

end BbbEth.Console
