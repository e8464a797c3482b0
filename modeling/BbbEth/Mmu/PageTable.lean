import BbbEth.Registers.Stores
import BbbEth.Registers.Field

/-!
# The page table

`mmu.c` writes a table of one descriptor a megabyte and turns the memory management unit on.  The
code only stores words and issues operations of the coprocessor, so a run is the list of both.
-/

namespace BbbEth.Mmu

open BbbEth.Registers

abbrev Word := BitVec 32

/-- `REGION`. -/
structure Region where
  pgType : Word
  startAddr : Word
  numPages : Word
  memAttrib : Word
  secureType : Word
  accsCtrl : Word
  masterPtPtr : Word

/-- The routines of `cp15.s` that `mmu_init` calls. -/
inductive Operation where
  | tlbInvalidate
  | domainAccessClientSet
  | controlFeatureDisable (features : Word)
  | ttbCtlTtb0Config
  | ttb0Set (ttb : Word)
  | mmuEnable
  deriving DecidableEq

/-- What the code does, one step after the other. -/
inductive Event where
  | store (stored : Store Word Word)
  | cp15 (operation : Operation)
  deriving DecidableEq

/-! ## Constants -/

def startAddrOcmc : Word := 0x40300000
def startAddrDdr : Word := 0x80000000
def startAddrDev : Word := 0x44000000
def startAddrRom : Word := 0x00020000

def numSectionsDdr : Word := 512
def numSectionsDev : Word := 960
def numSectionsOcmc : Word := 1
def numSectionsRom : Word := 1

def mmuPageboundShift : Nat := 20
def mmuPgaddrMask : Word := 0xFFF00000
def mmuPgtypeMask : Word := 0x00040002

def mmuPagetableNumEntry : Nat := 4096

def mmuPgtypeSection : Word := 0xFFF04002
def mmuMemtypeDeviceShareable : Word := 0x00000004
def mmuCacheWbWa : Word := 0x01
def mmuCacheWtNowa : Word := 0x02
def mmuRegionNonSecure : Word := 0x00080000
def mmuApPrvRwUsrRw : Word := 0x0C00
def mmuSectionExecNever : Word := 0x00000010

def mmuMemtypeNormalNonShareable (innerCachePol outerCachePol : Word) : Word :=
  0x00004000 ||| outerCachePol <<< 12 ||| innerCachePol <<< 2

def cp15ControlTexremap : Word := 0x10000000
def cp15ControlAccessflag : Word := 0x20000000
def cp15ControlAlignChck : Word := 0x00000002
def cp15ControlMmu : Word := 0x00000001

/-! ## The code -/

/-- The address of an element of an array of words. -/
def slot (base : Word) (index : Nat) : Word := base + 4 * BitVec.ofNat 32 index

/-- The loop of `mmu_regionMap`, with the number of rounds that are left. -/
def regionMapLoop (ptEntry : Word) : Nat → Word → List Event
  | 0, _ => []
  | i + 1, ptEntryPtr =>
      .store ⟨ptEntryPtr, ptEntry + BitVec.ofNat 32 i <<< mmuPageboundShift⟩ ::
        regionMapLoop ptEntry i (ptEntryPtr - 4)

/-- The word that `mmu_regionMap` adds the numbers of the sections to. -/
def Region.ptEntry (region : Region) : Word :=
  ((region.startAddr &&& region.pgType) &&& mmuPgaddrMask) |||
    ((mmuPgtypeMask &&& region.pgType) ||| region.accsCtrl ||| region.memAttrib |||
      region.secureType)

/-- `mmu_regionMap`.  The count of the loop is an `int`. -/
def mmuRegionMap (region : Region) : List Event :=
  let first := region.masterPtPtr + 4 * (region.startAddr >>> mmuPageboundShift)
  let last := first + 4 * (region.numPages - 1)
  regionMapLoop region.ptEntry ((region.numPages - 1).toInt + 1).toNat last

/-- The loop of `mmu_init` that resets the table, with the number of rounds that are left. -/
def resetLoop (pageTable : Word) : Nat → List Event
  | 0 => []
  | i + 1 => .store ⟨slot pageTable (i + 1), 0x0⟩ :: resetLoop pageTable i

def regionDdr (pageTable : Word) : Region :=
  ⟨mmuPgtypeSection, startAddrDdr, numSectionsDdr,
    mmuMemtypeNormalNonShareable mmuCacheWtNowa mmuCacheWbWa,
    mmuRegionNonSecure, mmuApPrvRwUsrRw, pageTable⟩

def regionOcmc (pageTable : Word) : Region :=
  ⟨mmuPgtypeSection, startAddrOcmc, numSectionsOcmc,
    mmuMemtypeNormalNonShareable mmuCacheWtNowa mmuCacheWbWa,
    mmuRegionNonSecure, mmuApPrvRwUsrRw, pageTable⟩

def regionDev (pageTable : Word) : Region :=
  ⟨mmuPgtypeSection, startAddrDev, numSectionsDev, mmuMemtypeDeviceShareable,
    mmuRegionNonSecure, mmuApPrvRwUsrRw ||| mmuSectionExecNever, pageTable⟩

def regionRom (pageTable : Word) : Region :=
  ⟨mmuPgtypeSection, startAddrRom, numSectionsRom,
    mmuMemtypeNormalNonShareable mmuCacheWtNowa mmuCacheWbWa,
    mmuRegionNonSecure, mmuApPrvRwUsrRw, pageTable⟩

/-- The regions in the order in which `mmu_init` maps them. -/
def regions (pageTable : Word) : List Region :=
  [regionDdr pageTable, regionOcmc pageTable, regionDev pageTable, regionRom pageTable]

/-- The operations ahead of the table. -/
def preparations : List Operation :=
  [.tlbInvalidate, .domainAccessClientSet,
    .controlFeatureDisable (cp15ControlTexremap ||| cp15ControlAccessflag |||
      cp15ControlAlignChck ||| cp15ControlMmu),
    .ttbCtlTtb0Config]

/-- `mmu_init`, up to the step that turns the unit on. -/
def construction (pageTable : Word) : List Event :=
  preparations.map .cp15 ++ resetLoop pageTable mmuPagetableNumEntry ++
    (regions pageTable).flatMap mmuRegionMap ++ [.cp15 (.ttb0Set pageTable)]

/-- `mmu_init`. -/
def mmuInit (pageTable : Word) : List Event :=
  construction pageTable ++ [.cp15 .mmuEnable]

/-! ## What a table says -/

/-- The store of a step. -/
def Event.store? : Event → Option (Store Word Word)
  | .store stored => some stored
  | .cp15 _ => none

/-- A memory behind a run. -/
def memoryAfter (memory : Word → Word) (events : List Event) : Word → Word :=
  Store.apply memory (events.filterMap Event.store?)

namespace Region

variable (region : Region)

/-- The number of the first section. -/
def first : Nat := (region.startAddr >>> mmuPageboundShift).toNat

/-- The megabytes of a region. -/
def Contains (index : Nat) : Prop :=
  region.first ≤ index ∧ index < region.first + region.numPages.toNat

instance (index : Nat) : Decidable (region.Contains index) := inferInstanceAs (Decidable (_ ∧ _))

/-- The bits of a descriptor that are not an address. -/
def attributes : Word :=
  0x00000002 ||| region.accsCtrl ||| region.memAttrib ||| region.secureType

/-- The descriptor that maps a megabyte to itself. -/
def descriptor (index : Nat) : Word :=
  BitVec.ofNat 32 index <<< mmuPageboundShift ||| region.attributes

/-- A region of sections that fits in the table.  What is not an address in the descriptor of a
section are the bits below. -/
structure Sections : Prop where
  pgType : region.pgType = mmuPgtypeSection
  fits : region.first + region.numPages.toNat ≤ mmuPagetableNumEntry
  below : region.attributes.toNat < 2 ^ mmuPageboundShift

end Region

/-- What a descriptor has to be when the unit is turned on. -/
def Describes (pageTable : Word) (index : Nat) (entry : Word) : Prop :=
  (∀ region ∈ regions pageTable, region.Contains index → entry = region.descriptor index) ∧
    ((∀ region ∈ regions pageTable, ¬ region.Contains index) → entry = 0)

/-! ## Elements of an array -/

section Slots

variable {base : Word} {first index other : Nat}

theorem slot_succ : slot base (index + 1) - 4 = slot base index := by
  unfold slot
  rw [BitVec.ofNat_add, BitVec.mul_add, ← BitVec.add_assoc]
  exact BitVec.add_sub_cancel _ _

theorem slot_slot : slot (slot base first) index = slot base (first + index) := by
  unfold slot
  rw [BitVec.ofNat_add, BitVec.mul_add, BitVec.add_assoc]

/-- The elements of the table, and the word behind it, are apart. -/
theorem slot_inj (inside : index ≤ mmuPagetableNumEntry) (inside' : other ≤ mmuPagetableNumEntry)
    (same : slot base index = slot base other) : index = other := by
  have offsets : 4 * BitVec.ofNat 32 index = 4 * BitVec.ofNat 32 other :=
    (BitVec.add_right_inj _).mp same
  have four : (4 : Word).toNat = 4 := rfl
  have numbers := congrArg BitVec.toNat offsets
  simp only [mmuPagetableNumEntry] at inside inside'
  rw [BitVec.toNat_mul, BitVec.toNat_mul, BitVec.toNat_ofNat, BitVec.toNat_ofNat, four] at numbers
  omega

end Slots

/-! ## The loops -/

section Loops

variable {base pageTable ptEntry : Word} {count : Nat} {event : Event}

theorem mem_regionMapLoop :
    event ∈ regionMapLoop ptEntry count (slot base count - 4) ↔
      ∃ i < count, event =
        .store ⟨slot base i, ptEntry + BitVec.ofNat 32 i <<< mmuPageboundShift⟩ := by
  induction count with
  | zero => simp [regionMapLoop]
  | succ count inductionHypothesis =>
      rw [slot_succ, regionMapLoop, List.mem_cons, inductionHypothesis]
      constructor
      · rintro (rfl | ⟨i, inside, rfl⟩)
        · exact ⟨count, Nat.lt_succ_self _, rfl⟩
        · exact ⟨i, Nat.lt_succ_of_lt inside, rfl⟩
      · rintro ⟨i, inside, rfl⟩
        rcases Nat.lt_succ_iff_lt_or_eq.mp inside with less | rfl
        · exact .inr ⟨i, less, rfl⟩
        · exact .inl rfl

theorem mem_resetLoop : event ∈ resetLoop pageTable count ↔
    ∃ i < count, event = .store ⟨slot pageTable (i + 1), 0⟩ := by
  induction count with
  | zero => simp [resetLoop]
  | succ count inductionHypothesis =>
      rw [resetLoop, List.mem_cons, inductionHypothesis]
      constructor
      · rintro (rfl | ⟨i, inside, rfl⟩)
        · exact ⟨count, Nat.lt_succ_self _, rfl⟩
        · exact ⟨i, Nat.lt_succ_of_lt inside, rfl⟩
      · rintro ⟨i, inside, rfl⟩
        rcases Nat.lt_succ_iff_lt_or_eq.mp inside with less | rfl
        · exact .inr ⟨i, less, rfl⟩
        · exact .inl rfl

end Loops

/-! ## One region -/

namespace Region.Sections

variable {region : Region} (sections : region.Sections)
include sections

/-- The value of a word with an address above and other bits below. -/
theorem toNat_descriptor {index : Nat} (inside : index < mmuPagetableNumEntry) :
    (region.descriptor index).toNat =
      index * 2 ^ mmuPageboundShift + region.attributes.toNat := by
  have small : index * 2 ^ 20 < 2 ^ 32 := by
    simp only [mmuPagetableNumEntry] at inside
    omega
  have number : index % 2 ^ 32 = index := by omega
  have below := sections.below
  simp only [mmuPageboundShift] at below
  simp only [descriptor, mmuPageboundShift, BitVec.toNat_or, BitVec.toNat_shiftLeft,
    BitVec.toNat_ofNat, Nat.shiftLeft_eq]
  rw [number, Nat.mod_eq_of_lt small, ← Nat.shiftLeft_eq, ← Nat.shiftLeft_add_eq_or_of_lt below]

theorem ptEntry_eq : region.ptEntry = region.descriptor region.first := by
  have mask : ∀ i < 32, (mmuPgtypeSection &&& mmuPgaddrMask).getLsbD i = decide (20 ≤ i) := by
    decide
  have high : (region.startAddr &&& region.pgType) &&& mmuPgaddrMask =
      BitVec.ofNat 32 region.first <<< mmuPageboundShift := by
    rw [sections.pgType, BitVec.and_assoc, first, BitVec.ofNat_toNat, BitVec.setWidth_eq]
    apply BitVec.eq_of_getLsbD_eq
    intro i inside
    rw [BitVec.getLsbD_and, mask i inside, BitVec.getLsbD_shiftLeft, BitVec.getLsbD_ushiftRight]
    by_cases above : 20 ≤ i
    · have same : mmuPageboundShift + (i - mmuPageboundShift) = i := Nat.add_sub_cancel' above
      have notBelow : ¬ i < mmuPageboundShift := Nat.not_lt.mpr above
      rw [same, decide_eq_true above, decide_eq_true inside, decide_eq_false notBelow,
        Bool.and_true, Bool.not_false, Bool.true_and, Bool.true_and]
    · have below : i < mmuPageboundShift := Nat.not_le.mp above
      rw [decide_eq_false above, decide_eq_true below, Bool.and_false, Bool.not_true,
        Bool.and_false, Bool.false_and]
  have low : mmuPgtypeMask &&& region.pgType = 0x00000002 := by
    rw [sections.pgType]
    decide
  rw [ptEntry, high, low, descriptor, attributes]

/-- The number of a section is added to the address, without a carry. -/
theorem ptEntry_add {i : Nat} (inside : i < region.numPages.toNat) :
    region.ptEntry + BitVec.ofNat 32 i <<< mmuPageboundShift =
      region.descriptor (region.first + i) := by
  have fits := sections.fits
  have below := sections.below
  have values : region.first < mmuPagetableNumEntry := by omega
  have values' : region.first + i < mmuPagetableNumEntry := by omega
  apply BitVec.eq_of_toNat_eq
  rw [sections.ptEntry_eq, BitVec.toNat_add, sections.toNat_descriptor values,
    sections.toNat_descriptor values', BitVec.toNat_shiftLeft, BitVec.toNat_ofNat,
    Nat.shiftLeft_eq]
  simp only [mmuPageboundShift, mmuPagetableNumEntry] at *
  omega

/-- The count of the loop does not overflow. -/
theorem rounds : ((region.numPages - 1).toInt + 1).toNat = region.numPages.toNat := by
  have fits := sections.fits
  simp only [mmuPagetableNumEntry] at fits
  have one : (1 : Word).toNat = 1 := rfl
  have value : (region.numPages - 1).toNat = (2 ^ 32 - 1 + region.numPages.toNat) % 2 ^ 32 := by
    rw [BitVec.toNat_sub, one]
  rw [BitVec.toInt_eq_toNat_cond, value]
  split
  · omega
  · omega

/-- What `mmu_regionMap` stores. -/
theorem mem_mmuRegionMap {event : Event} : event ∈ mmuRegionMap region ↔
    ∃ index, region.Contains index ∧
      event = .store ⟨slot region.masterPtPtr index, region.descriptor index⟩ := by
  have fits := sections.fits
  have begin' : region.masterPtPtr + 4 * (region.startAddr >>> mmuPageboundShift) =
      slot region.masterPtPtr region.first := by
    rw [slot, first, BitVec.ofNat_toNat, BitVec.setWidth_eq]
  have last : slot region.masterPtPtr region.first + 4 * (region.numPages - 1) =
      slot (slot region.masterPtPtr region.first) region.numPages.toNat - 4 := by
    rw [BitVec.mul_sub, ← add_sub_assoc]
    conv_rhs => rw [slot, BitVec.ofNat_toNat, BitVec.setWidth_eq]
    rfl
  simp only [mmuRegionMap]
  rw [begin', last, sections.rounds, mem_regionMapLoop]
  constructor
  · rintro ⟨i, inside, rfl⟩
    refine ⟨region.first + i, ⟨by omega, by omega⟩, ?_⟩
    rw [slot_slot, sections.ptEntry_add inside]
  · rintro ⟨index, ⟨least, less⟩, rfl⟩
    have inside : index - region.first < region.numPages.toNat := by omega
    refine ⟨index - region.first, inside, ?_⟩
    rw [slot_slot, sections.ptEntry_add inside, Nat.add_sub_cancel' least]

end Region.Sections

/-! ## Memory -/

section Memory

variable {memory : Word → Word} {events later : List Event} {address value : Word}

theorem memoryAfter_append :
    memoryAfter memory (events ++ later) = memoryAfter (memoryAfter memory events) later := by
  rw [memoryAfter, List.filterMap_append, Store.apply_append]
  rfl

theorem mem_stores {stored : Store Word Word} :
    stored ∈ events.filterMap Event.store? ↔ .store stored ∈ events := by
  rw [List.mem_filterMap]
  constructor
  · rintro ⟨event, member, is⟩
    cases event with
    | store other => exact Option.some.inj is ▸ member
    | cp15 operation => cases is
  · intro member
    exact ⟨_, member, rfl⟩

theorem memoryAfter_of_stored
    (agree : ∀ stored, .store stored ∈ events → stored.address = address → stored.value = value)
    (reached : .store ⟨address, value⟩ ∈ events) : memoryAfter memory events address = value :=
  Store.apply_of_forall_eq (fun stored member => agree stored (mem_stores.mp member))
    ⟨_, mem_stores.mpr reached, rfl⟩

theorem memoryAfter_of_apart
    (apart : ∀ stored, .store stored ∈ events → stored.address ≠ address) :
    memoryAfter memory events address = memory address :=
  Store.apply_of_forall_ne fun stored member => apart stored (mem_stores.mp member)

end Memory

/-- The megabytes of a region are mapped to themselves, and no other word changes. -/
def Region.Mapped (region : Region) (before after : Word → Word) : Prop :=
  (∀ index, region.Contains index →
    after (slot region.masterPtPtr index) = region.descriptor index) ∧
  ∀ address, (∀ index, region.Contains index → address ≠ slot region.masterPtPtr index) →
    after address = before address

theorem Region.Sections.mapped {region : Region} (sections : region.Sections)
    (memory : Word → Word) : region.Mapped memory (memoryAfter memory (mmuRegionMap region)) := by
  have fits := sections.fits
  constructor
  · intro index contains
    apply memoryAfter_of_stored _ (sections.mem_mmuRegionMap.mpr ⟨index, contains, rfl⟩)
    intro stored member here
    rcases sections.mem_mmuRegionMap.mp member with ⟨other, containsOther, is⟩
    cases is
    have same : other = index :=
      slot_inj (containsOther.2.le.trans fits) (contains.2.le.trans fits) here
    rw [same]
  · intro address outside
    apply memoryAfter_of_apart
    intro stored member
    rcases sections.mem_mmuRegionMap.mp member with ⟨index, contains, is⟩
    cases is
    exact (outside index contains).symm

/-! ## The regions of the board -/

section Board

variable {pageTable : Word} {index : Nat}

theorem first_ddr : (regionDdr pageTable).first = 0x800 := by
  have number : (startAddrDdr >>> mmuPageboundShift).toNat = 0x800 := by decide
  exact number

theorem first_ocmc : (regionOcmc pageTable).first = 0x403 := by
  have number : (startAddrOcmc >>> mmuPageboundShift).toNat = 0x403 := by decide
  exact number

theorem first_dev : (regionDev pageTable).first = 0x440 := by
  have number : (startAddrDev >>> mmuPageboundShift).toNat = 0x440 := by decide
  exact number

theorem first_rom : (regionRom pageTable).first = 0 := by
  have number : (startAddrRom >>> mmuPageboundShift).toNat = 0 := by decide
  exact number

theorem contains_ddr : (regionDdr pageTable).Contains index ↔ 0x800 ≤ index ∧ index < 0xA00 := by
  rw [Region.Contains, first_ddr]
  rfl

theorem contains_ocmc : (regionOcmc pageTable).Contains index ↔ 0x403 ≤ index ∧ index < 0x404 := by
  rw [Region.Contains, first_ocmc]
  rfl

theorem contains_dev : (regionDev pageTable).Contains index ↔ 0x440 ≤ index ∧ index < 0x800 := by
  rw [Region.Contains, first_dev]
  rfl

theorem contains_rom : (regionRom pageTable).Contains index ↔ 0 ≤ index ∧ index < 1 := by
  rw [Region.Contains, first_rom]
  rfl

theorem regions_sections {region : Region} (member : region ∈ regions pageTable) :
    region.Sections ∧ region.masterPtPtr = pageTable := by
  have normal : (0x00000002 ||| mmuApPrvRwUsrRw |||
      mmuMemtypeNormalNonShareable mmuCacheWtNowa mmuCacheWbWa |||
        mmuRegionNonSecure).toNat < 2 ^ mmuPageboundShift := by decide
  have device : (0x00000002 ||| (mmuApPrvRwUsrRw ||| mmuSectionExecNever) |||
      mmuMemtypeDeviceShareable ||| mmuRegionNonSecure).toNat < 2 ^ mmuPageboundShift := by decide
  simp only [regions, List.mem_cons, List.not_mem_nil, or_false] at member
  rcases member with rfl | rfl | rfl | rfl
  · have fits : 0x800 + numSectionsDdr.toNat ≤ mmuPagetableNumEntry := by decide
    exact ⟨⟨rfl, by rw [first_ddr]; exact fits, normal⟩, rfl⟩
  · have fits : 0x403 + numSectionsOcmc.toNat ≤ mmuPagetableNumEntry := by decide
    exact ⟨⟨rfl, by rw [first_ocmc]; exact fits, normal⟩, rfl⟩
  · have fits : 0x440 + numSectionsDev.toNat ≤ mmuPagetableNumEntry := by decide
    exact ⟨⟨rfl, by rw [first_dev]; exact fits, device⟩, rfl⟩
  · have fits : 0 + numSectionsRom.toNat ≤ mmuPagetableNumEntry := by decide
    exact ⟨⟨rfl, by rw [first_rom]; exact fits, normal⟩, rfl⟩

/-- No megabyte is in two regions. -/
theorem regions_apart {region other : Region} (member : region ∈ regions pageTable)
    (member' : other ∈ regions pageTable) (contains : region.Contains index)
    (contains' : other.Contains index) : region = other := by
  simp only [regions, List.mem_cons, List.not_mem_nil, or_false] at member member'
  rcases member with rfl | rfl | rfl | rfl <;> rcases member' with rfl | rfl | rfl | rfl <;>
    simp only [contains_ddr, contains_ocmc, contains_dev, contains_rom] at contains contains' <;>
    first | rfl | omega

theorem mem_maps {event : Event} : event ∈ (regions pageTable).flatMap mmuRegionMap ↔
    ∃ region ∈ regions pageTable, ∃ index, region.Contains index ∧
      event = .store ⟨slot pageTable index, region.descriptor index⟩ := by
  rw [List.mem_flatMap]
  constructor
  · rintro ⟨region, member, inside⟩
    rcases regions_sections member with ⟨sections, rfl⟩
    exact ⟨region, member, sections.mem_mmuRegionMap.mp inside⟩
  · rintro ⟨region, member, inside⟩
    rcases regions_sections member with ⟨sections, rfl⟩
    exact ⟨region, member, sections.mem_mmuRegionMap.mpr inside⟩

/-- Every element but the first is reset, and the regions are mapped behind that. -/
theorem describes_construction {memory : Word → Word} (inside : index < mmuPagetableNumEntry) :
    Describes pageTable index
      (memoryAfter memory (construction pageTable) (slot pageTable index)) := by
  unfold construction
  rw [memoryAfter_append, memoryAfter_append, memoryAfter_append,
    memoryAfter_of_apart (fun stored member => by simp at member)]
  constructor
  · intro region member contains
    apply memoryAfter_of_stored _ (mem_maps.mpr ⟨region, member, index, contains, rfl⟩)
    intro stored storedIn here
    rcases mem_maps.mp storedIn with ⟨other, member', index', contains', is⟩
    cases is
    have fits := (regions_sections member').1.fits
    have same : index' = index := slot_inj (contains'.2.le.trans fits) inside.le here
    rw [same] at contains'
    rw [same, regions_apart member member' contains contains']
  · intro uncovered
    have mapped : ∀ stored, .store stored ∈ (regions pageTable).flatMap mmuRegionMap →
        stored.address ≠ slot pageTable index := by
      intro stored storedIn here
      rcases mem_maps.mp storedIn with ⟨other, member', index', contains', is⟩
      cases is
      have fits := (regions_sections member').1.fits
      have same : index' = index := slot_inj (contains'.2.le.trans fits) inside.le here
      exact uncovered other member' (same ▸ contains')
    -- the first element, which the loop misses, is in the region of the ROM
    have positive : index ≠ 0 := by
      rintro rfl
      exact uncovered (regionRom pageTable) (by simp [regions]) (contains_rom.mpr (by decide))
    rw [memoryAfter_of_apart mapped]
    apply memoryAfter_of_stored
    · intro stored storedIn _
      rcases mem_resetLoop.mp storedIn with ⟨i, _, is⟩
      cases is
      rfl
    · rw [mem_resetLoop]
      exact ⟨index - 1, by omega, by rw [Nat.sub_add_cancel (Nat.pos_of_ne_zero positive)]⟩

end Board

/-! ## The construction of the table -/

section Construction

variable {pageTable : Word} {memory : Word → Word}

theorem mem_mmuInit {stored : Store Word Word} : .store stored ∈ mmuInit pageTable ↔
    .store stored ∈ resetLoop pageTable mmuPagetableNumEntry ∨
      .store stored ∈ (regions pageTable).flatMap mmuRegionMap := by
  unfold mmuInit construction
  rw [List.mem_append, List.mem_append, List.mem_append, List.mem_append]
  simp

/-- The words that the code writes: the table, and one word behind it. -/
theorem written_iff {address : Word} :
    (∃ value, .store ⟨address, value⟩ ∈ mmuInit pageTable) ↔
      ∃ index ≤ mmuPagetableNumEntry, address = slot pageTable index := by
  constructor
  · rintro ⟨value, member⟩
    rcases mem_mmuInit.mp member with reset | mapped
    · rcases mem_resetLoop.mp reset with ⟨i, inside, is⟩
      cases is
      exact ⟨i + 1, inside, rfl⟩
    · rcases mem_maps.mp mapped with ⟨region, member', index, contains, is⟩
      cases is
      exact ⟨index, contains.2.le.trans (regions_sections member').1.fits, rfl⟩
  · rintro ⟨index, inside, rfl⟩
    by_cases first : index = 0
    · subst first
      exact ⟨_, mem_mmuInit.mpr (.inr (mem_maps.mpr
        ⟨regionRom pageTable, by simp [regions], 0, contains_rom.mpr (by decide), rfl⟩))⟩
    · refine ⟨0, mem_mmuInit.mpr (.inl (mem_resetLoop.mpr ⟨index - 1, by omega, ?_⟩))⟩
      rw [Nat.sub_add_cancel (Nat.pos_of_ne_zero first)]

/-- The code writes the elements of the table only. -/
def WritesTableOnly (pageTable : Word) : Prop :=
  ∀ stored, .store stored ∈ mmuInit pageTable →
    ∃ index < mmuPagetableNumEntry, stored.address = slot pageTable index

/-- Every element describes its megabyte when the unit is turned on. -/
def EnablesDescribed (pageTable : Word) (memory : Word → Word) : Prop :=
  ∀ before after, mmuInit pageTable = before ++ .cp15 .mmuEnable :: after →
    ∀ index < mmuPagetableNumEntry,
      Describes pageTable index (memoryAfter memory before (slot pageTable index))

/-- A region of sections is mapped, whatever it is. -/
def MapsSections : Prop :=
  ∀ (region : Region) (memory : Word → Word), region.Sections →
    region.Mapped memory (memoryAfter memory (mmuRegionMap region))

/-- What the construction of the table is to do. -/
structure Constructs (pageTable : Word) (memory : Word → Word) : Prop where
  writes : WritesTableOnly pageTable
  described : EnablesDescribed pageTable memory
  maps : MapsSections

theorem not_writesTableOnly : ¬ WritesTableOnly pageTable := by
  intro only
  rcases written_iff.mpr ⟨mmuPagetableNumEntry, le_rfl, rfl⟩ with ⟨value, member⟩
  rcases only _ member with ⟨index, inside, same⟩
  exact inside.ne' (slot_inj le_rfl inside.le same)

theorem mmuEnable_notMem : Event.cp15 .mmuEnable ∉ construction pageTable := by
  unfold construction
  rw [List.mem_append, List.mem_append, List.mem_append, mem_resetLoop, mem_maps]
  simp [preparations]

theorem enablesDescribed : EnablesDescribed pageTable memory := by
  intro before after split index inside
  rcases (List.append_cons_inj_of_notMem mmuEnable_notMem List.not_mem_nil).mp split with ⟨rfl, _⟩
  exact describes_construction inside

/-- The word behind the table is written, whatever the memory holds.  All else is as it has to
be. -/
theorem not_constructs (pageTable : Word) (memory : Word → Word) :
    ¬ Constructs pageTable memory ∧ EnablesDescribed pageTable memory ∧ MapsSections :=
  ⟨fun constructs => not_writesTableOnly constructs.writes, enablesDescribed,
    fun _ memory sections => sections.mapped memory⟩

/-- A table at the start of the memory. -/
theorem not_constructs_ddr : ¬ Constructs 0x80000000 fun _ => 0x12345678 :=
  fun constructs => not_writesTableOnly constructs.writes

end Construction

end BbbEth.Mmu
