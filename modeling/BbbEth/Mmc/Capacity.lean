import BbbEth.Mmc.Outcome
import Mathlib.Data.Fin.VecNotation

/-!
# The capacity of a card

What `MMCCardInit` makes of the card specific data register.  The specification numbers the bits of
the register from 0 to 127.  The sizes are products in 32 bits, and a card that is addressed by
bytes has its block length set to 512 behind the count of its blocks.
-/

namespace BbbEth.Mmc

open BbbEth.Interference Server BbbEth.Registers

section Register

variable {csd : Response}

/-- The register. -/
def csdRegister (csd : Response) : BitVec 128 := csd 3 ++ csd 2 ++ csd 1 ++ csd 0

/-- What the register has in a field. -/
def csdValue (field : Field) (csd : Response) : Nat := (field.get (csdRegister csd)).toNat

def csdStructureField : Field := ⟨126, 2⟩
def readBlLenField : Field := ⟨80, 4⟩
/-- The device size of a register of version 1. -/
def cSizeField : Field := ⟨62, 12⟩
def cSizeMultField : Field := ⟨47, 3⟩
/-- The device size of a register of version 2. -/
def cSizeField2 : Field := ⟨48, 22⟩

/-- The capacity in bytes. -/
def capacity (csd : Response) : Nat :=
  if csdValue csdStructureField csd = 0 then
    (csdValue cSizeField csd + 1) * 2 ^ (csdValue cSizeMultField csd + 2) *
      2 ^ csdValue readBlLenField csd
  else
    (csdValue cSizeField2 csd + 1) * (512 * 1024)

/-- A register of version 1 with one of the three block lengths, or of version 2. -/
def Described (csd : Response) : Prop :=
  csdValue csdStructureField csd = 0 ∧ 9 ≤ csdValue readBlLenField csd ∧
      csdValue readBlLenField csd ≤ 11 ∨
    csdValue csdStructureField csd = 1

/-- The register as a number. -/
theorem toNat_csdRegister : (csdRegister csd).toNat =
    (((csd 3).toNat * 2 ^ 32 + (csd 2).toNat) * 2 ^ 32 + (csd 1).toNat) * 2 ^ 32 +
      (csd 0).toNat := by
  simp only [csdRegister, BitVec.toNat_append]
  rw [← Nat.shiftLeft_add_eq_or_of_lt (csd 0).isLt, ← Nat.shiftLeft_add_eq_or_of_lt (csd 1).isLt,
    ← Nat.shiftLeft_add_eq_or_of_lt (csd 2).isLt]
  simp only [Nat.shiftLeft_eq]

theorem csdValue_eq {field : Field} : csdValue field csd =
    ((((csd 3).toNat * 2 ^ 32 + (csd 2).toNat) * 2 ^ 32 + (csd 1).toNat) * 2 ^ 32 +
      (csd 0).toNat) / 2 ^ field.offset % 2 ^ field.size := by
  rw [csdValue, Field.toNat_get, toNat_csdRegister]

end Register
section Macros

variable {csd : Response}

/-- `SD_CARD_CSD_VERSION`. -/
def sdCardCsdVersion (csd : Response) : Word := (csd 3 &&& 0xC0000000) >>> 30

/-- `SD_CSD0_DEV_SIZE`. -/
def sdCsd0DevSize (csd : Response) : Word :=
  ((csd 2 &&& 0x000003FF) <<< 2) ||| ((csd 1 &&& 0xC0000000) >>> 30)

/-- `SD_CSD0_MULT`. -/
def sdCsd0Mult (csd : Response) : Word := (csd 1 &&& 0x00038000) >>> 15

/-- `SD_CSD0_RDBLKLEN` and `SD_CSD1_RDBLKLEN`. -/
def sdCsdRdBlkLen (csd : Response) : Word := (csd 2 &&& 0x000F0000) >>> 16

/-- `SD_CSD1_DEV_SIZE`. -/
def sdCsd1DevSize (csd : Response) : Word :=
  ((csd 2 &&& 0x0000003F) <<< 16) ||| ((csd 1 &&& 0xFFFF0000) >>> 16)

/-- A sum or a product that does not fit in 32 bits is not taken. -/
def Unwrapped (csd : Response) : Prop :=
  (sdCsdRdBlkLen csd).toNat < 32 ∧
    if sdCardCsdVersion csd ≠ 0 then
      (sdCsd1DevSize csd).toNat + 1 < 2 ^ 32 ∧
        (sdCsd1DevSize csd + 1).toNat * (512 * 1024) < 2 ^ 32
    else
      (sdCsd0DevSize csd).toNat + 1 < 2 ^ 32 ∧ (sdCsd0Mult csd).toNat + 2 < 32 ∧
        (sdCsd0DevSize csd + 1).toNat * ((1 : Word) <<< (sdCsd0Mult csd + 2)).toNat < 2 ^ 32 ∧
        ((sdCsd0DevSize csd + 1) * (1 : Word) <<< (sdCsd0Mult csd + 2)).toNat *
          ((1 : Word) <<< sdCsdRdBlkLen csd).toNat < 2 ^ 32

theorem toNat_sdCardCsdVersion : (sdCardCsdVersion csd).toNat = csdValue csdStructureField csd := by
  have version := Field.toNat_masked ⟨30, 2⟩ (csd 3) 0xC0000000 (by decide) (by decide)
  have := (csd 0).isLt
  have := (csd 1).isLt
  have := (csd 2).isLt
  rw [sdCardCsdVersion, version, Field.toNat_get, csdValue_eq]
  simp only [csdStructureField]
  omega

theorem toNat_sdCsd0Mult : (sdCsd0Mult csd).toNat = csdValue cSizeMultField csd := by
  have mult := Field.toNat_masked ⟨15, 3⟩ (csd 1) 0x00038000 (by decide) (by decide)
  have := (csd 0).isLt
  rw [sdCsd0Mult, mult, Field.toNat_get, csdValue_eq]
  simp only [cSizeMultField]
  omega

theorem toNat_sdCsdRdBlkLen : (sdCsdRdBlkLen csd).toNat = csdValue readBlLenField csd := by
  have length := Field.toNat_masked ⟨16, 4⟩ (csd 2) 0x000F0000 (by decide) (by decide)
  have := (csd 0).isLt
  have := (csd 1).isLt
  rw [sdCsdRdBlkLen, length, Field.toNat_get, csdValue_eq]
  simp only [readBlLenField]
  omega

theorem toNat_sdCsd0DevSize : (sdCsd0DevSize csd).toNat = csdValue cSizeField csd := by
  have low := Field.toNat_masked ⟨30, 2⟩ (csd 1) 0xC0000000 (by decide) (by decide)
  rw [Field.toNat_get] at low
  simp only at low
  have joined := Field.toNat_joined (csd 2) 0x3FF ((csd 1 &&& 0xC0000000) >>> 30) 10 2 (by decide)
    (by decide) (by omega)
  have := (csd 0).isLt
  have := (csd 1).isLt
  rw [sdCsd0DevSize, joined, low, csdValue_eq]
  simp only [cSizeField]
  omega

theorem toNat_sdCsd1DevSize : (sdCsd1DevSize csd).toNat = csdValue cSizeField2 csd := by
  have low := Field.toNat_masked ⟨16, 16⟩ (csd 1) 0xFFFF0000 (by decide) (by decide)
  rw [Field.toNat_get] at low
  simp only at low
  have joined := Field.toNat_joined (csd 2) 0x3F ((csd 1 &&& 0xFFFF0000) >>> 16) 6 16 (by decide)
    (by decide) (by omega)
  have := (csd 0).isLt
  have := (csd 1).isLt
  rw [sdCsd1DevSize, joined, low, csdValue_eq]
  simp only [cSizeField2]
  omega

end Macros
section Arithmetic

variable {csd : Response} {card : CardInfo}

theorem csdValue_lt {field : Field} : csdValue field csd < 2 ^ field.size :=
  (field.get (csdRegister csd)).isLt

/-- The products in `decodeCsd`. -/
theorem CardInfo.decodeCsd_eq : card.decodeCsd =
    if sdCardCsdVersion card.rawCsd ≠ 0 then
      { card with
        tranSpeed := (card.rawCsd 3 &&& 0x000000FF).setWidth 8
        blkLen := (1 : Word) <<< sdCsdRdBlkLen card.rawCsd
        size := (sdCsd1DevSize card.rawCsd + 1) * (512 * 1024)
        nBlks := (sdCsd1DevSize card.rawCsd + 1) * (512 * 1024) /
          (1 : Word) <<< sdCsdRdBlkLen card.rawCsd }
    else
      { card with
        tranSpeed := (card.rawCsd 3 &&& 0x000000FF).setWidth 8
        blkLen := (1 : Word) <<< sdCsdRdBlkLen card.rawCsd
        nBlks := (sdCsd0DevSize card.rawCsd + 1) * (1 : Word) <<< (sdCsd0Mult card.rawCsd + 2)
        size := (sdCsd0DevSize card.rawCsd + 1) * (1 : Word) <<< (sdCsd0Mult card.rawCsd + 2) *
          (1 : Word) <<< sdCsdRdBlkLen card.rawCsd } := rfl

theorem toNat_one_shift {count : Word} (small : count.toNat < 32) :
    ((1 : Word) <<< count).toNat = 2 ^ count.toNat := by
  have fits : 2 ^ count.toNat < 2 ^ 32 := Nat.pow_lt_pow_right (by decide) small
  rw [BitVec.shiftLeft_eq', BitVec.toNat_shiftLeft, Nat.shiftLeft_eq]
  change 1 * 2 ^ count.toNat % 2 ^ 32 = _
  rw [one_mul, Nat.mod_eq_of_lt fits]

/-- The number of the blocks of a card of version 1 fits. -/
theorem blocks_lt :
    (csdValue cSizeField csd + 1) * 2 ^ (csdValue cSizeMultField csd + 2) ≤ 2 ^ 21 := by
  have device : csdValue cSizeField csd < 2 ^ 12 := csdValue_lt
  have mult : csdValue cSizeMultField csd < 2 ^ 3 := csdValue_lt
  calc (csdValue cSizeField csd + 1) * 2 ^ (csdValue cSizeMultField csd + 2)
    _ ≤ 2 ^ 12 * 2 ^ 9 :=
      Nat.mul_le_mul device (Nat.pow_le_pow_right (by decide) (by omega))
    _ = 2 ^ 21 := by decide

theorem toNat_blocks (csd : Response) :
    (sdCsd0DevSize csd).toNat + 1 < 2 ^ 32 ∧ (sdCsd0Mult csd).toNat + 2 < 32 ∧
      (sdCsd0DevSize csd + 1).toNat * ((1 : Word) <<< (sdCsd0Mult csd + 2)).toNat < 2 ^ 32 ∧
      ((sdCsd0DevSize csd + 1) * (1 : Word) <<< (sdCsd0Mult csd + 2)).toNat =
        (csdValue cSizeField csd + 1) * 2 ^ (csdValue cSizeMultField csd + 2) := by
  have device : csdValue cSizeField csd < 2 ^ 12 := csdValue_lt
  have mult : csdValue cSizeMultField csd < 2 ^ 3 := csdValue_lt
  have size : (sdCsd0DevSize csd + 1).toNat = csdValue cSizeField csd + 1 := by
    rw [← toNat_sdCsd0DevSize] at device ⊢
    bv_omega
  have count : (sdCsd0Mult csd + 2).toNat = csdValue cSizeMultField csd + 2 := by
    rw [← toNat_sdCsd0Mult] at mult ⊢
    bv_omega
  have shift : ((1 : Word) <<< (sdCsd0Mult csd + 2)).toNat =
      2 ^ (csdValue cSizeMultField csd + 2) := by
    rw [toNat_one_shift (by omega), count]
  have small : (sdCsd0DevSize csd + 1).toNat * ((1 : Word) <<< (sdCsd0Mult csd + 2)).toNat <
      2 ^ 32 := by
    rw [size, shift]
    exact blocks_lt.trans_lt (by decide)
  refine ⟨?_, ?_, small, ?_⟩
  · rw [toNat_sdCsd0DevSize]
    omega
  · rw [toNat_sdCsd0Mult]
    omega
  · rw [BitVec.toNat_mul_of_lt small, size, shift]

theorem toNat_blkLen (csd : Response) : (sdCsdRdBlkLen csd).toNat < 32 ∧
    ((1 : Word) <<< sdCsdRdBlkLen csd).toNat = 2 ^ csdValue readBlLenField csd := by
  have length : csdValue readBlLenField csd < 2 ^ 4 := csdValue_lt
  rw [← toNat_sdCsdRdBlkLen] at length ⊢
  exact ⟨by omega, toNat_one_shift (by omega)⟩

/-- What is derived for a card of version 1 that is not too large. -/
theorem decodeCsd_of_first (first : csdValue csdStructureField card.rawCsd = 0)
    (small : capacity card.rawCsd < 2 ^ 32) :
    card.decodeCsd.nBlks.toNat * 2 ^ csdValue readBlLenField card.rawCsd = capacity card.rawCsd ∧
      card.decodeCsd.size.toNat = capacity card.rawCsd ∧ Unwrapped card.rawCsd := by
  rcases toNat_blkLen card.rawCsd with ⟨few, length⟩
  rcases toNat_blocks card.rawCsd with ⟨device, mult, product, blocks⟩
  have version : ¬ sdCardCsdVersion card.rawCsd ≠ 0 := by
    rw [not_not]
    exact BitVec.eq_of_toNat_eq (toNat_sdCardCsdVersion.trans first)
  have bytes : capacity card.rawCsd = (csdValue cSizeField card.rawCsd + 1) *
      2 ^ (csdValue cSizeMultField card.rawCsd + 2) * 2 ^ csdValue readBlLenField card.rawCsd := by
    rw [capacity, if_pos first]
  have product' : ((sdCsd0DevSize card.rawCsd + 1) *
      (1 : Word) <<< (sdCsd0Mult card.rawCsd + 2)).toNat *
        ((1 : Word) <<< sdCsdRdBlkLen card.rawCsd).toNat < 2 ^ 32 := by
    rw [blocks, length, ← bytes]
    exact small
  rw [CardInfo.decodeCsd_eq, Unwrapped, if_neg version, if_neg version, bytes]
  refine ⟨by rw [blocks], ?_, few, device, mult, product, product'⟩
  rw [BitVec.toNat_mul_of_lt product', blocks, length]

/-- What is derived for a card of version 2 that is not too large. -/
theorem decodeCsd_of_second (second : csdValue csdStructureField card.rawCsd = 1)
    (small : capacity card.rawCsd < 2 ^ 32) :
    card.decodeCsd.nBlks.toNat * 2 ^ csdValue readBlLenField card.rawCsd = capacity card.rawCsd ∧
      card.decodeCsd.size.toNat = capacity card.rawCsd ∧ Unwrapped card.rawCsd := by
  rcases toNat_blkLen card.rawCsd with ⟨few, length⟩
  have version : sdCardCsdVersion card.rawCsd ≠ 0 := by
    intro zero
    have none : (sdCardCsdVersion card.rawCsd).toNat = 0 := by rw [zero]; rfl
    rw [toNat_sdCardCsdVersion, second] at none
    cases none
  have later : ¬ csdValue csdStructureField card.rawCsd = 0 := by omega
  have bytes : capacity card.rawCsd = (csdValue cSizeField2 card.rawCsd + 1) * (512 * 1024) := by
    rw [capacity, if_neg later]
  have device : csdValue cSizeField2 card.rawCsd < 2 ^ 22 := csdValue_lt
  have size : (sdCsd1DevSize card.rawCsd + 1).toNat = csdValue cSizeField2 card.rawCsd + 1 := by
    rw [← toNat_sdCsd1DevSize] at device ⊢
    bv_omega
  have product : (sdCsd1DevSize card.rawCsd + 1).toNat * (512 * 1024 : Word).toNat < 2 ^ 32 := by
    rw [size]
    exact bytes ▸ small
  have total : ((sdCsd1DevSize card.rawCsd + 1) * (512 * 1024)).toNat = capacity card.rawCsd := by
    rw [BitVec.toNat_mul_of_lt product, size, bytes]
    rfl
  -- A block length of at most 2 ^ 15 bytes divides every multiple of 2 ^ 19.
  have divides : 2 ^ csdValue readBlLenField card.rawCsd ∣ capacity card.rawCsd := by
    have length : csdValue readBlLenField card.rawCsd < 2 ^ 4 := csdValue_lt
    have unit : 2 ^ csdValue readBlLenField card.rawCsd ∣ 512 * 1024 :=
      pow_dvd_pow 2 (show csdValue readBlLenField card.rawCsd ≤ 19 by omega)
    rw [bytes]
    exact unit.mul_left _
  rw [CardInfo.decodeCsd_eq, Unwrapped, if_pos version, if_pos version]
  refine ⟨?_, total, few, ?_, product⟩
  · rw [BitVec.toNat_udiv, total, length, Nat.div_mul_cancel divides]
  · rw [toNat_sdCsd1DevSize]
    omega

/-- What is derived for a card that is not too large. -/
theorem decodeCsd_of_small (described : Described card.rawCsd)
    (small : capacity card.rawCsd < 2 ^ 32) :
    card.decodeCsd.nBlks.toNat * 2 ^ csdValue readBlLenField card.rawCsd = capacity card.rawCsd ∧
      card.decodeCsd.size.toNat = capacity card.rawCsd ∧ Unwrapped card.rawCsd := by
  rcases described with ⟨first, _⟩ | second
  · exact decodeCsd_of_first first small
  · exact decodeCsd_of_second second small

theorem toNat_decodeCsd_blkLen :
    card.decodeCsd.blkLen.toNat = 2 ^ csdValue readBlLenField card.rawCsd := by
  rw [CardInfo.decodeCsd_eq]
  split
  · exact (toNat_blkLen card.rawCsd).2
  · exact (toNat_blkLen card.rawCsd).2

theorem capacity_pos : 0 < capacity csd := by
  unfold capacity
  split
  · exact Nat.mul_pos (Nat.mul_pos (Nat.succ_pos _) (Nat.two_pow_pos _)) (Nat.two_pow_pos _)
  · exact Nat.mul_pos (Nat.succ_pos _) (by decide)

end Arithmetic
section Sizes

variable {lines : List Line} {card before : CardInfo}

/-- What the record says of the sizes is what the register says. -/
structure Sized (csd : Response) (card : CardInfo) : Prop where
  blocks : card.nBlks.toNat * card.blkLen.toNat = capacity csd
  size : card.size.toNat = capacity csd
  unwrapped : Unwrapped csd

/-- The sizes that `MMCCardInit` leaves. -/
theorem Identified.sizes (record : Identified before lines card) : ∃ described : CardInfo,
    lastResponse 9 lines = some described.rawCsd ∧
      card.nBlks = described.decodeCsd.nBlks ∧ card.size = described.decodeCsd.size ∧
      card.blkLen = if before.highCap = 0 then 512 else described.decodeCsd.blkLen := by
  cases record with
  | @blocks cid rca csd _ _ _ _ highCap record =>
      refine ⟨{ before with
        rawCid := cid, rca := (rca 0 &&& 0xFFFF0000) >>> 16, rawCsd := csd }, rfl, ?_⟩
      rw [record.same, if_neg highCap]
      exact ⟨rfl, rfl, rfl⟩
  | @bytes cid rca csd _ _ _ _ _ highCap record =>
      refine ⟨{ before with
        rawCid := cid, rca := (rca 0 &&& 0xFFFF0000) >>> 16, rawCsd := csd }, rfl, ?_⟩
      rw [record.same, if_pos highCap]
      exact ⟨rfl, rfl, rfl⟩

/-- The sizes are right for the cards below 4 GiB that are addressed by blocks or have blocks of 512
bytes, and for no others. -/
theorem sized_iff {current after : Desk} {dataBuffer : Nat} {ocr csd : Response}
    (fresh : current.log = []) (run : desk.Results (mmcCardInit dataBuffer) current true after)
    (operating : lastResponse 41 after.lines = some ocr)
    (told : lastResponse 9 after.lines = some csd) (described : Described csd) :
    Sized csd after.card ↔ capacity csd < 2 ^ 32 ∧
      (ocr 0 &&& sdOcrHighCapacity ≠ 0 ∨ csdValue readBlLenField csd = 9) := by
  have course := mmcCardInit_runs fresh run
  generalize after.lines = lines at course operating told
  generalize after.card = card at course ⊢
  clear run
  cases course with
  | @polled _ start said closes first rsp retry opened polled closed =>
      cases closed with
      | identified left record =>
          rw [lastResponse_polls polled record.said.1] at operating
          cases operating
          rcases record.sizes with ⟨identified, found, nBlks, size, blkLen⟩
          rw [← List.cons_append, ← List.append_assoc, lastResponse_behind found] at told
          cases told
          have length : card.blkLen.toNat = if ocr 0 &&& sdOcrHighCapacity ≠ 0 then
              2 ^ csdValue readBlLenField identified.rawCsd else 512 := by
            have one : ¬ (1 : Byte) = 0 := by decide
            rw [blkLen, CardInfo.operating]
            by_cases high : ocr 0 &&& sdOcrHighCapacity ≠ 0
            · rw [if_pos high, if_pos high, if_neg one, toNat_decodeCsd_blkLen]
            · rw [if_neg high, if_neg high, if_pos rfl]
              rfl
          constructor
          · rintro ⟨blocks, bytes, _⟩
            have small : capacity identified.rawCsd < 2 ^ 32 := bytes ▸ card.size.isLt
            refine ⟨small, ?_⟩
            by_cases high : ocr 0 &&& sdOcrHighCapacity ≠ 0
            · exact .inl high
            · -- The count of the blocks is for the block length that the register gives.
              have counted := (decodeCsd_of_small described small).1
              rw [length, if_neg high, nBlks, ← counted] at blocks
              have some : identified.decodeCsd.nBlks.toNat ≠ 0 := by
                intro none
                rw [none, zero_mul] at counted
                exact capacity_pos.ne counted
              have unit : 2 ^ 9 = 2 ^ csdValue readBlLenField identified.rawCsd :=
                Nat.eq_of_mul_eq_mul_left (Nat.pos_of_ne_zero some) blocks
              exact .inr (Nat.pow_right_injective (le_refl 2) unit).symm
          · rintro ⟨small, unit⟩
            rcases decodeCsd_of_small described small with ⟨counted, bytes, unwrapped⟩
            refine ⟨?_, size ▸ bytes, unwrapped⟩
            rw [length, nBlks, ← counted]
            rcases unit with high | unit
            · rw [if_pos high]
            · rw [unit]
              split <;> rfl

/-- A register of version 2 with a device size of 16 bits. -/
def csdBits (cSize : Word) : Response := ![0, cSize <<< 16, 9 <<< 16, 1 <<< 30]

/-- A card of 64 MiB that is addressed by blocks. -/
theorem sized_sample : ∃ after, desk.Results (mmcCardInit 0) Desk.clear true after ∧
    Sized (csdBits 127) after.card := by
  rcases powered_run (csdBits 127) with ⟨after, run, operating, told⟩
  exact ⟨after, run, (sized_iff rfl run operating told (.inr (by decide))).mpr
    ⟨by decide, .inl (by decide)⟩⟩

/-- A card of 4 GiB, whose size is 0 in 32 bits. -/
theorem not_sized : ¬ ∀ csd after, desk.Results (mmcCardInit 0) Desk.clear true after →
    lastResponse 9 after.lines = some csd → Described csd → Sized csd after.card := by
  intro all
  rcases powered_run (csdBits 8191) with ⟨after, run, _, told⟩
  have size := (all _ after run told (.inr (by decide))).size
  have large : capacity (csdBits 8191) = 2 ^ 32 := by decide
  rw [large] at size
  exact absurd after.card.size.isLt (by omega)

end Sizes
end BbbEth.Mmc
