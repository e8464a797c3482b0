import BbbEth.Console.Commands
import BbbEth.Registers.Field

/-!
# Time stamps

`get_fattime` packs the time that the clock of `tim.s` gives in BCD, and `Cmd_ls` takes the two
halves of the word apart.
-/

namespace BbbEth.FatFs

open BbbEth.Console BbbEth.Registers

/-- The variables of `tim.s` that hold the time. -/
structure TimeVars where
  year : Word
  month : Word
  day : Word
  hour : Word
  min : Word
  sec : Word
  deriving DecidableEq, Repr

/-- The two digits under their masks. -/
def digits (tens : Word) (value : Word) : Word := ((value >>> 4) &&& tens) * 10 + (value &&& 0xF)

/-- `get_fattime`. -/
def getFattime (vars : TimeVars) : Word :=
  digits 0x7 vars.year <<< 25
    ||| digits 0x1 vars.month <<< 21
    ||| digits 0x3 vars.day <<< 16
    ||| digits 0x3 vars.hour <<< 11
    ||| digits 0x7 vars.min <<< 5
    ||| digits 0x7 vars.sec >>> 1

/-- The half of the word that `get_fileinfo` gives as the date. -/
def dateHalf (stamp : Word) : BitVec 16 := stamp.extractLsb' 16 16

/-- The half that it gives as the time. -/
def timeHalf (stamp : Word) : BitVec 16 := stamp.extractLsb' 0 16

/-- What `Cmd_ls` prints of the two halves. -/
def shown (fdate ftime : BitVec 16) : List Nat :=
  [(fdate >>> 9).toNat + 1980, ((fdate >>> 5) &&& 15).toNat, (fdate &&& 31).toNat,
    (ftime >>> 11).toNat, ((ftime >>> 5) &&& 63).toNat, (ftime &&& 31).toNat * 2]

/-- `Cmd_ls` prints an entry with its time stamp. -/
theorem printEntry_eq (info : FileInfo) : printEntry info = (do
    .lift (.consolePrintf "%s" [.text info.fname])
    .lift (.consolePrintf " " [.number (padding info.fname.length)])
    .lift (.consolePrintf "%d/%d/%d %d:%d:%d    "
      ((shown info.fdate info.ftime).map fun value => .number value))
    if info.fattrib &&& 0x10 = 0x10 then
      .lift (.consolePrintf "dir\n\r" [])
    else
      .lift (.consolePrintf "%d bytes\n\r" [.number info.fsize.toNat])) := rfl

/-! ## Times of the clock -/

/-- The days of a month, where every fourth year is a leap year. -/
def daysIn (year month : Nat) : Nat :=
  match month with
  | 2 => if year % 4 = 0 then 29 else 28
  | 4 | 6 | 9 | 11 => 30
  | _ => 31

theorem daysIn_le (year month : Nat) : daysIn year month ≤ 31 := by
  unfold daysIn
  split
  · split <;> decide
  all_goals decide

/-- A date and time, with the last two digits of the year. -/
structure DateTime where
  year : Nat
  month : Nat
  day : Nat
  hour : Nat
  min : Nat
  sec : Nat
  year_lt : year < 100
  month_pos : 0 < month
  month_le : month ≤ 12
  day_pos : 0 < day
  day_le : day ≤ daysIn year month
  hour_lt : hour < 24
  min_lt : min < 60
  sec_lt : sec < 60

/-- Two digits in BCD. -/
def bcd (value : Nat) : Word := BitVec.ofNat 32 (value / 10 * 16 + value % 10)

namespace DateTime

variable (time other : DateTime)

/-- What the clock shows. -/
def reading : TimeVars where
  year := bcd time.year
  month := bcd time.month
  day := bcd time.day
  hour := bcd time.hour
  min := bcd time.min
  sec := bcd time.sec

/-- A date and time is before another one. -/
def Before : Prop :=
  time.year < other.year ∨ time.year = other.year ∧
    (time.month < other.month ∨ time.month = other.month ∧
      (time.day < other.day ∨ time.day = other.day ∧
        (time.hour < other.hour ∨ time.hour = other.hour ∧
          (time.min < other.min ∨ time.min = other.min ∧ time.sec < other.sec))))

/-- The time stamp of the file system. -/
def stamp : Word := getFattime time.reading

/-- The year, month, day, hour, minute, and the seconds rounded down to even, are what is
printed. -/
def ShownRight : Prop :=
  shown (dateHalf time.stamp) (timeHalf time.stamp) =
    [1980 + time.year, time.month, time.day, time.hour, time.min, time.sec / 2 * 2]

end DateTime

section Digits

/-- The low bits of a word. -/
theorem toNat_and_low {width : Nat} (value : BitVec width) (size : Nat)
    (fits : 2 ^ size - 1 < 2 ^ width) :
    (value &&& BitVec.ofNat width (2 ^ size - 1)).toNat = value.toNat % 2 ^ size := by
  rw [BitVec.toNat_and, BitVec.toNat_ofNat, Nat.mod_eq_of_lt fits, Nat.and_two_pow_sub_one_eq_mod]

/-- A number of two digits, the first of them cut to its mask. -/
theorem toNat_digits {tens : Word} {value size : Nat}
    (mask : tens = BitVec.ofNat 32 (2 ^ size - 1)) (narrow : size ≤ 4) (small : value < 100) :
    (digits tens (bcd value)).toNat = value / 10 % 2 ^ size * 10 + value % 10 := by
  have bounded : 2 ^ size ≤ 2 ^ 4 := Nat.pow_le_pow_right (by decide) narrow
  have cut : value / 10 % 2 ^ size ≤ value / 10 := Nat.mod_le _ _
  have high : ((value / 10 * 16 + value % 10) % 2 ^ 32) >>> 4 = value / 10 := by
    rw [Nat.shiftRight_eq_div_pow]
    omega
  have low : (value / 10 * 16 + value % 10) % 2 ^ 32 % 2 ^ 4 = value % 10 := by omega
  have last : (bcd value &&& 0xF).toNat = _ := toNat_and_low (bcd value) 4 (by decide)
  rw [digits, mask, BitVec.toNat_add, BitVec.toNat_mul, last, toNat_and_low _ size (by omega), bcd,
    BitVec.toNat_ushiftRight, BitVec.toNat_ofNat, high, low, show (10 : Word).toNat = 10 from rfl]
  omega

/-- A number whose first digit fits is not cut. -/
theorem toNat_digits_of_lt {tens : Word} {value size : Nat}
    (mask : tens = BitVec.ofNat 32 (2 ^ size - 1)) (narrow : size ≤ 3)
    (fits : value < 10 * 2 ^ size) : (digits tens (bcd value)).toNat = value := by
  have bounded : 2 ^ size ≤ 2 ^ 3 := Nat.pow_le_pow_right (by decide) narrow
  have first : value / 10 < 2 ^ size := Nat.div_lt_of_lt_mul fits
  rw [toNat_digits mask (narrow.trans (by decide)) (by omega), Nat.mod_eq_of_lt first]
  omega

/-- Two words are put together where the one is aligned behind the other. -/
theorem toNat_or_of_aligned {high low : Word} {shift : Nat} (aligned : 2 ^ shift ∣ high.toNat)
    (small : low.toNat < 2 ^ shift) : (high ||| low).toNat = high.toNat + low.toNat := by
  rcases aligned with ⟨part, same⟩
  rw [BitVec.toNat_or, same, Nat.two_pow_add_eq_or_of_lt small]

/-- A field that is put behind the ones before it. -/
theorem toNat_or_shift {high value : Word} {shift size : Nat}
    (aligned : 2 ^ (shift + size) ∣ high.toNat)
    (small : value.toNat < 2 ^ size) (fits : shift + size ≤ 32) :
    (high ||| value <<< shift).toNat = high.toNat + value.toNat * 2 ^ shift := by
  have less : value.toNat * 2 ^ shift < 2 ^ (shift + size) := by
    rw [Nat.pow_add, Nat.mul_comm]
    exact Nat.mul_lt_mul_of_pos_left small (Nat.two_pow_pos _)
  have shifted : (value <<< shift).toNat = value.toNat * 2 ^ shift := by
    rw [BitVec.toNat_shiftLeft, Nat.shiftLeft_eq]
    exact Nat.mod_eq_of_lt (less.trans_le (Nat.pow_le_pow_right (by decide) fits))
  rw [toNat_or_of_aligned aligned (shifted.trans_lt less), shifted]

/-- The fields of a time stamp. -/
theorem toNat_pack {year month day hour min sec : Word} (year_lt : year.toNat < 2 ^ 7)
    (month_lt : month.toNat < 2 ^ 4) (day_lt : day.toNat < 2 ^ 5) (hour_lt : hour.toNat < 2 ^ 5)
    (min_lt : min.toNat < 2 ^ 6) (sec_lt : sec.toNat < 2 ^ 5) :
    (year <<< 25 ||| month <<< 21 ||| day <<< 16 ||| hour <<< 11 ||| min <<< 5 ||| sec).toNat =
      year.toNat * 2 ^ 25 + month.toNat * 2 ^ 21 + day.toNat * 2 ^ 16 + hour.toNat * 2 ^ 11 +
        min.toNat * 2 ^ 5 + sec.toNat := by
  have first : (year <<< 25).toNat = year.toNat * 2 ^ 25 := by
    rw [BitVec.toNat_shiftLeft, Nat.shiftLeft_eq]
    exact Nat.mod_eq_of_lt (by omega)
  have second : (year <<< 25 ||| month <<< 21).toNat = _ :=
    @toNat_or_shift _ _ 21 4 (by omega) month_lt (by decide)
  have third : (year <<< 25 ||| month <<< 21 ||| day <<< 16).toNat = _ :=
    @toNat_or_shift _ _ 16 5 (by omega) day_lt (by decide)
  have fourth : (year <<< 25 ||| month <<< 21 ||| day <<< 16 ||| hour <<< 11).toNat = _ :=
    @toNat_or_shift _ _ 11 5 (by omega) hour_lt (by decide)
  have fifth : (year <<< 25 ||| month <<< 21 ||| day <<< 16 ||| hour <<< 11 |||
      min <<< 5).toNat = _ := @toNat_or_shift _ _ 5 6 (by omega) min_lt (by decide)
  have aligned : 2 ^ 5 ∣ (year <<< 25 ||| month <<< 21 ||| day <<< 16 ||| hour <<< 11 |||
      min <<< 5).toNat := by omega
  rw [toNat_or_of_aligned aligned sec_lt, fifth, fourth, third, second, first]

end Digits

namespace DateTime

variable (time other : DateTime)

/-- The year with its first digit cut to three bits. -/
def cutYear : Nat := time.year / 10 % 8 * 10 + time.year % 10

theorem cutYear_lt : time.cutYear < 80 := by
  unfold cutYear
  omega

theorem cutYear_eq_iff : time.cutYear = time.year ↔ time.year < 80 := by
  have bound := time.year_lt
  unfold cutYear
  omega

/-- The fields of the time stamp. -/
theorem stamp_toNat : time.stamp.toNat = time.cutYear * 2 ^ 25 + time.month * 2 ^ 21 +
    time.day * 2 ^ 16 + time.hour * 2 ^ 11 + time.min * 2 ^ 5 + time.sec / 2 := by
  have bounds := And.intro time.month_le (And.intro (time.day_le.trans (daysIn_le _ _))
    (And.intro time.hour_lt (And.intro time.min_lt time.sec_lt)))
  have cut := time.cutYear_lt
  have year : (digits 0x7 (bcd time.year)).toNat = time.cutYear :=
    @toNat_digits _ _ 3 rfl (by decide) time.year_lt
  have month : (digits 0x1 (bcd time.month)).toNat = time.month :=
    @toNat_digits_of_lt _ _ 1 rfl (by decide) (by omega)
  have day : (digits 0x3 (bcd time.day)).toNat = time.day :=
    @toNat_digits_of_lt _ _ 2 rfl (by decide) (by omega)
  have hour : (digits 0x3 (bcd time.hour)).toNat = time.hour :=
    @toNat_digits_of_lt _ _ 2 rfl (by decide) (by omega)
  have min : (digits 0x7 (bcd time.min)).toNat = time.min :=
    @toNat_digits_of_lt _ _ 3 rfl (by decide) (by omega)
  have sec : (digits 0x7 (bcd time.sec)).toNat = time.sec :=
    @toNat_digits_of_lt _ _ 3 rfl (by decide) (by omega)
  have half : (digits 0x7 (bcd time.sec) >>> 1).toNat = time.sec / 2 := by
    rw [BitVec.toNat_ushiftRight, sec, Nat.shiftRight_eq_div_pow]
  have packed := toNat_pack (year.trans_lt (by omega)) (month.trans_lt (by omega))
    (day.trans_lt (by omega)) (hour.trans_lt (by omega)) (min.trans_lt (by omega))
    (half.trans_lt (by omega))
  rw [year, month, day, hour, min, half] at packed
  exact packed

/-- What is printed of a time stamp. -/
theorem shown_stamp : shown (dateHalf time.stamp) (timeHalf time.stamp) =
    [time.cutYear + 1980, time.month, time.day, time.hour, time.min, time.sec / 2 * 2] := by
  have bounds := And.intro time.month_le (And.intro (time.day_le.trans (daysIn_le _ _))
    (And.intro time.hour_lt (And.intro time.min_lt time.sec_lt)))
  have cut := time.cutYear_lt
  have stamp := time.stamp_toNat
  have date : (dateHalf time.stamp).toNat = time.stamp.toNat / 2 ^ 16 % 2 ^ 16 := by
    rw [dateHalf, BitVec.extractLsb'_toNat, Nat.shiftRight_eq_div_pow]
  have clock : (timeHalf time.stamp).toNat = time.stamp.toNat % 2 ^ 16 := by
    rw [timeHalf, BitVec.extractLsb'_toNat, Nat.shiftRight_zero]
  have month := toNat_and_low (dateHalf time.stamp >>> 5) 4 (by decide)
  have day := toNat_and_low (dateHalf time.stamp) 5 (by decide)
  have min := toNat_and_low (timeHalf time.stamp >>> 5) 6 (by decide)
  have sec := toNat_and_low (timeHalf time.stamp) 5 (by decide)
  rw [BitVec.toNat_ushiftRight, Nat.shiftRight_eq_div_pow] at month min
  have year : (dateHalf time.stamp >>> 9).toNat = (dateHalf time.stamp).toNat / 2 ^ 9 := by
    rw [BitVec.toNat_ushiftRight, Nat.shiftRight_eq_div_pow]
  have hour : (timeHalf time.stamp >>> 11).toNat = (timeHalf time.stamp).toNat / 2 ^ 11 := by
    rw [BitVec.toNat_ushiftRight, Nat.shiftRight_eq_div_pow]
  simp only [shown, List.cons.injEq, and_true]
  refine ⟨by omega, month.trans (by omega), day.trans (by omega), by omega, min.trans (by omega),
    ?_⟩
  exact congrArg (· * 2) (sec.trans (by omega))

theorem shownRight_iff : time.ShownRight ↔ time.year < 80 := by
  unfold ShownRight
  rw [shown_stamp, List.cons.injEq, ← cutYear_eq_iff]
  constructor
  · rintro ⟨year, _⟩
    omega
  · intro year
    exact ⟨by omega, rfl⟩

/-- A later time in the first eighty years has no smaller time stamp. -/
theorem Before.stamp_le {time other : DateTime} (before : time.Before other)
    (early : time.year < 80) (early' : other.year < 80) : time.stamp ≤ other.stamp := by
  have bounds := And.intro time.month_le (And.intro (time.day_le.trans (daysIn_le _ _))
    (And.intro time.hour_lt (And.intro time.min_lt time.sec_lt)))
  have bounds' := And.intro other.month_le (And.intro (other.day_le.trans (daysIn_le _ _))
    (And.intro other.hour_lt (And.intro other.min_lt other.sec_lt)))
  have year := time.cutYear_eq_iff.mpr early
  have year' := other.cutYear_eq_iff.mpr early'
  rw [BitVec.le_def, stamp_toNat, stamp_toNat, year, year']
  unfold Before at before
  omega

/-- Two times are printed right, and the time stamp of the later one is not smaller. -/
structure Stamped (time other : DateTime) : Prop where
  first : time.ShownRight
  second : other.ShownRight
  monotone : time.Before other → time.stamp ≤ other.stamp

/-- Times are stamped right exactly in the first eighty years. -/
theorem stamped_iff (time other : DateTime) :
    Stamped time other ↔ time.year < 80 ∧ other.year < 80 := by
  constructor
  · intro stamped
    exact ⟨time.shownRight_iff.mp stamped.first, other.shownRight_iff.mp stamped.second⟩
  · rintro ⟨early, early'⟩
    exact ⟨time.shownRight_iff.mpr early, other.shownRight_iff.mpr early',
      fun before => before.stamp_le early early'⟩

/-- The first second of the year 79. -/
def newYear79 : DateTime :=
  ⟨79, 1, 1, 0, 0, 0, by decide, by decide, by decide, by decide, by decide, by decide, by decide,
    by decide⟩

/-- The first second of the year 80. -/
def newYear80 : DateTime :=
  ⟨80, 1, 1, 0, 0, 0, by decide, by decide, by decide, by decide, by decide, by decide, by decide,
    by decide⟩

/-- The year 80 is printed as 1980 and has a smaller time stamp than the year 79. -/
theorem not_stamped : ¬ ∀ time other : DateTime, Stamped time other := by
  intro claim
  have early := ((stamped_iff newYear79 newYear80).mp (claim newYear79 newYear80)).2
  exact absurd early (by decide)

end DateTime

end BbbEth.FatFs
