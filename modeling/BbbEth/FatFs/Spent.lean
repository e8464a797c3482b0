import BbbEth.FatFs.Service

/-!
# A write after one that was cut short

Where `f_write` finds no free cluster it leaves the counter of sectors at 0.  The next `f_write`
counts it down to 255, and takes the sectors behind the current one for sectors of the file,
whatever file they are of.
-/

namespace BbbEth.FatFs

open BbbEth.Console BbbEth.Stateful

/-- A sector of a buffer. -/
def sectorOf (buff : Nat → Byte) (index : Nat) : Sector :=
  fun offset => buff (sSiz * index + offset)

/-- A write that goes on behind the file. -/
structure Spilling (fs : Fatfs) (fp : Fil) (buff : Nat → Byte) (btw : Nat) (now : Transfer)
    (state : Fatfs) : Prop where
  total : now.done + now.left = btw
  source : now.buff = buff
  fptr : now.fp.fptr = fp.fptr + now.done
  fsize : now.fp.fsize = fp.fsize
  chain : now.fp.orgClust = fp.orgClust ∧ now.fp.currClust = fp.currClust
  shape : state = { fs with card := state.card }
  later : fs.card.Later state.card
  data : ∀ index < now.done / sSiz, state.card.data (fp.currSect + 1 + index) = sectorOf buff index
  frame : ∀ number, (number < fp.currSect ∨ fp.currSect + btw / sSiz < number) →
    state.card.data number = fs.card.data number

/-- A write that is not at its end. -/
structure SpillingOn (fs : Fatfs) (fp : Fil) (buff : Nat → Byte) (btw : Nat) (now : Transfer)
    (state : Fatfs) : Prop extends Spilling fs fp buff btw now state where
  whole : now.done % sSiz = 0
  counter : now.fp.sectClust = (2 ^ 8 - now.done / sSiz) % 2 ^ 8
  currSect : now.fp.currSect = fp.currSect + now.done / sSiz
  dirty : now.fp.flag.dirty = true → now.done = 0

/-- A write at the start of a sector behind the file. -/
structure SpillingAt (fs : Fatfs) (fp : Fil) (buff : Nat → Byte) (btw : Nat) (now : Transfer)
    (state : Fatfs) : Prop extends Spilling fs fp buff btw now state where
  whole : now.done % sSiz = 0
  counter : now.fp.sectClust = 2 ^ 8 - 1 - now.done / sSiz
  currSect : now.fp.currSect = fp.currSect + now.done / sSiz + 1
  clean : now.fp.flag.dirty = false

/-- A write at the end of a file whose last write was cut short. -/
structure CutShort (fs : Fatfs) (fp : Fil) (btw : Nat) : Prop where
  drive : fs.drive = driveNumMmc
  counter : fp.sectClust = 0
  aligned : fp.fptr % sSiz = 0
  behind : fp.fsize ≤ fp.fptr
  small : fp.fptr + btw < 2 ^ 32
  number : fp.currSect + btw / sSiz + 1 < 2 ^ 32
  word : btw < 2 ^ 16

section Rounds

variable {fs state after : Fatfs} {fp : Fil} {buff : Nat → Byte} {btw : Nat} {now : Transfer}

/-- The end of the loop. -/
def SpillEnds (fs : Fatfs) (fp : Fil) (buff : Nat → Byte) (btw : Nat) (ended : FResult × Transfer)
    (after : Fatfs) : Prop :=
  (ended.1 = .ok ∧ ended.2.left = 0 ∧ Spilling fs fp buff btw ended.2 after) ∨
    (ended.1 = .rwError ∧ fs.card.Failed after.card)

/-- A round ends the loop, or leaves less to write. -/
def SpillGoes (fs : Fatfs) (fp : Fil) (buff : Nat → Byte) (btw : Nat) (now : Transfer)
    (step : Transfer ⊕ (FResult × Transfer)) (after : Fatfs) : Prop :=
  step.elim
    (fun later => later.left < now.left ∧ Spilling fs fp buff btw later after ∧
      (later.left ≠ 0 → SpillingOn fs fp buff btw later after))
    (fun ended => SpillEnds fs fp buff btw ended after)

theorem Spilling.drive (spilling : Spilling fs fp buff btw now state) (cut : CutShort fs fp btw) :
    state.drive = driveNumMmc := by
  rw [spilling.shape]
  exact cut.drive

/-- Behind whole sectors the write is at the start of a sector. -/
theorem Spilling.aligned (spilling : Spilling fs fp buff btw now state) (cut : CutShort fs fp btw)
    (whole : now.done % sSiz = 0) : now.fp.fptr % sSiz = 0 := by
  have start := cut.aligned
  rw [spilling.fptr]
  unfold sSiz at whole start ⊢
  omega

/-- The rest of a sector goes into the buffer of the file object. -/
theorem Spilling.fill (spilling : Spilling fs fp buff btw now state)
    (small : fp.fptr + btw < 2 ^ 32) (whole : now.done % sSiz = 0) (rest : now.left < sSiz)
    (aligned : now.fp.fptr % sSiz = 0) :
    now.fill.left = 0 ∧ Spilling fs fp buff btw now.fill state := by
  have total := spilling.total
  have place := spilling.fptr
  have part : now.part = now.left := by
    unfold Transfer.part
    rw [aligned]
    split <;> omega
  have moved := @Transfer.fill_fp now (by omega)
  have done : now.fill.done = now.done + now.left := congrArg (now.done + ·) part
  have left : now.fill.left = 0 := by
    change now.left - now.part = 0
    omega
  have blocks : now.fill.done / sSiz = now.done / sSiz := by
    rw [done]
    unfold sSiz at whole rest ⊢
    omega
  refine ⟨left, ⟨by omega, spilling.source, ?_, ?_, ?_, spilling.shape, spilling.later, ?_,
    spilling.frame⟩⟩
  · rw [moved, done]
    change now.fp.fptr + now.part = _
    omega
  · rw [moved]
    exact spilling.fsize
  · rw [moved]
    exact spilling.chain
  · rw [blocks]
    exact spilling.data

/-- The counter after some sectors, and some more. -/
theorem spent_counter {count more : Nat} (some : 0 < more) (few : count + more < 2 ^ 7) :
    2 ^ 8 - 1 - count - (more - 1) = (2 ^ 8 - (count + more)) % 2 ^ 8 := by
  rw [Nat.mod_eq_of_lt (by omega)]
  omega

/-- The counter is enough for all whole sectors. -/
theorem SpillingAt.whole_eq (spilling : SpillingAt fs fp buff btw now state) (word : btw < 2 ^ 16) :
    now.done / sSiz + now.left / sSiz = btw / sSiz ∧ btw / sSiz < 2 ^ 7 ∧
      now.left / sSiz ≤ now.fp.sectClust ∧ now.whole = now.left / sSiz := by
  have total := spilling.total
  have aligned := spilling.whole
  have blocks : now.done / sSiz + now.left / sSiz = btw / sSiz := by
    unfold sSiz at aligned ⊢
    omega
  have enough : btw / sSiz < 2 ^ 7 := by
    unfold sSiz
    omega
  have fits : now.left / sSiz ≤ now.fp.sectClust := by
    rw [spilling.counter]
    exact Nat.le_sub_of_add_le (by omega)
  have below : now.left / sSiz % 2 ^ 8 = now.left / sSiz := by
    refine Nat.mod_eq_of_lt ?_
    have := Nat.le_add_left (now.left / sSiz) (now.done / sSiz)
    omega
  refine ⟨blocks, enough, fits, ?_⟩
  unfold Transfer.whole
  rw [below, if_neg (Nat.not_lt.mpr fits)]

/-- The transfer after the whole sectors. -/
theorem SpillingAt.advanced (spilling : SpillingAt fs fp buff btw now state)
    (cut : CutShort fs fp btw) (some : 0 < now.left / sSiz) :
    let later := (now.skip now.whole).advance (now.whole * sSiz)
    later.fp = now.fp.skip now.whole ∧ later.done = now.done + now.left / sSiz * sSiz ∧
      later.left = now.left - now.left / sSiz * sSiz ∧
      later.done / sSiz = now.done / sSiz + now.left / sSiz := by
  intro later
  have total := spilling.total
  have place := spilling.fptr
  have small := cut.small
  have number := cut.number
  obtain ⟨blocks, _, fits, whole⟩ := spilling.whole_eq cut.word
  rw [← blocks] at number
  have room := Nat.div_mul_le_self now.left sSiz
  have byte : now.fp.sectClust < 2 ^ 8 := by
    rw [spilling.counter]
    exact Nat.lt_of_le_of_lt (Nat.sub_le ..) (by decide)
  have moved : later.fp = now.fp.skip (now.left / sSiz) := by
    unfold later
    rw [whole]
    refine Transfer.skip_fp some fits byte ?_ (by omega)
    rw [spilling.currSect]
    omega
  have done : later.done = now.done + now.left / sSiz * sSiz :=
    congrArg (fun count => now.done + count * sSiz) whole
  refine ⟨moved.trans (congrArg now.fp.skip whole.symm), done,
    congrArg (fun count => now.left - count * sSiz) whole, ?_⟩
  rw [done, Nat.add_mul_div_right _ _ sSiz_pos]

/-- Whole sectors go behind the file. -/
theorem SpillingAt.sectors (spilling : SpillingAt fs fp buff btw now state)
    (cut : CutShort fs fp btw) (some : 0 < now.left / sSiz)
    (shape : after = { state with card := after.card }) (later : state.card.Later after.card)
    (inside : ∀ index < now.left / sSiz,
      after.card.data (fp.currSect + now.done / sSiz + 1 + index) = now.sectors index)
    (outside : ∀ number, ¬ (fp.currSect + now.done / sSiz + 1 ≤ number ∧
      number < fp.currSect + now.done / sSiz + 1 + now.left / sSiz) →
        after.card.data number = state.card.data number) :
    SpillGoes fs fp buff btw now
      (.inl ((now.skip now.whole).advance (now.whole * sSiz))) after := by
  have total := spilling.total
  have place := spilling.fptr
  have counter := spilling.counter
  have aligned := spilling.whole
  obtain ⟨blocks, enough, fits, whole⟩ := spilling.whole_eq cut.word
  rw [← blocks] at enough
  have room := Nat.div_mul_le_self now.left sSiz
  obtain ⟨moved, done, left, index⟩ := spilling.advanced cut some
  have spilled :
      Spilling fs fp buff btw ((now.skip now.whole).advance (now.whole * sSiz)) after := by
    refine ⟨?_, spilling.source, ?_, ?_, ?_, ?_, spilling.later.trans later, ?_, ?_⟩
    · rw [done, left]
      omega
    · rw [moved, done]
      change now.fp.fptr + now.whole * sSiz = _
      rw [whole]
      omega
    · rw [moved]
      exact spilling.fsize
    · rw [moved]
      exact spilling.chain
    · rw [shape, spilling.shape]
    · intro sector below
      rw [index] at below
      by_cases before : sector < now.done / sSiz
      · rw [outside _ (by omega)]
        exact spilling.data sector before
      · obtain ⟨rest, rfl⟩ := Nat.exists_eq_add_of_le (Nat.le_of_not_lt before)
        have written := inside rest (by omega)
        have here : fp.currSect + now.done / sSiz + 1 + rest =
            fp.currSect + 1 + (now.done / sSiz + rest) := by omega
        rw [here] at written
        rw [written]
        funext offset
        unfold Transfer.sectors sectorOf
        rw [spilling.source]
        congr 1
        unfold sSiz at aligned ⊢
        omega
    · intro sector far
      have apart : ¬ (fp.currSect + now.done / sSiz + 1 ≤ sector ∧
          sector < fp.currSect + now.done / sSiz + 1 + now.left / sSiz) := by
        rw [← blocks] at far
        generalize now.done / sSiz = before at far ⊢
        omega
      rw [outside sector apart]
      exact spilling.frame sector far
  refine ⟨?_, spilled, fun more => ⟨spilled, ?_, ?_, ?_, ?_⟩⟩
  · rw [left]
    unfold sSiz at some ⊢
    omega
  · rw [done, Nat.add_mul_mod_self_right]
    exact aligned
  · rw [moved, index]
    change now.fp.sectClust - (now.whole - 1) = _
    rw [whole, counter]
    exact spent_counter some enough
  · rw [moved, index]
    change now.fp.currSect + (now.whole - 1) = _
    rw [whole, spilling.currSect]
    omega
  · rw [moved]
    intro dirty
    exact absurd (spilling.clean.symm.trans dirty) (by decide)

/-- The next sector is the one behind the current one, in whatever cluster. -/
theorem SpillingOn.writeNext (spilling : SpillingOn fs fp buff btw now state)
    (cut : CutShort fs fp btw) :
    Meets (writeNext now.fp) state fun next after =>
      next = (.sector (fp.currSect + now.done / sSiz + 1), now.fp.countSector) ∧ after = state ∧
        now.fp.countSector.sectClust = 2 ^ 8 - 1 - now.done / sSiz := by
  have few : now.done / sSiz < 2 ^ 7 := by
    have total := spilling.total
    have word := cut.word
    unfold sSiz
    omega
  have counted : now.fp.countSector.sectClust = 2 ^ 8 - 1 - now.done / sSiz := by
    change (now.fp.sectClust + 2 ^ 8 - 1) % 2 ^ 8 = _
    rw [spilling.counter]
    generalize now.done / sSiz = written at few ⊢
    omega
  have follows : now.fp.countSector.nextSector = fp.currSect + now.done / sSiz + 1 := by
    change (now.fp.currSect + 1) % 2 ^ 32 = _
    have total := spilling.total
    have number := cut.number
    have most : now.done / sSiz ≤ btw / sSiz := Nat.div_le_div_right (by omega)
    rw [spilling.currSect]
    exact Nat.mod_eq_of_lt (by omega)
  unfold FatFs.writeNext
  rw [meets_get_bind, if_pos (by omega), meets_pure, follows]
  exact ⟨rfl, rfl, counted⟩

/-- The buffer goes to the sector that it is of. -/
theorem SpillingOn.flush (spilling : SpillingOn fs fp buff btw now state)
    (cut : CutShort fs fp btw)
    (counter : now.fp.countSector.sectClust = 2 ^ 8 - 1 - now.done / sSiz) :
    Meets (flushBuffer now.fp.countSector) state fun flushed after =>
      (flushed.1 = true ∧ SpillingAt fs fp buff btw
        { now with
          fp := { flushed.2 with currSect := fp.currSect + now.done / sSiz + 1 } } after) ∨
      (flushed.1 = false ∧ fs.card.Failed after.card) := by
  refine (flushBuffer_meets (spilling.drive cut)).mono ?_
  rintro flushed after (⟨rfl, wrote, _⟩ | ⟨failure, failed⟩)
  · refine .inl ⟨rfl, ⟨spilling.total, spilling.source, spilling.fptr, spilling.fsize,
      spilling.chain, ?_, spilling.later.trans wrote.later, ?_, ?_⟩, spilling.whole, counter, rfl,
      rfl⟩
    · rw [wrote.shape, spilling.shape]
    · intro index below
      rw [wrote.data]
      · exact spilling.data index below
      · -- The buffer is written in the first round only.
        rintro ⟨dirty, _⟩
        rw [spilling.dirty dirty, Nat.zero_div] at below
        exact absurd below (Nat.not_lt_zero index)
    · intro number far
      rw [wrote.data]
      · exact spilling.frame number far
      · rintro ⟨dirty, here⟩
        have first := spilling.dirty dirty
        have place : now.fp.countSector.currSect = fp.currSect := by
          change now.fp.currSect = _
          rw [spilling.currSect, first]
          rfl
        generalize btw / sSiz = count at far
        omega
  · exact .inr ⟨failure, .after spilling.later failed⟩

/-- At the start of a sector behind the file, the card or the buffer is written. -/
theorem SpillingAt.sector (spilling : SpillingAt fs fp buff btw now state)
    (cut : CutShort fs fp btw) (left : 0 < now.left) :
    Meets (writeSector now (fp.currSect + now.done / sSiz + 1)) state fun step after =>
      SpillGoes fs fp buff btw now step after := by
  have total := spilling.total
  have word := cut.word
  have quotient : now.left / sSiz % 2 ^ 8 = now.left / sSiz := by
    unfold sSiz
    omega
  have aligned := spilling.aligned cut spilling.whole
  obtain ⟨_, _, _, whole⟩ := spilling.whole_eq word
  unfold writeSector
  split
  next some =>
    rw [meets_bind, meets_diskWrite (spilling.drive cut)]
    cases success : (state.card.write (fp.currSect + now.done / sSiz + 1) now.whole
        now.sectors).1 with
    | false =>
        rw [if_neg (by decide)]
        exact meets_pure.mpr (.inr ⟨rfl, .after spilling.later (Card.write_failed success)⟩)
    | true =>
        rw [if_pos rfl]
        refine meets_pure.mpr (spilling.sectors cut (by omega) rfl Card.write_later ?_ ?_)
        · intro index below
          rw [← whole] at below
          have placed :
              fp.currSect + now.done / sSiz + 1 ≤ fp.currSect + now.done / sSiz + 1 + index ∧
                fp.currSect + now.done / sSiz + 1 + index <
                  fp.currSect + now.done / sSiz + 1 + now.whole :=
            ⟨Nat.le_add_right .., Nat.add_lt_add_left below _⟩
          have written := Card.write_data_inside success placed
          rwa [Nat.add_sub_cancel_left] at written
        · intro number outside
          rw [← whole] at outside
          exact Card.write_data_outside outside
  next none =>
    have behind : ¬ now.fp.fptr < now.fp.fsize := by
      rw [spilling.fptr, spilling.fsize]
      have := cut.behind
      omega
    rw [if_neg behind]
    have rest : now.left < sSiz := by
      unfold sSiz at none quotient ⊢
      omega
    obtain ⟨ends, filled⟩ := spilling.toSpilling.fill cut.small spilling.whole rest aligned
    refine meets_pure.mpr ⟨by omega, filled, fun more => absurd ends more⟩

/-- A round of `f_write` writes behind the file, or ends. -/
theorem SpillingOn.round (spilling : SpillingOn fs fp buff btw now state)
    (cut : CutShort fs fp btw) : Meets (writeRound now) state fun step after =>
      SpillGoes fs fp buff btw now step after := by
  unfold writeRound
  split
  next none => exact meets_pure.mpr (.inl ⟨rfl, none, spilling.toSpilling⟩)
  next some =>
    rw [if_pos (spilling.aligned cut spilling.whole)]
    refine Meets.bind (spilling.writeNext cut) ?_
    rintro _ _ ⟨rfl, rfl, counter⟩
    refine Meets.bind (spilling.flush cut counter) ?_
    rintro ⟨flushed, object⟩ after (⟨success, here⟩ | ⟨failure, failed⟩)
    · obtain rfl : flushed = true := success
      dsimp only at here ⊢
      rw [if_pos rfl]
      exact here.sector cut (Nat.pos_of_ne_zero some)
    · obtain rfl : flushed = false := failure
      exact meets_pure.mpr (.inr ⟨rfl, failed⟩)

end Rounds

/-! ## The call -/

section Call

variable {fs : Fatfs} {fp : Fil} {buff : Nat → Byte} {btw : Nat}

theorem CutShort.spilling (cut : CutShort fs fp btw) :
    SpillingOn fs fp buff btw ⟨fp, buff, 0, btw⟩ fs where
  total := Nat.zero_add btw
  source := rfl
  fptr := rfl
  fsize := rfl
  chain := ⟨rfl, rfl⟩
  shape := rfl
  later := .refl
  data index below := by
    rw [Nat.zero_div] at below
    exact absurd below (Nat.not_lt_zero index)
  frame _ _ := rfl
  whole := rfl
  counter := by
    have start : (2 ^ 8 - 0 / sSiz) % 2 ^ 8 = 0 := by decide
    exact cut.counter.trans start.symm
  currSect := (congrArg (fp.currSect + ·) (Nat.zero_div sSiz)).symm
  dirty _ := rfl

end Call

/-! ## Two calls -/

section Calls

variable {ι : Type} {session next : Session ι} {lost : Nat → Prop} {file : ι → Prop} {owner : ι}
variable {content : Nat → Byte} {fp : Fil} {buff data : Nat → Byte} {btw more : Nat}
variable {last : Transfer}

/-- The file object stays valid. -/
theorem Session.Written.usable
    (written : session.Written next lost file owner content fp buff btw last)
    (usable : fp.Usable session.fs) :
    last.fp.Usable next.fs ∧ last.fp.flag.write = fp.flag.write := by
  obtain ⟨kept, _⟩ := Fil.Kept.of_fixed written.fixed
  refine ⟨⟨kept.mounted.trans usable.mounted, ?_, kept.error.trans usable.fine⟩, kept.write⟩
  rw [kept.id, written.served.around.geometry]
  exact usable.id

end Calls

/-! ### A file that takes the whole volume -/

end BbbEth.FatFs
