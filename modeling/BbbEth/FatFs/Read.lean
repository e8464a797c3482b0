import BbbEth.FatFs.Open

/-!
# `f_read`

What `f_read` gives is the content of the file at the position of the file object, as far as the
file goes.
-/

namespace BbbEth.FatFs

open BbbEth.Console BbbEth.Stateful BbbEth.Linked

/-! ## Sector boundaries -/

/-- The file object in a block of its chain. -/
def Fil.enter (fp : Fil) (geometry : Geometry) (cells : List Nat) (index : Nat) : Fil :=
  { fp with
    currClust := cells.getD (index / geometry.sectsClust) 0
    sectClust := geometry.sectsClust - index % geometry.sectsClust }

/-- The file object with its buffer written back, at the start of a block. -/
def Fil.reach (fp : Fil) (geometry : Geometry) (cells : List Nat) (index : Nat) : Fil :=
  { (fp.enter geometry cells index).setDirty false with currSect := geometry.block cells index }

/-- The next block is in the same cluster or in the next one. -/
theorem div_mod_succ {size : Nat} (index : Nat) (positive : 0 < size) :
    (index % size + 1 < size ∧ (index + 1) / size = index / size ∧
      (index + 1) % size = index % size + 1) ∨
    (index % size + 1 = size ∧ (index + 1) / size = index / size + 1 ∧ (index + 1) % size = 0) := by
  have split : index + 1 = index % size + 1 + size * (index / size) := by
    have := Nat.div_add_mod index size
    omega
  have below := Nat.mod_lt index positive
  rw [split, Nat.add_mul_div_left _ _ positive, Nat.add_mul_mod_self_left]
  by_cases last : index % size + 1 = size
  · exact .inr ⟨last, by rw [last, Nat.div_self positive, Nat.add_comm], by
      rw [last, Nat.mod_self]⟩
  · have more : index % size + 1 < size := by omega
    exact .inl ⟨more, by rw [Nat.div_eq_of_lt more, Nat.zero_add], Nat.mod_eq_of_lt more⟩

namespace Fatfs

variable {fs after : Fatfs} {cells : List Nat} {size index : Nat} {content : Nat → Byte} {fp : Fil}

theorem sectClust_count {clust : Nat} (positive : 0 < clust) (small : clust < 2 ^ 8) :
    (clust + 2 ^ 8 - 1) % 2 ^ 8 = clust - 1 := by omega

/-- At a sector boundary the file object goes on in its cluster, or it is at the end of it. -/
theorem Shows.turn (shows : fs.Shows cells size content fp) (wellFormed : fs.WellFormed)
    (clusters : ∀ clust ∈ cells, fs.Cluster clust) (boundary : fp.fptr = sSiz * index) :
    (fp.countSector = fp.enter fs.toGeometry cells index ∧ fp.countSector.sectClust ≠ 0 ∧
      fp.countSector.nextSector = fs.block cells index ∧ index < fs.blocks cells) ∨
    (fp.countSector.sectClust = 0 ∧ index % fs.sectsClust = 0 ∧
      (index = 0 ∨ 0 < index ∧ ∃ before, index / fs.sectsClust = before + 1 ∧
        before < cells.length ∧ fp.currClust = cells.getD before 0)) := by
  have positive := wellFormed.sectsClust
  have limit := wellFormed.sectors
  cases index with
  | zero =>
      refine .inr ⟨?_, Nat.zero_mod _, .inl rfl⟩
      change (fp.sectClust + 2 ^ 8 - 1) % 2 ^ 8 = 0
      have := (shows.top boundary).1
      omega
  | succ index =>
      have least : 0 < fp.fptr := by
        unfold sSiz at boundary
        omega
      have same : (fp.fptr - 1) / sSiz = index := by
        unfold sSiz at boundary ⊢
        omega
      have within := shows.within least
      rw [same] at within
      have count := within.sectClust
      rcases div_mod_succ index positive with ⟨more, quotient, place⟩ | ⟨last, quotient, place⟩
      · have sector := within.currSect (.inr (.inr more))
        have cell := Geometry.cell_mem within.inside
        have holds : fs.Holds (cells.getD (index / fs.sectsClust) 0) (fs.block cells (index + 1)) := by
          rw [← quotient]
          exact wellFormed.holds_block
        have small := (wellFormed.holds_bounds (clusters _ cell) holds).2
        have next : fs.block cells (index + 1) = fs.block cells index + 1 := Geometry.block_add more
        have counted : fp.countSector.sectClust = fs.sectsClust - (index + 1) % fs.sectsClust := by
          change (fp.sectClust + 2 ^ 8 - 1) % 2 ^ 8 = _
          rw [sectClust_count (by omega) (by omega)]
          omega
        refine .inl ⟨?_, by omega, ?_, ?_⟩
        · unfold Fil.enter
          rw [quotient, ← within.currClust, ← counted]
          rfl
        · change (fp.currSect + 1) % 2 ^ 32 = _
          rw [sector, ← next, Nat.mod_eq_of_lt small]
        · have inside := within.inside
          have split := Nat.div_add_mod (index + 1) fs.sectsClust
          have most : (index / fs.sectsClust + 1) * fs.sectsClust ≤ fs.blocks cells :=
            Nat.mul_le_mul_right _ (Geometry.cell_lt inside)
          rw [Nat.succ_mul, Nat.mul_comm] at most
          rw [quotient] at split
          omega
      · refine .inr ⟨?_, place, .inr ⟨Nat.succ_pos _, index / fs.sectsClust, quotient,
          Geometry.cell_lt within.inside, within.currClust⟩⟩
        change (fp.sectClust + 2 ^ 8 - 1) % 2 ^ 8 = 0
        rw [sectClust_count (by omega) (by omega)]
        omega

/-- At the end of a cluster the next one is entered. -/
theorem enter_eq {clust : Nat} (place : index % fs.sectsClust = 0)
    (cell : cells.getD (index / fs.sectsClust) 0 = clust) :
    ({ fp.countSector with currClust := clust, sectClust := fs.sectsClust } : Fil) =
      fp.enter fs.toGeometry cells index := by
  unfold Fil.enter
  rw [place, cell]
  rfl

/-- After the buffer is written back the card has what the file object showed. -/
theorem Shows.reach (shows : fs.Shows cells size content fp)
    (geometry : after.toGeometry = fs.toGeometry)
    (data : ∀ index < fs.blocks cells,
      after.card.data (fs.block cells index) = fs.shown fp (fs.block cells index))
    (boundary : fp.fptr = sSiz * index) (inside : index < fs.blocks cells) :
    after.Ready cells size content (fp.reach fs.toGeometry cells index) index where
  first := shows.first
  room := by
    rw [geometry]
    exact shows.room
  bytes position below := by
    rw [geometry, data _ (block_of_lt shows.room below)]
    exact shows.bytes position below
  fptr := boundary
  dirty := rfl
  inside := by
    rw [geometry]
    exact inside
  currClust := by
    rw [geometry]
    rfl
  sectClust := by
    rw [geometry]
    rfl
  currSect := by
    rw [geometry]
    rfl

end Fatfs

/-- The buffer is written back to its place on the card. -/
theorem flushBuffer_meets {fs : Fatfs} {fp : Fil} (drive : fs.drive = driveNumMmc) :
    Meets (flushBuffer fp) fs fun flushed after =>
      (flushed = (true, fp.setDirty false) ∧
        fs.Wrote (fun number => fp.flag.dirty = true ∧ number = fp.currSect) after ∧
        ∀ number, after.card.data number = fs.shown fp number) ∨
      (flushed.1 = false ∧ fs.card.Failed after.card) := by
  unfold flushBuffer
  cases dirty : fp.flag.dirty with
  | false =>
      rw [if_neg (by decide), meets_pure]
      refine .inl ⟨?_, ⟨rfl, .refl, fun _ _ => rfl⟩, fun number => ?_⟩
      · unfold Fil.setDirty
        rw [← dirty]
      · unfold Fatfs.shown
        rw [if_neg (by simp [dirty])]
  | true =>
      rw [if_pos rfl, meets_bind, meets_diskWrite drive, meets_pure]
      cases written : (fs.card.write fp.currSect 1 (single fp.buffer)).1 with
      | false => exact .inr ⟨rfl, Card.write_failed written⟩
      | true =>
          refine .inl ⟨rfl, ⟨rfl, @Card.write_later _ fp.currSect 1 (single fp.buffer),
            fun number other => ?_⟩, fun number => ?_⟩
          · exact Card.write_data_outside fun inside => other ⟨rfl, by omega⟩
          · unfold Fatfs.shown
            by_cases here : fp.currSect = number
            · rw [if_pos ⟨dirty, here⟩]
              exact Card.write_data_inside written (by omega)
            · rw [if_neg fun both => here both.2]
              exact Card.write_data_outside (by omega)

namespace Session

variable {ι : Type} {session : Session ι} {file : ι → Prop} {lost : Nat → Prop} {owner : ι}
variable {size index : Nat} {content : Nat → Byte} {fp : Fil}

/-! ## The next block -/

/-- `f_read` goes on with the next block of the chain. -/
theorem Opened.readNext (opened : session.Opened lost file owner size content fp)
    (boundary : fp.fptr = sSiz * index)
    (inside : index < session.fs.blocks (session.chain owner)) :
    Meets (readNext fp) session.fs fun next after =>
      (next = (some (session.fs.block (session.chain owner) index),
          fp.enter session.fs.toGeometry (session.chain owner) index) ∧
        session.fs.Still after ∧ after.Sound) ∨
      (next.1 = none ∧ session.fs.card.Failed after.card) := by
  have wellFormed := opened.intact.sound.geometry
  have clusters := opened.intact.allocated.inside owner
  have cell := clusters _ (Geometry.cell_mem inside)
  unfold FatFs.readNext
  rw [meets_get_bind]
  rcases opened.shows.turn wellFormed clusters boundary with
    ⟨same, more, next, _⟩ | ⟨ended, place, start⟩
  · rw [if_pos more, meets_pure, next, same]
    exact .inl ⟨rfl, .refl, opened.intact.sound⟩
  · rw [if_neg (Decidable.not_not.mpr ended)]
    have entered : ∀ clust,
        (session.chain owner).getD (index / session.fs.sectsClust) 0 = clust →
        ¬ (clust < 2 ∨ session.fs.maxClust ≤ clust) := by
      rintro clust rfl
      have := cell.1
      have := cell.2
      omega
    have sector := @Geometry.block_of_start _ _ (session.chain owner) place
    rcases start with rfl | ⟨positive, before, quotient, below, current⟩
    · have top : fp.countSector.fptr = 0 := boundary
      have first : (session.chain owner).getD (0 / session.fs.sectsClust) 0 = fp.orgClust := by
        rw [Nat.zero_div, opened.shows.first]
        cases session.chain owner <;> rfl
      rw [if_pos top, meets_bind, meets_pure]
      change Meets (if fp.orgClust < 2 ∨ session.fs.maxClust ≤ fp.orgClust then _ else _) _ _
      rw [if_neg (entered _ first), meets_pure]
      refine .inl ⟨?_, .refl, opened.intact.sound⟩
      rw [← Fatfs.enter_eq place first, sector, first]
      rfl
    · have notTop : ¬ fp.countSector.fptr = 0 := by
        change ¬ fp.fptr = 0
        rw [boundary]
        unfold sSiz
        omega
      rw [if_neg notTop]
      change Meets (FatFs.getCluster fp.currClust >>= _) _ _
      have follows := Geometry.cell_lt inside
      rw [quotient] at follows
      have linked := opened.intact.allocated.entry_getD follows
      rw [← current, ← quotient] at linked
      have member : session.fs.Cluster fp.currClust := by
        rw [current, List.getD_eq_getElem _ _ below]
        exact clusters _ (List.getElem_mem below)
      refine Meets.bind (getCluster_meets opened.intact.sound member.1 member.2) ?_
      rintro clust after (⟨rfl, same, sound⟩ | ⟨rfl, failed⟩)
      · beta_reduce
        rw [if_neg (entered _ linked.symm), meets_pure]
        refine .inl ⟨?_, same, sound⟩
        rw [← Fatfs.enter_eq place linked.symm, sector, linked]
      · beta_reduce
        rw [if_pos (.inl (by decide)), meets_pure]
        exact .inr ⟨rfl, failed⟩

/-- The buffer is written back, and the file object is at the start of the block. -/
theorem Opened.flush (opened : session.Opened lost file owner size content fp)
    (boundary : fp.fptr = sSiz * index)
    (inside : index < session.fs.blocks (session.chain owner)) :
    Meets (flushBuffer (fp.enter session.fs.toGeometry (session.chain owner) index)) session.fs
      fun flushed after =>
        (flushed.1 = true ∧
          ({ flushed.2 with currSect := session.fs.block (session.chain owner) index } : Fil) =
            fp.reach session.fs.toGeometry (session.chain owner) index ∧
          after.Ready (session.chain owner) size content
            (fp.reach session.fs.toGeometry (session.chain owner) index) index ∧
          Accessed lost file (session.Sectors owner) session { session with fs := after }) ∨
        (flushed.1 = false ∧ session.fs.card.Failed after.card) := by
  have shows := opened.shows
  refine (flushBuffer_meets opened.intact.sound.geometry.drive).mono ?_
  rintro _ after (⟨rfl, wrote, data⟩ | failed)
  · refine .inl ⟨rfl, rfl, shows.reach wrote.geometry (fun _ _ => data _) boundary inside, ?_⟩
    refine .wrote opened.intact opened.apart opened.isFile wrote ?_
    rintro number ⟨dirty, rfl⟩
    exact opened.dirty dirty
  · exact .inr failed

end Session

/-! ## A round of `f_read` -/

/-- The file object without what a transfer changes. -/
def Fil.fixed (fp : Fil) : Fil :=
  { fp with
    flag := { fp.flag with dirty := false }
    sectClust := 0
    fptr := 0
    orgClust := 0
    currClust := 0
    currSect := 0
    buffer := Sector.zero }

theorem Fil.fixed_reach {fp : Fil} {geometry : Geometry} {cells : List Nat} {index : Nat} :
    (fp.reach geometry cells index).fixed = fp.fixed := by
  unfold Fil.fixed
  rfl

namespace Fatfs

variable {fs : Fatfs} {cells : List Nat} {size index : Nat} {content : Nat → Byte} {fp : Fil}

/-- A block that is read into the buffer. -/
theorem Ready.load (ready : fs.Ready cells size content fp index) :
    fs.Loaded cells size content { fp with buffer := fs.card.data (fs.block cells index) } index where
  first := ready.first
  room := ready.room
  bytes position below := by
    rw [← ready.bytes position below]
    by_cases here : position / sSiz = index
    · rw [if_pos here, here]
    · rw [if_neg here]
  fptr := by
    change fp.fptr / sSiz = index
    rw [ready.fptr, Nat.mul_div_cancel_left _ sSiz_pos]
  inside := ready.inside
  currClust := ready.currClust
  sectClust := ready.sectClust
  currSect := ready.currSect

end Fatfs

namespace Transfer

variable {transfer : Transfer} {count : Nat}

theorem advance_fp (small : transfer.fp.fptr + count < 2 ^ 32) :
    (transfer.advance count).fp = transfer.fp.forward count := by
  unfold advance Fil.forward
  rw [Nat.mod_eq_of_lt small]

/-- The counters of whole sectors do not overflow. -/
theorem skip_fp (positive : 0 < count) (counted : count ≤ transfer.fp.sectClust)
    (sectors : transfer.fp.sectClust < 2 ^ 8) (number : transfer.fp.currSect + (count - 1) < 2 ^ 32)
    (small : transfer.fp.fptr + count * sSiz < 2 ^ 32) :
    ((transfer.skip count).advance (count * sSiz)).fp = transfer.fp.skip count := by
  have left : (transfer.fp.sectClust + 2 ^ 8 - (count - 1)) % 2 ^ 8 =
      transfer.fp.sectClust - (count - 1) := by omega
  unfold skip advance Fil.skip
  simp only [left, Nat.mod_eq_of_lt number, Nat.mod_eq_of_lt small]

theorem part_pos (left : 0 < transfer.left) : 0 < transfer.part := by
  have := Nat.mod_lt transfer.fp.fptr sSiz_pos
  unfold part
  split <;> omega

theorem part_le : transfer.part ≤ transfer.left ∧
    transfer.fp.fptr % sSiz + transfer.part ≤ sSiz := by
  have := Nat.mod_lt transfer.fp.fptr sSiz_pos
  unfold part
  split <;> omega

theorem whole_pos (sectors : 0 < transfer.fp.sectClust) (some : transfer.left / sSiz % 2 ^ 8 ≠ 0) :
    0 < transfer.whole := by
  unfold whole
  split <;> omega

theorem whole_le : transfer.whole ≤ transfer.fp.sectClust ∧
    transfer.whole * sSiz ≤ transfer.left := by
  have := Nat.mod_le (transfer.left / sSiz) (2 ^ 8)
  have := Nat.div_mul_le_self transfer.left sSiz
  unfold whole sSiz at *
  split <;> omega

end Transfer

/-- How far a read has come: what has arrived is the content from where it began. -/
structure Progress (content : Nat → Byte) (origin : Fil) (buff : Nat → Byte) (count : Nat)
    (now : Transfer) : Prop where
  fixed : now.fp.fixed = origin.fixed
  total : now.done + now.left = count
  fptr : now.fp.fptr = origin.fptr + now.done
  dirty : now.fp.flag.dirty = true → origin.flag.dirty = true
  arrived : ∀ index, now.buff index =
    if index < now.done then content (origin.fptr + index) else buff index

namespace Progress

variable {content : Nat → Byte} {origin other : Fil} {buff : Nat → Byte} {count part : Nat}
variable {now : Transfer}

/-- Only the position of the file object matters. -/
theorem moved (progress : Progress content origin buff count now)
    (fixed : other.fixed = now.fp.fixed) (fptr : other.fptr = now.fp.fptr)
    (dirty : other.flag.dirty = true → now.fp.flag.dirty = true) :
    Progress content origin buff count { now with fp := other } :=
  ⟨fixed.trans progress.fixed, progress.total, fptr.trans progress.fptr,
    fun marked => progress.dirty (dirty marked), progress.arrived⟩

/-- More bytes of the content have arrived. -/
theorem more (progress : Progress content origin buff count now) {later : Transfer}
    (fixed : later.fp.fixed = now.fp.fixed) (fptr : later.fp.fptr = now.fp.fptr + part)
    (flag : later.fp.flag = now.fp.flag) (done : later.done = now.done + part) (left : later.left = now.left - part)
    (enough : part ≤ now.left)
    (arrived : ∀ index, later.buff index =
      if now.done ≤ index ∧ index < now.done + part then content (now.fp.fptr + (index - now.done))
      else now.buff index) : Progress content origin buff count later where
  fixed := fixed.trans progress.fixed
  total := by
    have := progress.total
    omega
  fptr := by
    have := progress.fptr
    omega
  dirty marked := progress.dirty (flag ▸ marked)
  arrived index := by
    rw [arrived, done, progress.fptr, progress.arrived]
    by_cases before : index < now.done
    · rw [if_neg (by omega), if_pos before, if_pos (by omega)]
    · rw [if_neg before]
      by_cases inside : index < now.done + part
      · rw [if_pos (by omega), if_pos inside]
        congr 1
        omega
      · rw [if_neg (by omega), if_neg inside]

end Progress

/-- A file that is read. -/
structure Session.Reading {ι : Type} (start : Session ι) (lost : Nat → Prop) (file : ι → Prop)
    (owner : ι) (content : Nat → Byte) (origin : Fil) (buff : Nat → Byte) (count : Nat)
    (now : Transfer) (state : Fatfs) : Prop extends Progress content origin buff count now where
  opened : Opened { start with fs := state } lost file owner origin.fsize content now.fp
  around : start.fs.Around (start.Sectors owner) state

section Round

variable {ι : Type} {start : Session ι} {lost : Nat → Prop} {file : ι → Prop} {owner : ι}
variable {content : Nat → Byte} {origin : Fil} {buff : Nat → Byte} {count : Nat}
variable {now : Transfer} {state : Fatfs}

/-- The end of a read. -/
def Session.ReadEnds (start : Session ι) (lost : Nat → Prop) (file : ι → Prop) (owner : ι)
    (content : Nat → Byte) (origin : Fil) (buff : Nat → Byte) (count : Nat)
    (ended : FResult × Transfer) (after : Fatfs) : Prop :=
  (ended.1 = .ok ∧ ended.2.left = 0 ∧
    start.Reading lost file owner content origin buff count ended.2 after) ∨
  (ended.1 = .rwError ∧ start.fs.card.Failed after.card)

/-- A round ends the read, or leaves less to read. -/
def Session.ReadGoes (start : Session ι) (lost : Nat → Prop) (file : ι → Prop) (owner : ι)
    (content : Nat → Byte) (origin : Fil) (buff : Nat → Byte) (count : Nat) (now : Transfer)
    (step : Transfer ⊕ (FResult × Transfer)) (after : Fatfs) : Prop :=
  step.elim
    (fun later => later.left < now.left ∧
      start.Reading lost file owner content origin buff count later after)
    (fun ended => start.ReadEnds lost file owner content origin buff count ended after)

/-- Bytes are copied from the buffer of the file object. -/
theorem Session.Reading.copied {index : Nat} (isFile : file owner)
    (accessed : Session.Accessed lost file (start.Sectors owner) start { start with fs := state })
    (progress : Progress content origin buff count now)
    (fits : origin.fptr + count ≤ origin.fsize) (small : origin.fsize < 2 ^ 32)
    (loaded : state.Loaded (start.chain owner) origin.fsize content now.fp index)
    (saved : now.fp.flag.dirty = false →
      state.card.data (state.block (start.chain owner) index) = now.fp.buffer)
    (left : 0 < now.left) :
    (now.copyOut.advance now.part).left < now.left ∧
      start.Reading lost file owner content origin buff count (now.copyOut.advance now.part)
        state := by
  have positive := Transfer.part_pos left
  obtain ⟨enough, within⟩ := @Transfer.part_le now
  have total := progress.total
  have place := progress.fptr
  have bound : now.fp.fptr + now.part ≤ origin.fsize := by omega
  have forward : (now.copyOut.advance now.part).fp = now.fp.forward now.part :=
    @Transfer.advance_fp now.copyOut _ (show now.fp.fptr + now.part < 2 ^ 32 by omega)
  have intact := accessed.intact
  refine ⟨Nat.sub_lt left positive, ⟨?_, ⟨intact, accessed.apart, isFile, ?_⟩, accessed.around⟩⟩
  · refine progress.more (by rw [forward]; rfl) (by rw [forward]; rfl) rfl rfl rfl enough ?_
    intro position
    change (if now.done ≤ position ∧ position < now.done + now.part then
      now.fp.buffer.get (now.fp.fptr % sSiz + (position - now.done)) else now.buff position) = _
    by_cases inside : now.done ≤ position ∧ position < now.done + now.part
    · rw [if_pos inside, if_pos inside]
      have here : (now.fp.fptr + (position - now.done)) / sSiz = index := by
        rw [← loaded.fptr]
        unfold sSiz at within ⊢
        omega
      rw [← loaded.bytes _ (by omega), if_pos here]
      exact Sector.get_congr (by unfold sSiz; omega)
    · rw [if_neg inside, if_neg inside]
  · rw [forward]
    exact loaded.shows intact.sound.geometry intact.allocated.forest.nodup
      (intact.allocated.inside owner) saved positive within bound

/-- Whole sectors go from the card to the buffer of the caller. -/
theorem Session.Reading.pasted {index : Nat} {data : Nat → Sector} (isFile : file owner)
    (accessed : Session.Accessed lost file (start.Sectors owner) start { start with fs := state })
    (progress : Progress content origin buff count now)
    (fits : origin.fptr + count ≤ origin.fsize) (small : origin.fsize < 2 ^ 32)
    (ready : state.Ready (start.chain owner) origin.fsize content now.fp index)
    (some : now.left / sSiz % 2 ^ 8 ≠ 0)
    (answer : ∀ block, data block = state.card.data (state.block (start.chain owner) index + block)) :
    (((now.paste now.whole data).skip now.whole).advance (now.whole * sSiz)).left < now.left ∧
      start.Reading lost file owner content origin buff count
        (((now.paste now.whole data).skip now.whole).advance (now.whole * sSiz)) state := by
  have intact := accessed.intact
  have wellFormed : state.WellFormed := intact.sound.geometry
  have clusters : ∀ clust ∈ start.chain owner, state.Cluster clust := intact.allocated.inside owner
  have limit := wellFormed.sectors
  have below := Nat.mod_lt index wellFormed.sectsClust
  have clust := ready.sectClust
  have positive := Transfer.whole_pos (by omega) some
  obtain ⟨sectors, enough⟩ := @Transfer.whole_le now
  have total := progress.total
  have place := progress.fptr
  have begins := ready.fptr
  have bound : now.fp.fptr + now.whole * sSiz ≤ origin.fsize := by omega
  have part : index % state.sectsClust + now.whole ≤ state.sectsClust := by omega
  have shows := ready.shows wellFormed positive part bound
  have next := fun block (inside : block < now.whole) =>
    @Geometry.block_add state.toGeometry _ _ (start.chain owner)
      (show index % state.sectsClust + block < state.sectsClust by omega)
  have number : now.fp.currSect + (now.whole - 1) < 2 ^ 32 := by
    rw [ready.currSect, ← next _ (by omega)]
    have last := shows.within (show 0 < (now.fp.skip now.whole).fptr from by
      change 0 < now.fp.fptr + now.whole * sSiz
      unfold sSiz
      omega)
    have same : ((now.fp.skip now.whole).fptr - 1) / sSiz = index + (now.whole - 1) := by
      change (now.fp.fptr + now.whole * sSiz - 1) / sSiz = _
      unfold sSiz at begins ⊢
      omega
    rw [same] at last
    exact (wellFormed.holds_bounds (clusters _ (Geometry.cell_mem last.inside))
      wellFormed.holds_block).2
  have moved : (((now.paste now.whole data).skip now.whole).advance (now.whole * sSiz)).fp =
      now.fp.skip now.whole :=
    @Transfer.skip_fp (now.paste now.whole data) _ positive sectors (by
      change now.fp.sectClust < 2 ^ 8
      omega) number (by
      change now.fp.fptr + now.whole * sSiz < 2 ^ 32
      omega)
  have less : now.left - now.whole * sSiz < now.left := by
    unfold sSiz at enough ⊢
    omega
  refine ⟨less, ⟨?_, ⟨intact, accessed.apart, isFile, ?_⟩, accessed.around⟩⟩
  · refine progress.more (by rw [moved]; rfl) (by rw [moved]; rfl) rfl rfl rfl enough ?_
    intro position
    change (if now.done ≤ position ∧ position < now.done + sSiz * now.whole then
      (data ((position - now.done) / sSiz)).get (position - now.done) else now.buff position) = _
    rw [Nat.mul_comm sSiz]
    by_cases inside : now.done ≤ position ∧ position < now.done + now.whole * sSiz
    · rw [if_pos inside, if_pos inside]
      have which : (position - now.done) / sSiz < now.whole :=
        Nat.div_lt_of_lt_mul (by rw [Nat.mul_comm]; omega)
      have block : (now.fp.fptr + (position - now.done)) / sSiz =
          index + (position - now.done) / sSiz := by
        rw [begins, Nat.mul_add_div sSiz_pos]
      rw [answer, ← next _ which, ← block, ← ready.bytes _ (by omega)]
      exact Sector.get_congr (by rw [begins, Nat.mul_add_mod])
    · rw [if_neg inside, if_neg inside]
  · rw [moved]
    exact shows

/-- At the start of a block, with an empty buffer, the card is read. -/
theorem Session.Reading.sector {index : Nat} (isFile : file owner)
    (accessed : Session.Accessed lost file (start.Sectors owner) start { start with fs := state })
    (progress : Progress content origin buff count now)
    (fits : origin.fptr + count ≤ origin.fsize) (small : origin.fsize < 2 ^ 32)
    (ready : state.Ready (start.chain owner) origin.fsize content now.fp index)
    (left : 0 < now.left) :
    Meets (readSector now (state.block (start.chain owner) index)) state fun step after =>
      start.ReadGoes lost file owner content origin buff count now step after := by
  have drive := accessed.intact.sound.geometry.drive
  have read := accessed.trans
    (.read accessed.intact accessed.apart (state.block (start.chain owner) index))
  have failure : (state.card.read (state.block (start.chain owner) index)).1.1 = false →
      start.fs.card.Failed (state.card.read (state.block (start.chain owner) index)).2 :=
    fun failed => .after accessed.around.later (Card.read_failed failed)
  have answer := fun success block =>
    @Card.read_success state.card (state.block (start.chain owner) index) success block
  have same := ready
  unfold readSector
  split
  next some =>
    rw [meets_bind, meets_diskRead drive]
    cases success : (state.card.read (state.block (start.chain owner) index)).1.1 with
    | false =>
        rw [if_neg (by decide)]
        exact meets_pure.mpr (.inr ⟨rfl, failure success⟩)
    | true =>
        rw [if_pos rfl]
        refine meets_pure.mpr ?_
        exact Session.Reading.pasted isFile read progress fits small
          ⟨ready.first, ready.room, ready.bytes, ready.fptr, ready.dirty, ready.inside,
            ready.currClust, ready.sectClust, ready.currSect⟩ some (answer success)
  next =>
    rw [meets_bind, meets_diskRead drive]
    cases success : (state.card.read (state.block (start.chain owner) index)).1.1 with
    | false =>
        rw [if_neg (by decide)]
        exact meets_pure.mpr (.inr ⟨rfl, failure success⟩)
    | true =>
        rw [if_pos rfl]
        refine meets_pure.mpr ?_
        have loaded := ready.load
        have buffer := answer success 0
        rw [Nat.add_zero] at buffer
        rw [← buffer] at loaded
        refine Session.Reading.copied isFile read (progress.moved rfl rfl id) fits small
          ⟨loaded.first, loaded.room, loaded.bytes, loaded.fptr, loaded.inside, loaded.currClust,
            loaded.sectClust, loaded.currSect⟩ (fun _ => buffer.symm) left

/-- A round of `f_read` reads some of what is left, or ends. -/
theorem Session.Reading.round
    (reading : start.Reading lost file owner content origin buff count now state)
    (fits : origin.fptr + count ≤ origin.fsize) (small : origin.fsize < 2 ^ 32) :
    Meets (readRound now) state fun step after =>
      start.ReadGoes lost file owner content origin buff count now step after := by
  have opened := reading.opened
  have accessed : Session.Accessed lost file (start.Sectors owner) start { start with fs := state } :=
    ⟨opened.intact, opened.apart, reading.around⟩
  have wellFormed : state.WellFormed := opened.intact.sound.geometry
  unfold readRound
  split
  next none => exact meets_pure.mpr (.inl ⟨rfl, none, reading⟩)
  next some =>
    have left : 0 < now.left := Nat.pos_of_ne_zero some
    split
    next aligned =>
      have boundary : now.fp.fptr = sSiz * (now.fp.fptr / sSiz) := by
        have := Nat.div_add_mod now.fp.fptr sSiz
        omega
      generalize now.fp.fptr / sSiz = index at boundary
      have inside : index < state.blocks (start.chain owner) := by
        have room : origin.fsize ≤ sSiz * state.blocks (start.chain owner) := opened.shows.room
        have total := reading.total
        have place := reading.fptr
        refine Nat.lt_of_mul_lt_mul_left (a := sSiz) ?_
        omega
      refine Meets.bind (opened.readNext boundary inside) ?_
      rintro next middle (⟨rfl, still, sound⟩ | ⟨stops, failed⟩)
      · have later := opened.accessed (.still opened.intact opened.apart still sound)
        have arrived := accessed.trans (.still opened.intact opened.apart still sound)
        have geometry := still.geometry
        have flush := later.flush boundary (geometry ▸ inside)
        change Meets _ middle _ at flush
        rw [geometry] at flush
        refine Meets.bind flush ?_
        rintro flushed after (⟨success, landed, ready, wrote⟩ | ⟨failure, failed⟩)
        · obtain ⟨_, fp⟩ := flushed
          obtain rfl : _ = true := success
          dsimp only at landed ⊢
          rw [if_pos rfl, landed]
          have progress := @Progress.moved _ _ (now.fp.reach state.toGeometry (start.chain owner)
            index) _ _ _ reading.toProgress Fil.fixed_reach rfl fun marked => by cases marked
          rw [Session.sectors_congr (geometry.trans reading.around.geometry)] at wrote
          have round := Session.Reading.sector opened.isFile (arrived.trans wrote) progress fits
            small ready left
          rw [wrote.around.geometry] at round
          change Meets (readSector _ (middle.block _ _)) _ _ at round
          rw [geometry] at round
          exact round
        · obtain ⟨_, fp⟩ := flushed
          obtain rfl : _ = false := failure
          exact meets_pure.mpr (.inr ⟨rfl, .after arrived.around.later failed⟩)
      · obtain ⟨_, fp⟩ := next
        obtain rfl : _ = none := stops
        exact meets_pure.mpr (.inr ⟨rfl, .after reading.around.later failed⟩)
    next inside =>
      obtain ⟨loaded, saved⟩ := opened.shows.load wellFormed
        opened.intact.allocated.forest.nodup (opened.intact.allocated.inside owner) inside
      exact meets_pure.mpr (Session.Reading.copied opened.isFile accessed reading.toProgress fits small
        loaded saved left)

end Round

/-! ## `f_read` -/

/-- The object is valid, and without an error. -/
structure Fil.Usable (fp : Fil) (fs : Fatfs) : Prop where
  mounted : fp.fs = true
  id : fs.id = fp.id
  fine : fp.flag.error = false

theorem meets_validate_bind {fs : Fatfs} {fp : Fil} {α : Type} {rest : FResult → Volume α}
    {post : α → Fatfs → Prop} (usable : fp.Usable fs) :
    Meets (validate fp >>= rest) fs post ↔ Meets (rest .ok) fs post := by
  have valid : ¬ (fp.fs = false ∨ fs.id ≠ fp.id) := by
    rintro (unmounted | other)
    · exact absurd (usable.mounted.symm.trans unmounted) (by decide)
    · exact other usable.id
  unfold validate
  rw [meets_bind, meets_get_bind, if_neg valid, meets_pure]

section Call

variable {ι : Type} {session : Session ι} {lost : Nat → Prop} {file : ι → Prop} {owner : ι}
variable {content : Nat → Byte} {fp : Fil} {buff : Nat → Byte} {btr : Nat}

/-- `f_read` gives what the file has at the position, as far as it goes. -/
theorem fRead_meets (opened : session.Opened lost file owner fp.fsize content fp)
    (usable : fp.Usable session.fs) (readable : fp.flag.read = true) (small : fp.fsize < 2 ^ 32)
    (word : btr < 2 ^ 16) :
    Meets (fRead fp buff btr) session.fs fun ended after =>
      session.ReadEnds lost file owner content fp buff (min btr (fp.fsize - fp.fptr)) ended after := by
  have fits := opened.shows.fptr_le
  have remain : (fp.fsize + 2 ^ 32 - fp.fptr) % 2 ^ 32 = fp.fsize - fp.fptr := by
    have split : fp.fsize + 2 ^ 32 - fp.fptr = fp.fsize - fp.fptr + 2 ^ 32 := by omega
    rw [split, Nat.add_mod_right, Nat.mod_eq_of_lt (by omega)]
  have count : (if fp.fsize - fp.fptr < btr then (fp.fsize - fp.fptr) % 2 ^ 16 else btr) =
      min btr (fp.fsize - fp.fptr) := by
    split
    next less => rw [Nat.mod_eq_of_lt (less.trans word), Nat.min_eq_right less.le]
    next enough => rw [Nat.min_eq_left (Nat.le_of_not_lt enough)]
  unfold fRead
  rw [meets_validate_bind usable, if_neg (by decide), if_neg (by simp [usable.fine]),
    if_neg (by simp [readable])]
  dsimp only
  rw [remain, count]
  refine Meets.loop (fun bound now state => now.left = bound ∧ session.Reading lost file owner
    content fp buff (min btr (fp.fsize - fp.fptr)) now state) ?_ ?_ ⟨rfl, ?_⟩
  · rintro _ now state ⟨rfl, reading⟩
    refine (reading.round ?_ small).mono fun step after goes => ?_
    · omega
    · cases step with
      | inl later => exact ⟨later.left, goes.1, rfl, goes.2⟩
      | inr ended => exact goes
  · exact Nat.lt_succ_self _
  · refine ⟨⟨rfl, Nat.zero_add _, rfl, id, fun _ => rfl⟩, opened, .refl⟩

end Call

end BbbEth.FatFs
