import BbbEth.FatFs.Write

/-!
# `f_lseek`

`f_lseek` follows the chain from its first cluster.  A file that is open for writing gets the
clusters that it needs on the way, and it is longer then.
-/

namespace BbbEth.FatFs

open BbbEth.Console BbbEth.Stateful BbbEth.Linked

/-- The file object with another counter. -/
def Fil.counted (fp : Fil) (sectClust : Nat) : Fil := { fp with sectClust }

namespace Fatfs

variable (fs : Fatfs) (cells : List Nat) (size : Nat) (content : Nat → Byte)

/-- A file object with nothing in its buffer. -/
structure Rests (fp : Fil) : Prop where
  first : fp.orgClust = cells.headD 0
  room : size ≤ sSiz * fs.blocks cells
  bytes : ∀ position < size,
    (fs.card.data (fs.block cells (position / sSiz))).get position = content position
  clean : fp.flag.dirty = false

/-- The bytes of the blocks on the card. -/
def onDisk (position : Nat) : Byte := (fs.card.data (fs.block cells (position / sSiz))).get position

variable {fs cells size content} {fp : Fil} {index : Nat}

/-- At the top of the file. -/
theorem Rests.top (rests : fs.Rests cells size content fp) (top : fp.fptr = 0)
    (counter : fp.sectClust = 1) : fs.Shows cells size content fp where
  first := rests.first
  room := rests.room
  fptr_le := top ▸ Nat.zero_le _
  bytes position below := by
    unfold byteOf shown
    rw [if_neg (by simp [rests.clean])]
    exact rests.bytes position below
  top _ := ⟨counter, rests.clean⟩
  within positive := absurd top (Nat.ne_of_gt positive)
  loaded inside := by
    rw [top] at inside
    exact absurd (Nat.zero_mod _) inside

/-- Anywhere in the chain, with the block in the buffer between two sector boundaries. -/
theorem Rests.shows (rests : fs.Rests cells size content fp) (positive : 0 < fp.fptr)
    (within : fp.In fs.toGeometry cells ((fp.fptr - 1) / sSiz))
    (buffer : fp.fptr % sSiz ≠ 0 → fp.buffer = fs.card.data fp.currSect) :
    fs.Shows cells (max size fp.fptr) (fs.onDisk cells) fp where
  first := rests.first
  room := by
    have last : sSiz * ((fp.fptr - 1) / sSiz + 1) ≤ sSiz * fs.blocks cells :=
      Nat.mul_le_mul_left _ within.inside
    refine max_le rests.room (le_trans ?_ last)
    unfold sSiz
    omega
  fptr_le := le_max_right _ _
  bytes position _ := by
    unfold byteOf shown
    rw [if_neg (by simp [rests.clean])]
    rfl
  top none := absurd none (Nat.ne_of_gt positive)
  within _ := within
  loaded inside := by
    unfold shown
    rw [if_neg (by simp [rests.clean]), buffer inside]

theorem Rests.onDisk_eq (rests : fs.Rests cells size content fp) {position : Nat}
    (below : position < size) : fs.onDisk cells position = content position :=
  rests.bytes position below

end Fatfs

/-- The file object at the top of its file. -/
def Fil.home (fp : Fil) : Fil := { fp with fptr := 0, sectClust := 1 }

theorem Fatfs.Shows.rests {fs : Fatfs} {cells : List Nat} {size : Nat} {content : Nat → Byte}
    {fp : Fil} (shows : fs.Shows cells size content fp.home) (clean : fp.flag.dirty = false) :
    fs.Rests cells size content fp where
  first := shows.first
  room := shows.room
  bytes position below := by
    rw [← shows.bytes position below]
    unfold Fatfs.byteOf Fatfs.shown
    rw [if_neg (by simp [Fil.home, clean])]
  clean := clean

/-- At the top of the file only its first cluster matters. -/
theorem Session.Opened.home {ι : Type} {session : Session ι} {lost : Nat → Prop} {file : ι → Prop}
    {owner : ι} {size : Nat} {content : Nat → Byte} {fp other : Fil}
    (opened : session.Opened lost file owner size content fp.home) (clean : fp.flag.dirty = false)
    (first : other.orgClust = fp.orgClust) (same : other.flag.dirty = false) :
    session.Opened lost file owner size content other.home := by
  have rests := opened.shows.rests clean
  have again : session.fs.Rests (session.chain owner) size content other.home :=
    ⟨first.trans rests.first, rests.room, rests.bytes, same⟩
  exact ⟨opened.intact, opened.apart, opened.isFile, again.top rfl rfl⟩

/-! ## The loop over the clusters -/

/-- The loop behind some clusters of the chain. -/
structure Session.Passing {ι : Type} (start next : Session ι) (lost : Nat → Prop)
    (file : ι → Prop) (owner : ι) (content : Nat → Byte) (origin : Fil) (passed : Nat)
    (now : Seek) : Prop where
  served : Served lost file owner start next
  opened : next.Opened lost file owner origin.fsize content now.fp.home
  clean : now.fp.flag.dirty = false
  reading : origin.flag.write = false → next.chain = start.chain
  inside : passed < (next.chain owner).length
  fptr : now.fp.fptr = passed * (start.fs.sectsClust * sSiz)
  positive : 0 < now.ofs
  fixed : now.fp.fixed = origin.fixed

/-- The loop at its next round. -/
structure Session.Seeking {ι : Type} (start next : Session ι) (lost : Nat → Prop)
    (file : ι → Prop) (owner : ι) (content : Nat → Byte) (origin : Fil) (target passed : Nat)
    (now : Seek) : Prop extends Passing start next lost file owner content origin passed now where
  cell : now.clust = (next.chain owner).getD passed 0
  ofs : now.fp.fptr + now.ofs = target

/-- The loop in the cluster where it stops. -/
structure Session.Stopped {ι : Type} (start next : Session ι) (lost : Nat → Prop)
    (file : ι → Prop) (owner : ι) (content : Nat → Byte) (origin : Fil) (target passed : Nat)
    (now : Seek) : Prop extends Passing start next lost file owner content origin passed now where
  current : now.fp.currClust = (next.chain owner).getD passed 0
  within : now.ofs ≤ start.fs.sectsClust * sSiz
  place : now.clust = (next.chain owner).getD passed 0 ∨ now.ofs = start.fs.sectsClust * sSiz
  ofs : now.fp.fptr + now.ofs = min target (start.capacity owner)

section Round

variable {ι : Type} {start next : Session ι} {lost : Nat → Prop} {file : ι → Prop} {owner : ι}
variable {content : Nat → Byte} {origin : Fil} {target passed : Nat} {now : Seek}

/-- The end of the loop. -/
def Session.SeekEnds (start : Session ι) (lost : Nat → Prop) (file : ι → Prop) (owner : ι)
    (content : Nat → Byte) (origin : Fil) (target : Nat) (ended : Bool × Seek) (after : Fatfs) :
    Prop :=
  (ended.1 = true ∧ ∃ chain passed,
    start.Stopped ⟨after, chain⟩ lost file owner content origin target passed ended.2) ∨
  (ended.1 = false ∧ start.fs.card.Failed after.card)

/-- A round ends the loop, or leaves a smaller offset. -/
def Session.SeekGoes (start : Session ι) (lost : Nat → Prop) (file : ι → Prop) (owner : ι)
    (content : Nat → Byte) (origin : Fil) (target : Nat) (now : Seek) (step : Seek ⊕ (Bool × Seek))
    (after : Fatfs) : Prop :=
  step.elim
    (fun later => later.ofs < now.ofs ∧ ∃ chain passed,
      start.Seeking ⟨after, chain⟩ lost file owner content origin target passed later)
    (fun ended => start.SeekEnds lost file owner content origin target ended after)

/-- The clusters that were passed are within the room for the file. -/
theorem Session.Passing.room (passing : start.Passing next lost file owner content origin passed now)
    (intact : start.Intact lost) :
    (passed + 1) * (start.fs.sectsClust * sSiz) ≤ start.capacity owner ∧
      (next.fs.free = ∅ → passed + 1 = (next.chain owner).length →
        (passed + 1) * (start.fs.sectsClust * sSiz) = start.capacity owner) := by
  obtain ⟨most, whole⟩ := passing.served.capacity intact
  have inside := Nat.mul_le_mul_right start.fs.sectsClust passing.inside
  unfold Geometry.blocks at most whole
  rw [passing.served.around.geometry] at most whole
  have scaled : (passed + 1) * (start.fs.sectsClust * sSiz) =
      sSiz * ((passed + 1) * start.fs.sectsClust) := by
    rw [← Nat.mul_assoc, Nat.mul_comm]
  rw [scaled]
  refine ⟨(Nat.mul_le_mul_left sSiz inside).trans most, fun full last => ?_⟩
  rw [last]
  exact whole full

/-- The loop goes on behind its cluster. -/
theorem Session.Seeking.pass {value : Nat} (later : Session ι)
    (seeking : start.Seeking next lost file owner content origin target passed now)
    (served : Session.Served lost file owner start later)
    (opened : later.Opened lost file owner origin.fsize content now.fp.home)
    (reading : origin.flag.write = false → later.chain = start.chain)
    (small : target < 2 ^ 32) (more : ¬ now.ofs ≤ start.fs.sectsClust * sSiz)
    (inside : passed + 1 < (later.chain owner).length)
    (cell : value = (later.chain owner).getD (passed + 1) 0) :
    (now.pass (start.fs.sectsClust * sSiz) value).ofs < now.ofs ∧
      start.Seeking later lost file owner content origin target (passed + 1)
        (now.pass (start.fs.sectsClust * sSiz) value) := by
  have ofs := seeking.ofs
  have fptr := seeking.fptr
  have clust : 0 < start.fs.sectsClust := by
    rw [← served.around.geometry]
    exact served.intact.sound.geometry.sectsClust
  have positive : 0 < start.fs.sectsClust * sSiz := Nat.mul_pos clust sSiz_pos
  have moved : (now.pass (start.fs.sectsClust * sSiz) value).fp.fptr =
      now.fp.fptr + start.fs.sectsClust * sSiz := Nat.mod_eq_of_lt (by omega)
  have left : (now.pass (start.fs.sectsClust * sSiz) value).ofs =
      now.ofs - start.fs.sectsClust * sSiz := rfl
  refine ⟨by omega, ⟨served, ?_, seeking.clean, reading, inside, ?_, by omega, seeking.fixed⟩, cell, by omega⟩
  · exact opened.home seeking.clean rfl seeking.clean
  · rw [moved, fptr, Nat.succ_mul]

variable {state : Fatfs} {chain : ι → List Nat}

/-- A round of the loop of `f_lseek` goes on by a cluster, or stops. -/
theorem Session.Seeking.round [DecidableEq ι] (intact : start.Intact lost)
    (seeking : start.Seeking ⟨state, chain⟩ lost file owner content origin target passed now)
    (bounded : origin.flag.write = false → target ≤ origin.fsize) (small : target < 2 ^ 32) :
    Meets (seekRound (start.fs.sectsClust * sSiz) now) state fun step after =>
      start.SeekGoes lost file owner content origin target now step after := by
  have served := seeking.served
  have opened := seeking.opened
  have geometry := served.around.geometry
  have clusters : ∀ clust ∈ chain owner, state.Cluster clust := served.intact.allocated.inside owner
  have ofs := seeking.ofs
  have fptr := seeking.fptr
  have inside : passed < (chain owner).length := seeking.inside
  obtain ⟨room, full⟩ := seeking.room intact
  have write := congrArg (fun fp : Fil => fp.flag.write) seeking.fixed
  change now.fp.flag.write = origin.flag.write at write
  unfold seekRound
  rw [meets_get_bind]
  dsimp only
  split
  next stops =>
    refine meets_pure.mpr (.inl ⟨rfl, chain, passed, ⟨served, ?_, seeking.clean, seeking.reading,
      inside, fptr, seeking.positive, seeking.fixed⟩, seeking.cell, stops, .inl seeking.cell, ?_⟩)
    · exact opened.home seeking.clean rfl seeking.clean
    · dsimp only
      rw [Nat.succ_mul] at room
      omega
  next more =>
    rw [write, seeking.cell]
    split
    next writing =>
      have notReading : origin.flag.write = false → chain = start.chain :=
        fun reading => absurd (reading.symm.trans writing) (by decide)
      refine Meets.bind (served.intact.createChain_cell inside) ?_
      rintro value after (⟨follows, rfl, still, sound⟩ | ⟨whole, grown⟩ | ⟨rfl, failed⟩)
      · have cell := clusters ((chain owner).getD (passed + 1) 0) (by
          rw [List.getD_eq_getElem _ _ follows]
          exact List.getElem_mem follows)
        have := cell.1
        have := cell.2
        dsimp only
        rw [if_neg (by omega), if_neg (by omega), meets_pure]
        obtain ⟨less, goes⟩ := seeking.pass ⟨after, chain⟩
          (served.accessed intact (.still served.intact served.apart still sound))
          (opened.accessed (.still served.intact served.apart still sound)) notReading small more
          follows rfl
        exact ⟨less, chain, passed + 1, goes⟩
      · have positive : 0 < state.sectsClust := served.intact.sound.geometry.sectsClust
        have some : chain owner ≠ [] := by
          intro none
          rw [none] at inside
          exact absurd inside (Nat.not_lt_zero _)
        rcases opened.grows ((chain owner).length * state.sectsClust) grown rfl
            (Nat.mul_div_cancel _ positive) (Nat.mul_mod_left _ _) with
          ⟨longer, stretched, cell, _⟩ | ⟨rfl, none, still, sound⟩ | ⟨rfl, failed⟩
        · have last : (chain owner).length < (longer owner).length := by
            have inside := stretched.inside
            change _ < (longer owner).length * after.sectsClust at inside
            rw [stretched.around.geometry] at inside
            exact Nat.lt_of_mul_lt_mul_right inside
          have grownOpened := stretched.opened
          rw [stretched.begin_eq opened some] at grownOpened
          dsimp only at cell whole
          rw [Nat.mul_div_cancel _ positive, ← whole] at cell
          have bound : passed + 1 < (longer owner).length := by omega
          have isMember : (longer owner).getD (passed + 1) 0 ∈ longer owner := by
            rw [List.getD_eq_getElem _ _ bound]
            exact List.getElem_mem bound
          have member := stretched.opened.intact.allocated.inside owner _ isMember
          dsimp only at member
          rw [cell, stretched.around.geometry] at member
          have := member.1
          have := member.2
          dsimp only at this ⊢
          rw [if_neg (by omega), if_neg (by omega), meets_pure]
          obtain ⟨less, goes⟩ := seeking.pass ⟨after, longer⟩ (served.stretched stretched)
            grownOpened (fun reading => absurd (reading.symm.trans writing) (by decide)) small more
            bound cell.symm
          exact ⟨less, longer, passed + 1, goes⟩
        · rw [if_pos rfl, meets_pure]
          have here := opened.accessed (.still served.intact served.apart still sound)
          refine .inl ⟨rfl, chain, passed, ⟨served.accessed intact
            (.still served.intact served.apart still sound), ?_, seeking.clean, notReading, inside,
            fptr, ?_, seeking.fixed⟩, rfl, le_rfl, .inr rfl, ?_⟩
          · exact here.home seeking.clean rfl seeking.clean
          · rw [← geometry]
            exact Nat.mul_pos positive sSiz_pos
          · have capacity := full none whole
            rw [Nat.succ_mul] at capacity
            dsimp only
            omega
        · rw [if_neg (by decide), if_pos (.inl rfl), meets_pure]
          exact .inr ⟨rfl, .after served.around.later failed⟩
      · rw [if_neg (by decide), if_pos (.inl rfl), meets_pure]
        exact .inr ⟨rfl, .after served.around.later failed⟩
    next reading =>
      have mode : origin.flag.write = false := by simpa using reading
      have follows : passed + 1 < (chain owner).length := by
        have enough := bounded mode
        have shown : origin.fsize ≤ sSiz * ((chain owner).length * state.sectsClust) :=
          opened.shows.room
        rw [show state.sectsClust = start.fs.sectsClust by rw [← geometry], Nat.mul_comm sSiz,
          Nat.mul_assoc] at shown
        refine Nat.lt_of_mul_lt_mul_right (a := start.fs.sectsClust * sSiz) ?_
        rw [Nat.succ_mul]
        omega
      have cell := clusters ((chain owner).getD (passed + 1) 0) (by
        rw [List.getD_eq_getElem _ _ follows]
        exact List.getElem_mem follows)
      have here := clusters ((chain owner).getD passed 0) (by
        rw [List.getD_eq_getElem _ _ inside]
        exact List.getElem_mem inside)
      have linked := served.intact.allocated.entry_getD follows
      refine Meets.bind (getCluster_meets served.intact.sound here.1 here.2) ?_
      rintro value after (⟨rfl, still, sound⟩ | ⟨rfl, failed⟩)
      · have := cell.1
        have := cell.2
        dsimp only at linked ⊢
        rw [linked, if_neg (by omega), if_neg (by omega), meets_pure]
        obtain ⟨less, goes⟩ := seeking.pass ⟨after, chain⟩
          (served.accessed intact (.still served.intact served.apart still sound))
          (opened.accessed (.still served.intact served.apart still sound)) seeking.reading small
          more follows rfl
        exact ⟨less, chain, passed + 1, goes⟩
      · rw [if_neg (by decide), if_pos (.inl rfl), meets_pure]
        exact .inr ⟨rfl, .after served.around.later failed⟩

/-- The place of a block within the clusters that were passed. -/
theorem div_place {size ofs : Nat} (passed : Nat) (positive : 0 < ofs) (within : ofs ≤ size * sSiz) :
    (passed * (size * sSiz) + ofs - 1) / sSiz = passed * size + (ofs - 1) / sSiz ∧
      (ofs - 1) / sSiz < size ∧
      (passed * size + (ofs - 1) / sSiz) / size = passed ∧
      (passed * size + (ofs - 1) / sSiz) % size = (ofs - 1) / sSiz := by
  have below : (ofs - 1) / sSiz < size := Nat.div_lt_of_lt_mul (by rw [Nat.mul_comm]; omega)
  have shifted : passed * (size * sSiz) + ofs - 1 = passed * size * sSiz + (ofs - 1) := by
    rw [Nat.mul_assoc]
    omega
  refine ⟨?_, below, ?_, ?_⟩
  · rw [shifted, Nat.mul_comm _ sSiz, Nat.mul_add_div sSiz_pos]
  · rw [Nat.mul_comm passed, Nat.mul_add_div (Nat.zero_lt_of_lt below), Nat.div_eq_of_lt below,
      Nat.add_zero]
  · rw [Nat.mul_comm passed, Nat.mul_add_mod, Nat.mod_eq_of_lt below]

/-- The sector within the cluster. -/
def Seek.csect (seek : Seek) : Nat := (seek.ofs + 2 ^ 32 - 1) % 2 ^ 32 / sSiz % 2 ^ 8

/-- The file object at another place. -/
def Fil.place (fp : Fil) (currSect sectClust fptr : Nat) : Fil :=
  { fp with currSect, sectClust, fptr }

section Place

variable {fp : Fil} {currSect sectClust fptr : Nat}

@[simp] theorem Fil.place_fptr : (fp.place currSect sectClust fptr).fptr = fptr := rfl

@[simp] theorem Fil.place_currSect : (fp.place currSect sectClust fptr).currSect = currSect := rfl

@[simp] theorem Fil.place_sectClust :
    (fp.place currSect sectClust fptr).sectClust = sectClust := rfl

@[simp] theorem Fil.place_currClust :
    (fp.place currSect sectClust fptr).currClust = fp.currClust := rfl

@[simp] theorem Fil.place_orgClust :
    (fp.place currSect sectClust fptr).orgClust = fp.orgClust := rfl

@[simp] theorem Fil.place_flag : (fp.place currSect sectClust fptr).flag = fp.flag := rfl

@[simp] theorem Fil.place_fixed : (fp.place currSect sectClust fptr).fixed = fp.fixed := rfl

end Place

theorem Seek.arrive_eq {geometry : Geometry} : now.arrive geometry =
    now.fp.place ((geometry.clust2sect now.clust + now.csect) % 2 ^ 32)
      ((geometry.sectsClust + 2 ^ 8 - now.csect) % 2 ^ 8) ((now.fp.fptr + now.ofs) % 2 ^ 32) := rfl

theorem Seek.csect_eq (positive : 0 < now.ofs) (small : now.ofs < 2 ^ 32)
    (below : (now.ofs - 1) / sSiz < 2 ^ 8) : now.csect = (now.ofs - 1) / sSiz := by
  have split : now.ofs + 2 ^ 32 - 1 = now.ofs - 1 + 2 ^ 32 := by omega
  unfold Seek.csect
  rw [split, Nat.add_mod_right, Nat.mod_eq_of_lt (a := now.ofs - 1) (by omega),
    Nat.mod_eq_of_lt below]

/-- The file object is in the block that the loop has found. -/
theorem Session.Stopped.arrive
    (stopped : start.Stopped ⟨state, chain⟩ lost file owner content origin target passed now)
    (small : target < 2 ^ 32) :
    (now.arrive start.fs.toGeometry).fptr = min target (start.capacity owner) ∧
      0 < (now.arrive start.fs.toGeometry).fptr ∧
      (now.arrive start.fs.toGeometry).In start.fs.toGeometry (chain owner)
        (((now.arrive start.fs.toGeometry).fptr - 1) / sSiz) := by
  have geometry : state.toGeometry = start.fs.toGeometry := stopped.served.around.geometry
  have wellFormed : start.fs.WellFormed := by
    rw [← geometry]
    exact stopped.served.intact.sound.geometry
  have clusters : ∀ clust ∈ chain owner, start.fs.Cluster clust := by
    rw [← geometry]
    exact stopped.served.intact.allocated.inside owner
  have limit := wellFormed.sectors
  have positive := stopped.positive
  have ofs := stopped.ofs
  have within := stopped.within
  have inside : passed < (chain owner).length := stopped.inside
  obtain ⟨place, below, quotient, rest⟩ := div_place passed positive within
  have csect := Seek.csect_eq positive (by omega) (by omega : (now.ofs - 1) / sSiz < 2 ^ 8)
  have fptr : (now.arrive start.fs.toGeometry).fptr = now.fp.fptr + now.ofs := by
    rw [Seek.arrive_eq, Fil.place_fptr, Nat.mod_eq_of_lt]
    omega
  have index : ((now.arrive start.fs.toGeometry).fptr - 1) / sSiz =
      passed * start.fs.sectsClust + (now.ofs - 1) / sSiz := by
    rw [fptr, stopped.fptr, place]
  have block : passed * start.fs.sectsClust + (now.ofs - 1) / sSiz <
      start.fs.blocks (chain owner) := by
    have most := Nat.mul_le_mul_right start.fs.sectsClust inside
    rw [Nat.succ_mul] at most
    unfold Geometry.blocks
    omega
  refine ⟨fptr.trans ofs, by omega, ?_⟩
  rw [index]
  refine ⟨block, ?_, ?_, fun needed => ?_⟩
  · rw [Seek.arrive_eq, Fil.place_currClust, quotient]
    exact stopped.current
  · rw [Seek.arrive_eq, Fil.place_sectClust, rest, csect]
    omega
  · rw [fptr, Seek.arrive_eq, Fil.place_flag] at needed
    rw [Seek.arrive_eq, Fil.place_currSect, csect]
    rcases stopped.place with cell | whole
    · have number := (wellFormed.holds_bounds (clusters _ (Geometry.cell_mem block))
        wellFormed.holds_block).2
      unfold Geometry.block at number ⊢
      rw [quotient, rest] at number ⊢
      rw [cell]
      exact Nat.mod_eq_of_lt number
    · exfalso
      rw [rest, stopped.fptr, whole] at needed
      have aligned : (passed * (start.fs.sectsClust * sSiz) + start.fs.sectsClust * sSiz) % sSiz = 0 := by
        rw [← Nat.succ_mul, ← Nat.mul_assoc, Nat.mul_mod_left]
      have last : (start.fs.sectsClust * sSiz - 1) / sSiz + 1 = start.fs.sectsClust := by
        have := wellFormed.sectsClust
        unfold sSiz
        omega
      rcases needed with dirty | other | less
      · exact absurd (stopped.clean.symm.trans dirty) (by decide)
      · exact other aligned
      · omega

/-- The file object where `f_lseek` leaves it. -/
structure Session.Arrived {ι : Type} (start next : Session ι) (lost : Nat → Prop)
    (file : ι → Prop) (owner : ι) (content : Nat → Byte) (origin : Fil) (target : Nat)
    (last : Fil) : Prop where
  served : Served lost file owner start next
  reading : origin.flag.write = false → next.chain = start.chain
  fptr : last.fptr = min target (start.capacity owner)
  fixed : last.fixed = origin.fixed
  clean : last.flag.dirty = false
  empty : last.fptr = 0 → next.chain = start.chain
  shows : ∃ other, (∀ position < origin.fsize, other position = content position) ∧
    next.fs.Shows (next.chain owner) (max origin.fsize last.fptr) other last

/-- The sector is loaded where it is needed. -/
theorem Session.Stopped.load {last : Fil} (intact : start.Intact lost)
    (stopped : start.Stopped ⟨state, chain⟩ lost file owner content origin target passed now)
    (fptr : last.fptr = min target (start.capacity owner)) (positive : 0 < last.fptr)
    (within : last.In start.fs.toGeometry (chain owner) ((last.fptr - 1) / sSiz))
    (clean : last.flag.dirty = false) (first : last.orgClust = now.fp.orgClust)
    (fixed : last.fixed = now.fp.fixed) :
    Meets (loadSector last now.ofs) state fun ended after =>
      (ended.1 = true ∧ ∃ chain,
        start.Arrived ⟨after, chain⟩ lost file owner content origin target ended.2) ∨
      (ended.1 = false ∧ start.fs.card.Failed after.card) := by
  have served := stopped.served
  have same : state.toGeometry = start.fs.toGeometry := served.around.geometry
  have rests : state.Rests (chain owner) origin.fsize content now.fp :=
    stopped.opened.shows.rests stopped.clean
  have aligned : last.fptr % sSiz = now.ofs % sSiz := by
    rw [fptr, ← stopped.ofs, stopped.fptr, ← Nat.mul_assoc, Nat.mul_add_mod_self_right]
  unfold loadSector
  split
  next needed =>
    rw [meets_bind, meets_diskRead served.intact.sound.geometry.drive, meets_pure]
    cases success : (state.card.read last.currSect).1.1 with
    | false => exact .inr ⟨rfl, .after served.around.later (Card.read_failed success)⟩
    | true =>
        have buffer := Card.read_success success 0
        rw [Nat.add_zero] at buffer
        refine .inl ⟨rfl, chain, served.accessed intact (.read served.intact served.apart _),
          stopped.reading, fptr, fixed.trans stopped.fixed, clean,
          fun zero => absurd zero (Nat.ne_of_gt positive), _, fun _ below => rests.onDisk_eq below, ?_⟩
        have loaded : ({ state with card := (state.card.read last.currSect).2 } : Fatfs).Rests
            (chain owner) origin.fsize content
            { last with buffer := (state.card.read last.currSect).1.2 0 } :=
          ⟨first.trans rests.first, rests.room, rests.bytes, clean⟩
        refine loaded.shows positive ?_ fun _ => buffer
        rw [← same] at within
        exact ⟨within.inside, within.currClust, within.sectClust, within.currSect⟩
  next whole =>
    refine meets_pure.mpr (.inl ⟨rfl, chain, served, stopped.reading, fptr,
      fixed.trans stopped.fixed, clean, fun zero => absurd zero (Nat.ne_of_gt positive), _, fun _ below => rests.onDisk_eq below, ?_⟩)
    have rested : state.Rests (chain owner) origin.fsize content last :=
      ⟨first.trans rests.first, rests.room, rests.bytes, clean⟩
    refine rested.shows positive (same ▸ within) fun inside => ?_
    rw [aligned] at inside
    exact absurd inside whole

/-- The chain is followed to the offset. -/
theorem Session.Seeking.from [DecidableEq ι] (now : Seek) (passed : Nat)
    (intact : start.Intact lost)
    (seeking : start.Seeking ⟨state, chain⟩ lost file owner content origin target passed now)
    (bounded : origin.flag.write = false → target ≤ origin.fsize) (small : target < 2 ^ 32) :
    Meets (seekFrom now.fp now.clust now.ofs) state fun ended after =>
      (ended.1 = true ∧ ∃ chain,
        start.Arrived ⟨after, chain⟩ lost file owner content origin target ended.2) ∨
      (ended.1 = false ∧ start.fs.card.Failed after.card) := by
  have geometry : state.toGeometry = start.fs.toGeometry := seeking.served.around.geometry
  unfold seekFrom
  rw [meets_get_bind, geometry]
  have ends : Meets (loop (seekRound (start.fs.sectsClust * sSiz)) (now.ofs + 1)
      ⟨now.fp, now.clust, now.ofs⟩) state fun ended after =>
        start.SeekEnds lost file owner content origin target ended after := by
    refine Meets.loop (fun bound now state => now.ofs = bound ∧ ∃ chain passed,
        start.Seeking ⟨state, chain⟩ lost file owner content origin target passed now) ?_
      (Nat.lt_succ_self now.ofs) ⟨rfl, chain, passed, seeking⟩
    rintro _ now state ⟨rfl, chain, passed, seeking⟩
    refine (seeking.round intact bounded small).mono fun step after goes => ?_
    cases step with
    | inl later => exact ⟨later.ofs, goes.1, rfl, goes.2⟩
    | inr ended => exact goes
  refine Meets.bind ends ?_
  rintro ⟨_, now⟩ middle (⟨rfl, chain, passed, stopped⟩ | ⟨rfl, failed⟩)
  · obtain ⟨fptr, positive, within⟩ := stopped.arrive small
    refine stopped.load intact fptr positive within ?_ ?_ ?_
    · rw [Seek.arrive_eq, Fil.place_flag]
      exact stopped.clean
    · rw [Seek.arrive_eq, Fil.place_orgClust]
    · rw [Seek.arrive_eq, Fil.place_fixed]
  · exact meets_pure.mpr (.inr ⟨rfl, failed⟩)

/-- The file object at the top of the file. -/
theorem Session.Arrived.top (served : Session.Served lost file owner start next)
    (opened : next.Opened lost file owner origin.fsize content origin.home)
    (same : next.chain = start.chain)
    (clean : origin.flag.dirty = false) (none : min target (start.capacity owner) = 0) :
    start.Arrived next lost file owner content origin.home target origin.home := by
  refine ⟨served, fun _ => same, none.symm, rfl, clean, fun _ => same, content, fun _ _ => rfl, ?_⟩
  change next.fs.Shows (next.chain owner) (max origin.fsize 0) content origin.home
  rw [Nat.max_zero]
  exact opened.shows

/-- From the top of the file to an offset. -/
theorem Session.Opened.seekTo [DecidableEq ι] {ofs : Nat} (origin : Fil) (intact : start.Intact lost)
    (served : Session.Served lost file owner start ⟨state, chain⟩)
    (opened : Session.Opened ⟨state, chain⟩ lost file owner origin.fsize content origin.home)
    (clean : origin.flag.dirty = false) (same : chain = start.chain)
    (bounded : origin.flag.write = false → ofs ≤ origin.fsize) (small : ofs < 2 ^ 32) :
    Meets (seekTo origin.home ofs) state fun ended after =>
      (ended.1 = true ∧ ∃ chain,
        start.Arrived ⟨after, chain⟩ lost file owner content origin.home ofs ended.2) ∨
      (ended.1 = false ∧ start.fs.card.Failed after.card) := by
  have first : origin.orgClust = (chain owner).headD 0 := opened.shows.first
  unfold FatFs.seekTo
  split
  next zero =>
    refine meets_pure.mpr (.inl ⟨rfl, chain, .top served opened same clean ?_⟩)
    rw [zero, Nat.zero_min]
  next positive =>
    unfold seekStart
    cases cells : chain owner with
    | nil =>
        rw [cells] at first
        have empty : origin.home.orgClust = 0 := first
        have room : origin.fsize ≤ sSiz * state.blocks (chain owner) := opened.shows.room
        rw [cells] at room
        have size : origin.fsize = 0 := by
          unfold Geometry.blocks at room
          rw [List.length_nil, Nat.zero_mul, Nat.mul_zero] at room
          exact Nat.le_zero.mp room
        have writing : ¬ origin.flag.write = false := by
          intro reading
          have := bounded reading
          omega
        rw [if_pos empty]
        refine Meets.bind (opened.starts cells) ?_
        rintro value after (⟨longer, stretched, new⟩ | ⟨rfl, none, still, sound⟩ | ⟨rfl, failed⟩)
        · have member := stretched.opened.intact.allocated.inside owner value (by
            dsimp only
            rw [new]
            exact List.mem_singleton_self value)
          have := member.1
          have begun : ({ origin.home with orgClust := value } : Fil) =
              origin.home.begin (longer owner) := by
            unfold Fil.begin
            rw [new]
            rfl
          dsimp only
          rw [if_neg (by omega), if_neg (by omega)]
          refine Session.Seeking.from ⟨{ origin.home with orgClust := value }, value, ofs⟩ 0 intact ⟨⟨served.stretched stretched, ?_, clean,
              fun reading => absurd reading writing, ?_, (Nat.zero_mul _).symm,
              Nat.pos_of_ne_zero positive, rfl⟩, ?_, Nat.zero_add _⟩ bounded small
          · rw [begun]
            exact stretched.opened
          · dsimp only
            rw [new]
            exact Nat.one_pos
          · dsimp only
            rw [new]
            rfl
        · dsimp only
          rw [if_neg fun both => absurd both.2 (by decide), if_pos rfl, meets_pure]
          have later := opened.accessed (.still served.intact served.apart still sound)
          have top : ({ origin.home with orgClust := 0 } : Fil) = origin.home := by
            rw [← empty]
          rw [top]
          refine .inl ⟨rfl, chain, .top (served.accessed intact
            (.still served.intact served.apart still sound)) later same clean ?_⟩
          have limit := (served.capacity intact).2 none
          dsimp only at limit
          rw [cells] at limit
          unfold Geometry.blocks at limit
          rw [List.length_nil, Nat.zero_mul, Nat.mul_zero] at limit
          rw [← limit, Nat.min_zero]
        · dsimp only
          rw [if_pos ⟨empty, rfl⟩, meets_pure]
          exact .inr ⟨rfl, .after served.around.later failed⟩
    | cons head rest =>
        rw [cells] at first
        have member := served.intact.allocated.inside owner head (by
          dsimp only
          rw [cells]
          exact List.mem_cons_self)
        have := member.1
        have some : ¬ origin.home.orgClust = 0 := by
          change ¬ origin.orgClust = 0
          rw [first]
          change ¬ head = 0
          omega
        rw [if_neg some, meets_bind, meets_pure, if_neg fun both => some both.1, if_neg some]
        refine Session.Seeking.from ⟨origin.home, origin.orgClust, ofs⟩ 0 intact
          ⟨⟨served, opened, clean, fun _ => same, ?_, (Nat.zero_mul _).symm,
            Nat.pos_of_ne_zero positive, rfl⟩, ?_, Nat.zero_add _⟩ bounded small
        · dsimp only
          rw [cells]
          exact Nat.succ_pos _
        · dsimp only
          rw [cells]
          exact first

end Round

/-! ## `f_lseek` -/

/-- What a successful `f_lseek` leaves. -/
structure Session.Sought {ι : Type} (session next : Session ι) (lost : Nat → Prop)
    (file : ι → Prop) (owner : ι) (content : Nat → Byte) (fp : Fil) (ofs : Nat) (last : Fil) :
    Prop where
  served : Served lost file owner session next
  reading : fp.flag.write = false → next.chain = session.chain
  fptr : last.fptr = min (if fp.fsize < ofs ∧ fp.flag.write = false then fp.fsize else ofs)
    (session.capacity owner)
  fsize : last.fsize = if fp.flag.write = true then max fp.fsize last.fptr else fp.fsize
  fixed : last.fixed = (({ fp with fsize := last.fsize } : Fil).setWritten
    (fp.flag.written || decide (fp.fsize < last.fsize))).fixed
  clean : last.flag.dirty = false
  empty : last.fptr = 0 → next.chain = session.chain
  shows : ∃ other, (∀ position < fp.fsize, other position = content position) ∧
    next.fs.Shows (next.chain owner) last.fsize other last

section Call

variable {ι : Type} {session next : Session ι} {lost : Nat → Prop} {file : ι → Prop} {owner : ι}
variable {content : Nat → Byte} {fp last : Fil} {ofs sectClust : Nat}

/-- The size of a file that is open for writing is at least the position. -/
theorem Session.Arrived.stretch
    (arrived : session.Arrived next lost file owner content (fp.setDirty false).home
      (if fp.fsize < ofs ∧ fp.flag.write = false then fp.fsize else ofs) last) :
    session.Sought next lost file owner content fp ofs last.stretch := by
  have size := congrArg (fun fp : Fil => fp.fsize) arrived.fixed
  have write := congrArg (fun fp : Fil => fp.flag.write) arrived.fixed
  have written := congrArg (fun fp : Fil => fp.flag.written) arrived.fixed
  change last.fsize = fp.fsize at size
  change last.flag.write = fp.flag.write at write
  change last.flag.written = fp.flag.written at written
  have fixed : last.fixed = fp.fixed := arrived.fixed
  obtain ⟨other, same, shows⟩ := arrived.shows
  change next.fs.Shows (next.chain owner) (max fp.fsize last.fptr) other last at shows
  by_cases grows : last.flag.write = true ∧ last.fsize < last.fptr
  · have longer : last.stretch = ({ last with fsize := last.fptr } : Fil).setWritten true :=
      if_pos grows
    rw [longer]
    have limit : max fp.fsize last.fptr = last.fptr := by omega
    refine ⟨arrived.served, arrived.reading, arrived.fptr, ?_, ?_, arrived.clean, arrived.empty,
      other, same, ?_⟩
    · change last.fptr = if fp.flag.write = true then max fp.fsize last.fptr else fp.fsize
      rw [if_pos (write ▸ grows.1), limit]
    · have marked := congrArg
        (fun fp : Fil => ({ fp with fsize := last.fptr } : Fil).setWritten true) fixed
      have more : (fp.flag.written || decide (fp.fsize < last.fptr)) = true := by
        rw [decide_eq_true (by omega), Bool.or_true]
      change _ = (({ fp with fsize := last.fptr } : Fil).setWritten
        (fp.flag.written || decide (fp.fsize < last.fptr))).fixed
      rw [more]
      unfold Fil.fixed at marked ⊢
      exact marked
    · change next.fs.Shows (next.chain owner) last.fptr other _
      rw [limit] at shows
      exact shows.marked
  · have stays : last.stretch = last := if_neg grows
    rw [stays]
    have limit : max fp.fsize last.fptr = fp.fsize := by
      by_cases writing : last.flag.write = true
      · have : ¬ last.fsize < last.fptr := fun less => grows ⟨writing, less⟩
        omega
      · have mode : fp.flag.write = false := by
          rw [← write]
          simpa using writing
        have below : (if fp.fsize < ofs ∧ fp.flag.write = false then fp.fsize else ofs) ≤
            fp.fsize := by
          split
          next => exact le_rfl
          next inside => exact Nat.le_of_not_lt fun less => inside ⟨less, mode⟩
        exact max_eq_left (arrived.fptr.trans_le ((Nat.min_le_left _ _).trans below))
    refine ⟨arrived.served, arrived.reading, arrived.fptr, ?_, ?_, arrived.clean, arrived.empty,
      other, same, ?_⟩
    · rw [size, limit, ite_self]
    · have more : (fp.flag.written || decide (fp.fsize < last.fsize)) = fp.flag.written := by
        rw [decide_eq_false (by omega), Bool.or_false]
      rw [more, size]
      exact fixed
    · rw [size, ← limit]
      exact shows

/-- `f_lseek` moves to the offset, as far as there is file or room for it; bytes that were there
stay.  The counter of sectors may have any value, as after a write that was cut. -/
theorem fLseek_meets [DecidableEq ι]
    (opened : session.Opened lost file owner fp.fsize content (fp.counted sectClust))
    (usable : fp.Usable session.fs) (small : fp.fsize < 2 ^ 32) (offset : ofs < 2 ^ 32) :
    Meets (fLseek fp ofs) session.fs fun ended after =>
      (ended.1 = .ok ∧ ∃ chain,
        session.Sought ⟨after, chain⟩ lost file owner content fp ofs ended.2) ∨
      (ended.1 = .rwError ∧ session.fs.card.Failed after.card) := by
  have intact := opened.intact
  unfold fLseek
  rw [meets_validate_bind usable, if_neg (by decide), if_neg (by simp [usable.fine])]
  refine Meets.bind (flushBuffer_meets intact.sound.geometry.drive) ?_
  rintro flushed middle (⟨rfl, wrote, data⟩ | ⟨failure, failed⟩)
  · have accessed := Session.Accessed.wrote intact opened.apart opened.isFile wrote (by
      rintro number ⟨dirty, rfl⟩
      exact opened.dirty dirty)
    have rests : middle.Rests (session.chain owner) fp.fsize content (fp.setDirty false).home := by
      have shows := opened.shows
      refine ⟨shows.first, ?_, fun position below => ?_, rfl⟩
      · rw [wrote.geometry]
        exact shows.room
      · rw [wrote.geometry, data]
        exact shows.bytes position below
    have served : Session.Served lost file owner session ⟨middle, session.chain⟩ :=
      (Session.Served.refl intact opened.apart).accessed intact accessed
    dsimp only
    rw [if_neg (by decide)]
    have target : (if (fp.setDirty false).fsize < ofs ∧ (fp.setDirty false).flag.write = false then
        (fp.setDirty false).fsize else ofs) =
          if fp.fsize < ofs ∧ fp.flag.write = false then fp.fsize else ofs := rfl
    rw [target]
    refine Meets.bind (Session.Opened.seekTo (fp.setDirty false) intact served
      ⟨accessed.intact, accessed.apart, opened.isFile, rests.top rfl rfl⟩ rfl rfl ?_ ?_) ?_
    · intro mode
      change fp.flag.write = false at mode
      change _ ≤ fp.fsize
      split
      next => exact le_rfl
      next inside => exact Nat.le_of_not_lt fun less => inside ⟨less, mode⟩
    · split
      next => exact small
      next => exact offset
    · rintro ⟨_, last⟩ after (⟨rfl, chain, arrived⟩ | ⟨rfl, failed⟩)
      · exact meets_pure.mpr (.inl ⟨rfl, chain, arrived.stretch⟩)
      · exact meets_pure.mpr (.inr ⟨rfl, failed⟩)
  · obtain ⟨done, moved⟩ := flushed
    obtain rfl : done = false := failure
    exact meets_pure.mpr (.inr ⟨rfl, failed⟩)

end Call

end BbbEth.FatFs
