import BbbEth.FatFs.Read

/-!
# `f_write`

What `f_write` leaves is the content of the file with the bytes over it, as far as there are
clusters for them.  A chain grows by clusters that were free.
-/

namespace BbbEth.FatFs

open BbbEth.Console BbbEth.Stateful BbbEth.Linked

/-! ## Bytes over a content -/

/-- A content with some bytes over it. -/
def overlay (content : Nat → Byte) (start count : Nat) (data : Nat → Byte) (position : Nat) : Byte :=
  if start ≤ position ∧ position < start + count then data (position - start) else content position

section Overlay

variable {content data : Nat → Byte} {start count more position : Nat}

theorem overlay_zero : overlay content start 0 data = content := by
  funext position
  exact if_neg (by omega)

theorem overlay_outside (outside : ¬ (start ≤ position ∧ position < start + count)) :
    overlay content start count data position = content position := if_neg outside

/-- The bytes of two parts, one behind the other. -/
theorem overlay_overlay :
    overlay (overlay content start count data) (start + count) more (fun index => data (count + index)) =
      overlay content start (count + more) data := by
  funext position
  unfold overlay
  by_cases second : start + count ≤ position ∧ position < start + count + more
  · have same : count + (position - (start + count)) = position - start := by omega
    rw [if_pos second, if_pos (by omega), ← same]
  · rw [if_neg second]
    by_cases first : start ≤ position ∧ position < start + count
    · rw [if_pos first, if_pos (by omega)]
    · rw [if_neg first, if_neg (by omega)]

end Overlay

/-- The file object, with bytes over its buffer. -/
def Fil.fill (fp : Fil) (count : Nat) (data : Nat → Byte) : Fil :=
  { fp with
    flag := { fp.flag with dirty := true }
    buffer := fun offset =>
      if fp.fptr % sSiz ≤ offset ∧ offset < fp.fptr % sSiz + count then data (offset - fp.fptr % sSiz)
      else fp.buffer offset }

/-- The file object of a chain. -/
def Fil.begin (fp : Fil) (cells : List Nat) : Fil := { fp with orgClust := cells.headD 0 }

namespace Fatfs

variable {fs after : Fatfs} {cells more : List Nat} {size index count : Nat}
variable {content data : Nat → Byte} {fp : Fil}

/-- Bytes go over the buffer. -/
theorem Loaded.fill (loaded : fs.Loaded cells size content fp index) (data : Nat → Byte)
    (fits : fp.fptr ≤ size) (part : fp.fptr % sSiz + count ≤ sSiz) :
    fs.Loaded cells (max size (fp.fptr + count)) (overlay content fp.fptr count data)
      (fp.fill count data) index where
  first := loaded.first
  room := by
    have inside : sSiz * (index + 1) ≤ sSiz * fs.blocks cells :=
      Nat.mul_le_mul_left _ loaded.inside
    have place := loaded.fptr
    have whole := loaded.room
    unfold sSiz at *
    omega
  bytes position below := by
    have place := loaded.fptr
    by_cases here : position / sSiz = index
    · rw [if_pos here]
      have same : position % sSiz < sSiz := Nat.mod_lt _ sSiz_pos
      change (if fp.fptr % sSiz ≤ position % sSiz ∧ position % sSiz < fp.fptr % sSiz + count then
        data (position % sSiz - fp.fptr % sSiz) else fp.buffer.get position) = _
      unfold overlay
      by_cases inside : fp.fptr ≤ position ∧ position < fp.fptr + count
      · rw [if_pos inside, if_pos (by unfold sSiz at *; omega)]
        congr 1
        unfold sSiz at *
        omega
      · rw [if_neg inside, if_neg (by unfold sSiz at *; omega), ← loaded.bytes position (by omega),
          if_pos here]
    · rw [if_neg here]
      have outside : ¬ (fp.fptr ≤ position ∧ position < fp.fptr + count) := by
        unfold sSiz at *
        omega
      rw [overlay_outside outside, ← loaded.bytes position (by omega), if_neg here]
  fptr := loaded.fptr
  inside := loaded.inside
  currClust := loaded.currClust
  sectClust := loaded.sectClust
  currSect := loaded.currSect

/-- Whole sectors go to the card. -/
theorem Ready.write (ready : fs.Ready cells size content fp index) (data : Nat → Byte)
    (wellFormed : fs.WellFormed) (distinct : cells.Nodup) (clusters : ∀ clust ∈ cells, fs.Cluster clust)
    (geometry : after.toGeometry = fs.toGeometry)
    (part : index % fs.sectsClust + count ≤ fs.sectsClust) (fits : fp.fptr ≤ size)
    (inside : ∀ offset < count, ∀ position, position / sSiz = offset →
      (after.card.data (fs.block cells index + offset)).get position = data position)
    (outside : ∀ number, ¬ (fs.block cells index ≤ number ∧ number < fs.block cells index + count) →
      after.card.data number = fs.card.data number) :
    after.Ready cells (max size (fp.fptr + count * sSiz))
      (overlay content fp.fptr (count * sSiz) data) fp index where
  first := ready.first
  room := by
    have whole := ready.room
    have last := Geometry.add_le_blocks ready.inside part
    have scaled : sSiz * (index + count) ≤ sSiz * fs.blocks cells := Nat.mul_le_mul_left _ last
    rw [geometry, ready.fptr, Nat.mul_comm count, ← Nat.mul_add]
    exact max_le whole scaled
  bytes position below := by
    have place := ready.fptr
    have last := Geometry.add_le_blocks ready.inside part
    rw [geometry]
    unfold overlay
    by_cases written : fp.fptr ≤ position ∧ position < fp.fptr + count * sSiz
    · rw [if_pos written]
      have block : position / sSiz = index + (position - fp.fptr) / sSiz := by
        rw [place]
        unfold sSiz at *
        omega
      have which : (position - fp.fptr) / sSiz < count := by
        unfold sSiz at *
        omega
      rw [block, Geometry.block_add (by omega), ← inside _ which _ rfl]
      exact Sector.get_congr (by rw [place]; unfold sSiz at *; omega)
    · rw [if_neg written]
      have old : position < size := by omega
      have elsewhere : ∀ offset < count, position / sSiz ≠ index + offset := by
        intro offset small
        unfold sSiz at *
        omega
      rw [← ready.bytes position old, outside]
      rintro ⟨least, most⟩
      have offset : fs.block cells (position / sSiz) =
          fs.block cells (index + (fs.block cells (position / sSiz) - fs.block cells index)) := by
        rw [Geometry.block_add (by omega)]
        omega
      have same := wellFormed.block_injective distinct clusters (block_of_lt ready.room old)
        (by omega) offset
      exact elsewhere _ (by omega) same
  fptr := ready.fptr
  dirty := ready.dirty
  inside := by
    rw [geometry]
    exact ready.inside
  currClust := by
    rw [geometry]
    exact ready.currClust
  sectClust := by
    rw [geometry]
    exact ready.sectClust
  currSect := by
    rw [geometry]
    exact ready.currSect

/-- Where there is nothing yet, the buffer needs no bytes of the card. -/
theorem Ready.fresh (ready : fs.Ready cells size content fp index) (behind : size ≤ fp.fptr) :
    fs.Loaded cells size content fp index where
  first := ready.first
  room := ready.room
  bytes position below := by
    have place := ready.fptr
    have before : position / sSiz ≠ index := by
      unfold sSiz at *
      omega
    rw [if_neg before]
    exact ready.bytes position below
  fptr := by rw [ready.fptr, Nat.mul_div_cancel_left _ sSiz_pos]
  inside := ready.inside
  currClust := ready.currClust
  sectClust := ready.sectClust
  currSect := ready.currSect

/-- A chain that is longer shows the same. -/
theorem Shows.append (shows : fs.Shows cells size content fp) :
    fs.Shows (cells ++ more) size content (fp.begin (cells ++ more)) where
  first := rfl
  room := by
    have longer : fs.blocks cells ≤ fs.blocks (cells ++ more) :=
      Nat.mul_le_mul_right _ (by rw [List.length_append]; exact Nat.le_add_right _ _)
    exact shows.room.trans (Nat.mul_le_mul_left _ longer)
  fptr_le := shows.fptr_le
  bytes position below := by
    rw [← shows.bytes position below]
    unfold byteOf
    rw [Geometry.block_append (block_of_lt shows.room below)]
    rfl
  top := shows.top
  within positive := by
    have within := shows.within positive
    have inside := within.inside
    refine ⟨?_, ?_, within.sectClust, fun needed => ?_⟩
    · exact inside.trans_le
        (Nat.mul_le_mul_right _ (by rw [List.length_append]; exact Nat.le_add_right _ _))
    · exact within.currClust.trans (List.getD_append _ _ _ _ (Geometry.cell_lt inside)).symm
    · exact (within.currSect needed).trans (Geometry.block_append inside).symm
  loaded := shows.loaded

/-- The counter comes to 0 from 1. -/
theorem Shows.sectClust_of_count (shows : fs.Shows cells size content fp)
    (wellFormed : fs.WellFormed) (counter : fp.countSector.sectClust = 0) : fp.sectClust = 1 := by
  have limit := wellFormed.sectors
  by_cases top : fp.fptr = 0
  · exact (shows.top top).1
  · have count := (shows.within (Nat.pos_of_ne_zero top)).sectClust
    change (fp.sectClust + 2 ^ 8 - 1) % 2 ^ 8 = 0 at counter
    omega

/-- The size and the marks of the file object are not looked at. -/
theorem Shows.marked {fsize : Nat} {written : Bool} (shows : fs.Shows cells size content fp) :
    fs.Shows cells size content (({ fp with fsize } : Fil).setWritten written) where
  first := shows.first
  room := shows.room
  fptr_le := shows.fptr_le
  bytes := shows.bytes
  top := shows.top
  within positive :=
    have within := shows.within positive
    ⟨within.inside, within.currClust, within.sectClust, within.currSect⟩
  loaded := shows.loaded

theorem Shows.begin_eq (shows : fs.Shows cells size content fp) : fp.begin cells = fp := by
  unfold Fil.begin
  rw [← shows.first]

end Fatfs

/-! ## The next cluster -/

namespace Session

variable {ι : Type} {session next : Session ι} {lost : Nat → Prop} {file : ι → Prop} {owner : ι}
variable {size index : Nat} {content : Nat → Byte} {fp : Fil} {after : Fatfs}

/-- The chain has a block, as it was or with a cluster more. -/
structure Stretched (session next : Session ι) (lost : Nat → Prop) (file : ι → Prop) (owner : ι)
    (size : Nat) (content : Nat → Byte) (fp : Fil) (index : Nat) : Prop where
  others : ∀ other, other ≠ owner → next.chain other = session.chain other
  grown : session.chain owner <+: next.chain owner
  opened : next.Opened lost file owner size content (fp.begin (next.chain owner))
  inside : index < next.fs.blocks (next.chain owner)
  around : session.fs.Around (fun _ => False) next.fs

/-- The block is in the chain already. -/
theorem Opened.follows (opened : session.Opened lost file owner size content fp)
    (inside : index < session.fs.blocks (session.chain owner)) (still : session.fs.Still after)
    (sound : after.Sound) :
    Stretched session { session with fs := after } lost file owner size content fp index := by
  refine ⟨fun _ _ => rfl, List.prefix_rfl, ?_, ?_, still.toSame.around⟩
  · rw [opened.shows.begin_eq]
    exact opened.accessed (.still opened.intact opened.apart still sound)
  · rw [still.geometry]
    exact inside

/-- A chain that was there keeps its first cluster. -/
theorem Stretched.begin_eq (stretched : Stretched session next lost file owner size content fp index)
    (opened : session.Opened lost file owner size content fp)
    (some : session.chain owner ≠ []) : fp.begin (next.chain owner) = fp := by
  rcases stretched.grown with ⟨more, chain⟩
  rw [← chain, ← opened.shows.begin_eq]
  cases cells : session.chain owner with
  | nil => exact absurd cells some
  | cons head rest => rfl

/-- From a cluster of a chain `create_chain` goes on to the next one, or puts one at the end. -/
theorem Intact.createChain_cell {before : Nat} (intact : session.Intact lost)
    (below : before < (session.chain owner).length) :
    Meets (createChain ((session.chain owner).getD before 0)) session.fs fun value after =>
      (before + 1 < (session.chain owner).length ∧
        value = (session.chain owner).getD (before + 1) 0 ∧ session.fs.Still after ∧ after.Sound) ∨
      (before + 1 = (session.chain owner).length ∧
        Grown session.fs (lastOf (session.chain owner)) value after) ∨
      (value = 1 ∧ session.fs.card.Failed after.card) := by
  have allocated := intact.allocated
  have isMember : (session.chain owner).getD before 0 ∈ session.chain owner := by
    rw [List.getD_eq_getElem _ _ below]
    exact List.getElem_mem below
  have member := allocated.inside owner _ isMember
  have used := (allocated.used _ member).mpr (.inl ⟨owner, isMember⟩)
  have legal := allocated.legal _ member
  refine (createChain_meets intact.sound allocated.legal member used).mono ?_
  intro value after outcome
  by_cases more : before + 1 < (session.chain owner).length
  · have linked := allocated.entry_getD more
    have cell := allocated.inside owner ((session.chain owner).getD (before + 1) 0) (by
      rw [List.getD_eq_getElem _ _ more]
      exact List.getElem_mem more)
    rw [← linked] at cell
    rw [if_pos cell.2] at outcome
    rcases outcome with ⟨rfl, still, sound⟩ | ⟨rfl, failed⟩
    · exact .inl ⟨more, linked, still, sound⟩
    · exact .inr (.inr ⟨rfl, failed⟩)
  · have whole : before + 1 = (session.chain owner).length := by omega
    have ends := allocated.entry_last whole
    have outside : ¬ session.fs.entry ((session.chain owner).getD before 0) < session.fs.maxClust :=
      fun small => ends ⟨by omega, small⟩
    have isLast : (session.chain owner).getD before 0 = lastOf (session.chain owner) := by
      rw [lastOf, List.getLast?_eq_getElem?, ← whole, Nat.add_sub_cancel,
        List.getD_eq_getElem?_getD]
    rw [if_neg outside, isLast] at outcome
    exact .inr (.inl ⟨whole, outcome⟩)

variable [DecidableEq ι]

/-- A free cluster is put at the end of the chain. -/
theorem Opened.stretch {value : Nat} (opened : session.Opened lost file owner size content fp)
    (new : session.fs.Cluster value) (unused : session.fs.entry value = 0)
    (tabled : session.fs.Tabled (session.fs.grown (lastOf (session.chain owner)) value) after)
    (count : after.freeClust = countDown session.fs.freeClust)
    (last : index / session.fs.sectsClust = (session.chain owner).length)
    (place : index % session.fs.sectsClust = 0) :
    Stretched session
      ⟨after, Function.update session.chain owner (session.chain owner ++ [value])⟩ lost file owner
      size content fp index := by
  have wellFormed := opened.intact.sound.geometry
  have intact := opened.intact.extended new unused tabled count
  have around : session.fs.Around (fun _ => False) after := tabled.toRest.around
  have others : ∀ other, other ≠ owner → Function.update session.chain owner
      (session.chain owner ++ [value]) other = session.chain other :=
    fun other distinct => Function.update_of_ne distinct _ _
  have chain : Function.update session.chain owner (session.chain owner ++ [value]) owner =
      session.chain owner ++ [value] := Function.update_self ..
  have apart : Apart ⟨after, Function.update session.chain owner (session.chain owner ++ [value])⟩
      file := by
    refine opened.apart.near wellFormed tabled.geometry tabled.near fun other isDirectory =>
      others other ?_
    rintro rfl
    exact isDirectory opened.isFile
  have stays : session.chain owner ⊆
      Function.update session.chain owner (session.chain owner ++ [value]) owner := by
    rw [chain]
    exact List.subset_append_left _ _
  have kept := opened.kept intact apart around stays fun _ => False.elim
  refine ⟨others, ?_, ⟨intact, apart, opened.isFile, ?_⟩, ?_, around⟩
  · dsimp only
    rw [chain]
    exact List.prefix_append _ _
  · dsimp only
    rw [chain]
    exact kept.append
  · dsimp only
    rw [chain, around.geometry]
    have split := Nat.div_add_mod index session.fs.sectsClust
    have := wellFormed.sectsClust
    unfold Geometry.blocks
    rw [List.length_append, List.length_singleton, Nat.succ_mul, ← last, Nat.mul_comm]
    omega

/-- What a grown chain gives to `f_write`. -/
theorem Opened.grows {clust value : Nat} (index : Nat)
    (opened : session.Opened lost file owner size content fp) (grown : Grown session.fs clust value after)
    (end_ : clust = lastOf (session.chain owner)) (last : index / session.fs.sectsClust = (session.chain owner).length)
    (place : index % session.fs.sectsClust = 0) :
    (∃ chain, Stretched session ⟨after, chain⟩ lost file owner size content fp index ∧
        (chain owner).getD (index / session.fs.sectsClust) 0 = value ∧
        (session.chain owner = [] → chain owner = [value])) ∨
      (value = 0 ∧ session.fs.free = ∅ ∧ session.fs.Still after ∧ after.Sound) ∨
      (value = 1 ∧ session.fs.card.Failed after.card) := by
  rcases grown with ⟨zero, full, still, sound⟩ | ⟨new, unused, tabled, _, count⟩ | failed
  · refine .inr (.inl ⟨zero, Finset.eq_empty_iff_forall_notMem.mpr fun other isFree => ?_, still, sound⟩)
    rw [Fatfs.mem_free] at isFree
    exact full other isFree.1 isFree.2
  · rw [end_] at tabled
    refine .inl ⟨_, opened.stretch new unused tabled count last place, ?_, fun none => ?_⟩
    · rw [Function.update_self, last, List.getD_append_right _ _ _ _ le_rfl, Nat.sub_self]
      rfl
    · rw [Function.update_self, none]
      rfl
  · exact .inr (.inr failed)

/-- A file without clusters gets its first one. -/
theorem Opened.starts (opened : session.Opened lost file owner size content fp)
    (none : session.chain owner = []) :
    Meets (createChain 0) session.fs fun value after =>
      (∃ chain, Stretched session ⟨after, chain⟩ lost file owner size content fp 0 ∧
        chain owner = [value]) ∨
      (value = 0 ∧ session.fs.free = ∅ ∧ session.fs.Still after ∧ after.Sound) ∨
      (value = 1 ∧ session.fs.card.Failed after.card) := by
  refine (createChain_meets_new opened.intact.sound opened.intact.allocated.legal).mono ?_
  intro value after grown
  have last : 0 / session.fs.sectsClust = (session.chain owner).length := by
    rw [none, Nat.zero_div]
    rfl
  refine (opened.grows 0 grown (by rw [none]; rfl) last (Nat.zero_mod _)).imp_left ?_
  rintro ⟨chain, stretched, _, new⟩
  exact ⟨chain, stretched, new none⟩

/-- The cluster of a block that is at the start of one. -/
def FoundCluster (session : Session ι) (lost : Nat → Prop) (file : ι → Prop) (owner : ι) (size : Nat)
    (content : Nat → Byte) (fp : Fil) (index : Nat) (found : Nat × Fil) (after : Fatfs) : Prop :=
  (∃ chain, Stretched session ⟨after, chain⟩ lost file owner size content fp index ∧
    found = ((chain owner).getD (index / session.fs.sectsClust) 0,
      (fp.begin (chain owner)).countSector)) ∨
  (found = (0, fp.countSector) ∧ session.fs.free = ∅ ∧
    index / session.fs.sectsClust = (session.chain owner).length ∧ session.fs.Still after ∧
      after.Sound) ∨
  (found.1 = 1 ∧ session.fs.card.Failed after.card)

/-- At the end of a cluster the chain is followed, or a cluster is put at its end. -/
theorem Opened.writeCluster (opened : session.Opened lost file owner size content fp)
    (fits : index / session.fs.sectsClust ≤ (session.chain owner).length)
    (place : index % session.fs.sectsClust = 0) (boundary : fp.fptr = sSiz * index)
    (start : index = 0 ∨ 0 < index ∧ ∃ before, index / session.fs.sectsClust = before + 1 ∧
      before < (session.chain owner).length ∧
        fp.currClust = (session.chain owner).getD before 0) :
    Meets (writeCluster fp.countSector) session.fs fun found after =>
      session.FoundCluster lost file owner size content fp index found after := by
  have wellFormed := opened.intact.sound.geometry
  have allocated := opened.intact.allocated
  have first := opened.shows.first
  have begins := opened.shows.begin_eq
  have positive := wellFormed.sectsClust
  have inside : index / session.fs.sectsClust < (session.chain owner).length →
      index < session.fs.blocks (session.chain owner) := by
    intro more
    have split := Nat.div_add_mod index session.fs.sectsClust
    have most := Nat.mul_le_mul_right session.fs.sectsClust more
    rw [Nat.succ_mul, Nat.mul_comm] at most
    unfold Geometry.blocks
    omega
  unfold FatFs.writeCluster
  rcases start with rfl | ⟨later, before, quotient, below, current⟩
  · have top : fp.countSector.fptr = 0 := boundary
    rw [if_pos top]
    cases cells : session.chain owner with
    | nil =>
        rw [cells] at first
        have none : fp.countSector.orgClust = 0 := first
        have last : 0 / session.fs.sectsClust = (session.chain owner).length := by
          rw [cells, Nat.zero_div]
          rfl
        rw [if_pos none]
        refine Meets.bind (opened.starts cells) ?_
        rintro value after (⟨chain, stretched, new⟩ | ⟨rfl, full, still, sound⟩ | ⟨rfl, failed⟩)
        · refine meets_pure.mpr (.inl ⟨chain, stretched, ?_⟩)
          unfold Fil.begin
          rw [new, Nat.zero_div]
          rfl
        · refine meets_pure.mpr (.inr (.inl ⟨?_, full, last, still, sound⟩))
          rw [← none]
        · exact meets_pure.mpr (.inr (.inr ⟨rfl, failed⟩))
    | cons head rest =>
        rw [cells] at first
        have member := allocated.inside owner head (by rw [cells]; exact List.mem_cons_self)
        have some : ¬ fp.countSector.orgClust = 0 := by
          change ¬ fp.orgClust = 0
          rw [first]
          have := member.1
          change ¬ head = 0
          omega
        rw [if_neg some]
        refine meets_pure.mpr (.inl ⟨session.chain, ?_, ?_⟩)
        · exact opened.follows (inside (by rw [cells, Nat.zero_div]; exact Nat.succ_pos _)) .refl
            opened.intact.sound
        · rw [begins, cells, Nat.zero_div]
          change (fp.orgClust, fp.countSector) = _
          rw [first]
          rfl
  · have notTop : ¬ fp.countSector.fptr = 0 := by
      change ¬ fp.fptr = 0
      rw [boundary]
      unfold sSiz
      omega
    rw [if_neg notTop]
    change Meets (FatFs.createChain fp.currClust >>= _) _ _
    rw [current]
    refine Meets.bind (opened.intact.createChain_cell below) ?_
    rintro value after (⟨more, rfl, still, sound⟩ | ⟨whole, grown⟩ | ⟨rfl, failed⟩)
    · refine meets_pure.mpr (.inl ⟨session.chain, opened.follows (inside (by omega)) still sound, ?_⟩)
      rw [begins, quotient]
    · have last := quotient.trans whole
      refine meets_pure.mpr ?_
      rcases opened.grows _ grown rfl last place with
        ⟨chain, stretched, cell, _⟩ | ⟨rfl, full, still, sound⟩ | ⟨rfl, failed⟩
      · refine .inl ⟨chain, stretched, ?_⟩
        have some : session.chain owner ≠ [] := by
          rintro none
          rw [none] at whole
          exact Nat.succ_ne_zero before whole
        rw [cell, stretched.begin_eq opened some]
      · exact .inr (.inl ⟨rfl, full, last, still, sound⟩)
      · exact .inr (.inr ⟨rfl, failed⟩)
    · exact meets_pure.mpr (.inr (.inr ⟨rfl, failed⟩))

/-- The next block of a file that is written. -/
def FoundBlock (session : Session ι) (lost : Nat → Prop) (file : ι → Prop) (owner : ι) (size : Nat)
    (content : Nat → Byte) (fp : Fil) (index : Nat) (next : Next × Fil) (after : Fatfs) : Prop :=
  (∃ chain, Stretched session ⟨after, chain⟩ lost file owner size content fp index ∧
    next = (.sector (session.fs.block (chain owner) index),
      (fp.begin (chain owner)).enter session.fs.toGeometry (chain owner) index)) ∨
  (next = (.full, fp.countSector) ∧ fp.countSector.sectClust = 0 ∧ session.fs.free = ∅ ∧
    index = session.fs.blocks (session.chain owner) ∧ session.fs.Still after ∧ after.Sound) ∨
  (next.1 = .error ∧ session.fs.card.Failed after.card)

/-- `f_write` goes on with the next block of the chain, if there is a cluster for it. -/
theorem Opened.writeNext (opened : session.Opened lost file owner size content fp)
    (boundary : fp.fptr = sSiz * index)
    (fits : index ≤ session.fs.blocks (session.chain owner)) :
    Meets (writeNext fp) session.fs fun next after =>
      session.FoundBlock lost file owner size content fp index next after := by
  have wellFormed := opened.intact.sound.geometry
  have positive := wellFormed.sectsClust
  unfold FatFs.writeNext
  rw [meets_get_bind]
  rcases opened.shows.turn wellFormed (opened.intact.allocated.inside owner) boundary with
    ⟨same, more, next, inside⟩ | ⟨ended, place, start⟩
  · rw [if_pos more, meets_pure, next, same]
    refine .inl ⟨session.chain, opened.follows inside .refl opened.intact.sound, ?_⟩
    rw [opened.shows.begin_eq]
  · rw [if_neg (Decidable.not_not.mpr ended)]
    have least : index / session.fs.sectsClust ≤ (session.chain owner).length := by
      have scaled := Nat.div_le_div_right (c := session.fs.sectsClust) fits
      unfold Geometry.blocks at scaled
      rwa [Nat.mul_div_cancel _ positive] at scaled
    refine Meets.bind (opened.writeCluster least place boundary start) ?_
    rintro found after (⟨chain, stretched, rfl⟩ | ⟨rfl, full, last, still, sound⟩ | ⟨isOne, failed⟩)
    · have cell : after.Cluster ((chain owner).getD (index / session.fs.sectsClust) 0) := by
        have member := Geometry.cell_mem stretched.inside
        rw [stretched.around.geometry] at member
        exact stretched.opened.intact.allocated.inside owner _ member
      rw [stretched.around.geometry] at cell
      have := cell.1
      have := cell.2
      dsimp only
      rw [if_neg (by omega), if_neg (by omega), meets_pure]
      refine .inl ⟨chain, stretched, ?_⟩
      rw [← Geometry.block_of_start place, ← Fatfs.enter_eq place rfl]
    · dsimp only
      rw [if_pos rfl, meets_pure]
      refine .inr (.inl ⟨rfl, ended, full, ?_, still, sound⟩)
      unfold Geometry.blocks
      rw [← last, Nat.div_mul_cancel (Nat.dvd_of_mod_eq_zero place)]
    · obtain ⟨clust, moved⟩ := found
      obtain rfl : clust = 1 := isOne
      dsimp only
      rw [if_neg (by decide), if_pos (.inl rfl), meets_pure]
      exact .inr (.inr ⟨rfl, failed⟩)

end Session

/-! ## The volume while a file is written -/

namespace Session

variable {ι : Type} {start session next : Session ι} {lost : Nat → Prop} {file : ι → Prop}
variable {owner : ι} {size index : Nat} {content : Nat → Byte} {fp : Fil} {after : Fatfs}

/-- Nothing but the file is another, and its chain is as it was or longer. -/
structure Served (lost : Nat → Prop) (file : ι → Prop) (owner : ι) (start next : Session ι) :
    Prop where
  intact : next.Intact lost
  apart : next.Apart file
  others : ∀ other, other ≠ owner → next.chain other = start.chain other
  grown : start.chain owner <+: next.chain owner
  around : start.fs.Around (start.Room owner) next.fs

theorem Served.refl (intact : start.Intact lost) (apart : start.Apart file) :
    Served lost file owner start start :=
  ⟨intact, apart, fun _ _ => rfl, List.prefix_rfl, .refl⟩

theorem Served.stretched (served : Served lost file owner start session)
    (stretched : Stretched session next lost file owner size content fp index) :
    Served lost file owner start next where
  intact := stretched.opened.intact
  apart := stretched.opened.apart
  others other distinct := (stretched.others other distinct).trans (served.others other distinct)
  grown := served.grown.trans stretched.grown
  around := served.around.trans (stretched.around.mono fun _ => False.elim)

theorem Served.accessed (served : Served lost file owner start session)
    (intact : start.Intact lost)
    (accessed : Accessed lost file (session.Sectors owner) session { session with fs := after }) :
    Served lost file owner start { session with fs := after } where
  intact := accessed.intact
  apart := accessed.apart
  others := served.others
  grown := served.grown
  around := by
    refine served.around.trans (accessed.around.mono fun number member => ?_)
    rw [← intact.room_congr served.intact served.around.geometry served.others]
    exact room_of_sectors member

/-- The clusters that the file may have are the same. -/
theorem Served.pool_eq (served : Served lost file owner start next) (intact : start.Intact lost) :
    next.pool owner = start.pool owner :=
  intact.pool_congr served.intact served.around.geometry served.others

end Session

/-! ## A round of `f_write` -/

/-- How far a write has come. -/
structure Pace (origin : Fil) (buff : Nat → Byte) (count : Nat) (now : Transfer) : Prop where
  fixed : now.fp.fixed = origin.fixed
  total : now.done + now.left = count
  fptr : now.fp.fptr = origin.fptr + now.done
  source : now.buff = buff

/-- A file that is written. -/
structure Session.Writing {ι : Type} (start next : Session ι) (lost : Nat → Prop) (file : ι → Prop)
    (owner : ι) (content : Nat → Byte) (origin : Fil) (buff : Nat → Byte) (count : Nat)
    (now : Transfer) : Prop extends Pace origin buff count now where
  served : Served lost file owner start next
  isFile : file owner
  shows : next.fs.Shows (next.chain owner) (max origin.fsize now.fp.fptr)
    (overlay content origin.fptr now.done buff) now.fp

namespace Transfer

variable {transfer : Transfer}

theorem fill_fp (small : transfer.fp.fptr + transfer.part < 2 ^ 32) :
    transfer.fill.fp = (transfer.fp.fill transfer.part
      fun index => transfer.buff (transfer.done + index)).forward transfer.part := by
  unfold fill advance Fil.forward Fil.fill
  dsimp only
  have same : (transfer.copyIn.fp.setDirty true).fptr = transfer.fp.fptr := rfl
  rw [same, Nat.mod_eq_of_lt small]
  rfl

end Transfer

section Round

variable {ι : Type} {start next : Session ι} {lost : Nat → Prop} {file : ι → Prop} {owner : ι}
variable {content : Nat → Byte} {origin : Fil} {buff : Nat → Byte} {count : Nat}
variable {now : Transfer}

/-- Bytes are copied into the buffer of the file object. -/
theorem Session.Writing.filled {index : Nat} (isFile : file owner)
    (served : Session.Served lost file owner start next) (pace : Pace origin buff count now)
    (small : origin.fptr + count < 2 ^ 32)
    (loaded : next.fs.Loaded (next.chain owner) (max origin.fsize now.fp.fptr)
      (overlay content origin.fptr now.done buff) now.fp index)
    (left : 0 < now.left) :
    now.fill.left < now.left ∧
      start.Writing next lost file owner content origin buff count now.fill := by
  have positive := Transfer.part_pos left
  obtain ⟨enough, within⟩ := @Transfer.part_le now
  have total := pace.total
  have place := pace.fptr
  have moved := @Transfer.fill_fp now (by omega)
  have intact := served.intact
  have filled := loaded.fill (fun index => now.buff (now.done + index)) (le_max_right _ _)
    within
  have shows := filled.shows intact.sound.geometry intact.allocated.forest.nodup
    (intact.allocated.inside owner) (fun clean => by cases clean) positive within (le_max_right _ _)
  have size : max (max origin.fsize now.fp.fptr) (now.fp.fptr + now.part) =
      max origin.fsize (now.fp.fptr + now.part) := by omega
  refine ⟨Nat.sub_lt left positive, ⟨?_, ?_, ?_, pace.source⟩, served, isFile, ?_⟩
  · rw [moved]
    exact pace.fixed
  · change now.done + now.part + (now.left - now.part) = count
    omega
  · rw [moved]
    change now.fp.fptr + now.part = origin.fptr + (now.done + now.part)
    omega
  · rw [size, pace.source, place, overlay_overlay, ← place] at shows
    rw [moved, pace.source]
    exact shows

/-- Whole sectors go from the buffer of the caller to the card. -/
theorem Session.Writing.sectors {index : Nat} {after : Fatfs} (isFile : file owner)
    (served : Session.Served lost file owner start { next with fs := after })
    (pace : Pace origin buff count now) (small : origin.fptr + count < 2 ^ 32)
    (geometry : after.toGeometry = next.fs.toGeometry)
    (ready : next.fs.Ready (next.chain owner) (max origin.fsize now.fp.fptr)
      (overlay content origin.fptr now.done buff) now.fp index)
    (some : now.left / sSiz % 2 ^ 8 ≠ 0)
    (inside : ∀ offset < now.whole,
      after.card.data (next.fs.block (next.chain owner) index + offset) = now.sectors offset)
    (outside : ∀ number, ¬ (next.fs.block (next.chain owner) index ≤ number ∧
      number < next.fs.block (next.chain owner) index + now.whole) →
        after.card.data number = next.fs.card.data number) :
    ((now.skip now.whole).advance (now.whole * sSiz)).left < now.left ∧
      start.Writing { next with fs := after } lost file owner content origin buff count
        ((now.skip now.whole).advance (now.whole * sSiz)) := by
  have intact := served.intact
  have wellFormed : next.fs.WellFormed := by
    rw [← geometry]
    exact intact.sound.geometry
  have clusters : ∀ clust ∈ next.chain owner, next.fs.Cluster clust := by
    rw [← geometry]
    exact intact.allocated.inside owner
  have limit := wellFormed.sectors
  have below := Nat.mod_lt index wellFormed.sectsClust
  have clust := ready.sectClust
  have positive := Transfer.whole_pos (by omega) some
  obtain ⟨enough, within⟩ := @Transfer.whole_le now
  have total := pace.total
  have place := pace.fptr
  have part : index % next.fs.sectsClust + now.whole ≤ next.fs.sectsClust := by omega
  have last := Geometry.add_le_blocks ready.inside part
  have number : now.fp.currSect + (now.whole - 1) < 2 ^ 32 := by
    rw [ready.currSect, ← Geometry.block_add (by omega)]
    exact (wellFormed.holds_bounds (clusters _ (Geometry.cell_mem (by omega)))
      wellFormed.holds_block).2
  have moved : ((now.skip now.whole).advance (now.whole * sSiz)).fp = now.fp.skip now.whole :=
    Transfer.skip_fp positive enough (by omega) number (by omega)
  have written := ready.write (fun index => now.buff (now.done + index)) wellFormed
    intact.allocated.forest.nodup clusters geometry part (le_max_right _ _) (by
      intro offset less position which
      rw [inside offset less]
      have back := Nat.div_add_mod position sSiz
      unfold Transfer.sectors Sector.get Sector.index
      dsimp only
      rw [Nat.add_assoc, ← which, back]) outside
  have shows := written.shows intact.sound.geometry positive (by rw [geometry]; exact part)
    (le_max_right _ _)
  have size : max (max origin.fsize now.fp.fptr) (now.fp.fptr + now.whole * sSiz) =
      max origin.fsize (now.fp.fptr + now.whole * sSiz) := by omega
  have less : now.left - now.whole * sSiz < now.left := by
    unfold sSiz at within ⊢
    omega
  refine ⟨less, ⟨?_, ?_, ?_, pace.source⟩, served, isFile, ?_⟩
  · rw [moved]
    exact pace.fixed
  · change now.done + now.whole * sSiz + (now.left - now.whole * sSiz) = count
    omega
  · rw [moved]
    change now.fp.fptr + now.whole * sSiz = origin.fptr + (now.done + now.whole * sSiz)
    omega
  · rw [size, pace.source, place, overlay_overlay, ← place] at shows
    rw [moved]
    exact shows

/-- The file object at the end of its cluster, as it was before the counter reached 0. -/
def Fil.renew (fp : Fil) : Fil := { fp with sectClust := 1 }

/-- A write that ends before all is written: there is no free cluster, and the file has used all of
its own. -/
structure Session.Spent (start next : Session ι) (lost : Nat → Prop) (file : ι → Prop) (owner : ι)
    (content : Nat → Byte) (origin : Fil) (buff : Nat → Byte) (count : Nat) (now : Transfer) :
    Prop where
  left : 0 < now.left
  counter : now.fp.sectClust = 0
  free : next.fs.free = ∅
  whole : now.fp.fptr = sSiz * next.fs.blocks (next.chain owner)
  writing : start.Writing next lost file owner content origin buff count
    { now with fp := now.fp.renew }

/-- The end of the loop of `f_write`. -/
def Session.WriteEnds (start : Session ι) (lost : Nat → Prop) (file : ι → Prop) (owner : ι)
    (content : Nat → Byte) (origin : Fil) (buff : Nat → Byte) (count : Nat)
    (ended : FResult × Transfer) (after : Fatfs) : Prop :=
  (ended.1 = .ok ∧ ∃ chain, let next : Session ι := ⟨after, chain⟩
    (ended.2.left = 0 ∧ start.Writing next lost file owner content origin buff count ended.2) ∨
      start.Spent next lost file owner content origin buff count ended.2) ∨
  (ended.1 = .rwError ∧ start.fs.card.Failed after.card)

/-- A round ends the write, or leaves less to write. -/
def Session.WriteGoes (start : Session ι) (lost : Nat → Prop) (file : ι → Prop) (owner : ι)
    (content : Nat → Byte) (origin : Fil) (buff : Nat → Byte) (count : Nat) (now : Transfer)
    (step : Transfer ⊕ (FResult × Transfer)) (after : Fatfs) : Prop :=
  step.elim
    (fun later => later.left < now.left ∧ ∃ chain,
      start.Writing ⟨after, chain⟩ lost file owner content origin buff count later)
    (fun ended => start.WriteEnds lost file owner content origin buff count ended after)

/-- At the start of a block, with an empty buffer, the card or the buffer is written. -/
theorem Session.Writing.sector {index : Nat} (isFile : file owner) (intact : start.Intact lost)
    (served : Session.Served lost file owner start next) (pace : Pace origin buff count now)
    (small : origin.fptr + count < 2 ^ 32)
    (ready : next.fs.Ready (next.chain owner) (max origin.fsize now.fp.fptr)
      (overlay content origin.fptr now.done buff) now.fp index)
    (left : 0 < now.left) :
    Meets (writeSector now (next.fs.block (next.chain owner) index)) next.fs fun step after =>
      start.WriteGoes lost file owner content origin buff count now step after := by
  have drive := served.intact.sound.geometry.drive
  have later := served.around.later
  unfold writeSector
  split
  next some =>
    rw [meets_bind, meets_diskWrite drive]
    cases success : (next.fs.card.write (next.fs.block (next.chain owner) index) now.whole
        now.sectors).1 with
    | false =>
        rw [if_neg (by decide)]
        exact meets_pure.mpr (.inr ⟨rfl, .after later (Card.write_failed success)⟩)
    | true =>
        rw [if_pos rfl]
        refine meets_pure.mpr ?_
        have wellFormed := served.intact.sound.geometry
        have clust := ready.sectClust
        have below := Nat.mod_lt index wellFormed.sectsClust
        have enough := (@Transfer.whole_le now).1
        have last := Geometry.add_le_blocks ready.inside
          (show index % next.fs.sectsClust + now.whole ≤ next.fs.sectsClust by omega)
        have wrote : next.fs.Wrote
            (fun number => next.fs.block (next.chain owner) index ≤ number ∧
              number < next.fs.block (next.chain owner) index + now.whole)
            { next.fs with card := (next.fs.card.write (next.fs.block (next.chain owner) index)
                now.whole now.sectors).2 } :=
          ⟨rfl, Card.write_later, fun _ outside => Card.write_data_outside outside⟩
        have accessed := Session.Accessed.wrote served.intact served.apart isFile wrote (by
          rintro number ⟨least, most⟩
          have place : number = next.fs.block (next.chain owner)
              (index + (number - next.fs.block (next.chain owner) index)) := by
            rw [Geometry.block_add (by omega)]
            omega
          rw [place]
          exact served.intact.sectors_block (by omega))
        obtain ⟨less, writing⟩ := Session.Writing.sectors isFile (served.accessed intact accessed)
          pace small rfl ready some
          (fun offset small => by
            rw [← Nat.add_sub_cancel_left (next.fs.block (next.chain owner) index) offset]
            exact (Card.write_data_inside success (by omega)).trans (by
              rw [Nat.add_sub_cancel_left]))
          (fun _ outside => Card.write_data_outside outside)
        exact ⟨less, _, writing⟩
  next none =>
    split
    next inside =>
      rw [meets_bind, meets_diskRead drive]
      cases success : (next.fs.card.read (next.fs.block (next.chain owner) index)).1.1 with
      | false =>
          rw [if_neg (by decide)]
          exact meets_pure.mpr (.inr ⟨rfl, .after later (Card.read_failed success)⟩)
      | true =>
          rw [if_pos rfl]
          refine meets_pure.mpr ?_
          have loaded := ready.load
          have buffer := Card.read_success success 0
          rw [Nat.add_zero] at buffer
          rw [← buffer] at loaded
          obtain ⟨less, writing⟩ := Session.Writing.filled isFile
            (served.accessed intact (.read served.intact served.apart _))
            (show Pace origin buff count { now with fp := { now.fp with
              buffer := (next.fs.card.read (next.fs.block (next.chain owner) index)).1.2 0 } } from
            ⟨pace.fixed, pace.total, pace.fptr, pace.source⟩) small
            ⟨loaded.first, loaded.room, loaded.bytes, loaded.fptr, loaded.inside, loaded.currClust,
              loaded.sectClust, loaded.currSect⟩ left
          exact ⟨less, _, writing⟩
    next behind =>
      refine meets_pure.mpr ?_
      have size := congrArg (fun fp : Fil => fp.fsize) pace.fixed
      change now.fp.fsize = origin.fsize at size
      obtain ⟨less, writing⟩ := Session.Writing.filled isFile served pace small
        (ready.fresh (max_le (by omega) le_rfl)) left
      exact ⟨less, _, writing⟩

variable {state : Fatfs} {chain : ι → List Nat}

/-- A round of `f_write` writes some of what is left, or ends. -/
theorem Session.Writing.round [DecidableEq ι] (intact : start.Intact lost)
    (writing : start.Writing ⟨state, chain⟩ lost file owner content origin buff count now)
    (small : origin.fptr + count < 2 ^ 32) : Meets (writeRound now) state fun step after =>
    start.WriteGoes lost file owner content origin buff count now step after := by
  have served := writing.served
  have opened : Session.Opened ⟨state, chain⟩ lost file owner (max origin.fsize now.fp.fptr)
      (overlay content origin.fptr now.done buff) now.fp :=
    ⟨served.intact, served.apart, writing.isFile, writing.shows⟩
  have wellFormed : state.WellFormed := served.intact.sound.geometry
  unfold writeRound
  split
  next none => exact meets_pure.mpr (.inl ⟨rfl, chain, .inl ⟨none, writing⟩⟩)
  next some =>
    have left : 0 < now.left := Nat.pos_of_ne_zero some
    split
    next aligned =>
      have boundary : now.fp.fptr = sSiz * (now.fp.fptr / sSiz) := by
        have := Nat.div_add_mod now.fp.fptr sSiz
        omega
      generalize now.fp.fptr / sSiz = index at boundary
      have fits : index ≤ state.blocks (chain owner) := by
        have room : max origin.fsize now.fp.fptr ≤ sSiz * state.blocks (chain owner) :=
          writing.shows.room
        have scaled : sSiz * index ≤ sSiz * state.blocks (chain owner) := by omega
        exact Nat.le_of_mul_le_mul_left scaled sSiz_pos
      refine Meets.bind (opened.writeNext boundary fits) ?_
      rintro next middle (⟨longer, stretched, rfl⟩ | ⟨rfl, counter, full, whole, still, sound⟩ |
        ⟨error, failed⟩)
      · have extended := served.stretched stretched
        have flush := stretched.opened.flush boundary stretched.inside
        change Meets (flushBuffer ((now.fp.begin (longer owner)).enter middle.toGeometry _ _)) middle _
          at flush
        rw [show middle.toGeometry = state.toGeometry from stretched.around.geometry] at flush
        refine Meets.bind flush ?_
        rintro ⟨flushed, fp⟩ after (⟨success, landed, ready, wrote⟩ | ⟨failure, failed⟩)
        · obtain rfl : flushed = true := success
          dsimp only at landed ⊢
          rw [if_pos rfl, landed]
          have pace : Pace origin buff count
              { now with
                fp := (now.fp.begin (longer owner)).reach state.toGeometry (longer owner) index } :=
            ⟨Fil.fixed_reach.trans writing.fixed, writing.total, writing.fptr, writing.source⟩
          have round := Session.Writing.sector writing.isFile intact (extended.accessed intact wrote)
            pace small ready left
          change Meets (writeSector _ (after.block _ _)) _ _ at round
          rw [wrote.around.geometry] at round
          change Meets (writeSector _ (middle.block _ _)) _ _ at round
          rw [stretched.around.geometry] at round
          exact round
        · obtain rfl : flushed = false := failure
          exact meets_pure.mpr (.inr ⟨rfl, .after extended.around.later failed⟩)
      · have served := served.accessed intact
          (.still opened.intact opened.apart still sound)
        have later := opened.accessed
          (.still opened.intact opened.apart still sound)
        refine meets_pure.mpr (.inl ⟨rfl, chain, .inr ⟨left, counter, ?_, ?_, ?_⟩⟩)
        · rw [Fatfs.free_congr still.geometry fun clust cluster =>
            still.entry wellFormed cluster.2]
          exact full
        · rw [still.geometry, ← whole]
          exact boundary
        · have renewed : now.fp.countSector.renew = now.fp := by
            have one := writing.shows.sectClust_of_count wellFormed counter
            unfold Fil.renew Fil.countSector
            rw [← one]
          rw [renewed]
          exact ⟨writing.toPace, served, writing.isFile, later.shows⟩
      · obtain ⟨found, fp⟩ := next
        obtain rfl : found = .error := error
        exact meets_pure.mpr (.inr ⟨rfl, .after served.around.later failed⟩)
    next inside =>
      obtain ⟨loaded, _⟩ := writing.shows.load wellFormed
        served.intact.allocated.forest.nodup (served.intact.allocated.inside owner) inside
      obtain ⟨less, filled⟩ := Session.Writing.filled writing.isFile served writing.toPace small
        loaded left
      exact meets_pure.mpr ⟨less, _, filled⟩

end Round

/-! ## `f_write` -/

/-- The bytes that a file has room for. -/
def Session.capacity {ι : Type} (session : Session ι) (owner : ι) : Nat :=
  sSiz * ((session.pool owner).card * session.fs.sectsClust)

/-- What a successful `f_write` leaves. -/
structure Session.Written {ι : Type} (session next : Session ι) (lost : Nat → Prop)
    (file : ι → Prop) (owner : ι) (content : Nat → Byte) (fp : Fil) (buff : Nat → Byte) (btw : Nat)
    (last : Transfer) : Prop where
  served : Served lost file owner session next
  count : last.done = min btw (session.capacity owner - fp.fptr)
  fptr : last.fp.fptr = fp.fptr + last.done
  fsize : last.fp.fsize = max fp.fsize last.fp.fptr
  fixed : last.fp.fixed = (({ fp with fsize := last.fp.fsize } : Fil).setWritten true).fixed
  counter : last.done < btw → last.fp.sectClust = 0
  shows : next.fs.Shows (next.chain owner) last.fp.fsize (overlay content fp.fptr last.done buff)
    (if last.done < btw then last.fp.renew else last.fp)

section Call

variable {ι : Type} {session next : Session ι} {lost : Nat → Prop} {file : ι → Prop} {owner : ι}
variable {content : Nat → Byte} {fp : Fil} {buff : Nat → Byte} {btw : Nat} {now : Transfer}

/-- The blocks of a file are within the room for it. -/
theorem Session.Served.capacity (served : Session.Served lost file owner session next)
    (intact : session.Intact lost) :
    sSiz * next.fs.blocks (next.chain owner) ≤ session.capacity owner ∧
      (next.fs.free = ∅ → sSiz * next.fs.blocks (next.chain owner) = session.capacity owner) := by
  have card := served.intact.card_pool owner
  rw [served.pool_eq intact] at card
  unfold Session.capacity Geometry.blocks
  rw [served.around.geometry, card]
  refine ⟨Nat.mul_le_mul_left _ (Nat.mul_le_mul_right _ (Nat.le_add_left _ _)), fun full => ?_⟩
  rw [full, Finset.card_empty, Nat.zero_add]

theorem Transfer.finish_fsize : now.finish.fp.fsize = max now.fp.fsize now.fp.fptr := by
  change (if now.fp.fsize < now.fp.fptr then now.fp.fptr else now.fp.fsize) = _
  split <;> omega

/-- The size is that of what is written. -/
theorem Transfer.finish_fixed (fixed : now.fp.fixed = fp.fixed) :
    now.finish.fp.fixed = (({ fp with fsize := now.finish.fp.fsize } : Fil).setWritten true).fixed := by
  have same := congrArg
    (fun fp : Fil => ({ fp with fsize := now.finish.fp.fsize } : Fil).setWritten true) fixed
  unfold Fil.fixed at same ⊢
  exact same

/-- A write of all bytes. -/
theorem Session.Writing.finish (intact : session.Intact lost)
    (writing : session.Writing next lost file owner content fp buff btw now)
    (fits : fp.fptr ≤ fp.fsize) (all : now.left = 0) :
    session.Written next lost file owner content fp buff btw now.finish := by
  have total := writing.total
  have place := writing.fptr
  have within := writing.served.capacity intact
  have room := writing.shows.room
  have size := congrArg (fun fp : Fil => fp.fsize) writing.fixed
  change now.fp.fsize = fp.fsize at size
  have done : now.finish.done = btw := by
    change now.done = btw
    omega
  have shows := writing.shows
  rw [← size, ← Transfer.finish_fsize] at shows
  refine ⟨writing.served, ?_, place, Transfer.finish_fsize.trans ?_,
    Transfer.finish_fixed writing.fixed, fun less => absurd less ?_, ?_⟩
  · rw [done]
    have := within.1
    omega
  · rw [size]
    rfl
  · omega
  · rw [if_neg (by omega)]
    exact shows.marked

/-- A write that has used all clusters. -/
theorem Session.Spent.finish (intact : session.Intact lost)
    (spent : session.Spent next lost file owner content fp buff btw now) :
    session.Written next lost file owner content fp buff btw now.finish := by
  have writing := spent.writing
  have total : now.done + now.left = btw := writing.total
  have place : now.fp.fptr = fp.fptr + now.done := writing.fptr
  have whole := spent.whole
  have left := spent.left
  have limit := (writing.served.capacity intact).2 spent.free
  have size := congrArg (fun fp : Fil => fp.fsize) writing.fixed
  change now.fp.fsize = fp.fsize at size
  have less : now.finish.done < btw := by
    change now.done < btw
    omega
  have shows : next.fs.Shows (next.chain owner) (max fp.fsize now.fp.fptr)
    (overlay content fp.fptr now.done buff) now.fp.renew := writing.shows
  rw [← size, ← Transfer.finish_fsize] at shows
  refine ⟨writing.served, ?_, place, Transfer.finish_fsize.trans ?_,
    Transfer.finish_fixed writing.fixed, fun _ => spent.counter, ?_⟩
  · change now.done = _
    omega
  · rw [size]
    rfl
  · rw [if_pos less]
    exact shows.marked

variable [DecidableEq ι]

/-- `f_write` writes the bytes over the content, as many as there are clusters for. -/
theorem fWrite_meets (opened : session.Opened lost file owner fp.fsize content fp)
    (usable : fp.Usable session.fs) (writable : fp.flag.write = true)
    (small : fp.fsize + btw < 2 ^ 32) :
    Meets (fWrite fp buff btw) session.fs fun ended after =>
      (ended.1 = .ok ∧ ∃ chain,
        session.Written ⟨after, chain⟩ lost file owner content fp buff btw ended.2) ∨
      (ended.1 = .rwError ∧ session.fs.card.Failed after.card) := by
  have fits := opened.shows.fptr_le
  have intact := opened.intact
  unfold fWrite
  rw [meets_validate_bind usable, if_neg (by decide), if_neg (by simp [usable.fine]),
    if_neg (by simp [writable]), if_neg (by rw [Nat.mod_eq_of_lt small]; omega)]
  have ends : Meets (loop writeRound (btw + 1) ⟨fp, buff, 0, btw⟩) session.fs fun ended after =>
      session.WriteEnds lost file owner content fp buff btw ended after := by
    refine Meets.loop (fun bound now state => now.left = bound ∧ ∃ chain,
        session.Writing ⟨state, chain⟩ lost file owner content fp buff btw now) ?_
      (Nat.lt_succ_self btw) ⟨rfl, session.chain, ?_⟩
    · rintro _ now state ⟨rfl, chain, writing⟩
      refine (writing.round intact (by omega)).mono fun step after goes => ?_
      cases step with
      | inl later => exact ⟨later.left, goes.1, rfl, goes.2⟩
      | inr ended => exact goes
    · refine ⟨⟨rfl, Nat.zero_add _, rfl, rfl⟩, .refl intact opened.apart, opened.isFile, ?_⟩
      dsimp only
      rw [overlay_zero, max_eq_left fits]
      exact opened.shows
  refine Meets.bind ends ?_
  rintro ⟨_, last⟩ after (⟨rfl, chain, ends⟩ | ⟨rfl, failed⟩)
  · refine meets_pure.mpr (.inl ⟨rfl, chain, ?_⟩)
    rcases ends with ⟨all, writing⟩ | spent
    · exact writing.finish intact fits all
    · exact spent.finish intact
  · exact meets_pure.mpr (.inr ⟨rfl, failed⟩)

end Call

end BbbEth.FatFs
