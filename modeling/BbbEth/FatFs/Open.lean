import BbbEth.FatFs.Content

/-!
# Files that are open

The window is never in the sectors of a file, so that what is behind it does not change when the
window is moved, and the content of a file stays when another one is written.
-/

namespace BbbEth.FatFs

open BbbEth.Console BbbEth.Stateful BbbEth.Linked

namespace Session

variable {ι : Type} (session : Session ι)

/-- The sectors of an owner. -/
def Sectors (owner : ι) (number : Nat) : Prop :=
  ∃ clust ∈ session.chain owner, session.fs.Holds clust number

/-- Where a sector is in a cluster, it is in one of a directory. -/
def Beside (file : ι → Prop) (number : Nat) : Prop :=
  ∀ clust, session.fs.Cluster clust → session.fs.Holds clust number →
    ∃ owner, ¬ file owner ∧ clust ∈ session.chain owner

/-- The window is not in a file. -/
def Apart (file : ι → Prop) : Prop := session.Beside file session.fs.winsect

variable {session} {file : ι → Prop} {lost mine : Nat → Prop} {owner other : ι} {number : Nat}

theorem Intact.sectors_behind (intact : session.Intact lost) (member : session.Sectors owner number) :
    session.fs.copiesEnd ≤ number := by
  rcases member with ⟨clust, member, holds⟩
  exact (intact.sound.geometry.holds_bounds (intact.allocated.inside owner clust member) holds).1

/-- The sectors depend on the geometry only. -/
theorem sectors_congr {fs : Fatfs} (geometry : fs.toGeometry = session.fs.toGeometry) :
    Sectors { session with fs := fs } owner = session.Sectors owner := by
  unfold Sectors
  rw [geometry]

/-- Two owners have no sector in common. -/
theorem Intact.sectors_apart (intact : session.Intact lost) (distinct : owner ≠ other)
    (member : session.Sectors owner number) : ¬ session.Sectors other number := by
  rcases member with ⟨clust, member, holds⟩
  rintro ⟨another, otherMember, otherHolds⟩
  have same := intact.sound.geometry.holds_unique (intact.allocated.inside owner clust member)
    (intact.allocated.inside other another otherMember) holds otherHolds
  exact intact.allocated.forest.apart owner other distinct clust member (same ▸ otherMember)

theorem Intact.beside_apart (intact : session.Intact lost) (beside : session.Beside file number)
    (isFile : file owner) : ¬ session.Sectors owner number := by
  rintro ⟨clust, member, holds⟩
  rcases beside clust (intact.allocated.inside owner clust member) holds with
    ⟨directory, isDirectory, otherMember⟩
  refine intact.allocated.forest.apart owner directory ?_ clust member otherMember
  rintro rfl
  exact isDirectory isFile

theorem Intact.winsect_apart (intact : session.Intact lost) (apart : session.Apart file)
    (isFile : file owner) : ¬ session.Sectors owner session.fs.winsect :=
  intact.beside_apart apart isFile

/-- A sector stays beside the files, where the directories keep their clusters. -/
theorem Beside.congr {next : Session ι} (beside : session.Beside file number)
    (geometry : next.fs.toGeometry = session.fs.toGeometry)
    (directories : ∀ owner, ¬ file owner → session.chain owner ⊆ next.chain owner) :
    next.Beside file number := by
  intro clust cluster holds
  rw [geometry] at cluster holds
  rcases beside clust cluster holds with ⟨owner, isDirectory, member⟩
  exact ⟨owner, isDirectory, directories owner isDirectory member⟩

theorem Intact.sectors_block {index : Nat} (intact : session.Intact lost)
    (inside : index < session.fs.blocks (session.chain owner)) :
    session.Sectors owner (session.fs.block (session.chain owner) index) :=
  ⟨_, Geometry.cell_mem inside, intact.sound.geometry.holds_block⟩

/-- The window stays apart, where the directories keep their clusters. -/
theorem Apart.near {next : Session ι} (apart : session.Apart file)
    (wellFormed : session.fs.WellFormed) (geometry : next.fs.toGeometry = session.fs.toGeometry)
    (near : next.fs.winsect = session.fs.winsect ∨ next.fs.winsect < session.fs.copiesEnd)
    (directories : ∀ owner, ¬ file owner → next.chain owner = session.chain owner) :
    next.Apart file := by
  rcases near with stays | inFat
  · refine Beside.congr ?_ geometry fun owner isDirectory => (directories owner isDirectory).symm ▸
      fun _ member => member
    rw [stays]
    exact apart
  · intro clust cluster holds
    rw [geometry] at cluster holds
    exact absurd (wellFormed.holds_bounds cluster holds).1 (Nat.not_le_of_lt inFat)

/-- A file that is open, with its content. -/
structure Opened (session : Session ι) (lost : Nat → Prop) (file : ι → Prop) (owner : ι)
    (size : Nat) (content : Nat → Byte) (fp : Fil) : Prop where
  intact : session.Intact lost
  apart : session.Apart file
  isFile : file owner
  shows : session.fs.Shows (session.chain owner) size content fp

end Session

namespace Fatfs

variable {fs after : Fatfs} {cells more : List Nat} {size : Nat} {content : Nat → Byte} {fp : Fil}

/-- The content depends on the blocks of the file only. -/
theorem Shows.congr (shows : fs.Shows cells size content fp)
    (geometry : after.toGeometry = fs.toGeometry)
    (data : ∀ index < fs.blocks cells,
      after.card.data (fs.block cells index) = fs.card.data (fs.block cells index)) :
    after.Shows cells size content fp where
  first := shows.first
  room := by
    rw [geometry]
    exact shows.room
  fptr_le := shows.fptr_le
  bytes position below := by
    rw [← shows.bytes position below]
    unfold byteOf shown
    rw [geometry, data _ (block_of_lt shows.room below)]
  top := shows.top
  within positive := by
    rw [geometry]
    exact shows.within positive
  loaded inside := by
    have positive : 0 < fp.fptr := by
      by_contra none
      rw [Nat.eq_zero_of_not_pos none] at inside
      exact inside (Nat.zero_mod _)
    have within := shows.within positive
    have loaded := shows.loaded inside
    rw [← loaded]
    unfold shown
    rw [within.currSect (.inr (.inl inside)), data _ within.inside]

end Fatfs

namespace Session

variable {ι : Type} {session next : Session ι} {file : ι → Prop} {lost mine : Nat → Prop}
variable {owner : ι} {size : Nat} {content : Nat → Byte} {fp : Fil}

/-- What is done elsewhere leaves the blocks of a file as they are. -/
theorem Opened.kept (opened : session.Opened lost file owner size content fp)
    (intact : next.Intact lost) (apart : next.Apart file)
    (around : session.fs.Around mine next.fs) (stays : session.chain owner ⊆ next.chain owner)
    (elsewhere : ∀ number, mine number → ¬ session.Sectors owner number) :
    next.fs.Shows (session.chain owner) size content fp := by
  refine opened.shows.congr around.geometry fun index inside => ?_
  have here := opened.intact.sectors_block inside
  have windowBefore := opened.intact.winsect_apart opened.apart opened.isFile
  have windowAfter := intact.winsect_apart apart opened.isFile
  have there : next.Sectors owner (session.fs.block (session.chain owner) index) := by
    rcases here with ⟨clust, member, holds⟩
    exact ⟨clust, stays member, by rw [around.geometry]; exact holds⟩
  have same := around.view _ (opened.intact.sectors_behind here) fun member =>
    elsewhere _ member here
  rwa [Fatfs.view_of_ne fun equal => windowBefore (equal ▸ here),
    Fatfs.view_of_ne fun equal => windowAfter (equal ▸ there)] at same

/-- What is done elsewhere leaves a file as it is. -/
theorem Opened.frame (opened : session.Opened lost file owner size content fp)
    (intact : next.Intact lost) (apart : next.Apart file)
    (around : session.fs.Around mine next.fs) (stays : next.chain owner = session.chain owner)
    (elsewhere : ∀ number, mine number → ¬ session.Sectors owner number) :
    next.Opened lost file owner size content fp := by
  refine ⟨intact, apart, opened.isFile, ?_⟩
  rw [stays]
  exact opened.kept intact apart around (fun _ member => stays ▸ member) elsewhere

/-- What is in the buffer is one of the blocks. -/
theorem Opened.dirty (opened : session.Opened lost file owner size content fp)
    (dirty : fp.flag.dirty = true) : session.Sectors owner fp.currSect := by
  have positive : 0 < fp.fptr := by
    by_contra none
    have clean := (opened.shows.top (Nat.eq_zero_of_not_pos none)).2
    exact absurd (clean.symm.trans dirty) (by decide)
  have within := opened.shows.within positive
  rw [within.currSect (.inl dirty)]
  exact opened.intact.sectors_block within.inside

/-- The volume after an access, with nothing damaged by it. -/
structure Accessed (lost : Nat → Prop) (file : ι → Prop) (mine : Nat → Prop)
    (session next : Session ι) : Prop where
  intact : next.Intact lost
  apart : next.Apart file
  around : session.fs.Around mine next.fs

theorem Accessed.refl (intact : session.Intact lost) (apart : session.Apart file) :
    Accessed lost file mine session session := ⟨intact, apart, .refl⟩

theorem Accessed.trans {last : Session ι} (first : Accessed lost file mine session next)
    (second : Accessed lost file mine next last) : Accessed lost file mine session last :=
  ⟨second.intact, second.apart, first.around.trans second.around⟩

theorem Accessed.mono {whole : Nat → Prop} (accessed : Accessed lost file mine session next)
    (more : ∀ number, mine number → whole number) : Accessed lost file whole session next :=
  ⟨accessed.intact, accessed.apart, accessed.around.mono more⟩

variable {after : Fatfs}

/-- The window was moved within the FAT. -/
theorem Accessed.still (intact : session.Intact lost) (apart : session.Apart file)
    (still : session.fs.Still after) (sound : after.Sound) :
    Accessed lost file mine session { session with fs := after } :=
  ⟨intact.same still.toSame sound,
    apart.near intact.sound.geometry still.geometry still.near fun _ _ => rfl,
    still.toSame.around⟩

/-- Sectors of a file were written. -/
theorem Accessed.wrote {some : Nat → Prop} (intact : session.Intact lost)
    (apart : session.Apart file) (isFile : file owner) (wrote : session.fs.Wrote some after)
    (inside : ∀ number, some number → session.Sectors owner number) :
    Accessed lost file (session.Sectors owner) session { session with fs := after } := by
  have behind : ∀ number, some number → session.fs.copiesEnd ≤ number :=
    fun number member => intact.sectors_behind (inside number member)
  have around := (wrote.around behind).mono inside
  refine ⟨intact.wrote wrote behind fun member => ?_, ?_, around⟩
  · exact intact.winsect_apart apart isFile (inside _ member)
  · exact apart.near intact.sound.geometry wrote.geometry (.inl wrote.winsect) fun _ _ => rfl

/-- A call that reads the card leaves its data. -/
theorem Accessed.read (intact : session.Intact lost) (apart : session.Apart file)
    (sector : Nat) : Accessed lost file mine session
      { session with fs := { session.fs with card := (session.fs.card.read sector).2 } } := by
  have wrote : session.fs.Wrote (fun _ => False)
      { session.fs with card := (session.fs.card.read sector).2 } :=
    ⟨rfl, @Card.read_later _ sector, fun _ _ => rfl⟩
  have around := wrote.around fun _ => False.elim
  exact ⟨intact.wrote wrote (fun _ => False.elim) id,
    apart.near intact.sound.geometry rfl (.inl rfl) fun _ _ => rfl, around.mono fun _ => False.elim⟩

/-- A file is as it was where nothing of it was accessed. -/
theorem Opened.accessed (opened : session.Opened lost file owner size content fp)
    (accessed : Accessed lost file (fun _ => False) session { session with fs := after }) :
    Opened { session with fs := after } lost file owner size content fp :=
  opened.frame accessed.intact accessed.apart accessed.around rfl fun _ => False.elim

end Session

/-! ## The clusters that a file may have -/

namespace Session

variable {ι : Type} (session : Session ι)

/-- The clusters of an owner, and those that are free. -/
def pool (owner : ι) : Finset Nat := session.fs.free ∪ (session.chain owner).toFinset

/-- The sectors of an owner, and those that are free. -/
def Room (owner : ι) (number : Nat) : Prop :=
  ∃ clust ∈ session.pool owner, session.fs.Holds clust number

variable {session} {next : Session ι} {lost : Nat → Prop} {owner other : ι} {clust number : Nat}

/-- They are the clusters that no other owner has and that are not lost. -/
theorem Intact.mem_pool (intact : session.Intact lost) : clust ∈ session.pool owner ↔
    session.fs.Cluster clust ∧ ¬ lost clust ∧ ∀ other, other ≠ owner → clust ∉ session.chain other := by
  have allocated := intact.allocated
  unfold pool
  rw [Finset.mem_union, List.mem_toFinset, Fatfs.mem_free]
  constructor
  · rintro (⟨cluster, zero⟩ | member)
    · have unused := fun used => (allocated.used clust cluster).mpr used zero
      exact ⟨cluster, fun isLost => unused (.inr isLost), fun other _ member =>
        unused (.inl ⟨other, member⟩)⟩
    · exact ⟨allocated.inside owner clust member, fun isLost => allocated.apart clust isLost owner member,
        fun other distinct => allocated.forest.apart owner other (Ne.symm distinct) clust member⟩
  · rintro ⟨cluster, notLost, others⟩
    by_cases member : clust ∈ session.chain owner
    · exact .inr member
    · refine .inl ⟨cluster, ?_⟩
      by_contra used
      rcases (allocated.used clust cluster).mp used with ⟨another, has⟩ | isLost
      · by_cases same : another = owner
        · exact member (same ▸ has)
        · exact others another same has
      · exact notLost isLost

/-- They stay the same while the other owners keep theirs. -/
theorem Intact.pool_congr (intact : session.Intact lost) (after : next.Intact lost)
    (geometry : next.fs.toGeometry = session.fs.toGeometry)
    (others : ∀ other, other ≠ owner → next.chain other = session.chain other) :
    next.pool owner = session.pool owner := by
  ext clust
  rw [after.mem_pool, intact.mem_pool, geometry]
  refine and_congr_right fun _ => and_congr_right fun _ => forall_congr' fun other =>
    imp_congr_right fun distinct => ?_
  rw [others other distinct]

theorem Intact.card_pool (intact : session.Intact lost) (owner : ι) :
    (session.pool owner).card = session.fs.free.card + (session.chain owner).length := by
  have allocated := intact.allocated
  have apart : Disjoint session.fs.free (session.chain owner).toFinset := by
    rw [Finset.disjoint_left]
    intro clust isFree member
    rw [List.mem_toFinset] at member
    rw [Fatfs.mem_free] at isFree
    exact (allocated.used clust isFree.1).mpr (.inl ⟨owner, member⟩) isFree.2
  unfold pool
  rw [Finset.card_union_of_disjoint apart, List.toFinset_card_of_nodup allocated.forest.nodup]

theorem room_of_sectors (member : session.Sectors owner number) : session.Room owner number := by
  rcases member with ⟨clust, member, holds⟩
  exact ⟨clust, Finset.mem_union_right _ (List.mem_toFinset.mpr member), holds⟩

/-- No other owner has a sector there. -/
theorem Intact.room_apart (intact : session.Intact lost) (distinct : other ≠ owner)
    (room : session.Room owner number) : ¬ session.Sectors other number := by
  rcases room with ⟨clust, member, holds⟩
  rintro ⟨another, otherMember, otherHolds⟩
  obtain ⟨cluster, _, others⟩ := intact.mem_pool.mp member
  have same := intact.sound.geometry.holds_unique cluster
    (intact.allocated.inside other another otherMember) holds otherHolds
  exact others other distinct (same ▸ otherMember)

/-- The room of a file stays the same. -/
theorem Intact.room_congr (intact : session.Intact lost) (after : next.Intact lost)
    (geometry : next.fs.toGeometry = session.fs.toGeometry)
    (others : ∀ other, other ≠ owner → next.chain other = session.chain other) :
    next.Room owner = session.Room owner := by
  unfold Room
  rw [intact.pool_congr after geometry others, geometry]

end Session

end BbbEth.FatFs
