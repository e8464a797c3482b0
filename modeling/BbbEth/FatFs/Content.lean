import BbbEth.FatFs.Extent

/-!
# The content of a file

What a file object shows of its file: the bytes of its blocks on the card, under the buffer where
that is not written back yet.
-/

namespace BbbEth.FatFs

open BbbEth.Console BbbEth.Stateful BbbEth.Linked

/-! ## The volume around a file -/

namespace Fatfs

/-- Some sectors of the card have other data. -/
structure Wrote (mine : Nat → Prop) (before after : Fatfs) : Prop where
  shape : after = { before with card := after.card }
  later : before.card.Later after.card
  data : ∀ number, ¬ mine number → after.card.data number = before.card.data number

/-- Behind the FAT only some sectors may have another content. -/
structure Around (mine : Nat → Prop) (before after : Fatfs) : Prop where
  geometry : after.toGeometry = before.toGeometry
  view : ∀ number, before.copiesEnd ≤ number → ¬ mine number →
    after.view number = before.view number
  boot : ∀ number < before.fatbase, after.card.data number = before.card.data number
  later : before.card.Later after.card
  mirrored : before.Mirrored → after.Mirrored ∨ before.card.Failed after.card

variable {mine whole : Nat → Prop} {fs before middle after : Fatfs}

theorem Around.refl : Around mine fs fs :=
  ⟨rfl, fun _ _ _ => rfl, fun _ _ => rfl, .refl, .inl⟩

theorem Around.trans (first : Around mine before middle) (second : Around mine middle after) :
    Around mine before after where
  geometry := second.geometry.trans first.geometry
  view number behind other := by
    rw [second.view number (by rw [first.geometry]; exact behind) other,
      first.view number behind other]
  boot number early := by
    rw [second.boot number (by rw [first.geometry]; exact early), first.boot number early]
  later := first.later.trans second.later
  mirrored mirrored := by
    rcases first.mirrored mirrored with middle | failed
    · exact (second.mirrored middle).imp_right (.after first.later)
    · exact .inr (failed.before second.later)

theorem Around.mono (around : Around mine before after)
    (more : ∀ number, mine number → whole number) : Around whole before after :=
  ⟨around.geometry, fun number behind other => around.view number behind fun member =>
    other (more number member), around.boot, around.later, around.mirrored⟩

theorem Rest.around (rest : Rest before after) : Around mine before after :=
  ⟨rest.geometry, fun number behind _ => rest.view number behind, rest.boot, rest.later,
    rest.mirrored⟩

theorem Same.around (same : Same before after) : Around mine before after where
  geometry := same.geometry
  view number behind _ := same.view number (own_behind behind)
  boot := same.boot
  later := same.later
  mirrored := same.mirrored

namespace Wrote

theorem geometry (wrote : Wrote mine before after) : after.toGeometry = before.toGeometry := by
  rw [wrote.shape]

theorem winsect (wrote : Wrote mine before after) : after.winsect = before.winsect := by
  rw [wrote.shape]

theorem view {number : Nat} (wrote : Wrote mine before after) (other : ¬ mine number) :
    after.view number = before.view number := by
  by_cases here : before.winsect = number
  · rw [view_winsect here, view_winsect (wrote.winsect.trans here), wrote.shape]
  · rw [view_of_ne here, view_of_ne (wrote.winsect ▸ here), wrote.data number other]

theorem sound (wrote : Wrote mine before after) (sound : before.Sound)
    (apart : ¬ mine before.winsect) : after.Sound where
  geometry := by
    rw [wrote.geometry]
    exact sound.geometry
  place := by
    rw [wrote.geometry, wrote.winsect]
    exact sound.place
  dirty marked := by
    rw [wrote.shape] at marked
    rw [wrote.winsect]
    exact sound.dirty marked
  clean unmarked loaded := by
    rw [wrote.shape] at unmarked
    rw [wrote.winsect] at loaded ⊢
    rw [wrote.data _ apart, ← sound.clean unmarked loaded, wrote.shape]

theorem around (wrote : Wrote mine before after)
    (behind : ∀ number, mine number → before.copiesEnd ≤ number) : Around mine before after where
  geometry := wrote.geometry
  view _ _ other := wrote.view other
  boot number early := wrote.data number fun member => by
    have := behind number member
    unfold Geometry.copiesEnd at this
    omega
  later := wrote.later
  mirrored mirrored := .inl (mirrored.behind wrote.geometry fun number early =>
    wrote.data number fun member => absurd (behind number member) (Nat.not_le_of_lt early))

end Wrote

end Fatfs

theorem Session.Intact.wrote {ι : Type} {session : Session ι} {lost mine : Nat → Prop}
    {after : Fatfs} (intact : session.Intact lost) (wrote : session.fs.Wrote mine after)
    (behind : ∀ number, mine number → session.fs.copiesEnd ≤ number)
    (apart : ¬ mine session.fs.winsect) :
    Session.Intact { session with fs := after } lost := by
  refine intact.behind (wrote.sound intact.sound apart) wrote.geometry (fun number early _ => ?_) ?_
  · exact wrote.view fun member => absurd (behind number member) (Nat.not_le_of_lt early)
  · rw [wrote.shape]

/-! ## Where the file object is -/

/-- The file object is in a block of its chain. -/
structure Fil.In (fp : Fil) (geometry : Geometry) (cells : List Nat) (index : Nat) : Prop where
  inside : index < geometry.blocks cells
  currClust : fp.currClust = cells.getD (index / geometry.sectsClust) 0
  sectClust : fp.sectClust = geometry.sectsClust - index % geometry.sectsClust
  currSect : fp.flag.dirty = true ∨ fp.fptr % sSiz ≠ 0 ∨
    index % geometry.sectsClust + 1 < geometry.sectsClust →
      fp.currSect = geometry.block cells index

namespace Fatfs

variable (fs : Fatfs) (cells : List Nat)

/-- A sector with what the buffer of a file object has of it. -/
def shown (fp : Fil) (number : Nat) : Sector :=
  if fp.flag.dirty = true ∧ fp.currSect = number then fp.buffer else fs.card.data number

/-- A byte of the file. -/
def byteOf (fp : Fil) (position : Nat) : Byte :=
  (fs.shown fp (fs.block cells (position / sSiz))).get position

variable (size : Nat) (content : Nat → Byte) (fp : Fil)

/-- A file object with the content of its file. -/
structure Shows : Prop where
  first : fp.orgClust = cells.headD 0
  room : size ≤ sSiz * fs.blocks cells
  fptr_le : fp.fptr ≤ size
  bytes : ∀ position < size, fs.byteOf cells fp position = content position
  top : fp.fptr = 0 → fp.sectClust = 1 ∧ fp.flag.dirty = false
  within : 0 < fp.fptr → fp.In fs.toGeometry cells ((fp.fptr - 1) / sSiz)
  loaded : fp.fptr % sSiz ≠ 0 → fs.shown fp fp.currSect = fp.buffer

/-- A file object at the start of a block, with nothing in its buffer. -/
structure Ready (index : Nat) : Prop where
  first : fp.orgClust = cells.headD 0
  room : size ≤ sSiz * fs.blocks cells
  bytes : ∀ position < size,
    (fs.card.data (fs.block cells (position / sSiz))).get position = content position
  fptr : fp.fptr = sSiz * index
  dirty : fp.flag.dirty = false
  inside : index < fs.blocks cells
  currClust : fp.currClust = cells.getD (index / fs.sectsClust) 0
  sectClust : fp.sectClust = fs.sectsClust - index % fs.sectsClust
  currSect : fp.currSect = fs.block cells index

/-- A file object with a block in its buffer. -/
structure Loaded (index : Nat) : Prop where
  first : fp.orgClust = cells.headD 0
  room : size ≤ sSiz * fs.blocks cells
  bytes : ∀ position < size, (if position / sSiz = index then fp.buffer
    else fs.card.data (fs.block cells (position / sSiz))).get position = content position
  fptr : fp.fptr / sSiz = index
  inside : index < fs.blocks cells
  currClust : fp.currClust = cells.getD (index / fs.sectsClust) 0
  sectClust : fp.sectClust = fs.sectsClust - index % fs.sectsClust
  currSect : fp.currSect = fs.block cells index

end Fatfs

/-- The file object after some bytes. -/
def Fil.forward (fp : Fil) (count : Nat) : Fil := { fp with fptr := fp.fptr + count }

/-- The file object after whole sectors. -/
def Fil.skip (fp : Fil) (count : Nat) : Fil :=
  { fp with
    sectClust := fp.sectClust - (count - 1)
    currSect := fp.currSect + (count - 1)
    fptr := fp.fptr + count * sSiz }

namespace Fatfs

variable {fs : Fatfs} {cells : List Nat} {size count index : Nat} {content : Nat → Byte} {fp : Fil}

theorem block_of_lt {position : Nat} (room : size ≤ sSiz * fs.blocks cells)
    (below : position < size) : position / sSiz < fs.blocks cells :=
  Nat.div_lt_of_lt_mul (below.trans_le room)

theorem block_forward {position : Nat} (positive : 0 < count)
    (part : position % sSiz + count ≤ sSiz) : (position + count - 1) / sSiz = position / sSiz := by
  unfold sSiz at part ⊢
  omega

/-- The sectors under the buffer. -/
theorem Loaded.shown (loaded : fs.Loaded cells size content fp index)
    (wellFormed : fs.WellFormed) (distinct : cells.Nodup)
    (clusters : ∀ clust ∈ cells, fs.Cluster clust)
    (saved : fp.flag.dirty = false → fs.card.data (fs.block cells index) = fp.buffer)
    {other : Nat} (inside : other < fs.blocks cells) :
    fs.shown fp (fs.block cells other) =
      if other = index then fp.buffer else fs.card.data (fs.block cells other) := by
  unfold Fatfs.shown
  by_cases here : other = index
  · rw [if_pos here, loaded.currSect, here]
    cases dirty : fp.flag.dirty with
    | true => exact if_pos ⟨rfl, rfl⟩
    | false => rw [if_neg (by simp), saved dirty]
  · rw [if_neg here, if_neg]
    rintro ⟨_, same⟩
    rw [loaded.currSect] at same
    exact here (wellFormed.block_injective distinct clusters loaded.inside inside same).symm

/-- What is in the buffer is what the file object shows. -/
theorem Loaded.shows (loaded : fs.Loaded cells size content fp index)
    (wellFormed : fs.WellFormed) (distinct : cells.Nodup)
    (clusters : ∀ clust ∈ cells, fs.Cluster clust)
    (saved : fp.flag.dirty = false → fs.card.data (fs.block cells index) = fp.buffer)
    (positive : 0 < count) (part : fp.fptr % sSiz + count ≤ sSiz)
    (small : fp.fptr + count ≤ size) : fs.Shows cells size content (fp.forward count) where
  first := loaded.first
  room := loaded.room
  fptr_le := small
  bytes position below := by
    change (fs.shown fp (fs.block cells (position / sSiz))).get position = content position
    rw [loaded.shown wellFormed distinct clusters saved (block_of_lt loaded.room below)]
    exact loaded.bytes position below
  top none := absurd none (Nat.ne_of_gt (Nat.add_pos_right _ positive))
  within _ := by
    have same : ((fp.forward count).fptr - 1) / sSiz = index :=
      (block_forward positive part).trans loaded.fptr
    rw [same]
    exact ⟨loaded.inside, loaded.currClust, loaded.sectClust, fun _ => loaded.currSect⟩
  loaded _ := by
    change fs.shown fp fp.currSect = fp.buffer
    rw [loaded.currSect, loaded.shown wellFormed distinct clusters saved loaded.inside, if_pos rfl]

/-- Between two sector boundaries the buffer has the block. -/
theorem Shows.load (shows : fs.Shows cells size content fp) (wellFormed : fs.WellFormed)
    (distinct : cells.Nodup) (clusters : ∀ clust ∈ cells, fs.Cluster clust)
    (inside : fp.fptr % sSiz ≠ 0) :
    fs.Loaded cells size content fp (fp.fptr / sSiz) ∧
      (fp.flag.dirty = false → fs.card.data (fs.block cells (fp.fptr / sSiz)) = fp.buffer) := by
  have positive : 0 < fp.fptr := by
    by_contra none
    rw [Nat.eq_zero_of_not_pos none] at inside
    exact inside (Nat.zero_mod _)
  have same : (fp.fptr - 1) / sSiz = fp.fptr / sSiz := by
    unfold sSiz at inside ⊢
    omega
  have within := shows.within positive
  rw [same] at within
  have sector := within.currSect (.inr (.inl inside))
  have loaded := shows.loaded inside
  refine ⟨⟨shows.first, shows.room, fun position below => ?_, rfl, within.inside, within.currClust,
    within.sectClust, sector⟩, fun clean => ?_⟩
  · rw [← shows.bytes position below]
    unfold byteOf
    congr 1
    by_cases here : position / sSiz = fp.fptr / sSiz
    · rw [if_pos here, here, ← sector, loaded]
    · rw [if_neg here]
      unfold shown
      rw [if_neg]
      rintro ⟨_, other⟩
      rw [sector] at other
      exact here (wellFormed.block_injective distinct clusters within.inside
        (block_of_lt shows.room below) other).symm
  · rw [sector] at loaded
    rw [← loaded]
    unfold shown
    rw [if_neg (by simp [clean])]

/-- What is on the card is what the file object shows after whole sectors. -/
theorem Ready.shows (ready : fs.Ready cells size content fp index) (wellFormed : fs.WellFormed)
    (positive : 0 < count) (part : index % fs.sectsClust + count ≤ fs.sectsClust)
    (small : fp.fptr + count * sSiz ≤ size) : fs.Shows cells size content (fp.skip count) := by
  have place := ready.fptr
  have last : (fp.fptr + count * sSiz - 1) / sSiz = index + (count - 1) := by
    unfold sSiz at place ⊢
    omega
  have boundary : (fp.fptr + count * sSiz) % sSiz = 0 := by
    rw [Nat.add_mul_mod_self_right, place, Nat.mul_mod_right]
  have quotient : (index + (count - 1)) / fs.sectsClust = index / fs.sectsClust ∧
      (index + (count - 1)) % fs.sectsClust = index % fs.sectsClust + (count - 1) := by
    have split := Nat.div_add_mod index fs.sectsClust
    have whole : index + (count - 1) = index % fs.sectsClust + (count - 1) +
        fs.sectsClust * (index / fs.sectsClust) := by omega
    rw [whole, Nat.add_mul_div_left _ _ wellFormed.sectsClust, Nat.add_mul_mod_self_left,
      Nat.div_eq_of_lt (by omega), Nat.mod_eq_of_lt (by omega), Nat.zero_add]
    exact ⟨rfl, rfl⟩
  refine ⟨ready.first, ready.room, small, fun position below => ?_, fun top => ?_, fun _ => ?_,
    fun other => absurd boundary other⟩
  · unfold byteOf shown
    rw [if_neg]
    · exact ready.bytes position below
    · rintro ⟨dirty, _⟩
      exact absurd (ready.dirty.symm.trans dirty) (by decide)
  · change fp.fptr + count * sSiz = 0 at top
    unfold sSiz at top
    omega
  · change (fp.skip count).In fs.toGeometry cells ((fp.fptr + count * sSiz - 1) / sSiz)
    rw [last]
    refine ⟨?_, ?_, ?_, fun _ => ?_⟩
    · have room := ready.room
      have := small.trans room
      rw [place] at this
      have scaled : sSiz * (index + (count - 1)) < sSiz * fs.blocks cells := by
        unfold sSiz at this ⊢
        omega
      exact Nat.lt_of_mul_lt_mul_left scaled
    · rw [quotient.1]
      exact ready.currClust
    · rw [quotient.2]
      change fp.sectClust - (count - 1) = _
      rw [ready.sectClust]
      omega
    · change fp.currSect + (count - 1) = _
      rw [ready.currSect, Geometry.block_add (by omega)]

end Fatfs

end BbbEth.FatFs
