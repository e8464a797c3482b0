import BbbEth.FatFs.Table
import BbbEth.Linked.Circle
import BbbEth.Linked.Forest
import Mathlib.Data.List.Perm.Subperm
import Mathlib.Logic.Function.Iterate

/-!
# Chains of clusters

`create_chain` looks for a free cluster behind the last one it gave out, around the whole FAT, and
`remove_chain` frees a chain cluster by cluster.
-/

namespace BbbEth.FatFs

open BbbEth.Console BbbEth.Stateful BbbEth.Linked

/-! ## `create_chain` and `remove_chain` -/

/-- The mark of the end of a chain. -/
def endMark : Nat := 0x0FFFFFFF

/-- The value of `free_clust` while the free clusters are not counted. -/
def notCounted : Nat := 0xFFFFFFFF

/-- `free_clust--`, unless the clusters are not counted. -/
def countDown (freeClust : Nat) : Nat :=
  if freeClust ≠ notCounted then (freeClust + 2 ^ 32 - 1) % 2 ^ 32 else freeClust

/-- `free_clust++`, unless the clusters are not counted. -/
def countUp (freeClust : Nat) : Nat :=
  if freeClust ≠ notCounted then (freeClust + 1) % 2 ^ 32 else freeClust

/-- A round of the search of `create_chain`: the value to return, or the free cluster. -/
def scanRound (scl ncl : Nat) : Volume (Nat ⊕ (Nat ⊕ Nat)) := do
  let fs ← get
  let next := (ncl + 1) % 2 ^ 32
  if fs.maxClust ≤ next ∧ scl < 2 then return .inr (.inl 0)
  else
    let ncl := if fs.maxClust ≤ next then 2 else next
    let cstat ← getCluster ncl
    if cstat = 0 then return .inr (.inr ncl)
    else if cstat = 1 then return .inr (.inl 1)
    else if ncl = scl then return .inr (.inl 0)
    else return .inl ncl

/-- The last part of `create_chain`: mark the new cluster and link it to the previous one. -/
def linkCluster (clust ncl : Nat) : Volume Nat :=
  orReturn (putCluster ncl endMark) 1 do
    orReturn (if clust ≠ 0 then putCluster clust ncl else pure true) 1 do
      modify fun fs => { fs with
        lastClust := ncl
        freeClust := countDown fs.freeClust }
      return ncl

/-- `create_chain` from the point where the search starts. -/
def growChain (clust scl : Nat) : Volume Nat := do
  let fs ← get
  let found ← loop (scanRound scl) (fs.maxClust + 1) scl
  found.elim pure (linkCluster clust)

/-- `create_chain`. -/
def createChain (clust : Nat) : Volume Nat := do
  let fs ← get
  if clust = 0 then
    growChain clust (if fs.lastClust = 0 ∨ fs.maxClust ≤ fs.lastClust then 1 else fs.lastClust)
  else
    let cstat ← getCluster clust
    if cstat < 2 then return 1
    else if cstat < fs.maxClust then return cstat
    else growChain clust clust

/-- A round of `remove_chain`. -/
def removeRound (clust : Nat) : Volume (Nat ⊕ Bool) := do
  let fs ← get
  if 2 ≤ clust ∧ clust < fs.maxClust then
    let nxt ← getCluster clust
    if nxt = 1 then return .inr false
    else
      orReturn (putCluster clust 0) (.inr false) do
        modify fun fs => { fs with
          freeClust := countUp fs.freeClust }
        return .inl nxt
  else return .inr true

/-- `remove_chain`. -/
def removeChain (clust : Nat) : Volume Bool := do
  let fs ← get
  loop removeRound (fs.maxClust + 1) clust

/-! ## The FAT as a table -/

namespace Fatfs

/-- The FAT has these entries, and nothing but the FAT is another. -/
structure Tabled (table : Nat → Nat) (before after : Fatfs) : Prop extends Rest before after where
  raw : ∀ clust < before.maxClust, after.raw clust = table clust

variable {fs before middle after : Fatfs} {table : Nat → Nat} {clust val : Nat}

theorem decode_congr {fsType : FatType} {bytes others : Nat → Byte}
    (same : ∀ index < fsType.size, bytes (fsType.offset clust + index) =
      others (fsType.offset clust + index)) :
    fsType.decode bytes clust = fsType.decode others clust := by
  cases fsType with
  | fat12 =>
      have first := same 0 (by decide)
      have second := same 1 (by decide)
      simp only [FatType.offset, Nat.add_zero] at first second
      simp only [FatType.decode, FatType.word, first, second]
  | fat16 =>
      have first := same 0 (by decide)
      have second := same 1 (by decide)
      simp only [FatType.offset, Nat.add_zero] at first second
      simp only [FatType.decode, FatType.word, first, second]
  | fat32 =>
      have first := same 0 (by decide)
      have second := same 1 (by decide)
      have third := same 2 (by decide)
      have fourth := same 3 (by decide)
      simp only [FatType.offset, Nat.add_zero] at first second third fourth
      simp only [FatType.decode, FatType.word, first, second, third, Nat.add_assoc, Nat.reduceAdd,
        fourth]
  | unmounted => rfl

theorem Stored.raw {bytes : Nat → Byte} (stored : Stored bytes before after)
    (wellFormed : before.WellFormed) (below : clust < before.maxClust) :
    after.raw clust = before.fsType.decode bytes clust := by
  unfold Fatfs.raw
  rw [stored.geometry]
  exact decode_congr fun index small => stored.fat _ (wellFormed.inside below small)

theorem Same.raw (same : Same before after) (wellFormed : before.WellFormed)
    (below : clust < before.maxClust) : after.raw clust = before.raw clust := by
  unfold Fatfs.raw
  rw [same.geometry]
  exact decode_congr fun index small => same.fatByte (wellFormed.inside below small)

theorem Tabled.trans {others : Nat → Nat} (first : Tabled table before middle)
    (second : Tabled others middle after) : Tabled others before after where
  toRest := first.toRest.trans second.toRest
  raw clust below := second.raw clust (by rw [first.geometry]; exact below)

theorem Tabled.congr {others : Nat → Nat} (tabled : Tabled table before after)
    (same : ∀ clust < before.maxClust, others clust = table clust) : Tabled others before after where
  toRest := tabled.toRest
  raw clust below := (tabled.raw clust below).trans (same clust below).symm

theorem Still.tabled (same : Still before after) (wellFormed : before.WellFormed)
    (sound : after.Sound) : Tabled before.raw before after where
  toRest := same.rest sound
  raw _ below := same.raw wellFormed below

theorem Sound.counts {last free : Nat} (sound : fs.Sound) :
    Sound { fs with lastClust := last, freeClust := free } :=
  ⟨sound.geometry, sound.place, sound.dirty, sound.clean⟩

/-- The counts are no part of the volume. -/
theorem Tabled.counts {last free : Nat} (tabled : Tabled table before after) :
    Tabled table before { after with lastClust := last, freeClust := free } :=
  ⟨⟨tabled.sound.counts, tabled.geometry, tabled.view, tabled.boot, tabled.later,
    tabled.mirrored, tabled.near⟩, tabled.raw⟩

theorem Tabled.entry (tabled : Tabled table before after) (below : clust < before.maxClust) :
    after.entry clust = table clust % before.fsType.modulus := by
  unfold Fatfs.entry
  rw [tabled.raw clust below, tabled.geometry]

end Fatfs

section Functions

variable {fs : Fatfs} {clust val : Nat}

/-- The table after one entry is set. -/
def Fatfs.setRaw (fs : Fatfs) (clust val : Nat) : Nat → Nat :=
  Function.update fs.raw clust (val % 2 ^ fs.fsType.width)

/-- `put_cluster` sets one entry of the table. -/
theorem putCluster_tabled (sound : fs.Sound) (below : clust < fs.maxClust) :
    Meets (putCluster clust val) fs fun done after =>
      if done = true then
        fs.Tabled (fs.setRaw clust val) after ∧ after.lastClust = fs.lastClust ∧
          after.freeClust = fs.freeClust
      else fs.card.Failed after.card := by
  refine (putCluster_meets sound below).mono ?_
  intro done after holds
  split at holds
  next success =>
    rw [if_pos success]
    refine ⟨⟨holds.toRest, fun other small => ?_⟩, holds.lastClust, holds.freeClust⟩
    rw [holds.raw sound.geometry small, FatType.decode_encode sound.geometry.mounted,
      Fatfs.setRaw, Function.update_apply]
    rfl
  next failure =>
    rw [if_neg failure]
    exact holds

/-- What `put_cluster` puts into an entry is what `get_cluster` gives of it, and of every other
entry it gives what it gave before. -/
theorem putCluster_getCluster {other : Nat} (sound : fs.Sound) (below : clust < fs.maxClust)
    (least : 2 ≤ other) (otherBelow : other < fs.maxClust) :
    Meets (putCluster clust val) fs fun done after =>
      if done = true then
        Meets (getCluster other) after fun value last =>
          value = (if other = clust then val % 2 ^ fs.fsType.width % fs.fsType.modulus
              else fs.entry other) ∨ after.card.Failed last.card
      else fs.card.Failed after.card := by
  refine (putCluster_tabled sound below).mono fun done after outcome => ?_
  split at outcome
  next success =>
    rw [if_pos success]
    obtain ⟨tabled, _⟩ := outcome
    have inside : other < after.maxClust := by
      rw [tabled.geometry]
      exact otherBelow
    refine (getCluster_meets tabled.sound least inside).mono ?_
    rintro value last (⟨rfl, _⟩ | ⟨_, failed⟩)
    · left
      rw [tabled.entry otherBelow, Fatfs.setRaw, Function.update_apply]
      split <;> rfl
    · exact .inr failed
  next failure =>
    rw [if_neg failure]
    exact outcome

/-- The entries of clusters 2 and 3 of FAT12, which share a byte. -/
theorem putCluster_getCluster_neighbour :
    Meets (putCluster 2 0xABC) emptyVolume fun done after =>
      if done = true then
        Meets (getCluster 3) after fun value last =>
          value = (if 3 = 2 then 0xABC % 2 ^ emptyVolume.fsType.width % emptyVolume.fsType.modulus
              else emptyVolume.entry 3) ∨ after.card.Failed last.card
      else emptyVolume.card.Failed after.card :=
  putCluster_getCluster emptyVolume_sound (by decide) (by decide) (by decide)

end Functions

/-! ## The search for a free cluster -/

/-- The clusters that `create_chain` may give out. -/
def Geometry.Cluster (geometry : Geometry) (clust : Nat) : Prop :=
  2 ≤ clust ∧ clust < geometry.maxClust

instance (geometry : Geometry) (clust : Nat) : Decidable (geometry.Cluster clust) :=
  inferInstanceAs (Decidable (_ ∧ _))

section Search

variable {fs state : Fatfs} {scl now count : Nat}

/-- The search after some clusters, none of which is free. -/
structure Searched (fs : Fatfs) (scl count now : Nat) (state : Fatfs) : Prop where
  same : fs.Still state
  sound : state.Sound
  within : count ≤ fs.maxClust - 2
  first : count = 0 → now = scl
  later : 0 < count → now = 2 + place (fs.maxClust - 2) (scl - 1) (count - 1)
  used : ∀ index < count, fs.entry (2 + place (fs.maxClust - 2) (scl - 1) index) ≠ 0
  around : count = fs.maxClust - 2 → 0 < count → scl = 1

/-- The cluster that is looked at next. -/
theorem Searched.next (searched : Searched fs scl count now state) (least : 1 ≤ scl)
    (below : scl < fs.maxClust) :
    (fs.maxClust ≤ now + 1 ∧ scl < 2 ∧ count = fs.maxClust - 2) ∨
      (¬ (fs.maxClust ≤ now + 1 ∧ scl < 2) ∧ count < fs.maxClust - 2 ∧
        (if fs.maxClust ≤ now + 1 then 2 else now + 1) =
          2 + place (fs.maxClust - 2) (scl - 1) count) := by
  have within := searched.within
  by_cases begins : count = 0
  · have here := searched.first begins
    subst here begins
    by_cases none : fs.maxClust ≤ now + 1 ∧ now < 2
    · exact .inl ⟨none.1, none.2, by omega⟩
    · refine .inr ⟨none, by omega, ?_⟩
      unfold place
      split
      next wraps =>
        have whole : now - 1 = fs.maxClust - 2 := by omega
        rw [whole, Nat.add_zero, Nat.mod_self]
      next goes =>
        rw [Nat.mod_eq_of_lt (by omega)]
        omega
  · have here := searched.later (Nat.pos_of_ne_zero begins)
    have size : 0 < fs.maxClust - 2 := by omega
    have bound := @place_lt (fs.maxClust - 2) (scl - 1) (count - 1) size
    have step : place (fs.maxClust - 2) (scl - 1) count =
        (place (fs.maxClust - 2) (scl - 1) (count - 1) + 1) % (fs.maxClust - 2) := by
      unfold place
      rw [Nat.mod_add_mod]
      congr 1
      omega
    by_cases last : fs.maxClust ≤ now + 1 ∧ scl < 2
    · refine .inl ⟨last.1, last.2, ?_⟩
      have one : scl = 1 := by omega
      rw [one, Nat.sub_self, place, Nat.zero_add, Nat.mod_eq_of_lt (by omega)] at here
      omega
    · have more : count < fs.maxClust - 2 := by
        by_contra full
        have one := searched.around (by omega) (Nat.pos_of_ne_zero begins)
        rw [one, Nat.sub_self, place, Nat.zero_add, Nat.mod_eq_of_lt (by omega)] at here
        omega
      refine .inr ⟨last, more, ?_⟩
      rw [step, here]
      split
      next wraps =>
        have whole : place (fs.maxClust - 2) (scl - 1) (count - 1) + 1 = fs.maxClust - 2 := by omega
        rw [whole, Nat.mod_self]
      next goes =>
        rw [Nat.mod_eq_of_lt (by omega)]
        omega

/-- A search that comes back to its start has seen every cluster. -/
theorem Searched.back (below : scl < fs.maxClust) (less : count < fs.maxClust - 2)
    (back : 2 + place (fs.maxClust - 2) (scl - 1) count = scl) : count + 1 = fs.maxClust - 2 := by
  have size : 0 < fs.maxClust - 2 := by omega
  have whole : place (fs.maxClust - 2) (scl - 1) (fs.maxClust - 2 - 1) = scl - 2 := by
    unfold place
    have split : scl - 1 + (fs.maxClust - 2 - 1) = scl - 2 + (fs.maxClust - 2) := by omega
    rw [split, Nat.add_mod_right, Nat.mod_eq_of_lt (by omega)]
  have same := place_injective less (Nat.sub_lt size Nat.one_pos) (by rw [whole]; omega)
  omega

theorem Searched.full (searched : ∀ index < fs.maxClust - 2,
      fs.entry (2 + place (fs.maxClust - 2) (scl - 1) index) ≠ 0) {clust : Nat}
    (cluster : fs.Cluster clust) : fs.entry clust ≠ 0 := by
  have below : clust - 2 < fs.maxClust - 2 := by
    have := cluster.1
    have := cluster.2
    omega
  rcases exists_place (scl - 1) below with ⟨index, inside, found⟩
  have position : clust = 2 + place (fs.maxClust - 2) (scl - 1) index := by
    have := cluster.1
    omega
  rw [position]
  exact searched index inside

/-- What `create_chain` finds: no free cluster, or one that is free. -/
def Found (fs : Fatfs) (found : Nat ⊕ Nat) (after : Fatfs) : Prop :=
  (fs.Still after ∧ after.Sound ∧
    found.elim (fun value => value = 0 ∧ ∀ clust, fs.Cluster clust → fs.entry clust ≠ 0)
      (fun ncl => fs.Cluster ncl ∧ fs.entry ncl = 0)) ∨
  (found = .inl 1 ∧ fs.card.Failed after.card)

theorem Geometry.WellFormed.maxClust_lt {geometry : Geometry} (wellFormed : geometry.WellFormed) :
    geometry.maxClust < 2 ^ 28 := by
  have distinct := wellFormed.distinct
  have : geometry.fsType.modulus ≤ 2 ^ 28 := by cases geometry.fsType <;> decide
  omega

theorem Fatfs.Same.entry {clust : Nat} (same : fs.Same state) (wellFormed : fs.WellFormed)
    (below : clust < fs.maxClust) : state.entry clust = fs.entry clust := by
  unfold Fatfs.entry
  rw [same.raw wellFormed below, same.geometry]

/-- The search comes to an end, with a free cluster if there is one. -/
theorem scan_meets (sound : fs.Sound) (legal : ∀ clust, fs.Cluster clust → fs.entry clust ≠ 1)
    (least : 1 ≤ scl) (below : scl < fs.maxClust) :
    Meets (loop (scanRound scl) (fs.maxClust + 1) scl) fs (Found fs) := by
  have wellFormed := sound.geometry
  have initial : Searched fs scl 0 scl fs :=
    ⟨.refl, sound, Nat.zero_le _, fun _ => rfl, fun none => absurd none (Nat.lt_irrefl 0),
      fun _ none => absurd none (Nat.not_lt_zero _), fun _ none => absurd none (Nat.lt_irrefl 0)⟩
  refine Meets.loop
    (fun bound now state => ∃ count, bound = fs.maxClust - 2 - count ∧
      Searched fs scl count now state) ?_ (by omega) ⟨0, rfl, initial⟩
  rintro _ now state ⟨count, rfl, searched⟩
  have limit := wellFormed.maxClust_lt
  have same := searched.same
  have geometry : state.maxClust = fs.maxClust := by rw [same.geometry]
  have small : now < fs.maxClust := by
    by_cases begins : count = 0
    · rw [searched.first begins]
      exact below
    · rw [searched.later (Nat.pos_of_ne_zero begins)]
      have size : 0 < fs.maxClust - 2 := by
        have := searched.within
        omega
      have := @place_lt (fs.maxClust - 2) (scl - 1) (count - 1) size
      omega
  unfold scanRound
  rw [meets_get_bind, Nat.mod_eq_of_lt (by omega), geometry]
  rcases searched.next least below with ⟨wraps, low, whole⟩ | ⟨goes, less, position⟩
  · rw [if_pos ⟨wraps, low⟩, meets_pure]
    refine .inl ⟨same, searched.sound, rfl, fun clust cluster => ?_⟩
    exact Searched.full (fun index inside => searched.used index (whole ▸ inside)) cluster
  · rw [if_neg goes, position]
    have bound := @place_lt (fs.maxClust - 2) (scl - 1) count (by omega)
    have cluster : fs.Cluster (2 + place (fs.maxClust - 2) (scl - 1) count) :=
      ⟨Nat.le_add_right _ _, by omega⟩
    generalize ncl : 2 + place (fs.maxClust - 2) (scl - 1) count = next at cluster
    refine Meets.bind (getCluster_meets searched.sound cluster.1
      (geometry.symm ▸ cluster.2)) ?_
    rintro cstat after (⟨rfl, again, sound⟩ | ⟨rfl, failed⟩)
    · have value := same.entry wellFormed cluster.2
      have whole := same.trans again
      rw [value]
      by_cases free : fs.entry next = 0
      · rw [if_pos free, meets_pure]
        exact .inl ⟨whole, sound, cluster, free⟩
      · rw [if_neg free, if_neg (legal next cluster)]
        have used : ∀ index < count + 1,
            fs.entry (2 + place (fs.maxClust - 2) (scl - 1) index) ≠ 0 := by
          intro index inside
          rcases Nat.lt_succ_iff_lt_or_eq.mp inside with before | rfl
          · exact searched.used index before
          · rw [ncl]
            exact free
        by_cases back : next = scl
        · rw [if_pos back, meets_pure]
          have all := Searched.back below less (ncl.trans back)
          refine .inl ⟨whole, sound, rfl, fun clust member => ?_⟩
          exact Searched.full (fun index inside => used index (all ▸ inside)) member
        · rw [if_neg back, meets_pure]
          refine ⟨fs.maxClust - 2 - (count + 1), by omega, count + 1, rfl, whole, sound, less,
            fun none => absurd none (Nat.succ_ne_zero count), fun _ => ncl.symm, used, ?_⟩
          intro all _
          by_contra other
          apply back
          rw [← ncl]
          unfold place
          have split : scl - 1 + count = scl - 2 + (fs.maxClust - 2) := by omega
          rw [split, Nat.add_mod_right, Nat.mod_eq_of_lt (by omega)]
          omega
    · rw [if_neg (by decide), if_pos rfl, meets_pure]
      exact .inr ⟨rfl, .after same.later failed⟩

end Search

/-! ## `create_chain` -/

section Create

variable {fs middle : Fatfs} {clust ncl scl : Nat}

/-- The table with a new cluster at the end of a chain, or with a new chain. -/
def Fatfs.grown (fs : Fatfs) (clust ncl : Nat) : Nat → Nat :=
  if clust = 0 then fs.setRaw ncl endMark
  else Function.update (fs.setRaw ncl endMark) clust (ncl % 2 ^ fs.fsType.width)

/-- What `create_chain` leaves when it extends a chain, or there is no cluster for it. -/
def Grown (fs : Fatfs) (clust value : Nat) (after : Fatfs) : Prop :=
  (value = 0 ∧ (∀ other, fs.Cluster other → fs.entry other ≠ 0) ∧ fs.Still after ∧ after.Sound) ∨
  (fs.Cluster value ∧ fs.entry value = 0 ∧ fs.Tabled (fs.grown clust value) after ∧
    after.lastClust = value ∧ after.freeClust = countDown fs.freeClust) ∨
  (value = 1 ∧ fs.card.Failed after.card)

/-- The new cluster is marked, and linked to the chain if there is one. -/
theorem linkCluster_meets (same : fs.Still middle) (sound : middle.Sound)
    (wellFormed : fs.WellFormed) (cluster : fs.Cluster ncl) (free : fs.entry ncl = 0)
    (chain : clust = 0 ∨ fs.Cluster clust) :
    Meets (linkCluster clust ncl) middle fun value after => Grown fs clust value after := by
  have below : ncl < middle.maxClust := by
    rw [same.geometry]
    exact cluster.2
  refine Meets.orReturn (putCluster_tabled sound below) ?_ fun after failed => .inr (.inr
    ⟨rfl, .after same.later failed⟩)
  rintro marked ⟨tabled, last, count⟩
  have markedTabled : fs.Tabled (fs.setRaw ncl endMark) marked := by
    refine ((same.tabled wellFormed sound).trans tabled).congr fun other small => ?_
    unfold Fatfs.setRaw
    rw [same.geometry]
    simp only [Function.update_apply, same.raw wellFormed small]
  have counts : marked.freeClust = fs.freeClust := count.trans same.freeClust
  by_cases start : clust = 0
  · rw [if_neg (Decidable.not_not.mpr start), meets_orReturn, meets_pure, if_pos rfl,
      meets_modify_bind, meets_pure, counts]
    refine .inr (.inl ⟨cluster, free, ?_, rfl, rfl⟩)
    rw [Fatfs.grown, if_pos start]
    exact markedTabled.counts
  · have member := chain.resolve_left start
    have small : clust < marked.maxClust := by
      rw [markedTabled.geometry]
      exact member.2
    rw [if_pos start]
    refine Meets.orReturn (putCluster_tabled markedTabled.sound small) ?_ fun after failed =>
      .inr (.inr ⟨rfl, .after markedTabled.later failed⟩)
    rintro linked ⟨linkedTabled, _, linkedCount⟩
    rw [meets_modify_bind, meets_pure, linkedCount, counts]
    refine .inr (.inl ⟨cluster, free, ?_, rfl, rfl⟩)
    refine (((markedTabled.trans linkedTabled).congr fun other below => ?_)).counts
    rw [Fatfs.grown, if_neg start]
    unfold Fatfs.setRaw
    rw [markedTabled.geometry]
    simp only [Function.update_apply, markedTabled.raw other below, Fatfs.setRaw]

theorem growChain_meets (same : fs.Still middle) (sound : middle.Sound)
    (wellFormed : fs.WellFormed) (legal : ∀ clust, fs.Cluster clust → fs.entry clust ≠ 1)
    (least : 1 ≤ scl) (below : scl < fs.maxClust) (chain : clust = 0 ∨ fs.Cluster clust) :
    Meets (growChain clust scl) middle fun value after => Grown fs clust value after := by
  have clusters : ∀ other, middle.Cluster other ↔ fs.Cluster other := by
    intro other
    rw [same.geometry]
  have entries : ∀ other, fs.Cluster other → middle.entry other = fs.entry other :=
    fun other member => same.entry wellFormed member.2
  have legalMiddle : ∀ other, middle.Cluster other → middle.entry other ≠ 1 := by
    intro other member
    rw [entries other ((clusters other).mp member)]
    exact legal other ((clusters other).mp member)
  unfold growChain
  rw [meets_get_bind]
  refine Meets.bind (scan_meets sound legalMiddle least (by rw [same.geometry]; exact below)) ?_
  rintro (value | ncl) after (⟨again, afterSound, outcome⟩ | ⟨failure, failed⟩)
  · refine meets_pure.mpr (.inl ⟨outcome.1, fun other member => ?_, same.trans again, afterSound⟩)
    rw [← entries other member]
    exact outcome.2 other ((clusters other).mpr member)
  · cases failure
    exact meets_pure.mpr (.inr (.inr ⟨rfl, .after same.later failed⟩))
  · have member := (clusters ncl).mp outcome.1
    refine linkCluster_meets (same.trans again) afterSound wellFormed member ?_ chain
    rw [← entries ncl member]
    exact outcome.2
  · cases failure

/-- A new chain. -/
theorem createChain_meets_new (sound : fs.Sound)
    (legal : ∀ clust, fs.Cluster clust → fs.entry clust ≠ 1) :
    Meets (createChain 0) fs fun value after => Grown fs 0 value after := by
  have clusters := sound.geometry.clusters
  unfold createChain
  rw [meets_get_bind, if_pos rfl]
  split
  next => exact growChain_meets .refl sound sound.geometry legal (Nat.le_refl 1) (by omega) (.inl rfl)
  next inside => exact growChain_meets .refl sound sound.geometry legal (by omega) (by omega) (.inl rfl)

/-- A chain that goes on is followed, and one that ends is extended. -/
theorem createChain_meets (sound : fs.Sound)
    (legal : ∀ clust, fs.Cluster clust → fs.entry clust ≠ 1) (cluster : fs.Cluster clust)
    (used : fs.entry clust ≠ 0) :
    Meets (createChain clust) fs fun value after =>
      if fs.entry clust < fs.maxClust then
        (value = fs.entry clust ∧ fs.Still after ∧ after.Sound) ∨
          (value = 1 ∧ fs.card.Failed after.card)
      else Grown fs clust value after := by
  have wellFormed := sound.geometry
  have positive : clust ≠ 0 := by
    have := cluster.1
    omega
  unfold createChain
  rw [meets_get_bind, if_neg positive]
  refine Meets.bind (getCluster_meets sound cluster.1 cluster.2) ?_
  rintro cstat middle (⟨rfl, same, middleSound⟩ | ⟨rfl, failed⟩)
  · have atLeast : ¬ fs.entry clust < 2 := by
      have := legal clust cluster
      omega
    rw [if_neg atLeast]
    split
    next inside => exact meets_pure.mpr (.inl ⟨rfl, same, middleSound⟩)
    next ends =>
      have least := cluster.1
      exact growChain_meets same middleSound wellFormed legal (by omega) cluster.2 (.inr cluster)
  · rw [if_pos (by decide), meets_pure]
    split
    · exact .inr ⟨rfl, failed⟩
    · exact .inr (.inr ⟨rfl, failed⟩)

end Create

/-! ## `remove_chain` -/

/-- The cluster that a value of the FAT leads to. -/
def Geometry.link (geometry : Geometry) (value : Nat) : Option Nat :=
  if geometry.Cluster value then some value else none

/-- The cluster that follows in a chain. -/
def Fatfs.next (fs : Fatfs) (clust : Nat) : Option Nat := fs.link (fs.entry clust)

section Remove

variable {fs : Fatfs} {clust other : Nat} {cells : List Nat} {start : Option Nat}

theorem Geometry.link_eq_some {geometry : Geometry} :
    geometry.link clust = some other ↔ geometry.Cluster clust ∧ clust = other := by
  unfold link
  split
  next inside => simp [inside]
  next outside => simp [outside]

theorem cluster_of_path (path : Path fs.next start cells none)
    (first : ∀ clust, start = some clust → fs.Cluster clust) : ∀ clust ∈ cells, fs.Cluster clust :=
  path.forall_mem _ first fun _ _ _ linked => by
    have found := Geometry.link_eq_some.mp linked
    exact found.2 ▸ found.1

/-- The table with some clusters free. -/
def Fatfs.freed (fs : Fatfs) (cells : List Nat) (clust : Nat) : Nat :=
  if clust ∈ cells then 0 else fs.raw clust

/-- `remove_chain` frees the clusters of a chain and no others. -/
theorem removeChain_meets (sound : fs.Sound)
    (legal : ∀ clust, fs.Cluster clust → fs.entry clust ≠ 1)
    (path : Path fs.next (fs.link clust) cells none) :
    Meets (removeChain clust) fs fun done after =>
      if done = true then
        fs.Tabled (fs.freed cells) after ∧ after.lastClust = fs.lastClust ∧
          after.freeClust = countUp^[cells.length] fs.freeClust
      else fs.card.Failed after.card := by
  have wellFormed := sound.geometry
  have inside := cluster_of_path path fun other linked =>
    (Geometry.link_eq_some.mp linked).2 ▸ (Geometry.link_eq_some.mp linked).1
  have short : cells.length < fs.maxClust + 1 := by
    have within : cells ⊆ List.range fs.maxClust := fun other member =>
      List.mem_range.mpr (inside other member).2
    have := (path.nodup.subperm within).length_le
    rw [List.length_range] at this
    omega
  unfold removeChain
  rw [meets_get_bind]
  refine Meets.loop
    (fun bound now state => ∃ done rest, cells = done ++ rest ∧ rest.length = bound ∧
      Path fs.next (fs.link now) rest none ∧ fs.Tabled (fs.freed done) state ∧
      state.lastClust = fs.lastClust ∧ state.freeClust = countUp^[done.length] fs.freeClust)
    ?_ short ⟨[], cells, rfl, rfl, path, ?_, rfl, rfl⟩
  · rintro _ now state ⟨done, rest, split, rfl, ahead, tabled, last, count⟩
    have geometry : state.maxClust = fs.maxClust := by rw [tabled.geometry]
    unfold removeRound
    rw [meets_get_bind, geometry]
    cases rest with
    | nil =>
        have outside : ¬ fs.Cluster now := by
          intro member
          rw [Geometry.link, if_pos member] at ahead
          cases ahead
        rw [if_neg (show ¬ (2 ≤ now ∧ now < fs.maxClust) from outside), meets_pure]
        rw [List.append_nil] at split
        rw [split]
        exact ⟨tabled, last, count⟩
    | cons first rest =>
        obtain ⟨linked, ahead⟩ := ahead
        obtain ⟨member, rfl⟩ := Geometry.link_eq_some.mp linked
        have distinct : now ∉ done := by
          have nodup := path.nodup
          rw [split] at nodup
          intro before
          exact (List.nodup_append.mp nodup).2.2 now before now (by simp) rfl
        have value : state.entry now = fs.entry now := by
          rw [tabled.entry member.2, Fatfs.freed, if_neg distinct]
          rfl
        rw [if_pos (show 2 ≤ now ∧ now < fs.maxClust from member)]
        refine Meets.bind (getCluster_meets tabled.sound member.1 (geometry ▸ member.2)) ?_
        rintro nxt middle (⟨rfl, same, middleSound⟩ | ⟨rfl, failed⟩)
        · rw [value, if_neg (legal now member)]
          have small : now < middle.maxClust := by
            rw [same.geometry, geometry]
            exact member.2
          refine Meets.orReturn (putCluster_tabled middleSound small) ?_ fun after failed =>
            .after (tabled.later.trans same.later) failed
          rintro after ⟨cleared, clearedLast, clearedCount⟩
          rw [meets_modify_bind, meets_pure]
          refine ⟨rest.length, by simp, done ++ [now], rest, by rw [split, List.append_assoc]; rfl,
            rfl, ahead, ?_, ?_, ?_⟩
          · refine (((tabled.trans (same.tabled tabled.sound.geometry middleSound)).trans
              cleared).congr fun other below => ?_).counts
            unfold Fatfs.freed Fatfs.setRaw
            rw [Nat.zero_mod, Function.update_apply]
            simp only [List.mem_append, List.mem_singleton]
            by_cases here : other = now
            · rw [if_pos here, if_pos (.inr here)]
            · rw [if_neg here, same.raw tabled.sound.geometry (by rw [geometry]; exact below),
                tabled.raw other below, Fatfs.freed]
              simp only [here, or_false]
          · exact clearedLast.trans (same.lastClust.trans last)
          · change countUp after.freeClust = _
            rw [clearedCount, same.freeClust, count, List.length_append, List.length_singleton,
              Function.iterate_succ_apply']
        · rw [if_pos rfl, meets_pure]
          exact Card.Failed.after tabled.later failed
  · exact (Fatfs.Still.refl.tabled wellFormed sound).congr fun _ _ => rfl

end Remove

end BbbEth.FatFs
