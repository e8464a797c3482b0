import BbbEth.FatFs.Allocation

/-!
# The number of free clusters

`f_getfree` counts the free entries once: cluster by cluster in FAT12, and otherwise over the
sectors of the FAT, past `get_cluster`.
-/

namespace BbbEth.FatFs

open BbbEth.Console BbbEth.Stateful

/-! ## `f_getfree` -/

/-- A round of the loop for FAT12, with the cluster and the count. -/
def countRound12 (vars : Nat × Nat) : Volume ((Nat × Nat) ⊕ Option Nat) := do
  let fs ← get
  let value ← getCluster vars.1
  let n := if value % 2 ^ 16 = 0 then vars.2 + 1 else vars.2
  if vars.1 + 1 < fs.maxClust then return .inl (vars.1 + 1, n)
  else return .inr (some n)

/-- The variables of the loop over the sectors of the FAT. -/
structure Getfree where
  n : Nat
  clust : Nat
  sect : Nat
  f : Nat
  p : Nat

/-- The step of that loop to a new sector. -/
def Getfree.load (vars : Getfree) : Volume Bool :=
  if vars.f = 0 then moveWindow vars.sect else pure true

def Getfree.loaded (vars : Getfree) : Getfree :=
  if vars.f = 0 then { vars with sect := (vars.sect + 1) % 2 ^ 32, p := 0 } else vars

/-- The entry at `p` is counted if it is 0. -/
def Getfree.counted (vars : Getfree) (fs : Fatfs) : Getfree :=
  if fs.fsType = .fat16 then
    { vars with
      n := if fs.win.ldWord vars.p = 0 then vars.n + 1 else vars.n
      p := vars.p + 2
      f := (vars.f + 1) % 2 ^ 8 }
  else
    { vars with
      n := if fs.win.ldDword vars.p = 0 then vars.n + 1 else vars.n
      p := vars.p + 4
      f := (vars.f + 2) % 2 ^ 8 }

/-- A round of that loop; a failure gives no count. -/
def countRound (vars : Getfree) : Volume (Getfree ⊕ Option Nat) :=
  orReturn vars.load (.inr none) do
    let fs ← get
    let vars := vars.loaded.counted fs
    let vars := { vars with clust := vars.clust - 1 }
    if vars.clust ≠ 0 then return .inl vars else return .inr (some vars.n)

/-- The two loops of `f_getfree`. -/
def countFree : Volume (Option Nat) := do
  let fs ← get
  if fs.fsType = .fat12 then loop countRound12 (fs.maxClust + 1) (2, 0)
  else loop countRound (fs.maxClust + 1) ⟨0, fs.maxClust, fs.fatbase, 0, 0⟩

/-- `f_getfree` on a mounted volume: the number, or `FR_RW_ERROR`. -/
def fGetfree : Volume (Option Nat) := do
  let fs ← get
  if fs.freeClust ≤ fs.maxClust - 2 then return some fs.freeClust
  else
    let counted ← countFree
    counted.elim (pure none) fun n => do
      modify fun fs => { fs with freeClust := n }
      return some n

/-! ## What is counted -/

namespace FatType

/-- The bytes from one entry to the next, where these are whole. -/
def stride : FatType → Nat
  | .fat32 => 4
  | _ => 2

end FatType

section Count

variable {fs state : Fatfs} {number : Nat}

/-- The entries below a number that have no bits. -/
def Fatfs.clear (fs : Fatfs) (number : Nat) : Finset Nat :=
  (Finset.range number).filter fun clust => fs.raw clust = 0

theorem Fatfs.card_clear_succ : (fs.clear (number + 1)).card =
    if fs.raw number = 0 then (fs.clear number).card + 1 else (fs.clear number).card := by
  unfold Fatfs.clear
  rw [Finset.range_add_one, Finset.filter_insert]
  split
  next => rw [Finset.card_insert_of_notMem (by simp)]
  next => rfl

/-- The entries without bits are the free ones. -/
theorem Fatfs.Tidy.clear_eq (tidy : fs.Tidy) : fs.clear fs.maxClust = fs.free := by
  ext clust
  rw [mem_free, Fatfs.clear, Finset.mem_filter, Finset.mem_range]
  constructor
  · rintro ⟨below, zero⟩
    have least : 2 ≤ clust := by
      by_contra low
      exact tidy.reserved clust (by omega) zero
    refine ⟨⟨least, below⟩, ?_⟩
    rw [entry, zero, Nat.zero_mod]
  · rintro ⟨cluster, zero⟩
    exact ⟨cluster.2, tidy.clear clust cluster zero⟩

theorem Fatfs.Tidy.raw_eq_zero_iff (tidy : fs.Tidy) {clust : Nat} (cluster : fs.Cluster clust) :
    fs.raw clust = 0 ↔ fs.entry clust = 0 :=
  ⟨fun zero => by rw [entry, zero, Nat.zero_mod], tidy.clear clust cluster⟩

/-- A count of the free entries, or a call of the card has failed. -/
def CountedTo (fs : Fatfs) (found : Option Nat) (after : Fatfs) : Prop :=
  (found = some fs.free.card ∧ fs.Still after ∧ after.Sound) ∨ fs.card.Failed after.card

/-- The loop for FAT12. -/
theorem countRound12_meets (sound : fs.Sound) (tidy : fs.Tidy) (fsType : fs.fsType = .fat12) :
    Meets (loop countRound12 (fs.maxClust + 1) (2, 0)) fs (CountedTo fs) := by
  have wellFormed := sound.geometry
  have clusters := wellFormed.clusters
  have least : (fs.clear 2).card = 0 := by
    rw [Fatfs.card_clear_succ, if_neg (tidy.reserved 1 (by decide)), Fatfs.card_clear_succ,
      if_neg (tidy.reserved 0 (by decide))]
    rfl
  refine Meets.loop (fun bound vars state => bound = fs.maxClust - vars.1 ∧ 2 ≤ vars.1 ∧
      vars.1 ≤ fs.maxClust ∧ (vars.1 = fs.maxClust → fs.maxClust = 2) ∧
      fs.card.Later state.card ∧ state.toGeometry = fs.toGeometry ∧
      (fs.Still state ∧ state.Sound ∧ vars.2 = (fs.clear vars.1).card ∨
        fs.card.Failed state.card)) ?_ (by omega)
    ⟨rfl, Nat.le_refl 2, clusters, fun same => same.symm, .refl, rfl, .inl ⟨.refl, sound, least.symm⟩⟩
  rintro _ ⟨clust, n⟩ state ⟨rfl, low, high, whole, later, geometry, counted⟩
  dsimp only at low high whole counted
  have limit : state.maxClust = fs.maxClust := by rw [geometry]
  have looked : Meets (getCluster clust) state fun value after =>
      fs.card.Later after.card ∧ after.toGeometry = fs.toGeometry ∧
        (fs.Still after ∧ after.Sound ∧ n = (fs.clear clust).card ∧
            (value % 2 ^ 16 = 0 ↔ clust < fs.maxClust ∧ fs.raw clust = 0) ∨
          fs.card.Failed after.card) := by
    refine ((Advances.getCluster state).mono fun _ after goes =>
      And.intro (later.trans goes.1) (goes.2.trans geometry)).and ?_ |>.mono
        fun _ _ both => ⟨both.1.1, both.1.2, both.2⟩
    rcases counted with ⟨same, stateSound, rfl⟩ | failed
    · by_cases inside : clust < fs.maxClust
      · have cluster : fs.Cluster clust := ⟨low, inside⟩
        refine (getCluster_meets stateSound low (limit ▸ inside)).mono ?_
        rintro value after (⟨rfl, again, afterSound⟩ | ⟨_, failed⟩)
        · refine .inl ⟨same.trans again, afterSound, rfl, ?_⟩
          rw [same.entry wellFormed inside, and_iff_right inside, tidy.raw_eq_zero_iff cluster]
          have small : fs.entry clust < 2 ^ 12 := by
            unfold Fatfs.entry
            rw [fsType]
            exact Nat.mod_lt _ (by decide)
          omega
        · exact .inr (.after later failed)
      · refine (getCluster_outside fun both => inside (limit ▸ both.2)).mono ?_
        rintro value after ⟨rfl, rfl⟩
        exact .inl ⟨same, stateSound, rfl, iff_of_false (by decide) fun both => inside both.1⟩
    · refine (Advances.getCluster state).mono fun _ after goes => ?_
      exact .inr (failed.before goes.1)
  unfold countRound12
  rw [meets_get_bind, limit]
  refine looked.bind fun value after ⟨laterAfter, geometryAfter, outcome⟩ => ?_
  dsimp only
  have next : fs.Still after ∧ after.Sound ∧ n = (fs.clear clust).card ∧
      (value % 2 ^ 16 = 0 ↔ clust < fs.maxClust ∧ fs.raw clust = 0) →
      clust < fs.maxClust →
      (if value % 2 ^ 16 = 0 then n + 1 else n) = (fs.clear (clust + 1)).card := by
    rintro ⟨_, _, rfl, zero⟩ inside
    rw [Fatfs.card_clear_succ]
    exact if_congr (zero.trans (and_iff_right inside)) rfl rfl
  split
  next more =>
    refine meets_pure.mpr ⟨fs.maxClust - (clust + 1), by omega, rfl, by omega, by omega, by omega,
      laterAfter, geometryAfter, outcome.imp_left fun good => ⟨good.1, good.2.1, ?_⟩⟩
    exact next good (by omega)
  next last =>
    refine meets_pure.mpr (outcome.imp_left fun good => ⟨congrArg some ?_, good.1, good.2.1⟩)
    rw [← tidy.clear_eq]
    by_cases inside : clust < fs.maxClust
    · rw [next good inside, (by omega : clust + 1 = fs.maxClust)]
    · rw [if_neg fun zero => inside (good.2.2.2.mp zero).1, good.2.2.1,
        (by omega : clust = fs.maxClust)]

/-! ## The loop over the sectors -/

/-- The loop before an entry. -/
structure Counting (fs : Fatfs) (done : Nat) (vars : Getfree) (state : Fatfs) : Prop where
  same : fs.Still state
  sound : state.Sound
  below : done < fs.maxClust
  n : vars.n = (fs.clear done).card
  clust : vars.clust = fs.maxClust - done
  f : vars.f = fs.fsType.stride * done / 2 % 2 ^ 8
  sect : vars.sect = fs.fatbase + (fs.fsType.stride * done + (sSiz - 1)) / sSiz
  here : vars.f ≠ 0 → vars.p = fs.fsType.stride * done % sSiz ∧
    state.winsect = fs.fatbase + fs.fsType.stride * done / sSiz

section Loop

variable {fs state : Fatfs} {done : Nat} {vars : Getfree}

/-- The bytes of an entry are those of its stride. -/
theorem FatType.offset_eq {fsType : FatType} (mounted : fsType ≠ .unmounted)
    (whole : fsType ≠ .fat12) (clust : Nat) : fsType.offset clust = fsType.stride * clust := by
  cases fsType with
  | fat12 => exact absurd rfl whole
  | fat16 => exact Nat.mul_comm ..
  | fat32 => exact Nat.mul_comm ..
  | unmounted => exact absurd rfl mounted

theorem FatType.stride_eq (fsType : FatType) : fsType.stride = 2 ∨ fsType.stride = 4 := by
  cases fsType <;> simp [stride]

/-- The window is at the sector of the entry afterwards. -/
theorem Counting.load (counting : Counting fs done vars state) (whole : fs.fsType ≠ .fat12) :
    Meets vars.load state fun loaded after =>
      if loaded = true then
        fs.Still after ∧ after.Sound ∧ vars.loaded.p = fs.fsType.stride * done % sSiz ∧
          vars.loaded.sect = fs.fatbase + fs.fsType.stride * done / sSiz + 1 ∧
          after.winsect = fs.fatbase + fs.fsType.stride * done / sSiz
      else fs.card.Failed after.card := by
  have wellFormed : fs.WellFormed := counting.same.geometry ▸ counting.sound.geometry
  have inside := wellFormed.inside counting.below FatType.size_pos
  rw [FatType.offset_eq wellFormed.mounted whole, Nat.add_zero] at inside
  have own := Fatfs.own_fat inside
  have small := wellFormed.small
  have within := Nat.div_lt_of_lt_mul inside
  have ends := wellFormed.fatEnd_le
  unfold Geometry.fatEnd at ends
  have sect := counting.sect
  have f := counting.f
  have here := counting.here
  have stride := fs.fsType.stride_eq
  have even : fs.fsType.stride * done % 2 = 0 := by
    rcases stride with two | four
    · rw [two]
      omega
    · rw [four]
      omega
  generalize fs.fsType.stride * done = position at *
  unfold Getfree.load Getfree.loaded
  by_cases boundary : vars.f = 0
  · have start : position % sSiz = 0 := by
      unfold sSiz
      omega
    have place : vars.sect = fs.fatbase + position / sSiz := by
      unfold sSiz at sect start ⊢
      omega
    rw [if_pos boundary, place]
    refine (moveWindow_meets counting.sound (.inr (counting.same.own.mpr own))).mono ?_
    intro loaded after moved
    split at moved
    next success =>
      rw [if_pos success, if_pos boundary]
      refine ⟨counting.same.trans (moved.still (by
        rw [counting.same.geometry]
        omega)), moved.sound, start.symm, ?_,
        moved.here (own.pos wellFormed)⟩
      exact Nat.mod_eq_of_lt (by omega)
    next failure =>
      rw [if_neg failure]
      exact .after counting.same.later moved
  · rw [if_neg boundary, meets_pure, if_pos rfl, if_neg boundary]
    refine ⟨counting.same, counting.sound, (here boundary).1, ?_, (here boundary).2⟩
    have inner : position % sSiz ≠ 0 := by
      unfold sSiz
      omega
    unfold sSiz at sect inner ⊢
    omega

/-- An entry in the window. -/
theorem Fatfs.Still.raw_here {after : Fatfs} {clust : Nat} (same : fs.Still after)
    (sound : after.Sound) (wellFormed : fs.WellFormed) (whole : fs.fsType ≠ .fat12) (below : clust < fs.maxClust)
    (here : after.winsect = fs.fatbase + fs.fsType.stride * clust / sSiz) :
    (if fs.fsType = .fat16 then after.win.ldWord (fs.fsType.stride * clust % sSiz)
      else after.win.ldDword (fs.fsType.stride * clust % sSiz)) = fs.raw clust := by
  have bytes : ∀ index < fs.fsType.size,
      after.win.get (fs.fsType.stride * clust % sSiz + index) =
        fs.fatByte (fs.fsType.stride * clust + index) := by
    intro index small
    have inside := wellFormed.inside below small
    rw [FatType.offset_eq wellFormed.mounted whole] at inside
    refine (same.stored sound).get inside ?_ (Nat.mod_add_mod _ _ _)
    rw [here]
    have fits : index < fs.fsType.stride := by
      cases fsType : fs.fsType <;> simp_all [FatType.size, FatType.stride]
    rcases fs.fsType.stride_eq with two | four <;> simp only [*, sSiz] at fits ⊢ <;> omega
  unfold Fatfs.raw
  cases fsType : fs.fsType with
  | fat12 => exact absurd fsType whole
  | fat16 =>
      rw [fsType] at bytes
      have first := bytes 0 (by decide)
      have second := bytes 1 (by decide)
      rw [if_pos rfl, Sector.ldWord_eq, FatType.decode, FatType.word, FatType.word, second,
        Nat.mul_comm clust]
      rw [Nat.add_zero, Nat.add_zero] at first
      rw [first]
      rfl
  | fat32 =>
      rw [fsType] at bytes
      have first := bytes 0 (by decide)
      have second := bytes 1 (by decide)
      have third := bytes 2 (by decide)
      have fourth := bytes 3 (by decide)
      rw [Nat.add_zero, Nat.add_zero] at first
      rw [if_neg (by decide), Sector.ldDword_eq, FatType.decode]
      unfold FatType.word
      rw [Nat.add_assoc _ 2 1, Nat.add_assoc _ 2 1, fourth, third, second, first,
        Nat.mul_comm clust]
      rfl
  | unmounted => exact absurd fsType wellFormed.mounted

theorem Getfree.loaded_fields (vars : Getfree) : vars.loaded.n = vars.n ∧
    vars.loaded.clust = vars.clust ∧ vars.loaded.f = vars.f := by
  unfold loaded
  split <;> exact ⟨rfl, rfl, rfl⟩

/-- What is counted at an entry. -/
theorem Getfree.counted_fields (vars : Getfree) {after : Fatfs}
    (type : after.fsType = fs.fsType) (whole : fs.fsType ≠ .fat12) (mounted : fs.fsType ≠ .unmounted) :
    (vars.counted after).n = (if (if fs.fsType = .fat16 then after.win.ldWord vars.p
        else after.win.ldDword vars.p) = 0 then vars.n + 1 else vars.n) ∧
      (vars.counted after).p = vars.p + fs.fsType.stride ∧
      (vars.counted after).f = (vars.f + fs.fsType.stride / 2) % 2 ^ 8 ∧
      (vars.counted after).clust = vars.clust ∧ (vars.counted after).sect = vars.sect := by
  unfold counted
  rw [type]
  cases fsType : fs.fsType with
  | fat12 => exact absurd fsType whole
  | fat16 => exact ⟨rfl, rfl, rfl, rfl, rfl⟩
  | fat32 => exact ⟨rfl, rfl, rfl, rfl, rfl⟩
  | unmounted => exact absurd fsType mounted

/-- The loop over the sectors counts every entry once. -/
theorem countRound_meets (sound : fs.Sound) (tidy : fs.Tidy) (whole : fs.fsType ≠ .fat12) :
    Meets (loop countRound (fs.maxClust + 1) ⟨0, fs.maxClust, fs.fatbase, 0, 0⟩) fs
      (CountedTo fs) := by
  have wellFormed := sound.geometry
  have clusters := wellFormed.clusters
  have initial : Counting fs 0 ⟨0, fs.maxClust, fs.fatbase, 0, 0⟩ fs := by
    refine ⟨.refl, sound, by omega, rfl, rfl, ?_, ?_, fun other => absurd rfl other⟩
    · rw [Nat.mul_zero]
      rfl
    · rw [Nat.mul_zero]
      rfl
  refine Meets.loop (fun bound vars state => ∃ done, bound = fs.maxClust - done ∧
      Counting fs done vars state) ?_ (Nat.lt_succ_self _) ⟨0, rfl, initial⟩
  rintro _ vars state ⟨done, rfl, counting⟩
  refine Meets.orReturn (counting.load whole) ?_ fun after failed => .inr failed
  rintro after ⟨same, afterSound, p, sect, here⟩
  have found := same.raw_here afterSound wellFormed whole counting.below here
  have type : after.fsType = fs.fsType := by rw [same.geometry]
  obtain ⟨n, pNext, fNext, clust, sectNext⟩ :=
    vars.loaded.counted_fields type whole wellFormed.mounted
  obtain ⟨loadedN, loadedClust, loadedF⟩ := vars.loaded_fields
  rw [p, found, loadedN, counting.n, ← Fatfs.card_clear_succ] at n
  rw [p] at pNext
  rw [loadedF, counting.f] at fNext
  rw [loadedClust, counting.clust] at clust
  rw [sect] at sectNext
  rw [meets_get_bind]
  generalize vars.loaded.counted after = next at n pNext fNext clust sectNext
  have below := counting.below
  by_cases more : next.clust - 1 ≠ 0
  · rw [if_pos more, meets_pure]
    refine ⟨fs.maxClust - (done + 1), by omega, done + 1, rfl, same, afterSound, by omega, n,
      by simp only; omega, ?_, ?_, ?_⟩
    · change next.f = _
      rcases fs.fsType.stride_eq with two | four
      · rw [fNext, two]
        omega
      · rw [fNext, four]
        omega
    · change next.sect = _
      rcases fs.fsType.stride_eq with two | four
      · rw [sectNext, two]
        unfold sSiz
        omega
      · rw [sectNext, four]
        unfold sSiz
        omega
    · intro inner
      change next.f ≠ 0 at inner
      change next.p = _ ∧ _
      rw [fNext] at inner
      rcases fs.fsType.stride_eq with two | four
      · rw [two] at inner here pNext ⊢
        rw [pNext, here]
        unfold sSiz
        omega
      · rw [four] at inner here pNext ⊢
        rw [pNext, here]
        unfold sSiz
        omega
  · rw [if_neg more, meets_pure]
    refine .inl ⟨congrArg some ?_, same, afterSound⟩
    rw [n, (by omega : done + 1 = fs.maxClust), tidy.clear_eq]

end Loop

/-- `f_getfree` gives the number of the free clusters, counted now or before. -/
theorem fGetfree_meets {fs : Fatfs} (sound : fs.Sound) (tidy : fs.Tidy) (counted : fs.Counted) :
    Meets fGetfree fs fun found after =>
      (found = some fs.free.card ∧ after.freeClust = fs.free.card ∧ after.lastClust = fs.lastClust ∧
        fs.Tabled fs.raw after) ∨ fs.card.Failed after.card := by
  have wellFormed := sound.geometry
  have limit := wellFormed.maxClust_lt
  unfold fGetfree
  rw [meets_get_bind]
  split
  next known =>
    have right := counted (by unfold notCounted; omega)
    rw [meets_pure, right]
    exact .inl ⟨rfl, rfl, rfl, Fatfs.Still.refl.tabled wellFormed sound⟩
  next =>
    have measured : Meets countFree fs (CountedTo fs) := by
      unfold countFree
      rw [meets_get_bind]
      split
      next twelve => exact countRound12_meets sound tidy twelve
      next whole => exact countRound_meets sound tidy whole
    refine measured.bind fun found after outcome => ?_
    cases found with
    | none =>
        rcases outcome with ⟨none, _⟩ | failed
        · cases none
        · exact meets_pure.mpr (.inr failed)
    | some n =>
        rw [Option.elim_some, meets_modify_bind, meets_pure]
        rcases outcome with ⟨right, same, afterSound⟩ | failed
        · obtain rfl := Option.some.inj right
          exact .inl ⟨rfl, rfl, same.lastClust, (same.tabled wellFormed afterSound).counts⟩
        · exact .inr failed

end Count

end BbbEth.FatFs
