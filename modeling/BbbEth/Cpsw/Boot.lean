import BbbEth.Cpsw.Rx.Alloc

/-!
# Initialisation

`cpswif_cpdma_init` builds the two rings and arms every receive descriptor.
-/

namespace BbbEth.Cpsw

open BbbEth.Interference BbbEth.Linked Routine

/-- The state in which `cpswif_cpdma_init` is called: both engines are stopped,
the pbuf pool holds a pbuf for every receive descriptor, and nothing has
happened yet. -/
structure PowerOn (state : State) : Prop where
  engine : ∀ chan, state.engine chan = .idle
  pool : numBd ≤ state.pool.length
  fresh : ∀ d, state.fresh d = false
  received : state.received = []
  trace : state.trace = []

/-- The states in which `cpswif_cpdma_init` leaves the driver. -/
def Booted (state : State) : Prop :=
  ∃ start, PowerOn start ∧ quiet.Returns cpswifCpdmaInit start () state

namespace State

/-- One round of the loop that links the descriptors. -/
def buildCell (state : State) (chan : Chan) (flags : Word) (d : Nat) : State :=
  (state.modifyBd chan d fun cell => { cell with next := some (d + 1) }).modifyBd chan d
    fun cell => { cell with flagsPktlen := flags }

/-- The loop over `count` descriptors from `d` on. -/
def buildCells (chan : Chan) (flags : Word) : Nat → Nat → State → State
  | 0, _, state => state
  | count + 1, d, state => buildCells chan flags count (d + 1) (state.buildCell chan flags d)

variable {chan other : Chan} {flags : Word} {count d query : Nat} {state : State}

theorem buildCells_eq : ∃ bd, buildCells chan flags count d state = { state with bd := bd } := by
  induction count generalizing d state with
  | zero => exact ⟨state.bd, rfl⟩
  | succ count inductionHypothesis =>
      rcases @inductionHypothesis (d + 1) (state.buildCell chan flags d) with ⟨bd, same⟩
      exact ⟨bd, by rw [buildCells, same]; rfl⟩

theorem buildCells_bd_other (different : other ≠ chan) :
    (buildCells chan flags count d state).bd other query = state.bd other query := by
  induction count generalizing d state with
  | zero => rfl
  | succ count inductionHypothesis =>
      rw [buildCells, inductionHypothesis]
      simp [buildCell, different]

theorem buildCells_bd :
    (buildCells chan flags count d state).bd chan query =
      if d ≤ query ∧ query < d + count then
        { state.bd chan query with next := some (query + 1), flagsPktlen := flags }
      else state.bd chan query := by
  induction count generalizing d state with
  | zero =>
      rw [if_neg (by omega)]
      rfl
  | succ count inductionHypothesis =>
      rw [buildCells, inductionHypothesis]
      by_cases first : query = d
      · subst first
        rw [if_neg (by omega), if_pos (by omega)]
        simp [buildCell]
      · have kept : (state.buildCell chan flags d).bd chan query = state.bd chan query := by
          simp [buildCell, first]
        rw [kept]
        by_cases inside : d + 1 ≤ query ∧ query < d + 1 + count
        · rw [if_pos inside, if_pos (by omega)]
        · rw [if_neg inside, if_neg (by omega)]

theorem buildCells_bd_of_lt (inside : query < count) :
    (buildCells chan flags count 0 state).bd chan query =
      { state.bd chan query with next := some (query + 1), flagsPktlen := flags } := by
  rw [buildCells_bd, if_pos (by omega)]

end State

section Build

variable {chan : Chan} {flags : Word} {count d lastBd : Nat} {state : State}

theorem buildLoop_runs :
    still.Runs (.iterate (buildRound chan flags) (count, d, lastBd)) state
      (if count = 0 then lastBd else d + count - 1)
      (State.buildCells chan flags count d state) := by
  induction count generalizing d lastBd state with
  | zero => exact .leave .done .done
  | succ count inductionHypothesis =>
      have link : ((state.buildCell chan flags d).bd chan d).next = some (d + 1) := by
        simp [State.buildCell]
      have round : still.Runs (buildRound chan flags (count + 1, d, lastBd)) state
          (.inl (count, d + 1, d)) (state.buildCell chan flags d) := by
        unfold buildRound
        apply runs_lift trivial (by trivial)
        apply runs_lift trivial (by trivial)
        apply runs_lift trivial (by trivial)
        have loaded : ((state.buildCell chan flags d).perform (.loadNext chan d)).1 =
            some (d + 1) := link
        change still.Runs
          (deref ((state.buildCell chan flags d).perform (.loadNext chan d)).1 >>= _) _ _ _
        rw [loaded]
        exact .done
      apply Outline.Runs.next round
      have rest : still.Runs (.iterate (buildRound chan flags) (count, d + 1, d)) _ _ _ :=
        @inductionHypothesis (d + 1) d (state.buildCell chan flags d)
      have last : (if count = 0 then d else d + 1 + count - 1) =
          if count + 1 = 0 then lastBd else d + (count + 1) - 1 := by
        split
        next zero => simp [zero]
        next => simp
      rw [last] at rest
      exact rest

/-- A ring of `numBd` descriptors. -/
theorem buildRing_runs :
    still.Runs (buildRing chan flags) state (numBd - 1)
      (State.buildCells chan flags numBd 0 state) := by
  have loop := @buildLoop_runs chan flags numBd 0 0 state
  rw [if_neg (by decide), Nat.zero_add] at loop
  exact loop

end Build

/-- What `cpswif_cpdma_init` leaves behind. -/
structure BootShape (start state : State) : Prop where
  txch : state.txch = ⟨some 0, some 0, none, numBd⟩
  rxch : state.rxch = ⟨some 0, some 0, some (numBd - 1), 0⟩
  tx : ∀ d < numBd, (state.bd .tx d).next = some (place numBd d 1) ∧
    (state.bd .tx d).flagsPktlen = 0
  rxNext : ∀ d < numBd, (state.bd .rx d).next =
    if d = numBd - 1 then none else some (place numBd d 1)
  rxFlags : ∀ d < numBd, (state.bd .rx d).flagsPktlen = cpdmaBufDescOwner
  rxPbuf : ∀ d < numBd, (state.bd .rx d).pbuf = start.pool[d]?
  engineTx : state.engine .tx = .idle
  engineRx : state.engine .rx = .fetch 0 0
  fresh : ∀ d < numBd, state.fresh d = true
  received : state.received = []
  pbuf : state.pbuf = start.pbuf
  pool : state.pool = start.pool.drop numBd
  trace : ∀ event ∈ state.trace,
    (∃ address length, event = .clean address length) ∨ event = .hdp .rx (some 0)

namespace State

/-- The transmit half of the initialisation. -/
def buildTx (state : State) : State :=
  (buildCells .tx 0 numBd 0
    { state with txch := ⟨some 0, some 0, none, numBd⟩ }).modifyBd .tx (numBd - 1)
    fun cell => { cell with next := some 0 }

/-- The receive half, up to the allocation of pbufs. -/
def buildRx (state : State) : State :=
  let built := (buildCells .rx cpdmaBufDescOwner numBd 0
    { state with rxch := { state.rxch with freeHead := some 0, freeNum := numBd } }).modifyBd
    .rx (numBd - 1) fun cell => { cell with next := some 0 }
  { built with rxch :=
    { built.rxch with recvHead := some 0, recvTail := some (numBd - 1) } }

variable (state : State) {d : Nat}

theorem buildTx_eq : ∃ bd, state.buildTx =
    { state with txch := ⟨some 0, some 0, none, numBd⟩, bd := bd } := by
  rcases @buildCells_eq .tx 0 numBd 0
    { state with txch := ⟨some 0, some 0, none, numBd⟩ } with ⟨bd, same⟩
  unfold buildTx
  rw [same]
  exact ⟨_, rfl⟩

theorem buildRx_eq : ∃ bd, state.buildRx =
    { state with
      rxch := ⟨some 0, some 0, some (numBd - 1), numBd⟩
      bd := bd } := by
  rcases @buildCells_eq .rx cpdmaBufDescOwner numBd 0
    { state with rxch := { state.rxch with freeHead := some 0, freeNum := numBd } } with
    ⟨bd, same⟩
  unfold buildRx
  rw [same]
  exact ⟨_, rfl⟩

private theorem ring_next (small : d < numBd) :
    (if d = numBd - 1 then some 0 else some (d + 1)) = some (place numBd d 1) := by
  have size := numBd_eq
  split
  next last =>
      rw [last]
      decide
  next inner =>
      rw [place, Nat.mod_eq_of_lt (by omega)]

theorem buildTx_bd (small : d < numBd) :
    (state.buildTx.bd .tx d).next = some (place numBd d 1) ∧
      (state.buildTx.bd .tx d).flagsPktlen = 0 := by
  rw [← ring_next small, buildTx, modifyBd_bd, buildCells_bd_of_lt small]
  by_cases last : d = numBd - 1
  · rw [if_pos last, if_pos last]
    exact ⟨rfl, rfl⟩
  · rw [if_neg last, if_neg last]
    exact ⟨rfl, rfl⟩

/-- The descriptors of the receive half. -/
theorem buildRx_bd : state.buildRx.bd = ((buildCells .rx cpdmaBufDescOwner numBd 0
    { state with rxch := { state.rxch with freeHead := some 0, freeNum := numBd } }).modifyBd
    .rx (numBd - 1) fun cell => { cell with next := some 0 }).bd := by
  -- The frame is stated for any state, so that the ring is not built to check it.
  have frame : ∀ (built : State) (rxch : Rxch),
      ({ built with rxch := rxch } : State).bd = built.bd := fun _ _ => rfl
  unfold buildRx
  exact frame _ _

theorem buildRx_tx : state.buildRx.bd .tx d = state.bd .tx d := by
  have apart : Chan.tx ≠ .rx := by decide
  rw [buildRx_bd, modifyBd_bd_chan _ _ _ _ _ _ apart, buildCells_bd_other apart]

theorem buildRx_next (small : d < numBd) :
    (state.buildRx.bd .rx d).next = some (place numBd d 1) := by
  rw [← ring_next small, buildRx_bd, modifyBd_bd, buildCells_bd_of_lt small]
  by_cases last : d = numBd - 1
  · rw [if_pos last, if_pos last]
  · rw [if_neg last, if_neg last]

end State

section Init

variable {start : State}

theorem initTxch_runs : still.Runs initTxch start () start.buildTx := by
  rcases @State.buildCells_eq .tx 0 numBd 0
    { start with txch := ⟨some 0, some 0, none, numBd⟩ } with ⟨bd, same⟩
  have head : (State.buildCells .tx 0 numBd 0
      { start with txch := ⟨some 0, some 0, none, numBd⟩ }).txch.freeHead = some 0 := by
    rw [same]
  unfold initTxch
  apply runs_setTxch trivial
  apply Outline.Runs.bind buildRing_runs
  apply runs_getTxch trivial
  change still.Runs (.lift (.storeNext .tx (numBd - 1) (State.buildCells .tx 0 numBd 0
    { start with txch := ⟨some 0, some 0, none, numBd⟩ }).txch.freeHead)) _ _ _
  rw [head]
  exact runs_step trivial trivial .done

theorem initRxch_runs : still.Runs initRxch start (numBd - 1) start.buildRx := by
  rcases @State.buildCells_eq .rx cpdmaBufDescOwner numBd 0
    { start with rxch := { start.rxch with freeHead := some 0, freeNum := numBd } } with
    ⟨bd, same⟩
  have head : (State.buildCells .rx cpdmaBufDescOwner numBd 0
      { start with rxch :=
        { start.rxch with freeHead := some 0, freeNum := numBd } }).rxch.freeHead = some 0 := by
    rw [same]
  unfold initRxch
  apply runs_setRxch trivial
  apply Outline.Runs.bind buildRing_runs
  apply runs_getRxch trivial
  rw [head]
  apply runs_lift trivial (by trivial)
  exact runs_step trivial trivial .done

/-- Both rings are built. -/
theorem built_eq (start : State) : ∃ bd, start.buildTx.buildRx =
    { start with
      txch := ⟨some 0, some 0, none, numBd⟩
      rxch := ⟨some 0, some 0, some (numBd - 1), numBd⟩
      bd := bd } := by
  rcases State.buildRx_eq start.buildTx with ⟨rxBd, rxSame⟩
  rcases State.buildTx_eq start with ⟨txBd, txSame⟩
  exact ⟨rxBd, by rw [rxSame, txSame]⟩

/-- The state after the allocation of pbufs. -/
def State.armAll (start : State) : State :=
  (State.armCells (start.pool.take numBd) 0 start.buildTx.buildRx).publish (some 0)
    (numBd - 1) (some 0) (numBd - 1)

theorem armAll_runs (pool : numBd ≤ start.pool.length) :
    still.Runs cpswifRxbdAlloc start.buildTx.buildRx () start.armAll := by
  rcases built_eq start with ⟨bd, same⟩
  have length : (start.pool.take numBd).length = numBd := by
    rw [List.length_take, Nat.min_eq_left pool]
  have size := numBd_eq
  have rxch : start.buildTx.buildRx.rxch =
      ⟨some 0, some 0, some (numBd - 1), numBd⟩ := by
    rw [same]
  have split : start.buildTx.buildRx.pool = start.pool.take numBd ++ start.pool.drop numBd := by
    rw [same, List.take_append_drop]
  have linked : ∀ offset < numBd, (start.buildTx.buildRx.bd .rx (place numBd 0 offset)).next =
      some (place numBd 0 (offset + 1)) := by
    intro offset small
    rw [State.buildRx_next _ (place_lt (by decide)), place_place]
  have nonempty : start.pool.take numBd ≠ [] := by
    intro empty
    rw [empty] at length
    exact absurd length (by decide)
  have alloc := cpswifRxbdAlloc_runs (by decide : 0 < numBd) (by rw [rxch]) (by rw [rxch])
    split (by rw [rxch, length]) (by rw [rxch, length]; exact .inl rfl)
    (by
      intro offset small
      rw [length] at small
      exact linked offset (by omega))
  have wrap : place numBd 0 (numBd - 1 + 1) = 0 := by decide
  have last : place numBd 0 (numBd - 1) = numBd - 1 := by decide
  rw [if_neg nonempty, length, linked _ (by decide), wrap, last] at alloc
  exact alloc

theorem armed_bd (pool : numBd ≤ start.pool.length) {d : Nat} (small : d < numBd) :
    ((State.armCells (start.pool.take numBd) 0 start.buildTx.buildRx).bd .rx d).flagsPktlen =
        cpdmaBufDescOwner ∧
      ((State.armCells (start.pool.take numBd) 0 start.buildTx.buildRx).bd .rx d).pbuf =
        start.pool[d]? := by
  have length : (start.pool.take numBd).length = numBd := by
    rw [List.length_take, Nat.min_eq_left pool]
  have position : d = place numBd 0 d := by
    rw [place, Nat.zero_add, Nat.mod_eq_of_lt small]
  have inside : d < (start.pool.take numBd).length := by omega
  have cell : (State.armCells (start.pool.take numBd) 0 start.buildTx.buildRx).bd .rx
      (place numBd 0 d) = _ := armCells_bd_place (by decide) (by omega) inside
  rw [← position] at cell
  rw [cell]
  refine ⟨rfl, ?_⟩
  rw [List.getElem_take, List.getElem?_eq_getElem (by omega)]

/-- No descriptor of the last lap has EOQ set, so the RX HDP is not written yet. -/
theorem armAll_eq (pool : numBd ≤ start.pool.length) : start.armAll =
    ((State.armCells (start.pool.take numBd) 0 start.buildTx.buildRx).advanceFree (some 0)
      (some 0) (numBd - 1)).relink (some 0) (numBd - 1) (numBd - 1) := by
  have flags := (armed_bd pool (by decide : numBd - 1 < numBd)).1
  unfold State.armAll State.publish
  simp only [State.relink_rx, State.advanceFree_bd, flags]
  rw [if_neg (by decide)]

/-- The effect of `cpswif_cpdma_init`. -/
def State.boot (start : State) : State :=
  (start.armAll.modifyBd .rx (numBd - 1) fun cell => { cell with next := none }).writeHdp .rx
    (some 0)

theorem cpswifCpdmaInit_runs (pool : numBd ≤ start.pool.length) :
    still.Runs cpswifCpdmaInit start () start.boot := by
  rcases built_eq start with ⟨bd, same⟩
  have length : (start.pool.take numBd).length = numBd := by
    rw [List.length_take, Nat.min_eq_left pool]
  have rxch : start.buildTx.buildRx.rxch =
      ⟨some 0, some 0, some (numBd - 1), numBd⟩ := by
    rw [same]
  have head : start.armAll.rxch.recvHead = some 0 := by
    rw [State.armAll, State.publish_rxch, armCells_rxch (by rw [length, rxch]), rxch]
  unfold cpswifCpdmaInit
  apply Outline.Runs.bind initTxch_runs
  apply Outline.Runs.bind initRxch_runs
  apply Outline.Runs.bind (armAll_runs pool)
  apply runs_lift trivial (by trivial)
  apply runs_getRxch trivial
  change still.Runs (.lift (.hdp .rx start.armAll.rxch.recvHead)) _ _ _
  rw [head]
  exact runs_step trivial trivial .done

/-- It cleans one pbuf after the other, and writes the RX HDP. -/
theorem boot_trace (power : PowerOn start) : start.boot.trace = .hdp .rx (some 0) ::
    ((start.pool.take numBd).map fun p =>
      Event.clean (BitVec.ofNat 32 p) sizeofStructPbuf).reverse := by
  rcases built_eq start with ⟨bd, same⟩
  have trace : start.armAll.trace = ((start.pool.take numBd).map fun p =>
      Event.clean (BitVec.ofNat 32 p) sizeofStructPbuf).reverse := by
    rw [armAll_eq power.pool]
    simp [State.relink, State.advanceFree, armCells_trace, same, power.trace]
  rw [State.boot, State.writeHdp_trace, State.modifyBd_trace, trace]

theorem boot_shape (power : PowerOn start) : BootShape start start.boot := by
  unfold State.boot
  rcases built_eq start with ⟨bd, same⟩
  have length : (start.pool.take numBd).length = numBd := by
    rw [List.length_take, Nat.min_eq_left power.pool]
  have rxch : start.buildTx.buildRx.rxch =
      ⟨some 0, some 0, some (numBd - 1), numBd⟩ := by
    rw [same]
  refine ⟨?_, ?_, ?_, ?_, ?_, ?_, ?_, ?_, ?_, ?_, ?_, ?_, ?_⟩
  · simp [State.armAll, same]
  · simp only [State.writeHdp_rxch, State.modifyBd_rxch, State.armAll, State.publish_rxch]
    rw [armCells_rxch (by rw [length, rxch]), rxch, length]
    simp
  · intro d small
    have kept := State.buildTx_bd start small
    simp only [State.writeHdp_bd, State.armAll, ne_eq, reduceCtorEq, not_false_eq_true,
      State.modifyBd_bd_chan, State.publish_tx, armCells_tx, State.buildRx_tx]
    exact kept
  · intro d small
    simp only [State.writeHdp_bd, State.modifyBd_bd]
    by_cases last : d = numBd - 1
    · rw [if_pos last, if_pos last]
    · rw [if_neg last, if_neg last]
      simp only [State.armAll, State.publish_rx, armCells_next, if_neg last]
      exact State.buildRx_next _ small
  · intro d small
    have armed := (armed_bd power.pool small).1
    simp only [State.writeHdp_bd, State.modifyBd_bd, State.armAll, State.publish_rx]
    split
    next => exact armed
    next => exact armed
  · intro d small
    have armed := (armed_bd power.pool small).2
    simp only [State.writeHdp_bd, State.modifyBd_bd, State.armAll, State.publish_rx]
    split
    next => exact armed
    next => exact armed
  · have idle : start.armAll.engine = start.engine := by
      rw [armAll_eq power.pool]
      simp [State.relink, State.advanceFree, same]
    simp [State.writeHdp, State.start, State.record, State.setEngine, idle, power.engine]
  · have idle : start.armAll.engine = start.engine := by
      rw [armAll_eq power.pool]
      simp [State.relink, State.advanceFree, same]
    simp [State.writeHdp, State.start, State.record, State.setEngine, idle, power.engine]
  · intro d small
    simp only [State.writeHdp_fresh, State.modifyBd_fresh, State.armAll, State.publish_fresh]
    rw [armCells_fresh (by decide), length]
    have member : d ∈ arc numBd 0 numBd := mem_arc.mpr
      ⟨d, small, by rw [place, Nat.zero_add, Nat.mod_eq_of_lt small]⟩
    simp [member]
  · simp [State.armAll, same, power.received]
  · simp [State.armAll, same]
  · simp [State.armAll, armCells_pool, length, same]
  · intro event member
    have trace := boot_trace power
    unfold State.boot at trace
    simp only [trace, List.mem_cons, List.mem_reverse, List.mem_map] at member
    rcases member with rfl | ⟨p, _, rfl⟩
    · exact .inr rfl
    · exact .inl ⟨_, _, rfl⟩

end Init

/-- The initial states of the driver. -/
theorem Booted.exists_boot {state : State} (booted : Booted state) :
    ∃ start, PowerOn start ∧ state = start.boot := by
  rcases booted with ⟨start, power, returns⟩
  have runs := cpswifCpdmaInit_runs power.pool
  rcases still_unique runs returns with ⟨_, same⟩
  exact ⟨start, power, same⟩

theorem Booted.shape {state : State} (booted : Booted state) :
    ∃ start, PowerOn start ∧ BootShape start state := by
  rcases booted.exists_boot with ⟨start, power, rfl⟩
  exact ⟨start, power, boot_shape power⟩

/-- A state at power-on, with the 210 pbufs of the pool. -/
def powerOn (heap : Nat → Pbuf) : State where
  txch := ⟨none, none, none, 0⟩
  rxch := ⟨none, none, none, 0⟩
  bd _ _ := ⟨none, 0, 0, 0, none⟩
  pbuf := heap
  pool := List.range 210
  engine _ := .idle
  fresh _ := false
  received := []
  trace := []

theorem powerOn_powerOn (heap : Nat → Pbuf) : PowerOn (powerOn heap) where
  engine _ := rfl
  pool := by
    rw [numBd_eq, powerOn, List.length_range]
    decide
  fresh _ := rfl
  received := rfl
  trace := rfl

theorem boot_pbuf (heap : Nat → Pbuf) : (powerOn heap).boot.pbuf = heap :=
  (boot_shape (powerOn_powerOn heap)).pbuf

theorem powerOn_booted (heap : Nat → Pbuf) : Booted (powerOn heap).boot :=
  ⟨powerOn heap, powerOn_powerOn heap,
    returns_of_still (cpswifCpdmaInit_runs (powerOn_powerOn heap).pool)⟩

end BbbEth.Cpsw
