import BbbEth.Cpsw.Rx.Runs

/-!
# What the receive ring represents

The armed descriptors hang on `recv_head`, the free ones on `free_head`, and every frame is passed
on once, in the order in which the engine completed them.
-/

namespace BbbEth.Cpsw

open BbbEth.Interference BbbEth.Linked Routine

/-- A descriptor that holds a pbuf which the engine is to fill, or has filled and the driver has
not passed on. -/
def Armed (state : State) (d : Nat) : Prop :=
  d < numBd ∧ (state.fresh d = true ∨ (state.bd .rx d).owner = false)

/-- `struct rxch` and its descriptors, with the armed ones in order. -/
structure RxRepresents (state : State) (armed : List Nat) : Prop where
  count : state.rxch.freeNum + armed.length = numBd
  member : ∀ d, d ∈ armed ↔ Armed state d
  distinct : armed.Nodup
  receive : armed ≠ [] → Path (fun d => (state.bd .rx d).next) state.rxch.recvHead armed none
  tail : armed ≠ [] → state.rxch.recvTail = armed.getLast?
  empty : armed = [] → state.rxch.recvHead = state.rxch.freeHead
  free : ∃ free, Path (fun d => (state.bd .rx d).next) state.rxch.freeHead free
      (if armed = [] then none else state.rxch.recvHead) ∧
    free.length = state.rxch.freeNum ∧ free.Nodup ∧ ∀ d ∈ free, d < numBd ∧ ¬ Armed state d

/-- The pbufs were put into the armed descriptors in that order, behind those of the frames in
`delivered`, which were passed to `ethernet_input` as the engine completed them.  It has completed
the others that are no longer owned by it. -/
structure RxAccounts (state : State) (armed : List Nat) (delivered : List (Ptr × Word)) :
    Prop where
  represents : RxRepresents state armed
  armings : armings state.trace = delivered.map (fun frame => addressOf frame.1) ++
    armed.map fun d => addressOf (state.bd .rx d).pbuf
  inputs : inputs state.trace = delivered.map inputOf
  received : state.received = delivered ++
    (armed.filter fun d => !(state.bd .rx d).owner).map (frameAt state)

section Represents

variable {state : State} {start count filled : Nat} {delivered : List (Ptr × Word)}

namespace Receiving

theorem armed_iff (receiving : Receiving state start count filled delivered) {offset : Nat}
    (inside : offset < numBd) : Armed state (place numBd start offset) ↔ offset < count := by
  constructor
  · rintro ⟨_, holds⟩
    by_contra behind
    have free := receiving.ring.free offset (by omega) inside
    rcases holds with fresh | owner
    · rw [free.2] at fresh
      cases fresh
    · rw [owner_of_flags _ free.1] at owner
      cases owner
  · intro armed
    refine ⟨place_lt (by decide), ?_⟩
    by_cases early : offset < filled
    · exact .inr (receiving.level.done offset early).1
    · exact .inl (receiving.level.waiting offset (by omega) armed).2

theorem mem_armed (receiving : Receiving state start count filled delivered) (d : Nat) :
    d ∈ arc numBd start count ↔ Armed state d := by
  have small := receiving.ring.small
  constructor
  · intro member
    rcases mem_arc.mp member with ⟨offset, inside, rfl⟩
    exact (receiving.armed_iff (by omega)).mpr inside
  · intro armed
    rcases exists_place start armed.1 with ⟨offset, inside, rfl⟩
    exact mem_arc.mpr ⟨offset, (receiving.armed_iff inside).mp armed, rfl⟩

/-- The receive chain runs through the armed descriptors. -/
theorem receivePath (receiving : Receiving state start (count + 1) filled delivered) :
    Path (fun d => (state.bd .rx d).next) state.rxch.recvHead (arc numBd start (count + 1))
      none := by
  have small := receiving.ring.small
  have next := fun offset inside => @RxRing.next_eq _ _ _ receiving.ring offset inside
  rw [receiving.ring.recvHead]
  apply path_arc_closed receiving.ring.bound
  · intro offset inside
    rw [next offset (by omega), if_neg (by omega)]
  · rw [next count (by omega), if_pos rfl]

/-- The free descriptors follow, up to `recv_head`, or to the end if nothing is armed. -/
theorem freePath (receiving : Receiving state start count filled delivered) :
    Path (fun d => (state.bd .rx d).next) state.rxch.freeHead
      (arc numBd (place numBd start count) (numBd - count))
      (if count = 0 then none else state.rxch.recvHead) := by
  have size := numBd_eq
  have ring := receiving.ring
  have small := ring.small
  have bound : place numBd start count < numBd := place_lt (by decide)
  have next : ∀ offset, offset < numBd - count →
      (state.bd .rx (place numBd (place numBd start count) offset)).next =
        if offset + 1 = numBd then none
        else some (place numBd (place numBd start count) (offset + 1)) := by
    intro offset inside
    have link := @RxRing.next_added _ _ _ ring (offset + 1) (by omega) (by omega)
    rwa [Nat.add_sub_cancel, ← place_place] at link
  rw [ring.freeHead, ring.recvHead]
  by_cases unarmed : count = 0
  · subst unarmed
    rw [if_pos rfl, Nat.sub_zero]
    have path : Path (fun d => (state.bd .rx d).next) (some (place numBd start 0))
        (arc numBd (place numBd start 0) (numBd - 1 + 1)) none := by
      apply path_arc_closed bound
      · intro offset inside
        rw [next offset (by omega), if_neg (by omega)]
      · rw [next (numBd - 1) (by omega), if_pos (by omega)]
    exact path
  · rw [if_neg unarmed]
    have around : start = place numBd (place numBd start count) (numBd - count) := by
      rw [place_place, Nat.add_sub_cancel' small, place_around ring.bound]
    have path : Path (fun d => (state.bd .rx d).next) (some (place numBd start count))
        (arc numBd (place numBd start count) (numBd - count))
        (some (place numBd (place numBd start count) (numBd - count))) := by
      apply path_arc bound
      intro offset inside
      rw [next offset inside, if_neg (by omega)]
    rwa [← around] at path

theorem represents (receiving : Receiving state start count filled delivered) :
    RxRepresents state (arc numBd start count) := by
  have ring := receiving.ring
  have small := ring.small
  have empty : arc numBd start count = [] ↔ count = 0 := by
    rw [← List.length_eq_zero_iff, length_arc]
  refine ⟨?_, receiving.mem_armed, nodup_arc small, ?_, ?_, ?_,
    arc numBd (place numBd start count) (numBd - count), ?_, ?_, ?_, ?_⟩
  · rw [ring.freeNum, length_arc]
    omega
  · intro some
    obtain ⟨count, rfl⟩ := Nat.exists_eq_succ_of_ne_zero (mt empty.mpr some)
    exact receiving.receivePath
  · intro some
    obtain ⟨count, rfl⟩ := Nat.exists_eq_succ_of_ne_zero (mt empty.mpr some)
    rw [ring.tail_eq, getLast?_arc (Nat.succ_pos count)]
    rfl
  · intro none
    rw [ring.recvHead, ring.freeHead, empty.mp none, place_zero ring.bound]
  · have path := receiving.freePath
    by_cases unarmed : count = 0
    · rw [if_pos (empty.mpr unarmed)]
      rwa [if_pos unarmed] at path
    · rw [if_neg (mt empty.mp unarmed)]
      rwa [if_neg unarmed] at path
  · rw [length_arc, ring.freeNum]
  · exact nodup_arc (by omega)
  · intro d member
    rcases mem_arc.mp member with ⟨offset, inside, rfl⟩
    refine ⟨place_lt (by decide), ?_⟩
    rw [place_place, receiving.armed_iff (by omega)]
    omega

theorem accounts (receiving : Receiving state start count filled delivered) :
    RxAccounts state (arc numBd start count) delivered where
  represents := receiving.represents
  armings := receiving.history.armings
  inputs := receiving.history.inputs
  received := by
    have within := receiving.level.within
    have small := receiving.ring.small
    have split : arc numBd start count =
        arc numBd start filled ++ arc numBd (place numBd start filled) (count - filled) := by
      rw [← arc_append, Nat.add_sub_cancel' within]
    have completed : (arc numBd start filled).filter (fun d => !(state.bd .rx d).owner) =
        arc numBd start filled := by
      rw [List.filter_eq_self]
      intro d member
      rcases mem_arc.mp member with ⟨offset, inside, rfl⟩
      rw [(receiving.level.done offset inside).1]
      rfl
    have waiting : (arc numBd (place numBd start filled) (count - filled)).filter
        (fun d => !(state.bd .rx d).owner) = [] := by
      rw [List.filter_eq_nil_iff]
      intro d member
      rcases mem_arc.mp member with ⟨offset, inside, rfl⟩
      rw [place_place, owner_of_flags _
        (receiving.level.waiting (filled + offset) (by omega) (by omega)).1]
      decide
    rw [receiving.history.received, split, List.filter_append, completed, waiting,
      List.append_nil]

end Receiving

end Represents

/-! ## Whole runs -/

/-- `cpswif_cpdma_init` leaves every descriptor armed. -/
theorem Booted.receiving {state : State} (booted : Booted state) :
    TxEmpty state ∧ Receiving state 0 numBd 0 [] := by
  rcases booted.exists_boot with ⟨start, power, rfl⟩
  have shape := boot_shape power
  have pool : ∀ d < numBd, ∃ p, start.pool[d]? = some p := by
    intro d small
    exact ⟨_, List.getElem?_eq_getElem (Nat.lt_of_lt_of_le small power.pool)⟩
  have position : ∀ d < numBd, place numBd 0 d = d := by
    intro d small
    rw [place, Nat.zero_add, Nat.mod_eq_of_lt small]
  refine ⟨⟨0, by rw [shape.txch], ?_⟩, ?_, ?_, ?_⟩
  · rw [Bd.sop, (shape.tx 0 (by decide)).2]
    exact BitVec.getLsbD_zero
  · refine ⟨by decide, Nat.le_refl _, ?_, ?_, ?_, ?_, ?_, ?_, ?_⟩
    · rw [shape.rxch]
      rfl
    · rw [shape.rxch]
      decide
    · rw [shape.rxch]
    · rw [shape.rxch]
      decide
    · intro d small
      rw [shape.rxNext d small, shape.rxch]
      simp only [Option.some.injEq]
      exact if_congr eq_comm rfl rfl
    · intro offset small
      rw [position offset small, shape.rxPbuf offset small]
      exact pool offset small
    · intro offset behind inside
      exact absurd inside (Nat.not_lt_of_le behind)
  · refine ⟨Nat.zero_le _, fun offset inside => absurd inside (Nat.not_lt_zero _), ?_⟩
    intro offset _ inside
    rw [position offset inside, shape.rxFlags offset inside, shape.fresh offset inside]
    exact ⟨rfl, rfl⟩
  · have trace := boot_trace power
    refine ⟨by rw [shape.received]; rfl, ?_, ?_⟩
    · have quiet := inputs_clean (start.pool.take numBd) []
      rw [List.append_nil] at quiet
      rw [trace]
      exact quiet
    · have cleaned := armings_clean (start.pool.take numBd) []
      rw [List.append_nil] at cleaned
      rw [trace]
      refine Eq.trans cleaned ?_
      apply List.ext_getElem
      · simpa [armings] using power.pool
      · intro d left right
        have small : d < numBd := by simpa using right
        simp only [armings, List.filterMap_nil, List.reverse_nil, List.nil_append, List.map_nil,
          List.getElem_map, arc, List.getElem_range, position d small]
        rw [shape.rxPbuf d small, addressOf, List.getElem_take,
          List.getElem?_eq_getElem (Nat.lt_of_lt_of_le small power.pool)]
        rfl

section Runs

variable {state : State} {start count filled : Nat} {delivered : List (Ptr × Word)}

/-- The rest of the program touches nothing that the receive side keeps. -/
theorem Receiving.poolChange (receiving : Receiving state start count filled delivered)
    (heap : Nat → Pbuf) (pool : List Nat) :
    Receiving { state with pbuf := heap, pool := pool } start count filled delivered where
  ring := receiving.ring.congr rfl (fun _ => ⟨rfl, rfl⟩) fun _ _ _ => ⟨rfl, rfl⟩
  level := receiving.level.congr fun _ _ => ⟨rfl, rfl⟩
  history := receiving.history.congr receiving.level.within rfl (fun _ _ => rfl) rfl rfl

/-- Every step of the system keeps the ring. -/
theorem receive_invariant :
    receiveSystem.Invariant (fun _ => True) (fun _ _ => True) RxIdle where
  initial start booted := ⟨booted.receiving.1, 0, numBd, 0, [], booted.receiving.2⟩
  outside current next idle change := by
    rcases idle with ⟨empty, start, count, filled, delivered, receiving⟩
    rcases change with ⟨path, completed, fresh, owner⟩ | ⟨heap, pool, rfl⟩
    · rcases receiving.ring.front receiving.level path completed fresh with ⟨waiting, rfl⟩
      exact ⟨empty.congr rfl fun _ => State.completeRx_tx _ _ _ _, start, count, filled + 1,
        delivered, receiving.complete waiting owner⟩
    · exact ⟨empty.congr rfl fun _ => rfl, start, count, filled, delivered,
        receiving.poolChange heap pool⟩
  rely _ _ _ step := step.elim
  safely _ _ := trivial
  calls current code idle call := by
    rcases idle with ⟨empty, start, count, filled, delivered, receiving⟩
    rcases call with rfl | rfl
    · rcases eth0RxIsr_runs receiving with ⟨after, runs, received, apart⟩
      apply (ensures_of_still runs).mono
      rintro _ _ ⟨_, rfl⟩
      exact ⟨empty.congr apart.txch apart.bd, _, _, _, _, received⟩
    · rcases eth0TxIsr_runs empty receiving with ⟨after, runs, received, apart⟩
      apply (ensures_of_still runs).mono
      rintro _ _ ⟨_, rfl⟩
      exact ⟨empty.congr apart.txch apart.bd, _, _, _, _, received⟩

/-- Between two calls the ring represents the armed descriptors; every call comes to an end without
following a null pointer, and `eth0_rx_isr` passes on all that was completed. -/
theorem rxRing_accounts (idle : receiveSystem.Idle state) :
    (∃ armed delivered, RxAccounts state armed delivered) ∧
      (receiveSystem.Completes eth0RxIsr state fun _ after =>
        inputs after.trace = state.received.map inputOf) ∧
      receiveSystem.Completes eth0TxIsr state fun _ _ => True := by
  rcases receive_invariant.of_idle idle with ⟨empty, start, count, filled, delivered, receiving⟩
  refine ⟨⟨_, _, receiving.accounts⟩, ?_, ?_⟩
  · rcases eth0RxIsr_runs receiving with ⟨after, runs, received, _⟩
    have passed : quietContract.Ensures
        (fun _ after => inputs after.trace = state.received.map inputOf) eth0RxIsr state := by
      apply (ensures_of_still runs).mono
      rintro _ _ ⟨_, rfl⟩
      exact received.history.inputs
    exact passed.completes not_false
  · rcases eth0TxIsr_runs empty receiving with ⟨after, runs, _, _⟩
    have ended : quietContract.Ensures (fun _ _ => True) eth0TxIsr state :=
      (ensures_of_still runs).mono fun _ _ _ => trivial
    exact ended.completes not_false

/-- Pbufs without contents. -/
def blankHeap (_ : Nat) : Pbuf := ⟨none, 0, 0, 0, 1⟩

/-- The engine completes the first armed descriptor. -/
theorem Receiving.completeFirst (receiving : Receiving state start count 0 delivered)
    (idle : receiveSystem.Idle state) (armed : 0 < count) :
    ∃ next, receiveSystem.Idle next ∧ Receiving next start count 1 delivered := by
  have waiting := (receiving.level.waiting 0 (Nat.le_refl 0) armed).2
  have owner : (60#32 : Word).getLsbD 29 = false := by decide
  have completion : RxCompletion state (state.completeRx (place numBd start 0) 60#32) := by
    apply RxCompletion.complete _ (fun _ none => absurd none List.not_mem_nil) waiting owner
    rw [place_zero receiving.ring.bound]
    exact receiving.ring.recvHead
  exact ⟨_, idle.outside (.inl completion), receiving.complete armed owner⟩

/-- `eth0_rx_isr` passes on what is filled, and arms a descriptor with the one pbuf of the pool. -/
theorem Receiving.receives (receiving : Receiving state start count filled delivered)
    (idle : receiveSystem.Idle state) (taken : 0 < filled) :
    ∃ next, receiveSystem.Idle next ∧
      Receiving next (place numBd start filled) (count - filled + 1) 0 state.received := by
  have changed : receiveSystem.Idle { state with pbuf := state.pbuf, pool := [0] } :=
    idle.outside (.inr ⟨state.pbuf, [0], rfl⟩)
  rcases eth0RxIsr_runs (receiving.poolChange state.pbuf [0]) with ⟨after, runs, later, _⟩
  have calling : receiveSystem.Reachable
      ⟨{ state with pbuf := state.pbuf, pool := [0] }, eth0RxIsr >>= fun _ => .done ()⟩ := by
    rw [Program.bind_pure]
    exact .step changed (.call (.inl rfl))
  have small := receiving.ring.small
  have within := receiving.level.within
  have one : min (numBd - (count - filled)) [0].length = 1 := by
    rw [List.length_singleton]
    omega
  rw [one] at later
  exact ⟨after, reachable_of_still (fun _ _ => rfl) (fun _ _ => trivial) calling runs, later⟩

/-- A frame is received and passed on, its descriptor is armed again, and another frame is
received. -/
theorem rxRing_accounts_again : ∃ state,
    state.received.length = 2 ∧ (inputs state.trace).length = 1 ∧
      (armings state.trace).length = 205 ∧
    (∃ armed delivered, RxAccounts state armed delivered) ∧
      (receiveSystem.Completes eth0RxIsr state fun _ after =>
        inputs after.trace = state.received.map inputOf) ∧
      receiveSystem.Completes eth0TxIsr state fun _ _ => True := by
  have booted := powerOn_booted blankHeap
  rcases booted.receiving.2.completeFirst (.initial booted) (by decide) with ⟨_, idle, first⟩
  have length := congrArg List.length first.history.received
  rcases first.receives idle Nat.one_pos with ⟨_, idle, again⟩
  rcases again.completeFirst idle (Nat.succ_pos _) with ⟨state, idle, last⟩
  refine ⟨state, ?_, ?_, ?_, rxRing_accounts idle⟩
  · rw [last.history.received, List.length_append, length]
    rfl
  · rw [last.history.inputs, List.length_map, length]
    rfl
  · rw [last.history.armings, List.length_append, List.length_map, length, List.length_map,
      length_arc, List.nil_append, List.length_map, length_arc]
    decide

end Runs

end BbbEth.Cpsw
