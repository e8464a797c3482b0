import BbbEth.Cpsw.Rx.Coherence

/-!
# A dirty line of the payload

`cpswif_rxbd_alloc` leaves the lines of the payload as they are.  A line that is dirty
may be written back after the engine stored the frame, and `ethernet_input` reads what
the former owner of the pbuf wrote.
-/

namespace BbbEth.Cpsw.Coherent

open BbbEth.Interference BbbEth.Coherence

/-- The engine stores the next bytes of the frame. -/
def storeMany (data : Nat → Byte) : Nat → Nat → State → State
  | 0, _, state => state
  | more + 1, count, state => storeMany data more (count + 1) { state with
      stored := some (count + 1)
      cached := state.cached.deposit (state.bd.bufptr.toNat + count) (data count) }

/-- Only the memory changes, and the number of bytes. -/
theorem storeMany_eq (data : Nat → Byte) (more count : Nat) (state : State)
    (stored : state.stored = some count) : ∃ memory, storeMany data more count state =
      { state with
        stored := some (count + more)
        cached := { state.cached with memory := memory } } := by
  induction more generalizing count state with
  | zero =>
      refine ⟨state.cached.memory, ?_⟩
      rw [storeMany, Nat.add_zero, ← stored]
  | succ more inductionHypothesis =>
      rcases inductionHypothesis (count + 1) { state with
        stored := some (count + 1)
        cached := state.cached.deposit (state.bd.bufptr.toNat + count) (data count) } rfl
        with ⟨memory, same⟩
      refine ⟨memory, ?_⟩
      rw [storeMany, same, Nat.add_right_comm, Nat.add_assoc count more 1]
      rfl

theorem storeMany_interferes (data : Nat → Byte) {size : Nat} (more count : Nat)
    {state : State} (stored : state.stored = some count) (fits : count + more ≤ size) :
    Relation.ReflTransGen (Environment data size) state (storeMany data more count state) := by
  induction more generalizing count state with
  | zero => exact .refl
  | succ more inductionHypothesis =>
      have short : count < size := by omega
      exact .head (.store state count stored short)
        (inductionHypothesis (count + 1) rfl (by omega))

/-- The flags of a descriptor that holds a frame. -/
def frameFlags (size : Nat) : Word :=
  cpdmaBufDescSop ||| cpdmaBufDescEop ||| BitVec.ofNat 32 size

/-- The engine stores the frame, and gives the descriptor back. -/
def storeFrame (data : Nat → Byte) (size : Nat) (state : State) : State :=
  let filled := storeMany data size 0 state
  { filled with
    stored := none
    bd := { filled.bd with flagsPktlen := frameFlags size } }

/-- The frame comes in, and the line is evicted. -/
def storeEvict (data : Nat → Byte) (size line : Nat) (state : State) : State :=
  { storeFrame data size state with
    cached := (storeFrame data size state).cached.evict lineOf line }

theorem frameFlags_owner :
    frameFlags pbufLenMax &&& cpdmaBufDescOwner ≠ cpdmaBufDescOwner := by decide

theorem frameFlags_length :
    frameFlags pbufLenMax &&& cpdmaBdPktlenMask = BitVec.ofNat 32 pbufLenMax := by decide

/-- The schedule in which the frame comes in before `eth0_rx_isr` looks at the
descriptor, and the line is evicted then. -/
def evictLate (data : Nat → Byte) (line : Nat) : Schedule (rxSetting data pbufLenMax) where
  ahead
    | .loadBd _, state =>
        if state.stored = some 0 then storeEvict data pbufLenMax line state else state
    | _, state => state
  follows request current := by
    cases request with
    | loadBd field =>
        dsimp only
        split
        · next stored =>
            have stores : Relation.ReflTransGen (Environment data pbufLenMax) current
                (storeMany data pbufLenMax 0 current) :=
              storeMany_interferes data pbufLenMax 0 stored (Nat.zero_add _).le
            have last : (storeMany data pbufLenMax 0 current).stored = some pbufLenMax := by
              rcases storeMany_eq data pbufLenMax 0 current stored with ⟨memory, same⟩
              rw [same, Nat.zero_add]
            apply (stores.tail (.complete _ (frameFlags pbufLenMax) last frameFlags_owner
              frameFlags_length)).tail
            exact .drift _ _ (.evict _ line)
        · exact .refl
    | _ => exact .refl

section Reaches

variable {data : Nat → Byte} {line p address : Nat} {bytes : Nat → Byte} {state : State}

/-- The line is dirty, and the engine rests. -/
structure Dirtied (line : Nat) (bytes : Nat → Byte) (state : State) : Prop where
  idle : state.stored = none
  dirty : state.cached.copies line = some ⟨true, bytes⟩

/-- The memory has the old byte. -/
structure Stale (address : Nat) (byte : Byte) (state : State) : Prop where
  idle : state.stored = none
  memory : state.cached.memory address = byte
  absent : state.cached.copies (lineOf address) = none

theorem reaches_perform {reply result : Type} {post : result → State → Prop}
    {request : Access reply} {rest : reply → Routine result}
    (others : (evictLate data line).Reaches post
      (rest (State.perform request ((evictLate data line).ahead request state)).1)
      (State.perform request ((evictLate data line).ahead request state)).2) :
    (evictLate data line).Reaches post (.perform request rest) state :=
  Schedule.Reaches.perform trivial others

/-- Nothing happens before a load while the engine rests. -/
theorem reaches_loadBd {reply result : Type} {post : result → State → Prop}
    {field : RxBd → reply} {rest : reply → Routine result} (idle : state.stored = none)
    (others : (evictLate data line).Reaches post (rest (field state.bd)) state) :
    (evictLate data line).Reaches post (.perform (.loadBd field) rest) state := by
  have rests : (evictLate data line).ahead (.loadBd field) state = state := by
    apply if_neg
    rw [idle]
    exact nofun
  apply reaches_perform
  rw [rests]
  exact others

/-- The operation on the line of the structure leaves another line dirty. -/
theorem clean_reaches (other : line ≠ lineOf p) (dirtied : Dirtied line bytes state) :
    (evictLate data line).Reaches (fun _ => Dirtied line bytes) (issue .clean p) state := by
  apply reaches_perform
  apply Schedule.Reaches.done
  exact ⟨dirtied.idle, (Cached.copies_writeBack_of_ne other).trans dirtied.dirty⟩

/-- The arming leaves the line dirty. -/
theorem armBd_reaches (aligned : p % lineSize = 0) (other : line ≠ lineOf p)
    (dirtied : Dirtied line bytes state) :
    (evictLate data line).Reaches (fun _ after => Dirtied line bytes after ∧ after.bd.pbuf = p)
      (armBd p) state := by
  have cleaned : (evictLate data line).Reaches (fun _ => Dirtied line bytes)
      (cp15DCacheCleanBuff issue p sizeofStructPbuf) state := by
    rw [cleanBuff_struct aligned]
    apply (clean_reaches other dirtied).bind
    intro _ first kept
    apply Schedule.Reaches.loop
    rw [cleanLoop_struct]
    apply (clean_reaches other kept).bind
    intro _ second still
    exact .done still
  apply cleaned.bind
  intro _ ready kept
  apply reaches_perform
  apply reaches_perform
  apply reaches_perform
  apply reaches_perform
  apply reaches_perform
  apply reaches_perform
  apply Schedule.Reaches.done
  exact ⟨⟨kept.idle, kept.dirty⟩, rfl⟩

/-- The frame comes in, and the line with it is lost. -/
theorem storeEvict_stale (data : Nat → Byte)
    (dirty : state.cached.copies (lineOf address) = some ⟨true, bytes⟩)
    (stored : state.stored = some 0) :
    Stale address (bytes address) (storeEvict data pbufLenMax (lineOf address) state) ∧
      (storeEvict data pbufLenMax (lineOf address) state).bd =
        { state.bd with flagsPktlen := frameFlags pbufLenMax } := by
  rcases storeMany_eq data pbufLenMax 0 state stored with ⟨memory, same⟩
  unfold storeEvict storeFrame
  rw [same]
  exact ⟨⟨rfl, Cached.memory_evict_of_dirty rfl dirty, Cached.copies_discard⟩, rfl⟩

/-- The accesses that maintain the cache. -/
inductive OfCache : {reply : Type} → Access reply → Prop where
  | maintain (operation : Maintenance) (target : Nat) : OfCache (.maintain operation target)

/-- Maintenance of the cache comes too late. -/
theorem flushBuff_reaches {byte : Byte} (stale : Stale address byte state)
    (begin length : Nat) : (evictLate data line).Reaches (fun _ => Stale address byte)
      (cp15DCacheFlushBuff issue begin length) state := by
  have issues : ∀ operation target, Program.Within @OfCache (issue operation target) :=
    fun operation target => .lift (.maintain operation target)
  apply Schedule.Reaches.within ?_ ?_ (flushBuff_within issues begin length) stale
  · exact fun _ _ _ _ => trivial
  · intro reply request before used kept
    cases used with
    | maintain operation target =>
        exact ⟨kept.idle,
          (Cached.memory_maintain (Cached.not_dirty_of_absent kept.absent)).trans kept.memory,
          Cached.copies_maintain_of_absent kept.absent⟩

/-- A store to the structure is apart from the line. -/
theorem storeHalf_reaches {byte : Byte} {target : Nat} {value : BitVec 16}
    (low : lineOf address ≠ lineOf target) (high : lineOf address ≠ lineOf (target + 1))
    (stale : Stale address byte state) : (evictLate data line).Reaches
      (fun _ => Stale address byte) (.lift (.storeHalf target value)) state := by
  apply reaches_perform
  apply Schedule.Reaches.done
  refine ⟨stale.idle, stale.memory, ?_⟩
  exact ((Cached.copies_store_of_ne high).trans (Cached.copies_store_of_ne low)).trans stale.absent

/-- The addresses in the line of the structure. -/
theorem lineOf_add (aligned : p % lineSize = 0) {offset : Nat} (inside : offset < lineSize) :
    lineOf (p + offset) = lineOf p := by
  unfold lineOf lineSize at *
  omega

/-- What `eth0_rx_isr` does with the descriptor, once the byte is lost. -/
theorem receiveBd_reaches {byte : Byte} (aligned : p % lineSize = 0)
    (other : lineOf address ≠ lineOf p) (stored : state.stored = some 0)
    (pbuf : state.bd.pbuf = p)
    (stale : Stale address byte (storeEvict data pbufLenMax line state))
    (bd : (storeEvict data pbufLenMax line state).bd =
      { state.bd with flagsPktlen := frameFlags pbufLenMax }) :
    (evictLate data line).Reaches (fun value after => value = some p ∧ Stale address byte after)
      receiveBd state := by
  have comes : (evictLate data line).ahead (.loadBd (·.flagsPktlen)) state =
      storeEvict data pbufLenMax line state := if_pos stored
  have apart : ∀ offset, offset < lineSize → lineOf address ≠ lineOf (p + offset) := by
    intro offset inside
    rw [lineOf_add aligned inside]
    exact other
  apply reaches_perform
  rw [comes]
  generalize storeEvict data pbufLenMax line state = late at stale bd
  have given : late.bd.flagsPktlen &&& cpdmaBufDescOwner ≠ cpdmaBufDescOwner := by
    rw [bd]
    exact frameFlags_owner
  have holder : late.bd.pbuf = p := by
    rw [bd]
    exact pbuf
  change (evictLate data line).Reaches _
    (if late.bd.flagsPktlen &&& cpdmaBufDescOwner = cpdmaBufDescOwner then _ else _) late
  rw [if_neg given]
  apply reaches_loadBd stale.idle
  apply reaches_loadBd stale.idle
  rw [holder]
  apply (flushBuff_reaches stale _ _).bind
  intro _ flushed kept
  apply (storeHalf_reaches (apart 10 (by decide)) (apart 11 (by decide)) kept).bind
  intro _ first keptFirst
  apply (storeHalf_reaches (apart 8 (by decide)) (apart 9 (by decide)) keptFirst).bind
  intro _ second keptSecond
  apply reaches_perform
  apply Schedule.Reaches.done
  exact ⟨rfl, keptSecond.idle, keptSecond.memory, keptSecond.absent⟩

/-- A frame of which a byte is lost. -/
theorem receive_reaches (aligned : p % lineSize = 0) (other : lineOf address ≠ lineOf p)
    (dirtied : Dirtied (lineOf address) bytes state) :
    (evictLate data (lineOf address)).Reaches
      (fun value after => value = some p ∧ Stale address (bytes address) after)
      (receive p) state := by
  apply (armBd_reaches aligned other dirtied).bind
  rintro _ armed ⟨kept, pbuf⟩
  apply reaches_perform
  have published : ({ armed with stored := some 0 } : State).cached.copies (lineOf address) =
      some ⟨true, bytes⟩ := kept.dirty
  rcases storeEvict_stale data published rfl with ⟨stale, bd⟩
  exact receiveBd_reaches aligned other rfl pbuf stale bd

end Reaches

/-! ## When reception is coherent -/

/-- Whatever frame comes in, and whatever the cache does, `ethernet_input` gets the pbuf
with the fields of lwIP and the bytes of the frame. -/
def ReceivesCoherently (p : Nat) (start : State) : Prop :=
  ∀ data size after pbuf, size ≤ pbufLenMax →
    (rxSetting data size).Returns (receive p) start (some pbuf) after →
    pbuf = p ∧ Received p data size start after

/-- No line of the pbuf but that of its structure is dirty. -/
def PayloadClean (p : Nat) (start : State) : Prop :=
  ∀ line, PbufLine p line → line ≠ lineOf p → ¬ start.cached.Dirty line

/-- A dirty line of the payload is enough to lose a byte. -/
theorem not_receivesCoherently {p line : Nat} {start : State} (allocated : Allocated p start)
    (inside : PbufLine p line) (other : line ≠ lineOf p) (dirty : start.cached.Dirty line) :
    ¬ ReceivesCoherently p start := by
  intro claim
  rcases inside with ⟨address, above, below, rfl⟩
  rcases Cached.dirty_or_clean start.cached (lineOf address) with ⟨bytes, found⟩ | clean
  · -- The frame has other bytes than those in the cache.
    let data : Nat → Byte := fun offset => bytes (p + sizeofStructPbuf + offset) + 1
    have reaches : (evictLate data (lineOf address)).Reaches
        (fun value after => value = some p ∧ Stale address (bytes address) after)
        (receive p) start :=
      receive_reaches allocated.aligned other ⟨allocated.idle, found⟩
    have beyond : p + sizeofStructPbuf ≤ address := by
      by_contra early
      have inFirst : address - p < lineSize := by
        unfold sizeofStructPbuf lineSize at *
        omega
      have same := lineOf_add allocated.aligned inFirst
      rw [Nat.add_sub_cancel' above] at same
      exact other same
    rcases reaches.returns with ⟨_, after, returns, rfl, stale⟩
    have received := (claim data pbufLenMax after p le_rfl returns).2.payload
      (address - (p + sizeofStructPbuf)) (by omega)
    have lost : after.read address = bytes address :=
      (Cached.read_of_absent stale.absent).trans stale.memory
    have delivered : data (address - (p + sizeofStructPbuf)) = bytes address + 1 := by
      change bytes (p + sizeofStructPbuf + (address - (p + sizeofStructPbuf))) + 1 = _
      rw [Nat.add_sub_cancel' beyond]
    rw [Nat.add_sub_cancel' beyond, lost, delivered] at received
    exact absurd received (by simp)
  · exact clean dirty

/-- Reception is coherent if and only if no line of the payload is dirty when the
descriptor is armed. -/
theorem receivesCoherently_iff_payloadClean (p : Nat) (start : State)
    (allocated : Allocated p start) : ReceivesCoherently p start ↔ PayloadClean p start := by
  constructor
  · intro coherent line inside other dirty
    exact not_receivesCoherently allocated inside other dirty coherent
  · intro clean data size after pbuf small returns
    exact (receive_received allocated clean small).post_of_returns returns pbuf rfl

/-! ## A pbuf -/

/-- A pbuf at an aligned address, with its structure in memory and nothing in the cache. -/
def fresh : State where
  bd := ⟨0, 0, 0, 0⟩
  stored := none
  cached :=
    { memory := Function.update (Function.update (fun _ => 0) 0x80000004 0x10) 0x80000007 0x80
      copies := fun _ => none }

theorem fresh_allocated : Allocated 0x80000000 fresh where
  aligned := by decide
  fits := by decide
  payload := by decide
  idle := rfl
  agree line copy found := by cases found

/-- A store to the payload was written back, and stores to the structure and behind the pbuf were
not. -/
def mixed : State :=
  { fresh with
    cached := (((fresh.cached.store lineOf 0x80000040 0x41).writeBack lineOf
      (lineOf 0x80000040)).store lineOf 0x80000008 0x05).store lineOf 0x80000800 0x42 }

/-- Stores elsewhere leave the payload pointer. -/
theorem mixed_allocated : Allocated 0x80000000 mixed where
  aligned := by decide
  fits := by decide
  payload := by
    have reads : mixed.read = Function.update (Function.update (Function.update fresh.read
        0x80000040 0x41) 0x80000008 0x05) 0x80000800 0x42 := by
      have written : ((fresh.cached.store lineOf 0x80000040 0x41).writeBack lineOf
          (lineOf 0x80000040)).read lineOf = Function.update fresh.read 0x80000040 0x41 :=
        (funext fun _ => Cached.read_writeBack).trans Cached.read_store
      rw [← written]
      exact Cached.read_store.trans
        (congrArg (Function.update · 0x80000800 0x42) Cached.read_store)
    have same : ∀ offset < 4, mixed.read (0x80000004 + offset) =
        fresh.read (0x80000004 + offset) := by
      intro offset inside
      rw [reads, Function.update_of_ne (by omega), Function.update_of_ne (by omega),
        Function.update_of_ne (by omega)]
    unfold State.word
    rw [same 3 (by decide), same 2 (by decide), same 1 (by decide), same 0 (by decide)]
    exact fresh_allocated.payload
  idle := rfl
  agree line := Cached.agrees_store (Cached.agrees_store (Cached.agrees_writeBack
    (Cached.agrees_store (fresh_allocated.agree line))))

/-- A frame that comes into this pbuf, with a clean copy of a line of the payload, a dirty one of
the structure, and a dirty one elsewhere. -/
theorem mixed_receivesCoherently :
    mixed.cached.Dirty (lineOf 0x80000800) ∧ ReceivesCoherently 0x80000000 mixed := by
  have clean : PayloadClean 0x80000000 mixed := by
    rintro _ ⟨address, above, below, rfl⟩ other
    unfold pbufLenMax sizeofStructPbuf at below
    refine Cached.not_dirty_store_of_ne ?_ (Cached.not_dirty_store_of_ne ?_
      (Cached.not_dirty_writeBack_store (Cached.not_dirty_of_absent rfl)))
    · unfold lineOf lineSize
      omega
    · exact other
  exact ⟨Cached.dirty_store,
    (receivesCoherently_iff_payloadClean 0x80000000 mixed mixed_allocated).mpr clean⟩

/-- The former owner has stored a byte in the second line. -/
def written : State :=
  { fresh with cached := fresh.cached.store lineOf 0x80000040 0x41 }

theorem written_allocated : Allocated 0x80000000 written where
  aligned := by decide
  fits := by decide
  payload := by
    have same : ∀ address, lineOf address ≠ lineOf 0x80000040 →
        written.read address = fresh.read address := by
      intro address apart
      have reads : written.read = Function.update fresh.read 0x80000040 0x41 := Cached.read_store
      rw [reads]
      exact Function.update_of_ne (fun equal => apart (congrArg lineOf equal)) _ _
    unfold State.word
    rw [same _ (by decide), same _ (by decide), same _ (by decide), same _ (by decide)]
    exact fresh_allocated.payload
  idle := rfl
  agree line := Cached.agrees_store (fresh_allocated.agree line)

/-- The byte of the former owner may end up in the frame. -/
theorem not_receivesCoherently_written :
    ¬ ∀ (p : Nat) (start : State), Allocated p start → ReceivesCoherently p start := by
  intro claim
  have inside : PbufLine 0x80000000 (lineOf 0x80000040) :=
    ⟨0x80000040, by decide, by decide, rfl⟩
  have dirty : written.cached.Dirty (lineOf 0x80000040) := Cached.dirty_store
  exact not_receivesCoherently written_allocated inside (by decide) dirty
    (claim 0x80000000 written written_allocated)

end BbbEth.Cpsw.Coherent
