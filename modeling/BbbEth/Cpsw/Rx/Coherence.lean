import BbbEth.Cpsw.Driver
import BbbEth.Coherence.Buffer
import BbbEth.Interference.Schedule

/-!
# The cache and one received frame

`cpswif_rxbd_alloc` cleans the cache line of the `struct pbuf` that it arms a
descriptor with, and `eth0_rx_isr` invalidates all lines of the pbuf once the frame
is there.  This module follows one descriptor on this way, with the bytes of the pbuf
in memory and in the cache.
-/

namespace BbbEth.Cpsw.Coherent

open BbbEth.Interference BbbEth.Coherence

/-- A byte. -/
abbrev Byte := BitVec 8

/-- `struct cpdma_rx_bd`, up to the link; descriptors are not cached. -/
structure RxBd where
  bufptr : Word
  bufoffLen : Word
  flagsPktlen : Word
  /-- The address of the pbuf. -/
  pbuf : Nat

/-- The state. -/
structure State where
  bd : RxBd
  /-- How many bytes of the frame the engine has stored, while the descriptor is its own. -/
  stored : Option Nat
  cached : Cached Nat Nat Byte

/-- The atomic accesses. -/
inductive Access : Type → Type 1 where
  | maintain (operation : Maintenance) (address : Nat) : Access Unit
  | loadHalf (address : Nat) : Access (BitVec 16)
  | loadWord (address : Nat) : Access Word
  | storeHalf (address : Nat) (value : BitVec 16) : Access Unit
  | loadBd {reply : Type} (field : RxBd → reply) : Access reply
  | storeBd (change : RxBd → RxBd) : Access Unit
  /-- The stores that link the armed descriptor into the chain of the engine. -/
  | publish : Access Unit

namespace State

variable (state : State)

/-- What the processor reads at an address. -/
def read (address : Nat) : Byte := state.cached.read lineOf address

/-- A halfword, in little-endian order. -/
def half (address : Nat) : BitVec 16 := state.read (address + 1) ++ state.read address

/-- A word, in little-endian order. -/
def word (address : Nat) : Word :=
  state.read (address + 3) ++ state.read (address + 2) ++ state.read (address + 1) ++
    state.read address

/-- The effect of an access. -/
def perform : {reply : Type} → Access reply → State → reply × State
  | _, .maintain operation address, state =>
      ((), { state with cached := state.cached.maintain lineOf operation (lineOf address) })
  | _, .loadHalf address, state => (state.half address, state)
  | _, .loadWord address, state => (state.word address, state)
  | _, .storeHalf address value, state =>
      ((), { state with
        cached := (state.cached.store lineOf address (value.setWidth 8)).store lineOf
          (address + 1) ((value >>> 8).setWidth 8) })
  | _, .loadBd field, state => (field state.bd, state)
  | _, .storeBd change, state => ((), { state with bd := change state.bd })
  | _, .publish, state => ((), { state with stored := some 0 })

end State

/-! ## The routines -/

/-- Routines of the driver. -/
abbrev Routine := Program Access

/-- One maintenance operation on a line. -/
def issue (operation : Maintenance) (address : Nat) : Routine Unit :=
  .lift (.maintain operation address)

/-- What `cpswif_rxbd_alloc` does with one descriptor, once it has a pbuf. -/
def armBd (p : Nat) : Routine Unit := do
  cp15DCacheCleanBuff issue p sizeofStructPbuf
  let payload ← .lift (.loadWord (p + 4))
  .lift (.storeBd fun bd => { bd with bufptr := payload })
  let len ← .lift (.loadHalf (p + 10))
  .lift (.storeBd fun bd => { bd with bufoffLen := len.setWidth 32 })
  .lift (.storeBd fun bd => { bd with flagsPktlen := cpdmaBufDescOwner })
  .lift (.storeBd fun bd => { bd with pbuf := p })

/-- What `eth0_rx_isr` does with one descriptor, up to the call of `ethernet_input`.  It
returns the pbuf for this call, or nothing if the engine still owns the descriptor. -/
def receiveBd : Routine (Option Nat) := do
  let flags ← .lift (.loadBd (·.flagsPktlen))
  if flags &&& cpdmaBufDescOwner = cpdmaBufDescOwner then
    .done none
  else do
    let flags ← .lift (.loadBd (·.flagsPktlen))
    let totLen := flags &&& cpdmaBdPktlenMask
    let pbuf ← .lift (.loadBd (·.pbuf))
    cp15DCacheFlushBuff issue pbuf (pbufLenMax + sizeofStructPbuf)
    .lift (.storeHalf (pbuf + 10) (totLen.setWidth 16))
    .lift (.storeHalf (pbuf + 8) (totLen.setWidth 16))
    .lift (.storeBd fun bd => { bd with flagsPktlen := cpdmaBufDescOwner })
    .done (some pbuf)

/-- One pbuf on its way from `cpswif_rxbd_alloc` to `ethernet_input`. -/
def receive (p : Nat) : Routine (Option Nat) := do
  armBd p
  .lift .publish
  receiveBd

/-! ## The engine and the cache -/

/-- What happens beside the routines while a frame of so many bytes comes in. -/
inductive Environment (data : Nat → Byte) (size : Nat) : State → State → Prop where
  | drift (state : State) (cached : Cached Nat Nat Byte) :
      Cached.Drift lineOf state.cached cached →
      Environment data size state { state with cached := cached }
  | store (state : State) (count : Nat) : state.stored = some count → count < size →
      Environment data size state { state with
        stored := some (count + 1)
        cached := state.cached.deposit (state.bd.bufptr.toNat + count) (data count) }
  /-- The flags that the engine stores have the length of the frame. -/
  | complete (state : State) (flags : Word) : state.stored = some size →
      flags &&& cpdmaBufDescOwner ≠ cpdmaBufDescOwner →
      flags &&& cpdmaBdPktlenMask = BitVec.ofNat 32 size →
      Environment data size state { state with
        stored := none
        bd := { state.bd with flagsPktlen := flags } }

/-- The way of one frame. -/
def rxSetting (data : Nat → Byte) (size : Nat) : Setting Access State where
  perform := State.perform
  rely _ := Environment data size
  admits _ _ := True

/-- The lines of a pbuf. -/
def PbufLine (p line : Nat) : Prop := Overlaps p (pbufLenMax + sizeofStructPbuf) line

/-- A pbuf that `pbuf_alloc` has returned: it is aligned to a cache line, and its payload
is behind its structure. -/
structure Allocated (p : Nat) (state : State) : Prop where
  aligned : p % lineSize = 0
  fits : p + pbufLenMax + sizeofStructPbuf ≤ 2 ^ 32
  payload : state.word (p + 4) = BitVec.ofNat 32 (p + sizeofStructPbuf)
  idle : state.stored = none
  agree : ∀ line, state.cached.Agrees lineOf line

/-- What `ethernet_input` reads: the fields of the structure are those of lwIP, with the
length of the frame in `tot_len` and `len`, and the payload is the frame. -/
structure Received (p : Nat) (data : Nat → Byte) (size : Nat) (before after : State) : Prop where
  fields : ∀ offset, offset < 8 ∨ 12 ≤ offset → offset < sizeofStructPbuf →
    after.read (p + offset) = before.read (p + offset)
  totLen : after.half (p + 8) = BitVec.ofNat 16 size
  len : after.half (p + 10) = BitVec.ofNat 16 size
  payload : ∀ offset, offset < size →
    after.read (p + sizeofStructPbuf + offset) = data offset

/-! ## Where no line of the payload is dirty -/

section Clean

variable (p : Nat) (data : Nat → Byte) (start : State)

/-- What is known of the pbuf once so many bytes are stored. -/
def contents (count address : Nat) : Option Byte :=
  if p ≤ address ∧ address < p + sizeofStructPbuf then
    some (start.read address)
  else if p + sizeofStructPbuf ≤ address ∧ address < p + sizeofStructPbuf + count then
    some (data (address - (p + sizeofStructPbuf)))
  else
    none

variable {p data start} {count offset : Nat}

theorem contents_struct (inside : offset < sizeofStructPbuf) :
    contents p data start count (p + offset) = some (start.read (p + offset)) :=
  if_pos ⟨Nat.le_add_right _ _, Nat.add_lt_add_left inside p⟩

theorem contents_payload (inside : offset < count) :
    contents p data start count (p + sizeofStructPbuf + offset) = some (data offset) := by
  unfold contents
  rw [if_neg (by omega), if_pos (by omega), Nat.add_sub_cancel_left]

theorem contents_succ : contents p data start (count + 1) =
    Function.update (contents p data start count) (p + sizeofStructPbuf + count)
      (some (data count)) := by
  funext address
  by_cases last : address = p + sizeofStructPbuf + count
  · rw [last, contents_payload (Nat.lt_succ_self count), Function.update_self]
  · rw [Function.update_of_ne last]
    unfold contents
    split
    · rfl
    · split
      · next inside => rw [if_pos ⟨inside.1, by omega⟩]
      · next outside => rw [if_neg (by omega)]

/-- Nothing of the payload is known yet. -/
theorem contents_zero_known {address : Nat} {value : Byte}
    (known : contents p data start 0 address = some value) :
    ∃ offset, offset < sizeofStructPbuf ∧ address = p + offset ∧ start.read address = value := by
  unfold contents at known
  split at known
  · next inside => exact ⟨address - p, by omega, by omega, Option.some.inj known⟩
  · rw [if_neg (by omega)] at known
    cases known

/-- The setting, with nothing demanded on the way. -/
def coherence (data : Nat → Byte) (size : Nat) : Contract Access State :=
  ⟨rxSetting data size, fun _ => True, fun _ _ => True, False⟩

/-- The engine does not own the descriptor. -/
structure Resting (holds : RxBd → Cached Nat Nat Byte → Prop) (state : State) : Prop where
  idle : state.stored = none
  holds : holds state.bd state.cached

/-- What the cache does of its own accord does not matter. -/
def Lasting (holds : RxBd → Cached Nat Nat Byte → Prop) : Prop :=
  ∀ bd before after, holds bd before → Cached.Drift lineOf before after → holds bd after

variable {size : Nat} {holds next : RxBd → Cached Nat Nat Byte → Prop}

theorem Lasting.stable (lasting : Lasting holds) (pending : Option (Pending Access)) :
    (coherence data size).Stable pending (Resting holds) := by
  intro before after resting step
  cases step with
  | drift cached drifts => exact ⟨resting.idle, lasting _ _ _ resting.holds drifts⟩
  | store count stored _ =>
      rw [resting.idle] at stored
      cases stored
  | complete flags stored _ _ =>
      rw [resting.idle] at stored
      cases stored

/-- An access while the engine rests. -/
theorem Lasting.leads (lasting : Lasting holds) (lastingNext : Lasting next)
    {request : Access Unit}
    (moves : ∀ state, Resting holds state → Resting next (State.perform request state).2) :
    (coherence data size).Leads (Resting holds) (Resting next) (.lift request) := by
  intro current resting
  apply Contract.Ensures.of_perform (lasting.stable _) resting (fun _ _ => trivial)
    fun _ _ _ => trivial
  intro before kept _
  exact .of_done (lastingNext.stable none) (moves before kept) (fun _ _ => trivial)
    fun _ held => held

/-- A load while the engine rests. -/
theorem Lasting.load (lasting : Lasting holds) {reply result : Type} {request : Access reply}
    {rest : reply → Routine result} {post : result → State → Prop} {current : State}
    (expected : reply) (resting : Resting holds current)
    (loads : ∀ state, Resting holds state → State.perform request state = (expected, state))
    (others : ∀ state, Resting holds state →
      (coherence data size).Ensures post (rest expected) state) :
    (coherence data size).Ensures post (.perform request rest) current := by
  apply Contract.Ensures.of_perform (lasting.stable _) resting (fun _ _ => trivial)
    fun _ _ _ => trivial
  intro before kept _
  have same : (coherence data size).perform request before = (expected, before) :=
    loads before kept
  rw [same]
  exact others before kept

/-- A load of which the value does not matter. -/
theorem Lasting.loadAny (lasting : Lasting holds) {reply result : Type} {request : Access reply}
    {rest : reply → Routine result} {after : State → Prop}
    (same : ∀ state, (State.perform request state).2 = state)
    (others : ∀ value, (coherence data size).Leads (Resting holds) after (rest value)) :
    (coherence data size).Leads (Resting holds) after (.perform request rest) := by
  intro current resting
  apply Contract.Ensures.of_perform (lasting.stable _) resting (fun _ _ => trivial)
    fun _ _ _ => trivial
  intro before kept _
  apply others
  exact (same before).symm ▸ kept

/-- The structure is as lwIP left it, and no line behind it is dirty. -/
structure Unclean (p : Nat) (data : Nat → Byte) (start : State)
    (cached : Cached Nat Nat Byte) : Prop where
  shows : Cached.Shows lineOf (PbufLine p) (contents p data start 0) cached
  clean : ∀ line, PbufLine p line → line ≠ lineOf p → ¬ cached.Dirty line

/-- The line of the structure is clean, too. -/
structure Cleaned (p : Nat) (data : Nat → Byte) (start : State)
    (cached : Cached Nat Nat Byte) : Prop where
  shows : Cached.Shows lineOf (PbufLine p) (contents p data start 0) cached
  clean : ∀ line, PbufLine p line → ¬ cached.Dirty line

theorem Unclean.lasting : Lasting fun _ => Unclean p data start :=
  fun _ _ _ unclean drift => ⟨unclean.shows.drift drift,
    fun line member other => drift.not_dirty (unclean.clean line member other)⟩

/-- What holds of the descriptor while the lines are clean. -/
theorem Cleaned.lasting (fields : RxBd → Prop) :
    Lasting fun bd cached => fields bd ∧ Cleaned p data start cached :=
  fun _ _ _ cleaned drift => ⟨cleaned.1, cleaned.2.shows.drift drift,
    fun line member => drift.not_dirty (cleaned.2.clean line member)⟩

/-- Nothing is known of the descriptor. -/
def AnyBd (_ : RxBd) : Prop := True

variable (p data start) in
/-- The lines are clean, with what is known of the descriptor. -/
abbrev Ready (fields : RxBd → Prop) : State → Prop :=
  Resting fun bd cached => fields bd ∧ Cleaned p data start cached

/-- The operation on the line of the structure. -/
theorem clean_leads : (coherence data size).Leads (Resting fun _ => Unclean p data start)
    (Ready p data start AnyBd) (issue .clean p) := by
  apply Unclean.lasting.leads (Cleaned.lasting AnyBd)
  intro state resting
  refine ⟨resting.idle, trivial, resting.holds.shows.writeBack, fun line member => ?_⟩
  by_cases first : line = lineOf p
  · rw [first]
    exact Cached.not_dirty_writeBack
  · exact Cached.not_dirty_writeBack_of (resting.holds.clean line member first)

/-- `CP15DCacheCleanBuff` on the structure cleans its line, twice. -/
theorem cleanBuff_struct (aligned : p % lineSize = 0) :
    cp15DCacheCleanBuff issue p sizeofStructPbuf =
      issue .clean p >>= fun _ => .iterate (cleanLoop issue p) p := by
  have first : alignDown p = p := by
    rw [alignDown, aligned, Nat.sub_zero]
  have partly : (p + sizeofStructPbuf) % lineSize = sizeofStructPbuf := by
    rw [Nat.add_mod, aligned]
    rfl
  have last : alignDown (p + sizeofStructPbuf) = p := by
    rw [alignDown, partly, Nat.add_sub_cancel]
  have unaligned : mcrne issue .clean (p + sizeofStructPbuf) = issue .clean p := by
    unfold mcrne
    rw [partly, last]
    rfl
  dsimp only [cp15DCacheCleanBuff]
  rw [first, last, unaligned]

/-- The loop ends after one round. -/
theorem cleanLoop_struct {result : Type} (rest : Unit → Routine result) :
    Program.unroll (cleanLoop issue p) p rest = issue .clean p >>= rest := by
  have last : ¬ p + lineSize < p := by
    unfold lineSize
    omega
  unfold Program.unroll cleanLoop
  rw [Program.bind_eq, Program.bind_assoc, if_neg last]
  rfl

/-- The line of the structure is cleaned. -/
theorem cleanBuff_leads (aligned : p % lineSize = 0) :
    (coherence data size).Leads (Resting fun _ => Unclean p data start)
      (Ready p data start AnyBd) (cp15DCacheCleanBuff issue p sizeofStructPbuf) := by
  have again : (coherence data size).Preserves (Ready p data start AnyBd) (issue .clean p) :=
    fun current resting => clean_leads current ⟨resting.idle, resting.holds.2.shows,
      fun line member _ => resting.holds.2.clean line member⟩
  rw [cleanBuff_struct aligned]
  apply Contract.Leads.bind clean_leads
  intro _ current resting
  apply Contract.Ensures.of_loop ((Cleaned.lasting AnyBd).stable none) resting
    fun _ _ => trivial
  intro before kept
  rw [cleanLoop_struct]
  apply (again before kept).bind
  intro _ after still
  exact .of_done ((Cleaned.lasting AnyBd).stable none) still (fun _ _ => trivial)
    fun _ held => held

/-- The descriptor is armed. -/
structure ArmedBd (p : Nat) (bd : RxBd) : Prop where
  bufptr : bd.bufptr = BitVec.ofNat 32 (p + sizeofStructPbuf)
  flags : bd.flagsPktlen = cpdmaBufDescOwner
  pbuf : bd.pbuf = p

/-- The word of the structure at an offset. -/
theorem Cleaned.word {offset : Nat} {state : State}
    (cleaned : Cleaned p data start state.cached) (inside : offset + 3 < sizeofStructPbuf) :
    state.word (p + offset) = start.word (p + offset) := by
  have same : ∀ offset, offset < sizeofStructPbuf →
      state.read (p + offset) = start.read (p + offset) := by
    intro offset inside
    apply cleaned.shows.reads _ _ ?_ (contents_struct inside)
    exact ⟨p + offset, by omega, by unfold pbufLenMax; omega, rfl⟩
  unfold State.word
  simp only [Nat.add_assoc, same _ inside, same (offset + 2) (by omega),
    same (offset + 1) (by omega), same offset (by omega)]

/-- A store to the descriptor. -/
theorem storeBd_leads {fields fieldsNext : RxBd → Prop} {change : RxBd → RxBd}
    (changes : ∀ bd, fields bd → fieldsNext (change bd)) : (coherence data size).Leads
      (Ready p data start fields) (Ready p data start fieldsNext) (.lift (.storeBd change)) :=
  (Cleaned.lasting fields).leads (Cleaned.lasting fieldsNext) fun _ resting =>
    ⟨resting.idle, changes _ resting.holds.1, resting.holds.2⟩

/-- The whole of the arming. -/
theorem armBd_leads (allocated : Allocated p start) :
    (coherence data size).Leads (Resting fun _ => Unclean p data start)
      (Ready p data start (ArmedBd p)) (armBd p) := by
  let payload := BitVec.ofNat 32 (p + sizeofStructPbuf)
  have loads : ∀ state, Ready p data start AnyBd state →
      State.perform (.loadWord (p + 4)) state = (payload, state) := by
    intro state still
    have known : state.word (p + 4) = start.word (p + 4) := still.holds.2.word (by decide)
    rw [allocated.payload] at known
    exact congrArg (·, state) known
  have bufptr : (coherence data size).Leads (Ready p data start AnyBd)
      (Ready p data start fun bd => bd.bufptr = payload)
      (.lift (.storeBd fun bd => { bd with bufptr := payload })) :=
    storeBd_leads fun _ _ => rfl
  have length : ∀ len : BitVec 16, (coherence data size).Preserves
      (Ready p data start fun bd => bd.bufptr = payload)
      (.lift (.storeBd fun bd => { bd with bufoffLen := len.setWidth 32 })) :=
    fun _ => storeBd_leads fun _ known => known
  have flags : (coherence data size).Leads (Ready p data start fun bd => bd.bufptr = payload)
      (Ready p data start fun bd => bd.bufptr = payload ∧ bd.flagsPktlen = cpdmaBufDescOwner)
      (.lift (.storeBd fun bd => { bd with flagsPktlen := cpdmaBufDescOwner })) :=
    storeBd_leads fun _ known => ⟨known, rfl⟩
  apply Contract.Leads.bind (cleanBuff_leads allocated.aligned)
  intro _ current resting
  apply (Cleaned.lasting AnyBd).load payload resting loads
  apply Contract.Leads.bind bufptr
  intro _
  apply (Cleaned.lasting fun bd => bd.bufptr = payload).loadAny fun _ => rfl
  intro len
  apply Contract.Leads.bind (length len)
  intro _
  apply Contract.Leads.bind flags
  intro _
  exact storeBd_leads fun _ known => ⟨known.1, known.2, rfl⟩

/-- The engine has stored so many bytes. -/
structure Filling (p : Nat) (data : Nat → Byte) (start : State) (count : Nat)
    (state : State) : Prop where
  stored : state.stored = some count
  armed : ArmedBd p state.bd
  settled : Cached.Settled lineOf (PbufLine p) (contents p data start count) state.cached

/-- The frame is there. -/
structure Filled (p : Nat) (data : Nat → Byte) (start : State) (size : Nat) (bd : RxBd)
    (cached : Cached Nat Nat Byte) : Prop where
  pbuf : bd.pbuf = p
  flags : bd.flagsPktlen &&& cpdmaBdPktlenMask = BitVec.ofNat 32 size
  settled : Cached.Settled lineOf (PbufLine p) (contents p data start size) cached

theorem Filled.lasting : Lasting (Filled p data start size) :=
  fun _ _ _ filled drift => ⟨filled.pbuf, filled.flags, filled.settled.drift drift⟩

/-- The engine fills the pbuf, or it has done so. -/
def Coming (p : Nat) (data : Nat → Byte) (start : State) (size : Nat) (state : State) : Prop :=
  (∃ count, Filling p data start count state) ∨ Resting (Filled p data start size) state

theorem Coming.stable (fits : p + pbufLenMax + sizeofStructPbuf ≤ 2 ^ 32)
    (pending : Option (Pending Access)) :
    (coherence data size).Stable pending (Coming p data start size) := by
  intro before after coming step
  rcases coming with ⟨count, filling⟩ | resting
  · cases step with
    | drift cached drifts =>
        exact .inl ⟨count, filling.stored, filling.armed, filling.settled.drift drifts⟩
    | store other stored short =>
        cases Option.some.inj (filling.stored.symm.trans stored)
        have bufptr : before.bd.bufptr.toNat = p + sizeofStructPbuf := by
          have below : p + sizeofStructPbuf < 2 ^ 32 := by
            unfold pbufLenMax at fits
            omega
          rw [filling.armed.bufptr]
          exact Nat.mod_eq_of_lt below
        have settled : Cached.Settled lineOf (PbufLine p) (contents p data start (count + 1))
            (before.cached.deposit (p + sizeofStructPbuf + count) (data count)) :=
          contents_succ ▸ filling.settled.deposit
        rw [← bufptr] at settled
        exact .inl ⟨count + 1, rfl, filling.armed, settled⟩
    | complete flags stored _ length =>
        cases Option.some.inj (filling.stored.symm.trans stored)
        exact .inr ⟨rfl, filling.armed.pbuf, length, filling.settled⟩
  · exact .inr (Filled.lasting.stable pending before after resting step)

theorem publish_leads (fits : p + pbufLenMax + sizeofStructPbuf ≤ 2 ^ 32) :
    (coherence data size).Leads (Ready p data start (ArmedBd p)) (Coming p data start size)
      (.lift .publish) := by
  intro current ready
  apply Contract.Ensures.of_perform ((Cleaned.lasting (ArmedBd p)).stable _) ready
    (fun _ _ => trivial) fun _ _ _ => trivial
  intro before kept _
  have filling : Filling p data start 0 (State.perform .publish before).2 :=
    ⟨rfl, kept.holds.1, kept.holds.2.shows.settled kept.holds.2.clean⟩
  exact .of_done (Coming.stable fits none) (.inl ⟨0, filling⟩) (fun _ _ => trivial)
    fun _ held => held

/-- The pbuf is invalidated up to some lines. -/
structure Flushed (p : Nat) (data : Nat → Byte) (start : State) (size : Nat)
    (finished : Nat → Prop) (cached : Cached Nat Nat Byte) : Prop where
  settled : Cached.Settled lineOf (PbufLine p) (contents p data start size) cached
  gone : ∀ line, finished line → PbufLine p line → cached.copies line = none

theorem Flushed.lasting {finished : Nat → Prop} :
    Lasting fun _ => Flushed p data start size finished :=
  fun _ _ _ flushed drift => ⟨flushed.settled.drift drift,
    fun line member inside => drift.absent (flushed.gone line member inside)⟩

theorem flushed_maintains : Maintains (coherence data size) issue (PbufLine p)
    fun finished => Resting fun _ => Flushed p data start size finished where
  stable _ := Flushed.lasting.stable none
  safe _ _ _ := trivial
  issues operation line finished current _ invalidates resting := by
    apply Flushed.lasting.leads Flushed.lasting ?_ current resting
    intro state still
    refine ⟨still.idle, still.holds.settled.maintain, fun other member inside => ?_⟩
    change (state.cached.maintain lineOf operation (lineOf (line * lineSize))).copies other = none
    rw [lineOf_mul]
    rcases member with same | member
    · rw [same]
      exact Cached.copies_maintain invalidates
    · exact Cached.copies_maintain_of_absent (still.holds.gone other member inside)

/-- The bytes that a store of a halfword makes known. -/
def updateHalf (known : Nat → Option Byte) (address : Nat) (value : BitVec 16) :
    Nat → Option Byte :=
  Function.update (Function.update known address (some (value.setWidth 8))) (address + 1)
    (some ((value >>> 8).setWidth 8))

theorem updateHalf_low {known : Nat → Option Byte} {address : Nat} {value : BitVec 16} :
    updateHalf known address value address = some (value.setWidth 8) := by
  unfold updateHalf
  rw [Function.update_of_ne (by omega), Function.update_self]

theorem updateHalf_high {known : Nat → Option Byte} {address : Nat} {value : BitVec 16} :
    updateHalf known address value (address + 1) = some ((value >>> 8).setWidth 8) :=
  Function.update_self ..

theorem updateHalf_of_ne {known : Nat → Option Byte} {address other : Nat} {value : BitVec 16}
    (apart : other < address ∨ address + 2 ≤ other) :
    updateHalf known address value other = known other := by
  unfold updateHalf
  rw [Function.update_of_ne (by omega), Function.update_of_ne (by omega)]

/-- The processor reads what is known. -/
abbrev Showing (p : Nat) (known : Nat → Option Byte) : State → Prop :=
  Resting fun _ => Cached.Shows lineOf (PbufLine p) known

theorem showing_lasting {known : Nat → Option Byte} :
    Lasting fun _ => Cached.Shows lineOf (PbufLine p) known :=
  fun _ _ _ shows drift => shows.drift drift

theorem storeHalf_leads {known : Nat → Option Byte} {address : Nat} {value : BitVec 16} :
    (coherence data size).Leads (Showing p known) (Showing p (updateHalf known address value))
      (.lift (.storeHalf address value)) :=
  showing_lasting.leads showing_lasting fun _ showing =>
    ⟨showing.idle, showing.holds.store.store⟩

/-- What is known in the end. -/
def contentsReceived (p : Nat) (data : Nat → Byte) (start : State) (size : Nat) :
    Nat → Option Byte :=
  updateHalf (updateHalf (contents p data start size) (p + 10) (BitVec.ofNat 16 size)) (p + 8)
    (BitVec.ofNat 16 size)

/-- A halfword is put together from its bytes. -/
theorem append_bytes (value : BitVec 16) :
    ((value >>> 8).setWidth 8 ++ value.setWidth 8 : BitVec 16) = value := by
  ext index below
  rw [BitVec.getElem_append]
  split
  · rw [BitVec.getElem_setWidth, BitVec.getLsbD_eq_getElem]
  · rw [BitVec.getElem_setWidth, BitVec.getLsbD_ushiftRight, Nat.add_sub_cancel' (by omega),
      BitVec.getLsbD_eq_getElem]

/-- A halfword of which the bytes are known. -/
theorem half_of_reads {state : State} {address : Nat} {value : BitVec 16}
    (low : state.read address = value.setWidth 8)
    (high : state.read (address + 1) = (value >>> 8).setWidth 8) : state.half address = value := by
  unfold State.half
  rw [low, high, append_bytes]

theorem received_of_showing {state : State} (fits : size ≤ pbufLenMax)
    (showing : Showing p (contentsReceived p data start size) state) :
    Received p data size start state := by
  have reads : ∀ offset value, offset < pbufLenMax + sizeofStructPbuf →
      contentsReceived p data start size (p + offset) = some value →
      state.read (p + offset) = value :=
    fun offset value inside known => showing.holds.reads _ _
      ⟨p + offset, Nat.le_add_right _ _, Nat.add_lt_add_left inside p, rfl⟩ known
  have apart : ∀ offset, offset < 8 ∨ 12 ≤ offset →
      contentsReceived p data start size (p + offset) = contents p data start size (p + offset) := by
    intro offset outside
    unfold contentsReceived
    rw [updateHalf_of_ne (by omega), updateHalf_of_ne (by omega)]
  constructor
  · intro offset outside inside
    apply reads offset _ (Nat.lt_of_lt_of_le inside (Nat.le_add_left _ _))
    rw [apart offset outside, contents_struct inside]
  · apply half_of_reads
    · exact reads 8 _ (by decide) updateHalf_low
    · exact reads 9 _ (by decide) updateHalf_high
  · have inner : ∀ offset, 10 ≤ offset → contentsReceived p data start size (p + offset) =
        updateHalf (contents p data start size) (p + 10) (BitVec.ofNat 16 size) (p + offset) :=
      fun offset beyond => updateHalf_of_ne (by omega)
    apply half_of_reads
    · exact reads 10 _ (by decide) ((inner 10 (by decide)).trans updateHalf_low)
    · exact reads 11 _ (by decide) ((inner 11 (by decide)).trans updateHalf_high)
  · intro offset inside
    have within : sizeofStructPbuf + offset < pbufLenMax + sizeofStructPbuf := by omega
    have known : contents p data start size (p + sizeofStructPbuf + offset) = some (data offset) :=
      contents_payload inside
    rw [Nat.add_assoc] at known ⊢
    apply reads _ _ within
    rw [apart _ (.inr (by unfold sizeofStructPbuf; omega)), known]

/-- The end of the routine, once the frame is there. -/
theorem deliver_received (small : size ≤ pbufLenMax) {current : State}
    (filled : Resting (Filled p data start size) current) :
    (coherence data size).Ensures (fun value after => ∀ pbuf, value = some pbuf →
      pbuf = p ∧ Received p data size start after) (do
        cp15DCacheFlushBuff issue p (pbufLenMax + sizeofStructPbuf)
        .lift (.storeHalf (p + 10) (BitVec.ofNat 16 size))
        .lift (.storeHalf (p + 8) (BitVec.ofNat 16 size))
        .lift (.storeBd fun bd => { bd with flagsPktlen := cpdmaBufDescOwner })
        .done (some p)) current := by
  have none : Resting (fun _ => Flushed p data start size fun _ => False) current :=
    ⟨filled.idle, filled.holds.settled, fun _ none => none.elim⟩
  have positive : 0 < pbufLenMax + sizeofStructPbuf := by decide
  apply (flushed_maintains.flushBuff positive none).bind
  rintro _ flushed ⟨all, covers, resting⟩
  have gone : ∀ line, PbufLine p line → flushed.cached.copies line = Option.none :=
    fun line inside => resting.holds.gone line (covers line (.inr inside)) inside
  have showing : Showing p (contents p data start size) flushed :=
    ⟨resting.idle, resting.holds.settled.shows gone⟩
  apply (storeHalf_leads flushed showing).bind
  intro _ second showsLen
  apply (storeHalf_leads second showsLen).bind
  intro _ third showsTotLen
  have given : (coherence data size).Preserves (Showing p (contentsReceived p data start size))
      (.lift (.storeBd fun bd => { bd with flagsPktlen := cpdmaBufDescOwner })) :=
    showing_lasting.leads showing_lasting fun _ shows => ⟨shows.idle, shows.holds⟩
  apply (given third showsTotLen).bind
  intro _ last shows
  apply Contract.Ensures.of_done (showing_lasting.stable Option.none) shows fun _ _ => trivial
  rintro after still _ ⟨⟩
  exact ⟨rfl, received_of_showing small still⟩

/-- What `eth0_rx_isr` does with the descriptor. -/
theorem receiveBd_received (fits : p + pbufLenMax + sizeofStructPbuf ≤ 2 ^ 32)
    (small : size ≤ pbufLenMax) {current : State} (coming : Coming p data start size current) :
    (coherence data size).Ensures (fun value after => ∀ pbuf, value = some pbuf →
      pbuf = p ∧ Received p data size start after) receiveBd current := by
  apply Contract.Ensures.of_perform (Coming.stable fits _) coming (fun _ _ => trivial)
    fun _ _ _ => trivial
  intro before still _
  change (coherence data size).Ensures _
    (if before.bd.flagsPktlen &&& cpdmaBufDescOwner = cpdmaBufDescOwner then _ else _) before
  by_cases owned : before.bd.flagsPktlen &&& cpdmaBufDescOwner = cpdmaBufDescOwner
  · rw [if_pos owned]
    exact .of_done (Coming.stable fits none) still (fun _ _ => trivial) nofun
  · rw [if_neg owned]
    rcases still with ⟨count, filling⟩ | filled
    · rw [filling.armed.flags] at owned
      exact absurd (by decide) owned
    · apply Contract.Ensures.of_perform (Filled.lasting.stable _) filled (fun _ _ => trivial)
        fun _ _ _ => trivial
      intro again kept _
      have length : (again.bd.flagsPktlen &&& cpdmaBdPktlenMask).setWidth 16 =
          BitVec.ofNat 16 size := by
        rw [kept.holds.flags]
        exact BitVec.setWidth_ofNat_of_le (by decide) size
      have pbuf : ∀ state, Resting (Filled p data start size) state →
          State.perform (.loadBd (·.pbuf)) state = (p, state) :=
        fun state rests => congrArg (·, state) rests.holds.pbuf
      apply Filled.lasting.load p kept pbuf
      intro state rests
      change (coherence data size).Ensures _ (cp15DCacheFlushBuff issue p _ >>= fun _ => do
        .lift (.storeHalf (p + 10) ((again.bd.flagsPktlen &&& cpdmaBdPktlenMask).setWidth 16))
        .lift (.storeHalf (p + 8) ((again.bd.flagsPktlen &&& cpdmaBdPktlenMask).setWidth 16))
        .lift (.storeBd fun bd => { bd with flagsPktlen := cpdmaBufDescOwner })
        .done (some p)) state
      rw [length]
      exact deliver_received small rests

/-- Where no line behind the structure is dirty, `ethernet_input` reads what was stored in
the structure and what the engine stored. -/
theorem receive_received (allocated : Allocated p start)
    (clean : ∀ line, PbufLine p line → line ≠ lineOf p → ¬ start.cached.Dirty line)
    (small : size ≤ pbufLenMax) :
    (coherence data size).Ensures (fun value after => ∀ pbuf, value = some pbuf →
      pbuf = p ∧ Received p data size start after) (receive p) start := by
  have shows : Cached.Shows lineOf (PbufLine p) (contents p data start 0) start.cached := by
    constructor
    · exact fun line _ => allocated.agree line
    · intro address value _ known
      rcases contents_zero_known known with ⟨_, _, _, same⟩
      exact same
  apply (armBd_leads allocated start ⟨allocated.idle, shows, clean⟩).bind
  intro _ armed ready
  apply (publish_leads allocated.fits armed ready).bind
  intro _ _ coming
  exact receiveBd_received allocated.fits small coming

end Clean

end BbbEth.Cpsw.Coherent
