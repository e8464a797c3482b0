import BbbEth.MainLoop.Loop

/-!
# Keystrokes

A byte from the serial line is passed to the loop in one variable.  The loop collects every byte,
in order, if none arrives before the one before it was collected.
-/

namespace BbbEth.MainLoop

open BbbEth.Interference

/-- The bytes to collect: the receiver never passes on a zero. -/
def strokes (received : List Byte) : List Byte := received.filter (· ≠ 0)

/-- The locations from the test of the counter to the end of the loop. -/
inductive Location.Handles : Location → Prop where
  | loadUartCount : Handles .loadUartCount
  | storeUartCount {loaded : Word} : Handles (.storeUartCount loaded)
  | saveUartCount : Handles .saveUartCount
  | testChar : Handles .testChar
  | collect : Handles .collect
  | collecting : Handles .collecting
  | clearChar : Handles .clearChar

/-- The byte in `uart0_rbuf` has been collected. -/
def State.Taken (state : State) : Prop :=
  state.location = .collecting ∨ state.location = .clearChar

instance (state : State) : Decidable state.Taken :=
  inferInstanceAs (Decidable (_ ∨ _))

/-- The byte that is still to be collected. -/
def State.pending (state : State) : List Byte :=
  if state.uart0Rbuf = 0 ∨ state.Taken then [] else [state.uart0Rbuf.setWidth 8]

/-- Between two steps of the loop, every byte was collected or is still to be. -/
structure Mailbox (state : State) : Prop where
  delivered : state.collected ++ state.pending = strokes state.received
  noticed : state.uart0Rbuf ≠ 0 → ¬ state.location.Handles →
    state.uart0IrqCount ≠ state.uart0IrqOld
  holding : state.location = .collect ∨ state.Taken → state.uart0Rbuf ≠ 0

/-- A byte may arrive: the one before it was collected, and is no longer in `uart0_rbuf`. -/
def Spaced (state : State) : Prop :=
  state.uart0Rbuf = 0 ∧ state.uart0IrqCount + 1 ≠ state.uart0IrqOld

/-- Runs with any replies and datagrams, and bytes where they are allowed. -/
def keystrokes (allowed : State → Prop) : Machine.Setting State Reply Interrupt where
  replies _ _ := True
  interrupts
    | .udp _, _ => True
    | .uart _, state => allowed state

/-- The bytes are collected in order, and all of them once the loop goes on without
interrupts. -/
structure Collects (state : State) : Prop where
  inOrder : state.collected <+: strokes state.received
  whole : ∀ replies, ∃ count,
    (loop.alone replies state count).collected = strokes state.received

/-! ## Steps -/

section Steps

variable {state : State}

/-- Before the counter is tested, nothing of the mailbox changes. -/
theorem advance_outside (reply : Reply) (outside : ¬ state.location.Handles)
    (before : state.location ≠ .testUart) :
    ¬ (advance reply state).location.Handles ∧
      (advance reply state).uart0Rbuf = state.uart0Rbuf ∧
      (advance reply state).uart0IrqCount = state.uart0IrqCount ∧
      (advance reply state).uart0IrqOld = state.uart0IrqOld ∧
      (advance reply state).collected = state.collected := by
  unfold advance
  cases at_ : state.location with
  | testUart => exact absurd at_ before
  | loadUartCount | storeUartCount | saveUartCount | testChar | collect | collecting | clearChar =>
      rw [at_] at outside
      exact absurd (by constructor) outside
  | testUdp | testLog =>
      dsimp only [State.goto]
      split
      all_goals exact ⟨nofun, rfl, rfl, rfl, rfl⟩
  | _ => exact ⟨nofun, rfl, rfl, rfl, rfl⟩

theorem advance_received (reply : Reply) : (advance reply state).received = state.received := by
  unfold advance
  cases state.location with
  | _ => rfl

theorem not_taken (outside : ¬ state.location.Handles) : ¬ state.Taken := by
  rintro (at_ | at_)
  · exact outside (at_ ▸ .collecting)
  · exact outside (at_ ▸ .clearChar)

theorem pending_outside (outside : ¬ state.Taken) :
    state.pending = if state.uart0Rbuf = 0 then [] else [state.uart0Rbuf.setWidth 8] := by
  unfold State.pending
  simp only [outside, or_false]

theorem pending_taken (taken : state.Taken) : state.pending = [] :=
  if_pos (.inr taken)

theorem Mailbox.advance (mailbox : Mailbox state) (reply : Reply) :
    Mailbox (advance reply state) := by
  have received : (MainLoop.advance reply state).received = state.received :=
    advance_received reply
  by_cases handles : state.location.Handles
  · -- The byte is taken out of the mailbox: one location after the other.
    have delivered := mailbox.delivered
    have holding := mailbox.holding
    unfold MainLoop.advance at received ⊢
    cases at_ : state.location with
    | loadUartCount | storeUartCount | saveUartCount =>
        have outside : ¬ state.Taken := by simp [State.Taken, at_]
        rw [pending_outside outside] at delivered
        refine ⟨?_, fun _ other => absurd (by constructor) other, ?_⟩
        · rw [pending_outside (by simp [State.Taken, State.goto])]
          exact delivered
        · simp [State.Taken, State.goto]
    | testChar =>
        have outside : ¬ state.Taken := by simp [State.Taken, at_]
        rw [pending_outside outside] at delivered
        by_cases more : 0 < state.uart0Rbuf.toNat
        · have other : state.uart0Rbuf ≠ 0 := by
            rintro same
            rw [same] at more
            exact absurd more (by decide)
          dsimp only
          rw [if_pos more]
          refine ⟨?_, fun _ other => absurd .collect other, fun _ => other⟩
          rw [pending_outside (by simp [State.Taken, State.goto])]
          exact delivered
        · have empty : state.uart0Rbuf = 0 := by
            apply BitVec.eq_of_toNat_eq
            exact Nat.eq_zero_of_not_pos more
          dsimp only
          rw [if_neg more]
          refine ⟨?_, fun other => absurd empty other, ?_⟩
          · rw [pending_outside (by simp [State.Taken, State.goto])]
            exact delivered
          · simp [State.Taken, State.goto]
    | collect =>
        have outside : ¬ state.Taken := by simp [State.Taken, at_]
        have other := holding (.inl at_)
        rw [pending_outside outside, if_neg other] at delivered
        refine ⟨?_, fun _ outside => absurd .collecting outside, fun _ => other⟩
        rw [pending_taken (.inl rfl), List.append_nil]
        exact delivered
    | collecting =>
        have other := holding (.inr (.inl at_))
        rw [pending_taken (.inl at_)] at delivered
        refine ⟨?_, fun _ outside => absurd .clearChar outside, fun _ => other⟩
        rw [pending_taken (.inr rfl)]
        exact delivered
    | clearChar =>
        rw [pending_taken (.inr at_)] at delivered
        refine ⟨?_, fun other => absurd rfl other, ?_⟩
        · have empty : State.pending { state with uart0Rbuf := 0, location := .others } = [] :=
            if_pos (.inl rfl)
          dsimp only
          rw [empty]
          exact delivered
        · simp [State.Taken]
    | _ =>
        rw [at_] at handles
        cases handles
  · have outside := not_taken handles
    by_cases test : state.location = .testUart
    · -- The counter is tested: if it is as before, the mailbox is empty.
      have delivered := mailbox.delivered
      rw [pending_outside outside] at delivered
      unfold MainLoop.advance
      rw [test]
      dsimp only
      by_cases differ : state.uart0IrqOld ≠ state.uart0IrqCount
      · rw [if_pos differ]
        refine ⟨?_, fun _ other => absurd .loadUartCount other, ?_⟩
        · rw [pending_outside (by simp [State.Taken, State.goto])]
          exact delivered
        · simp [State.Taken, State.goto]
      · rw [if_neg differ]
        refine ⟨?_, fun other _ => mailbox.noticed other handles, ?_⟩
        · rw [pending_outside (by simp [State.Taken, State.goto])]
          exact delivered
        · simp [State.Taken, State.goto]
    · rcases advance_outside reply handles test with ⟨later, rbuf, count, old, collected⟩
      have outside' := not_taken later
      refine ⟨?_, ?_, ?_⟩
      · rw [pending_outside outside', rbuf, collected, received, ← pending_outside outside]
        exact mailbox.delivered
      · intro other _
        rw [count, old]
        rw [rbuf] at other
        exact mailbox.noticed other handles
      · rintro (collects | taken)
        · exact absurd (collects ▸ .collect) later
        · exact absurd taken outside'

/-- A byte that arrives. -/
theorem Mailbox.receive (mailbox : Mailbox state) (spaced : Spaced state) (byte : Byte) :
    Mailbox (serve (.uart byte) state) := by
  rcases spaced with ⟨empty, fresh⟩
  have outside : ¬ state.Taken := fun taken => mailbox.holding (.inr taken) empty
  have delivered := mailbox.delivered
  rw [State.pending, if_pos (.inl empty), List.append_nil] at delivered
  have stored : (serve (.uart byte) state).uart0Rbuf = byte.setWidth 32 := rfl
  refine ⟨?_, fun _ _ => fresh, ?_⟩
  · have pending : (serve (.uart byte) state).pending = strokes [byte] := by
      have outside' : ¬ (serve (.uart byte) state).Taken := outside
      have zero : (byte.setWidth 32 = 0) ↔ byte = 0 := by bv_omega
      rw [pending_outside outside', stored, strokes]
      by_cases nothing : byte = 0
      · rw [if_pos (zero.mpr nothing), nothing]
        rfl
      · have same : (byte.setWidth 32).setWidth 8 = byte := by bv_omega
        rw [if_neg (mt zero.mp nothing), same]
        have kept : decide (byte ≠ 0) = true := decide_eq_true nothing
        rw [List.filter_cons, if_pos kept]
        rfl
    change state.collected ++ State.pending _ = strokes (state.received ++ [byte])
    rw [pending, delivered]
    exact (List.filter_append ..).symm
  · rintro (collects | taken)
    · exact absurd empty (mailbox.holding (.inl collects))
    · exact absurd taken outside

/-- A datagram is not noticed. -/
theorem Mailbox.arrive (mailbox : Mailbox state) (datagram : Datagram) :
    Mailbox (serve (.udp datagram) state) :=
  ⟨mailbox.delivered, mailbox.noticed, mailbox.holding⟩

theorem Initial.mailbox (initial : Initial state) : Mailbox state := by
  refine ⟨?_, fun other => absurd initial.rbuf other, ?_⟩
  · rw [initial.collected, initial.received, State.pending, if_pos (.inl initial.rbuf)]
    rfl
  · simp [State.Taken, initial.location]

end Steps

/-! ## Runs -/

section Runs

variable {state : State}

theorem run_mailbox (run : loop.Run (keystrokes Spaced) state) : Mailbox state := by
  apply run.invariant
  · exact fun _ initial => initial.mailbox
  · exact fun reply _ mailbox _ => mailbox.advance reply
  · intro interrupt before mailbox allowed
    cases interrupt with
    | udp datagram => exact mailbox.arrive datagram
    | uart byte => exact mailbox.receive allowed byte

theorem alone_received (replies : Nat → Reply) (count : Nat) :
    (loop.alone replies state count).received = state.received := by
  induction count with
  | zero => rfl
  | succ count inductionHypothesis =>
      exact (advance_received (replies count)).trans inductionHypothesis

theorem Mailbox.alone (mailbox : Mailbox state) (replies : Nat → Reply) (count : Nat) :
    Mailbox (loop.alone replies state count) := by
  induction count with
  | zero => exact mailbox
  | succ count inductionHypothesis => exact inductionHypothesis.advance (replies count)

theorem Mailbox.caughtUp (mailbox : Mailbox state) (caughtUp : CaughtUp state) :
    state.collected = strokes state.received := by
  have outside : ¬ state.location.Handles := by
    rw [caughtUp.location]
    exact nofun
  have empty : state.uart0Rbuf = 0 := by
    by_contra other
    exact mailbox.noticed other outside caughtUp.uart
  have delivered := mailbox.delivered
  rwa [State.pending, if_pos (.inl empty), List.append_nil] at delivered

/-- In every run in which no byte arrives while the one before it is still in `uart0_rbuf`, the
bytes are collected in order, each of them once. -/
theorem run_collects (run : loop.Run (keystrokes Spaced) state) : Collects state := by
  have mailbox := run_mailbox run
  constructor
  · rw [← mailbox.delivered]
    exact List.prefix_append _ _
  · intro replies
    rcases catches_up replies state with ⟨count, caughtUp⟩
    refine ⟨count, ?_⟩
    rw [(mailbox.alone replies count).caughtUp caughtUp, alone_received]

end Runs

theorem started_spaced : Spaced started := ⟨rfl, by decide⟩

/-- A byte arrives first. -/
theorem byte_run {allowed : State → Prop} (allows : allowed started) (byte : Byte) :
    loop.Run (keystrokes allowed) (loop.serve (.uart byte) started) :=
  .interrupt (.initial started_initial) allows

/-- Replies of calls that do not fail. -/
def fine (_ : Nat) : Reply := ⟨false, 0, false, true⟩

/-- A second byte, when the loop has collected the first one. -/
def spelled : State :=
  loop.serve (.uart 0x62) (loop.alone fine (loop.serve (.uart 0x61) started) 10)

/-- Both bytes are collected, the first one already. -/
theorem spelled_collects : Collects spelled ∧ spelled.collected = [0x61] := by
  have first : loop.Run (keystrokes Spaced) (loop.serve (.uart 0x61) started) :=
    byte_run started_spaced 0x61
  have collected : loop.Run (keystrokes Spaced)
      (loop.alone fine (loop.serve (.uart 0x61) started) 10) := first.alone fun _ _ => trivial
  exact ⟨run_collects (.interrupt collected ⟨rfl, by decide⟩), by decide⟩

/-- Of two bytes that arrive at once, the first one is lost. -/
theorem not_run_collects : ¬ ∀ state, loop.Run (keystrokes fun _ => True) state →
    Collects state := by
  intro holds
  have first : loop.Run (keystrokes fun _ => True) (loop.serve (.uart 0x61) started) :=
    byte_run trivial 0x61
  have second : loop.Run (keystrokes fun _ => True)
      (loop.serve (.uart 0x62) (loop.serve (.uart 0x61) started)) := .interrupt first trivial
  have run : loop.Run (keystrokes fun _ => True)
      (loop.alone fine (loop.serve (.uart 0x62) (loop.serve (.uart 0x61) started)) 8) :=
    second.alone fun _ _ => trivial
  have inOrder := (holds _ run).inOrder
  rw [alone_received] at inOrder
  exact absurd inOrder (by decide)

end BbbEth.MainLoop
