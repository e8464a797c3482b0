import BbbEth.MainLoop.Loop
import Mathlib.Data.List.GetD

/-!
# The log of datagrams

A datagram is passed to the loop in one buffer.  The loop prints and logs every datagram, in
order, if none arrives before the one before it was written.
-/

namespace BbbEth.MainLoop

open BbbEth.Interference

/-- What the log holds of datagrams. -/
def lines (arrived : List Datagram) : List Byte :=
  arrived.flatMap fun datagram => datagram.payload ++ [newline]

/-- What is printed of a datagram: the string in it, and its length. -/
def packet (datagram : Datagram) : List Byte × Half :=
  (datagram.payload.takeWhile (· ≠ 0), BitVec.ofNat 16 datagram.payload.length)

/-- The datagrams that were printed. -/
def packets (printed : List Message) : List (List Byte × Half) :=
  printed.filterMap fun
    | .packet _ contents pktLen => some (contents, pktLen)
    | .writeError | .syncError => none

/-- The locations from the test of the counter to the last use of the buffer. -/
inductive Location.Processes : Location → Prop where
  | loadUdpCount : Processes .loadUdpCount
  | storeUdpCount {loaded : Word} : Processes (.storeUdpCount loaded)
  | saveUdpCount : Processes .saveUdpCount
  | printPacket : Processes .printPacket
  | testLog : Processes .testLog
  | storeNewline : Processes .storeNewline
  | write : Processes .write
  | testWrite {failed : Bool} {bw : Half} : Processes (.testWrite failed bw)

/-- A datagram may arrive: the one before it was noticed, and was written. -/
def Between (state : State) : Prop :=
  state.udpRxCount = state.udpRxOld ∧ ¬ state.location.Processes

/-- The log stays open, and `f_write` writes everything. -/
def FullReply (reply : Reply) (state : State) : Prop :=
  reply.udplogflag = true ∧
    (state.location = .write → reply.writeFails = false ∧ reply.bw = state.pktLen + 1)

/-- The loop, from where a log is opened. -/
def logging : Machine State Reply Interrupt :=
  { loop with initial := fun state => Initial state ∧ state.udplogflag = true }

/-- Runs in which `f_write` writes everything, with any bytes, and datagrams where they are
allowed. -/
def datagrams (allowed : State → Prop) : Machine.Setting State Reply Interrupt where
  replies := FullReply
  interrupts
    | .udp _, state => allowed state
    | .uart _, _ => True

/-- The datagrams are printed and logged in order, and all of them once the loop goes on without
interrupts. -/
structure Logs (state : State) : Prop where
  printed : packets state.printed <+: state.arrived.map packet
  log : state.log <+: lines state.arrived
  whole : ∀ replies, (∀ count, FullReply (replies count) (loop.alone replies state count)) →
    ∃ count, packets (loop.alone replies state count).printed = state.arrived.map packet ∧
      (loop.alone replies state count).log = lines state.arrived

/-! ## The buffer -/

section Buffer

variable {state : State} {datagram : Datagram}

/-- The buffer holds a datagram and a character behind it. -/
structure Holds (datagram : Datagram) (last : Byte) (state : State) : Prop where
  bytes : (List.range datagram.payload.length).map state.udpBuf = datagram.payload
  last : state.udpBuf datagram.payload.length = last
  pktLen : state.pktLen = BitVec.ofNat 16 datagram.payload.length

theorem toNat_pktLen (datagram : Datagram) :
    (BitVec.ofNat 16 datagram.payload.length).toNat = datagram.payload.length := by
  have fits := datagram.fits
  rw [BitVec.toNat_ofNat]
  exact Nat.mod_eq_of_lt (by omega)

theorem Holds.toNat_pktLen {last : Byte} (holds : Holds datagram last state) :
    state.pktLen.toNat = datagram.payload.length := by
  rw [holds.pktLen, MainLoop.toNat_pktLen]

/-- The bytes of the buffer up to the character behind the datagram. -/
theorem Holds.range_succ {last : Byte} (holds : Holds datagram last state) :
    (List.range (datagram.payload.length + 1)).map state.udpBuf = datagram.payload ++ [last] := by
  rw [List.range_succ, List.map_append, holds.bytes, List.map_singleton, holds.last]

/-- The string in the buffer is the string in the datagram. -/
theorem Holds.contents (holds : Holds datagram 0 state) :
    state.contents = datagram.payload.takeWhile (· ≠ 0) := by
  have fits := datagram.fits
  have split : (List.range dataBufSize).map state.udpBuf = datagram.payload ++ 0 ::
      ((List.range (dataBufSize - (datagram.payload.length + 1))).map fun index =>
        state.udpBuf (datagram.payload.length + 1 + index)) := by
    have size : dataBufSize = datagram.payload.length + 1 +
        (dataBufSize - (datagram.payload.length + 1)) := by
      have size : dataBufSize = 65536 := rfl
      omega
    rw [size, List.range_add, List.map_append, holds.range_succ, List.append_assoc,
      List.map_map, Nat.add_sub_cancel_left]
    rfl
  unfold State.contents
  rw [split, List.takeWhile_append]
  split
  · next whole =>
      rw [List.takeWhile_cons_of_neg (by decide), List.append_nil]
      exact (List.takeWhile_prefix _).eq_of_length whole |>.symm
  · rfl

/-- A datagram that arrives is in the buffer. -/
theorem holds_arrived (datagram : Datagram) (state : State) :
    Holds datagram 0 (udpIncoming datagram state) := by
  refine ⟨?_, ?_, rfl⟩
  · apply List.ext_getElem
    · rw [List.length_map, List.length_range]
    · intro index inside inside'
      rw [List.getElem_map, List.getElem_range]
      change copyPayload datagram.payload state.udpBuf index = _
      rw [copyPayload, if_pos inside', List.getD_eq_getElem _ _ inside']
  · change copyPayload datagram.payload state.udpBuf datagram.payload.length = 0
    rw [copyPayload, if_neg (lt_irrefl _), if_pos rfl]

/-- The newline behind the datagram. -/
theorem Holds.endLine {last : Byte} (holds : Holds datagram last state) :
    Holds datagram newline state.endLine := by
  refine ⟨?_, ?_, holds.pktLen⟩
  · apply Eq.trans (List.map_congr_left _) holds.bytes
    intro index member
    have inside := List.mem_range.mp member
    change Function.update state.udpBuf state.pktLen.toNat newline index = _
    rw [holds.toNat_pktLen, Function.update_of_ne inside.ne]
  · change Function.update state.udpBuf state.pktLen.toNat newline _ = _
    rw [holds.toNat_pktLen, Function.update_self]

/-- What a full write adds to the log. -/
theorem Holds.writeLog (holds : Holds datagram newline state) :
    (state.writeLog (state.pktLen + 1)).log = state.log ++ (datagram.payload ++ [newline]) := by
  have fits := datagram.fits
  have count : (state.pktLen + 1).toNat = datagram.payload.length + 1 := by
    have length := holds.toNat_pktLen
    bv_omega
  change state.log ++ (List.range (state.pktLen + 1).toNat).map state.udpBuf = _
  rw [count, holds.range_succ]

end Buffer

/-! ## Steps -/

/-- All datagrams but the last one, or all of them, were printed and logged. -/
structure Done (printed logged : List Datagram) (state : State) : Prop where
  printed : packets state.printed = printed.map packet
  log : state.log = lines logged

/-- The last datagram is in the buffer. -/
structure Waits (earlier : List Datagram) (datagram : Datagram) (last : Byte) (state : State) :
    Prop where
  arrived : state.arrived = earlier ++ [datagram]
  holds : Holds datagram last state

/-- How far the loop is with the last datagram. -/
inductive Stage (state : State) : Prop where
  | done : ¬ state.location.Processes → state.udpRxCount = state.udpRxOld →
      Done state.arrived state.arrived state → Stage state
  | pending {earlier : List Datagram} {datagram : Datagram} : ¬ state.location.Processes →
      state.udpRxCount ≠ state.udpRxOld → Waits earlier datagram 0 state →
      Done earlier earlier state → Stage state
  | noticed {earlier : List Datagram} {datagram : Datagram} : state.location.Processes →
      16 ≤ state.location.left → Waits earlier datagram 0 state → Done earlier earlier state →
      Stage state
  | printing {earlier : List Datagram} {datagram : Datagram} : state.location = .printPacket →
      state.udpRxCount = state.udpRxOld → Waits earlier datagram 0 state →
      Done earlier earlier state → Stage state
  | printed {earlier : List Datagram} {datagram : Datagram} :
      state.location = .testLog ∨ state.location = .storeNewline →
      state.udpRxCount = state.udpRxOld → Waits earlier datagram 0 state →
      Done state.arrived earlier state → Stage state
  | ended {earlier : List Datagram} {datagram : Datagram} : state.location = .write →
      state.udpRxCount = state.udpRxOld → Waits earlier datagram newline state →
      Done state.arrived earlier state → Stage state
  | written : state.location = .testWrite false (state.pktLen + 1) →
      state.udpRxCount = state.udpRxOld → Done state.arrived state.arrived state → Stage state

/-- Between two datagrams, nothing of the buffer and of the log changes. -/
structure SameUdp (before after : State) : Prop where
  count : after.udpRxCount = before.udpRxCount
  old : after.udpRxOld = before.udpRxOld
  udpBuf : after.udpBuf = before.udpBuf
  pktLen : after.pktLen = before.pktLen
  log : after.log = before.log
  printed : packets after.printed = packets before.printed
  arrived : after.arrived = before.arrived

section Steps

variable {state after : State} {printed logged earlier : List Datagram} {datagram : Datagram}
variable {last : Byte}

theorem Done.congr (done : Done printed logged state) (same : SameUdp state after) :
    Done printed logged after :=
  ⟨same.printed.trans done.printed, same.log.trans done.log⟩

theorem Waits.congr (waits : Waits earlier datagram last state) (same : SameUdp state after) :
    Waits earlier datagram last after := by
  refine ⟨same.arrived.trans waits.arrived, ?_, ?_, same.pktLen.trans waits.holds.pktLen⟩
  · rw [same.udpBuf]
    exact waits.holds.bytes
  · rw [same.udpBuf]
    exact waits.holds.last

theorem packets_report (failed : Bool) {message : Message}
    (error : message = .writeError ∨ message = .syncError) :
    packets (state.report failed message).printed = packets state.printed := by
  unfold State.report
  cases failed with
  | false => rfl
  | true =>
      change packets (state.printed ++ [message]) = _
      rw [packets, List.filterMap_append]
      rcases error with rfl | rfl
      · exact List.append_nil _
      · exact List.append_nil _

theorem advance_between (reply : Reply) (between : ¬ state.location.Processes)
    (before : state.location ≠ .testUdp) :
    ¬ (advance reply state).location.Processes ∧ SameUdp state (advance reply state) := by
  unfold advance
  cases at_ : state.location with
  | testUdp => exact absurd at_ before
  | loadUdpCount | storeUdpCount | saveUdpCount | printPacket | testLog | storeNewline | write
  | testWrite =>
      rw [at_] at between
      exact absurd (by constructor) between
  | testUart | testChar =>
      dsimp only [State.goto]
      split
      all_goals exact ⟨nofun, rfl, rfl, rfl, rfl, rfl, rfl, rfl⟩
  | testSync failed =>
      exact ⟨nofun, rfl, rfl, rfl, rfl, rfl, packets_report failed (.inr rfl), rfl⟩
  | _ => exact ⟨nofun, rfl, rfl, rfl, rfl, rfl, rfl, rfl⟩

theorem SameUdp.goto (location : Location) : SameUdp state (state.goto location) :=
  ⟨rfl, rfl, rfl, rfl, rfl, rfl, rfl⟩

theorem packets_print (count : Word) (contents : List Byte) (pktLen : Half) :
    packets (state.print (.packet count contents pktLen)).printed =
      packets state.printed ++ [(contents, pktLen)] := by
  change packets (state.printed ++ [_]) = _
  rw [packets, List.filterMap_append]
  rfl

theorem lines_append : lines (earlier ++ [datagram]) =
    lines earlier ++ (datagram.payload ++ [newline]) := by
  unfold lines
  rw [List.flatMap_append, List.flatMap_singleton]

/-- The datagram is printed. -/
theorem Stage.print (reply : Reply) (at_ : state.location = .printPacket)
    (counted : state.udpRxCount = state.udpRxOld) (waits : Waits earlier datagram 0 state)
    (done : Done earlier earlier state) : Stage (advance reply state) := by
  unfold advance
  rw [at_]
  refine .printed (.inl rfl) counted ⟨waits.arrived, waits.holds.bytes, waits.holds.last,
    waits.holds.pktLen⟩ ⟨?_, done.log⟩
  change packets (state.print _).printed = state.arrived.map packet
  rw [packets_print, done.printed, waits.arrived, List.map_append, waits.holds.contents,
    waits.holds.pktLen]
  rfl

/-- The datagram is written. -/
theorem Stage.write {reply : Reply} (full : FullReply reply state) (at_ : state.location = .write)
    (counted : state.udpRxCount = state.udpRxOld) (waits : Waits earlier datagram newline state)
    (done : Done state.arrived earlier state) : Stage (advance reply state) := by
  rcases full.2 at_ with ⟨succeeds, bw⟩
  unfold advance
  rw [at_]
  dsimp only
  rw [succeeds, bw]
  refine .written rfl counted ⟨done.printed, ?_⟩
  change (state.writeLog _).log = lines state.arrived
  rw [waits.holds.writeLog, done.log, waits.arrived, lines_append]

theorem Stage.advance (stage : Stage state) (isOpen : state.udplogflag = true) {reply : Reply}
    (full : FullReply reply state) : Stage (advance reply state) := by
  cases stage with
  | done between counted done =>
      by_cases test : state.location = .testUdp
      · unfold MainLoop.advance
        rw [test]
        dsimp only
        rw [if_neg (not_not.mpr counted.symm)]
        exact .done (by rintro ⟨⟩) counted ⟨done.printed, done.log⟩
      · rcases advance_between reply between test with ⟨between', same⟩
        refine .done between' ?_ ?_
        · rw [same.count, same.old, counted]
        · rw [same.arrived]
          exact done.congr same
  | pending between differs waits done =>
      by_cases test : state.location = .testUdp
      · unfold MainLoop.advance
        rw [test]
        dsimp only
        rw [if_pos differs.symm]
        exact .noticed .loadUdpCount (by simp [State.goto, Location.left])
          (waits.congr (.goto _)) (done.congr (.goto _))
      · rcases advance_between reply between test with ⟨between', same⟩
        refine .pending between' ?_ (waits.congr same) (done.congr same)
        rwa [same.count, same.old]
  | noticed processes early waits done =>
      unfold MainLoop.advance
      cases at_ : state.location with
      | loadUdpCount =>
          exact .noticed .storeUdpCount (by simp [State.goto, Location.left])
            (waits.congr (.goto _)) (done.congr (.goto _))
      | storeUdpCount loaded =>
          exact .noticed .saveUdpCount (by simp [Location.left])
            ⟨waits.arrived, waits.holds.bytes, waits.holds.last, waits.holds.pktLen⟩
            ⟨done.printed, done.log⟩
      | saveUdpCount =>
          exact .printing rfl rfl
            ⟨waits.arrived, waits.holds.bytes, waits.holds.last, waits.holds.pktLen⟩
            ⟨done.printed, done.log⟩
      | printPacket | testLog | storeNewline | write | testWrite =>
          simp [at_, Location.left] at early
      | _ =>
          rw [at_] at processes
          cases processes
  | printing at_ counted waits done => exact .print reply at_ counted waits done
  | printed at_ counted waits done =>
      unfold MainLoop.advance
      rcases at_ with at_ | at_
      · rw [at_]
        dsimp only
        rw [if_pos isOpen]
        exact .printed (.inr rfl) counted (waits.congr (.goto _)) (done.congr (.goto _))
      · rw [at_]
        exact .ended rfl counted ⟨waits.arrived, waits.holds.endLine.bytes,
          waits.holds.endLine.last, waits.holds.endLine.pktLen⟩ ⟨done.printed, done.log⟩
  | ended at_ counted waits done => exact .write full at_ counted waits done
  | written at_ counted done =>
      unfold MainLoop.advance
      rw [at_]
      exact .done (by rintro ⟨⟩) counted ⟨(packets_report _ (.inl rfl)).trans done.printed, done.log⟩

/-- A datagram that arrives between two others. -/
theorem Stage.arrive (stage : Stage state) (between : Between state) (datagram : Datagram) :
    Stage (udpIncoming datagram state) := by
  rcases between with ⟨counted, outside⟩
  have fresh : state.udpRxCount + 1 ≠ state.udpRxOld := by
    rw [counted]
    bv_omega
  have waits : Waits state.arrived datagram 0 (udpIncoming datagram state) :=
    ⟨rfl, holds_arrived datagram state⟩
  cases stage with
  | done _ _ done => exact .pending outside fresh waits ⟨done.printed, done.log⟩
  | pending _ differs _ _ => exact absurd counted differs
  | noticed processes _ _ _ => exact absurd processes outside
  | printing at_ _ _ _ => exact absurd (at_ ▸ .printPacket) outside
  | printed at_ _ _ _ =>
      rcases at_ with at_ | at_
      · exact absurd (at_ ▸ .testLog) outside
      · exact absurd (at_ ▸ .storeNewline) outside
  | ended at_ _ _ _ => exact absurd (at_ ▸ .write) outside
  | written at_ _ _ => exact absurd (at_ ▸ .testWrite) outside

/-- A byte is not noticed. -/
theorem Stage.receive (stage : Stage state) (byte : Byte) : Stage (serve (.uart byte) state) := by
  have same : SameUdp state (serve (.uart byte) state) := ⟨rfl, rfl, rfl, rfl, rfl, rfl, rfl⟩
  cases stage with
  | done outside counted done => exact .done outside counted (done.congr same)
  | pending outside differs waits done =>
      exact .pending outside differs (waits.congr same) (done.congr same)
  | noticed processes early waits done =>
      exact .noticed processes early (waits.congr same) (done.congr same)
  | printing at_ counted waits done =>
      exact .printing at_ counted (waits.congr same) (done.congr same)
  | printed at_ counted waits done =>
      exact .printed at_ counted (waits.congr same) (done.congr same)
  | ended at_ counted waits done => exact .ended at_ counted (waits.congr same) (done.congr same)
  | written at_ counted done => exact .written at_ counted (done.congr same)

theorem Stage.prefixes (stage : Stage state) :
    packets state.printed <+: state.arrived.map packet ∧ state.log <+: lines state.arrived := by
  have waiting : ∀ {earlier : List Datagram} {datagram : Datagram} {last : Byte},
      Waits earlier datagram last state → Done earlier earlier state →
      packets state.printed <+: state.arrived.map packet ∧
        state.log <+: lines state.arrived := by
    intro earlier datagram last waits done
    rw [done.printed, done.log, waits.arrived, List.map_append, lines_append]
    exact ⟨List.prefix_append _ _, List.prefix_append _ _⟩
  have logging : ∀ {earlier : List Datagram} {datagram : Datagram} {last : Byte},
      Waits earlier datagram last state → Done state.arrived earlier state →
      packets state.printed <+: state.arrived.map packet ∧
        state.log <+: lines state.arrived := by
    intro earlier datagram last waits done
    refine ⟨done.printed ▸ List.prefix_rfl, ?_⟩
    rw [done.log, waits.arrived, lines_append]
    exact List.prefix_append _ _
  cases stage with
  | done _ _ done | written _ _ done =>
      exact ⟨done.printed ▸ List.prefix_rfl, done.log ▸ List.prefix_rfl⟩
  | pending _ _ waits done | noticed _ _ waits done | printing _ _ waits done =>
      exact waiting waits done
  | printed _ _ waits done | ended _ _ waits done => exact logging waits done

/-- Where the loop has caught up, all datagrams were printed and logged. -/
theorem Stage.caughtUp (stage : Stage state) (caughtUp : CaughtUp state) :
    Done state.arrived state.arrived state := by
  have at_ := caughtUp.location
  cases stage with
  | done _ _ done => exact done
  | pending _ differs _ _ => exact absurd caughtUp.udp differs
  | noticed processes _ _ _ =>
      rw [at_] at processes
      cases processes
  | printing other _ _ _ | ended other _ _ _ | written other _ _ => cases at_.symm.trans other
  | printed other _ _ _ =>
      rcases other with other | other
      · cases at_.symm.trans other
      · cases at_.symm.trans other

theorem advance_flag {reply : Reply} (isOpen : state.udplogflag = true)
    (stays : reply.udplogflag = true) : (advance reply state).udplogflag = true := by
  unfold advance
  cases state.location with
  | collecting => exact stays
  | _ => exact isOpen

theorem advance_pktLen (reply : Reply) : (advance reply state).pktLen = state.pktLen := by
  unfold advance
  cases state.location with
  | _ => rfl

theorem advance_arrived (reply : Reply) : (advance reply state).arrived = state.arrived := by
  unfold advance
  cases state.location with
  | _ => rfl

end Steps

/-! ## Runs -/

section Runs

variable {state : State}

/-- What holds along a run: the log is open, and the loop is at some stage. -/
structure Running (state : State) : Prop where
  isOpen : state.udplogflag = true
  stage : Stage state

theorem Running.advance (running : Running state) {reply : Reply} (full : FullReply reply state) :
    Running (advance reply state) :=
  ⟨advance_flag running.isOpen full.1, running.stage.advance running.isOpen full⟩

theorem run_running (run : logging.Run (datagrams Between) state) : Running state := by
  apply run.invariant
  · rintro start ⟨initial, isOpen⟩
    refine ⟨isOpen, .done ?_ initial.udp ⟨?_, ?_⟩⟩
    · rw [initial.location]
      exact nofun
    · rw [initial.printed, initial.arrived]
      rfl
    · rw [initial.log, initial.arrived]
      rfl
  · exact fun reply before running full => running.advance full
  · intro interrupt before running allowed
    cases interrupt with
    | udp datagram => exact ⟨running.isOpen, running.stage.arrive allowed datagram⟩
    | uart byte => exact ⟨running.isOpen, running.stage.receive byte⟩

theorem alone_arrived (replies : Nat → Reply) (count : Nat) :
    (loop.alone replies state count).arrived = state.arrived := by
  induction count with
  | zero => rfl
  | succ count inductionHypothesis =>
      exact (advance_arrived (replies count)).trans inductionHypothesis

theorem alone_pktLen (replies : Nat → Reply) (count : Nat) :
    (loop.alone replies state count).pktLen = state.pktLen := by
  induction count with
  | zero => rfl
  | succ count inductionHypothesis =>
      exact (advance_pktLen (replies count)).trans inductionHypothesis

/-- In every run in which no datagram arrives while the one before it is not yet written, with
`f_write` writing everything, the datagrams are printed and logged in order, each of them once. -/
theorem run_logs (run : logging.Run (datagrams Between) state) : Logs state := by
  have running := run_running run
  rcases running.stage.prefixes with ⟨printed, log⟩
  refine ⟨printed, log, ?_⟩
  intro replies full
  have kept : ∀ count, Running (loop.alone replies state count) := by
    intro count
    induction count with
    | zero => exact running
    | succ count inductionHypothesis => exact inductionHypothesis.advance (full count)
  rcases catches_up replies state with ⟨count, caughtUp⟩
  have done := (kept count).stage.caughtUp caughtUp
  rw [alone_arrived] at done
  exact ⟨count, done.printed, done.log⟩

end Runs

/-- A datagram of one byte. -/
def datagramOf (byte : Byte) : Datagram := ⟨[byte], (by decide : 1 < 65535)⟩

theorem datagram_run {allowed : State → Prop} (allows : allowed started) (byte : Byte) :
    logging.Run (datagrams allowed) (logging.serve (.udp (datagramOf byte)) started) :=
  .interrupt (.initial ⟨started_initial, rfl⟩) allows

/-- A full write of a datagram of one byte. -/
def wrote (_ : Nat) : Reply := ⟨false, 2, false, true⟩

theorem wrote_full {state : State} (pktLen : state.pktLen = 1) (count : Nat) :
    FullReply (wrote count) (loop.alone wrote state count) := by
  refine ⟨rfl, fun _ => ⟨rfl, ?_⟩⟩
  rw [alone_pktLen, pktLen]
  rfl

theorem alone_logging (replies : Nat → Reply) (state : State) (count : Nat) :
    logging.alone replies state count = loop.alone replies state count := by
  induction count with
  | zero => rfl
  | succ count inductionHypothesis => exact congrArg (advance (replies count)) inductionHypothesis

theorem wrote_answered {state : State} {allowed : State → Prop} {count : Nat}
    (pktLen : state.pktLen = 1) : ∀ index < count,
      (datagrams allowed).replies (wrote index) (logging.alone wrote state index) := by
  intro index _
  rw [alone_logging]
  exact wrote_full pktLen index

/-- A second datagram, when the loop has written the first one. -/
def relogged : State := logging.serve (.udp (datagramOf 0x62))
  (logging.alone wrote (logging.serve (.udp (datagramOf 0x61)) started) 10)

/-- Both datagrams are logged, the first one already. -/
theorem relogged_logs : Logs relogged ∧ relogged.log = [0x61, newline] := by
  have first : logging.Run (datagrams Between) (logging.serve (.udp (datagramOf 0x61)) started) :=
    datagram_run ⟨rfl, nofun⟩ 0x61
  have written : logging.Run (datagrams Between)
      (logging.alone wrote (logging.serve (.udp (datagramOf 0x61)) started) 10) :=
    first.alone (wrote_answered rfl)
  have between : Between
      (logging.alone wrote (logging.serve (.udp (datagramOf 0x61)) started) 10) :=
    ⟨rfl, nofun⟩
  exact ⟨run_logs (.interrupt written between), by decide⟩

/-- Of two datagrams that arrive at once, the first one is lost. -/
theorem not_run_logs : ¬ ∀ state, logging.Run (datagrams fun _ => True) state → Logs state := by
  intro holds
  have first : logging.Run (datagrams fun _ => True)
      (logging.serve (.udp (datagramOf 0x61)) started) := datagram_run trivial 0x61
  have second : logging.Run (datagrams fun _ => True) (logging.serve (.udp (datagramOf 0x62))
      (logging.serve (.udp (datagramOf 0x61)) started)) := .interrupt first trivial
  have run : logging.Run (datagrams fun _ => True) (logging.alone wrote (logging.serve
      (.udp (datagramOf 0x62)) (logging.serve (.udp (datagramOf 0x61)) started)) 9) :=
    second.alone (wrote_answered rfl)
  have log := (holds _ run).log
  rw [alone_logging, alone_arrived] at log
  exact absurd log (by decide)

end BbbEth.MainLoop
