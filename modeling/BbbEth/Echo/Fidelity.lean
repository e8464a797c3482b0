import BbbEth.Echo.Bound

/-!
# What is echoed

A connection hands its segments to `echo_recv`, in order.  Where `echo_recv` does not return
`ERR_OK`, lwIP keeps the segment and hands it over again.
-/

namespace BbbEth.Echo

open BbbEth.Interference BbbEth.Linked

/-! ## Connections -/

/-- A connection, with the bytes and the packet buffers that were handed over. -/
structure Connection where
  stack : Stack
  /-- `pcb->refused_data`. -/
  refused : Option Nat
  received : List Byte
  delivered : List Nat

/-- A segment arrives in new packet buffers. -/
structure Arrives (before after : Stack) (p : Nat) (cells : List Nat) : Prop where
  others : after = { before with pbuf := after.pbuf }
  kept : ∀ q, q ∉ cells → after.pbuf q = before.pbuf q
  fresh : ∀ cell ∈ cells, before.pbuf cell = none ∧ before.freed cell = 0
  chain : Chain after p cells
  window : (after.bytes cells).length ≤ tcpWnd

/-- What is handed to `echo_recv` next: a segment that was refused, or else a new one. -/
inductive Delivery (conn : Connection) : Stack → Nat → List Nat → Prop where
  | segment {stack : Stack} {p : Nat} {cells : List Nat} : conn.refused = none →
      Arrives conn.stack stack p cells → Delivery conn stack p cells
  | again {p : Nat} : conn.refused = some p → Delivery conn conn.stack p []

/-- The connection after `echo_recv` has returned. -/
def Connection.after (conn : Connection) (stack : Stack) (p : Nat) (cells : List Nat) (err : Err)
    (after : Stack) : Connection where
  stack := after
  refused := if err = .ok then none else some p
  received := conn.received ++ stack.bytes cells
  delivered := conn.delivered ++ cells

/-- Runs of a connection, up to its end. -/
inductive Run (allowed : Connection → Stack → List Nat → Prop) : Connection → Prop where
  | opened {stack : Stack} : stack.writes = [] → stack.recved = 0 → stack.listens = true →
      Run allowed ⟨stack, none, [], []⟩
  | delivery {conn : Connection} {stack after : Stack} {p : Nat} {cells : List Nat} {err : Err} :
      Run allowed conn → conn.stack.listens = true → Delivery conn stack p cells →
      allowed conn stack cells → lwip.Exec (echoRecv (some p) .ok) stack (.returns err) after →
      Run allowed (conn.after stack p cells err after)
  | closed {conn : Connection} {after : Stack} {err : Err} : Run allowed conn →
      lwip.Exec (echoRecv none .ok) conn.stack (.returns err) after →
      Run allowed { conn with stack := after }

/-- The bytes that `tcp_write` has accepted. -/
def accepted (writes : List (List Byte × Err)) : List Byte :=
  writes.flatMap fun write => if write.2 = .ok then write.1 else []

/-- The bytes are echoed in order, and the packet buffers are given back. -/
structure Faithful (conn : Connection) : Prop where
  accepted : accepted conn.stack.writes <+: conn.received
  freed : ∀ p ∈ conn.delivered, conn.stack.freed p = 1
  recved : conn.stack.recved = conn.received.length

/-- The next delivery is echoed without an access to a packet buffer that is free. -/
def Accepts (allowed : Connection → Stack → List Nat → Prop) (conn : Connection) : Prop :=
  ∀ stack p cells, Delivery conn stack p cells → allowed conn stack cells →
    Fulfils (fun _ _ => True) (echoRecv (some p) .ok) stack

/-- No segment was refused, and the next one fits into `mydata`. -/
def Fits (conn : Connection) (stack : Stack) (cells : List Nat) : Prop :=
  conn.refused = none ∧ (stack.bytes cells).length ≤ maxSize

/-! ## Deliveries -/

section Deliveries

variable {stack : Stack} {p : Nat} {cells : List Nat} {post : Err → Stack → Prop}

/-- `tcp_recved` is called. -/
def Stack.take (stack : Stack) (count : Nat) : Stack :=
  { stack with recved := stack.recved + count }

theorem Chain.take (chain : Chain stack p cells) (count : Nat) :
    Chain (stack.take count) p cells :=
  ⟨chain.path, chain.held, chain.totLen⟩

theorem Chain.receives_iff (chain : Chain stack p cells)
    (fits : (stack.bytes cells).length ≤ maxSize) :
    Fulfils post (echoRecv (some p) .ok) stack ↔
      ∀ err, post err ((stack.take (stack.bytes cells).length).echoed cells err) := by
  rcases chain.path.of_some with ⟨others, same, _⟩
  have member : p ∈ cells := same ▸ List.mem_cons_self
  rcases chain.held p member with ⟨pbuf, found, _⟩
  have length := chain.totLen pbuf found
  have taken : lwip.Fixed (.tcpRecved pbuf.totLen) stack ()
      (stack.take (stack.bytes cells).length) := by
    rw [← length]
    exact ⟨rfl, fun _ _ answered => ⟨rfl, answered⟩⟩
  unfold echoRecv
  rw [loadPbuf_iff found, Program.bind_lift, Fulfils, taken.meets_iff trivial,
    if_neg (not_not.mpr rfl)]
  exact (chain.take _).echoes_iff fits

/-- Both results of `tcp_write` are possible. -/
theorem Chain.receives (chain : Chain stack p cells)
    (fits : (stack.bytes cells).length ≤ maxSize) (err : Err) :
    lwip.Exec (echoRecv (some p) .ok) stack (.returns err)
      ((stack.take (stack.bytes cells).length).echoed cells err) := by
  by_contra other
  have faultless : Fulfils (fun _ _ => True) (echoRecv (some p) .ok) stack :=
    (chain.receives_iff fits).mpr fun _ => trivial
  have never : Fulfils (fun err' after => ¬ (err' = err ∧ after =
      (stack.take (stack.bytes cells).length).echoed cells err)) (echoRecv (some p) .ok) stack := by
    refine ⟨fun _ _ _ => trivial, faultless.faultless, ?_⟩
    rintro err' after exec ⟨rfl, rfl⟩
    exact other exec
  exact (chain.receives_iff fits).mp never err ⟨rfl, rfl⟩

/-- The end of a connection. -/
theorem close_iff : Fulfils post (echoRecv none .ok) stack ↔
    post .ok { stack with listens := false } := by
  have unregistered : lwip.Fixed .tcpRecv stack () { stack with listens := false } :=
    ⟨rfl, fun _ _ answered => ⟨rfl, answered⟩⟩
  have kept : ∀ {request : Access Unit} {stack : Stack}, (request = .tcpClose ∨
      request = .tcpArg ∨ request = .tcpSent) → lwip.Fixed request stack () stack := by
    rintro request stack (rfl | rfl | rfl)
    · exact ⟨rfl, fun _ _ answered => ⟨rfl, answered⟩⟩
    · exact ⟨rfl, fun _ _ answered => ⟨rfl, answered⟩⟩
    · exact ⟨rfl, fun _ _ answered => ⟨rfl, answered⟩⟩
  unfold echoRecv echoCloseConn
  rw [Program.bind_assoc, Program.bind_lift, Fulfils, unregistered.meets_iff trivial,
    Program.bind_assoc, Program.bind_lift, (kept (.inl rfl)).meets_iff trivial,
    Program.bind_assoc, Program.bind_lift, (kept (.inr (.inl rfl))).meets_iff trivial,
    Program.bind_lift, (kept (.inr (.inr rfl))).meets_iff trivial]
  exact ⟨fun meets => meets.of_done.2, fun holds => .done trivial holds⟩

end Deliveries

/-! ## Runs -/

theorem accepted_append (writes : List (List Byte × Err)) (data : List Byte) (err : Err) :
    accepted (writes ++ [(data, err)]) =
      accepted writes ++ if err = .ok then data else [] := by
  unfold accepted
  rw [List.flatMap_append, List.flatMap_singleton]

/-- What holds between two deliveries: as long as nothing was refused, everything was
accepted. -/
structure Echoes (conn : Connection) : Prop where
  faithful : Faithful conn
  whole : conn.refused = none → accepted conn.stack.writes = conn.received

section Runs

variable {conn : Connection} {stack : Stack} {p : Nat} {cells : List Nat}

theorem Echoes.delivery (echoes : Echoes conn) (notRefused : conn.refused = none)
    (arrives : Arrives conn.stack stack p cells) (err : Err) :
    Echoes (conn.after stack p cells err
      ((stack.take (stack.bytes cells).length).echoed cells err)) := by
  have writes : (conn.after stack p cells err
      ((stack.take (stack.bytes cells).length).echoed cells err)).stack.writes =
        conn.stack.writes ++ [(stack.bytes cells, err)] := by
    apply Stack.echoed_writes.trans
    rw [arrives.others]
    rfl
  have taken : accepted (conn.after stack p cells err
      ((stack.take (stack.bytes cells).length).echoed cells err)).stack.writes =
        conn.received ++ if err = .ok then stack.bytes cells else [] := by
    rw [writes, accepted_append, echoes.whole notRefused]
  refine ⟨⟨?_, ?_, ?_⟩, ?_⟩
  · rw [taken]
    change _ <+: conn.received ++ stack.bytes cells
    split
    · exact List.prefix_rfl
    · rw [List.append_nil]
      exact List.prefix_append _ _
  · intro q member
    have counted : stack.freed = conn.stack.freed := by rw [arrives.others]
    rcases List.mem_append.mp member with earlier | now
    · -- A packet buffer from before is not one of those that have just arrived.
      have once := echoes.faithful.freed q earlier
      have other : q ∉ cells := by
        intro now
        rw [(arrives.fresh q now).2] at once
        cases once
      apply Stack.echoed_freed_of_notMem other |>.trans
      change stack.freed q = 1
      rw [counted, once]
    · apply (Stack.echoed_freed arrives.chain.path.nodup now).trans
      change stack.freed q + 1 = 1
      rw [counted, (arrives.fresh q now).2]
  · apply Stack.echoed_recved.trans
    change _ = (conn.received ++ stack.bytes cells).length
    rw [List.length_append, ← echoes.faithful.recved, arrives.others]
    rfl
  · intro accepts
    rw [taken]
    change _ = conn.received ++ stack.bytes cells
    by_cases fine : err = .ok
    · rw [if_pos fine]
    · have refused : (if err = .ok then none else some p) = none := accepts
      rw [if_neg fine] at refused
      cases refused

/-- Every run whose deliveries fit. -/
theorem Run.echoes (run : Run Fits conn) : Echoes conn := by
  induction run with
  | opened noWrites nothing _ =>
      refine ⟨⟨?_, nofun, nothing⟩, fun _ => ?_⟩
      · rw [noWrites]
        exact List.prefix_rfl
      · rw [noWrites]
        rfl
  | delivery _ _ delivery fits exec inductionHypothesis =>
      rcases fits with ⟨notRefused, short⟩
      cases delivery with
      | segment _ arrives =>
          have ends : Fulfils (fun err after => after = Stack.echoed _ _ err) _ _ :=
            (arrives.chain.receives_iff short).mpr fun _ => rfl
          rw [ends.returns _ _ exec]
          exact inductionHypothesis.delivery notRefused arrives _
      | again refused =>
          rw [notRefused] at refused
          cases refused
  | @closed conn after _ _ exec inductionHypothesis =>
      have ends : Fulfils (fun _ after => after = { conn.stack with listens := false })
        (echoRecv none .ok) conn.stack := close_iff.mpr rfl
      rw [ends.returns _ _ exec]
      exact ⟨⟨inductionHypothesis.faithful.accepted, inductionHypothesis.faithful.freed,
        inductionHypothesis.faithful.recved⟩, inductionHypothesis.whole⟩

/-- In every run in which no segment is handed over after one was refused, and none is longer
than `mydata`, the bytes are echoed in order, the packet buffers are given back once, and the next
such segment is echoed without an access to one that is free. -/
theorem run_faithful (run : Run Fits conn) : Faithful conn ∧ Accepts Fits conn := by
  refine ⟨run.echoes.faithful, ?_⟩
  intro stack p cells delivery fits
  cases delivery with
  | segment _ arrives => exact (arrives.chain.receives_iff fits.2).mpr fun _ => trivial
  | again refused =>
      rw [fits.1] at refused
      cases refused

end Runs

/-! ## Segments -/

/-- A connection at its start. -/
def opened : Connection := ⟨.initial, none, [], []⟩

/-- The connection when a segment has arrived in new packet buffers and was echoed. -/
def Connection.echo (conn : Connection) (first : Nat) (payloads : List (List Byte)) (err : Err) :
    Connection :=
  conn.after (conn.stack.place first payloads) first (places first payloads) err
    (((conn.stack.place first payloads).take payloads.flatten.length).echoed
      (places first payloads) err)

section Segments

variable {conn : Connection} {first : Nat} {payloads : List (List Byte)}

/-- A segment in packet buffers that were not in use. -/
theorem place_arrives {stack : Stack} (some : payloads ≠ [])
    (unused : ∀ cell ∈ places first payloads, stack.pbuf cell = none ∧ stack.freed cell = 0)
    (window : payloads.flatten.length ≤ tcpWnd) :
    Arrives stack (stack.place first payloads) first (places first payloads) where
  others := place_eq
  kept _ other := place_other other
  fresh := unused
  chain := place_chain some (window.trans_lt (by decide))
  window := by rwa [place_bytes]

/-- One more segment. -/
theorem Run.echo {allowed : Connection → Stack → List Nat → Prop} (run : Run allowed conn)
    (listens : conn.stack.listens = true) (notRefused : conn.refused = none)
    (some : payloads ≠ []) (short : payloads.flatten.length ≤ maxSize)
    (unused : ∀ cell ∈ places first payloads,
      conn.stack.pbuf cell = none ∧ conn.stack.freed cell = 0)
    (allows : allowed conn (conn.stack.place first payloads) (places first payloads))
    (err : Err) : Run allowed (conn.echo first payloads err) := by
  have arrives := place_arrives some unused (short.trans (by decide))
  have fits : ((conn.stack.place first payloads).bytes (places first payloads)).length ≤
      maxSize := by rwa [place_bytes]
  have received := arrives.chain.receives fits err
  rw [place_bytes] at received
  exact .delivery run listens (.segment notRefused arrives) allows received

end Segments

theorem opened_run {allowed : Connection → Stack → List Nat → Prop} : Run allowed opened :=
  .opened rfl rfl rfl

/-- Two segments, the first one in two packet buffers. -/
def twoSegments : Connection := (opened.echo 0 [[1, 2], [3]] .ok).echo 2 [[4]] .ok

/-- Both segments are echoed. -/
theorem twoSegments_faithful : Faithful twoSegments ∧ Accepts Fits twoSegments := by
  have first : Run Fits (opened.echo 0 [[1, 2], [3]] .ok) :=
    opened_run.echo rfl rfl (by decide) (by decide) (fun _ _ => ⟨rfl, rfl⟩) ⟨rfl, by decide⟩ .ok
  have unused : ∀ cell ∈ places 2 [[4]],
      (opened.echo 0 [[1, 2], [3]] .ok).stack.pbuf cell = none ∧
        (opened.echo 0 [[1, 2], [3]] .ok).stack.freed cell = 0 := by
    intro cell member
    obtain rfl := List.mem_singleton.mp member
    exact ⟨rfl, rfl⟩
  exact run_faithful (first.echo rfl rfl (by decide) (by decide) unused ⟨rfl, by decide⟩ .ok)

/-- A segment that `tcp_write` has no memory for is handed over again after it was freed. -/
theorem not_run_faithful : ¬ ∀ conn : Connection, Run (fun _ _ _ => True) conn →
    Faithful conn ∧ Accepts (fun _ _ _ => True) conn := by
  intro holds
  have run : Run (fun _ _ _ => True) (opened.echo 0 [[1, 2]] .mem) :=
    opened_run.echo rfl rfl (by decide) (by decide) (fun _ _ => ⟨rfl, rfl⟩) trivial .mem
  have accepts := (holds _ run).2
  have free : (opened.echo 0 [[1, 2]] .mem).stack.pbuf 0 = none :=
    Stack.echoed_pbuf (List.nodup_singleton 0) (List.mem_singleton_self 0)
  exact not_fulfils_loadPbuf free _ (accepts _ 0 [] (.again rfl) trivial)

end BbbEth.Echo
