import BbbEth.Echo.Chain

/-!
# The bound of the copy

`echo_send_data` copies a chain into `mydata` without a test.  It keeps to `mydata`, and passes
the bytes of the chain to `tcp_write`, if and only if the chain is not longer than `mydata`.
-/

namespace BbbEth.Echo

open BbbEth.Interference BbbEth.Linked

variable {result : Type} {post : result → Stack → Prop} {stack : Stack}

/-- A routine of the echo server does not fault, and ends as it should. -/
abbrev Fulfils (post : result → Stack → Prop) (code : Program Access result)
    (stack : Stack) : Prop :=
  lwip.Meets (fun _ => True) post code stack

/-! ## Accesses -/

section Accesses

variable {p cnt : Nat} {pbuf : Pbuf}

theorem loadPbuf_iff (found : stack.pbuf p = some pbuf) (rest : Pbuf → Program Access result) :
    Fulfils post (loadPbuf p >>= rest) stack ↔ Fulfils post (rest pbuf) stack := by
  have fixed : lwip.Fixed (.loadPbuf p) stack (some pbuf) stack := by
    refine ⟨⟨found.symm, rfl⟩, ?_⟩
    rintro pbuf' after ⟨rfl, rfl⟩
    exact ⟨found, rfl⟩
  exact fixed.meets_iff trivial

/-- A free packet buffer is not accessed. -/
theorem not_fulfils_loadPbuf (free : stack.pbuf p = none) (rest : Pbuf → Program Access result) :
    ¬ Fulfils post (loadPbuf p >>= rest) stack := by
  intro fulfils
  have answered : lwip.answers (.loadPbuf p) stack none stack := ⟨free.symm, rfl⟩
  exact Server.not_meets_fault (fulfils.of_perform answered)

theorem storePbuf_iff (rest : Unit → Program Access result) :
    Fulfils post (.perform (.storePbuf p pbuf) rest) stack ↔
      Fulfils post (rest ()) (stack.setPbuf p (some pbuf)) :=
  Server.Fixed.meets_iff ⟨rfl, fun _ _ answered => ⟨rfl, answered⟩⟩ trivial

theorem dealloc_iff (rest : Unit → Program Access result) :
    Fulfils post (.perform (.dealloc p) rest) stack ↔
      Fulfils post (rest ()) (stack.dealloc p) :=
  Server.Fixed.meets_iff ⟨rfl, fun _ _ answered => ⟨rfl, answered⟩⟩ trivial

theorem storeMydata_iff (byte : Byte) (rest : Unit → Program Access result) :
    Fulfils post (.perform (.storeMydata cnt byte) rest) stack ↔
      Fulfils post (rest ()) (stack.store cnt byte) :=
  Server.Fixed.meets_iff ⟨rfl, fun _ _ answered => ⟨rfl, answered⟩⟩ trivial

end Accesses

/-! ## Loops -/

theorem loop_iff {carried reply : Type} {body : carried → Program Access (carried ⊕ reply)}
    {start : carried} {rest : reply → Program Access result} :
    Fulfils post (.loop body start rest) stack ↔ Fulfils post (.unroll body start rest) stack :=
  Server.meets_loop_iff

/-- The inner loop. -/
theorem copyPayload_iff (data : List Byte) (cnt : Nat) (fits : cnt + data.length ≤ maxSize)
    (rest : Nat → Program Access result) : Fulfils post (copyPayload data cnt >>= rest) stack ↔
      Fulfils post (rest (cnt + data.length)) (stack.storeAll cnt data) := by
  induction data generalizing stack cnt with
  | nil => exact Iff.rfl
  | cons byte data inductionHypothesis =>
      rw [List.length_cons] at fits
      have inside : cnt < maxSize := by omega
      unfold copyPayload
      rw [if_pos inside, List.length_cons, Nat.add_comm data.length, ← Nat.add_assoc]
      exact (storeMydata_iff byte _).trans (inductionHypothesis (cnt + 1) (by omega))

theorem not_fulfils_copyPayload (data : List Byte) (cnt : Nat) (inside : cnt ≤ maxSize)
    (outside : maxSize < cnt + data.length) (rest : Nat → Program Access result) :
    ¬ Fulfils post (copyPayload data cnt >>= rest) stack := by
  induction data generalizing stack cnt with
  | nil =>
      rw [List.length_nil] at outside
      omega
  | cons byte data inductionHypothesis =>
      rw [List.length_cons] at outside
      unfold copyPayload
      by_cases more : cnt < maxSize
      · rw [if_pos more]
        intro fulfils
        have next := (storeMydata_iff byte fun _ => copyPayload data (cnt + 1) >>= rest).mp fulfils
        exact inductionHypothesis (cnt + 1) more (by omega) next
      · rw [if_neg more]
        exact Server.not_meets_fault

section Loops

variable {p cnt : Nat} {cells : List Nat}

/-- One round of the outer loop. -/
theorem copyRound_iff {pbuf : Pbuf} (found : stack.pbuf p = some pbuf)
    (fits : cnt + pbuf.payload.length ≤ maxSize)
    (rest : (Nat × Nat) ⊕ Unit → Program Access result) :
    Fulfils post (copyRound (p, cnt) >>= rest) stack ↔
      Fulfils post (rest (match pbuf.next with
        | some next => .inl (next, cnt + pbuf.payload.length)
        | none => .inr ())) (stack.storeAll cnt pbuf.payload) := by
  unfold copyRound
  rw [Program.bind_assoc, loadPbuf_iff found, Program.bind_assoc, copyPayload_iff _ _ fits]
  cases pbuf.next with
  | none => exact Iff.rfl
  | some next => exact Iff.rfl

/-- The copy of a chain that fits. -/
theorem copyLoop_iff (path : Path stack.next (some p) cells none) (held : Held stack cells)
    (fits : cnt + (stack.bytes cells).length ≤ maxSize) (rest : Unit → Program Access result) :
    Fulfils post (.loop copyRound (p, cnt) rest) stack ↔
      Fulfils post (rest ()) (stack.storeAll cnt (stack.bytes cells)) := by
  induction cells generalizing stack p cnt with
  | nil => cases path
  | cons cell cells inductionHypothesis =>
      rcases path with ⟨same, path⟩
      cases same
      rcases held cell List.mem_cons_self with ⟨pbuf, found, _⟩
      have bytes : stack.bytes (cell :: cells) = pbuf.payload ++ stack.bytes cells := by
        rw [Stack.bytes, List.flatMap_cons, Stack.payload_eq found]
        rfl
      rw [bytes, List.length_append] at fits
      rw [Stack.next_eq found] at path
      rw [bytes, Stack.storeAll_append, loop_iff, Program.unroll, Program.bind_eq,
        copyRound_iff found (by omega)]
      cases behind : pbuf.next with
      | none =>
          rw [behind] at path
          cases cells with
          | nil => exact Iff.rfl
          | cons _ _ => cases path.1
      | some next =>
          rw [behind] at path
          have kept : (stack.storeAll cnt pbuf.payload).pbuf = stack.pbuf :=
            Stack.storeAll_pbuf cnt pbuf.payload
          rw [← Stack.bytes_congr kept] at fits ⊢
          rw [← Stack.next_congr kept] at path
          have held : Held (stack.storeAll cnt pbuf.payload) cells := by
            intro other member
            rw [kept]
            exact held other (List.mem_cons_of_mem _ member)
          exact inductionHypothesis path held (by omega)

/-- The copy of a chain that does not fit. -/
theorem not_fulfils_copyLoop (path : Path stack.next (some p) cells none)
    (held : Held stack cells) (inside : cnt ≤ maxSize)
    (outside : maxSize < cnt + (stack.bytes cells).length) (rest : Unit → Program Access result) :
    ¬ Fulfils post (.loop copyRound (p, cnt) rest) stack := by
  induction cells generalizing stack p cnt with
  | nil => cases path
  | cons cell cells inductionHypothesis =>
      rcases path with ⟨same, path⟩
      cases same
      rcases held cell List.mem_cons_self with ⟨pbuf, found, _⟩
      have bytes : stack.bytes (cell :: cells) = pbuf.payload ++ stack.bytes cells := by
        rw [Stack.bytes, List.flatMap_cons, Stack.payload_eq found]
        rfl
      rw [bytes, List.length_append] at outside
      rw [Stack.next_eq found] at path
      rw [loop_iff, Program.unroll, Program.bind_eq]
      by_cases fits : cnt + pbuf.payload.length ≤ maxSize
      · rw [copyRound_iff found fits]
        cases behind : pbuf.next with
        | none =>
            rw [behind] at path
            cases cells with
            | nil =>
                have none : (stack.bytes []).length = 0 := rfl
                omega
            | cons _ _ => cases path.1
        | some next =>
            rw [behind] at path
            have kept : (stack.storeAll cnt pbuf.payload).pbuf = stack.pbuf :=
              Stack.storeAll_pbuf cnt pbuf.payload
            rw [← Stack.bytes_congr kept] at outside
            rw [← Stack.next_congr kept] at path
            have held : Held (stack.storeAll cnt pbuf.payload) cells := by
              intro other member
              rw [kept]
              exact held other (List.mem_cons_of_mem _ member)
            exact inductionHypothesis path held fits (by omega)
      · unfold copyRound
        rw [Program.bind_assoc, loadPbuf_iff found, Program.bind_assoc]
        exact not_fulfils_copyPayload _ _ inside (not_le.mp fits) _

/-- The loop of `pbuf_free`. -/
theorem freeLoop_iff {start : Option Nat} (path : Path stack.next start cells none)
    (held : Held stack cells) (rest : Unit → Program Access result) :
    Fulfils post (pbufFree start >>= rest) stack ↔
      Fulfils post (rest ()) (stack.freeAll cells) := by
  unfold pbufFree
  rw [Program.bind_iterate]
  induction cells generalizing stack start with
  | nil =>
      cases path
      exact loop_iff
  | cons cell cells inductionHypothesis =>
      have distinct := path.nodup
      rcases path with ⟨rfl, path⟩
      rcases held cell List.mem_cons_self with ⟨pbuf, found, one⟩
      have other : ∀ p ∈ cells, (stack.dealloc cell).pbuf p = stack.pbuf p := by
        intro p member
        have apart : p ≠ cell := fun same => (List.nodup_cons.mp distinct).1 (same ▸ member)
        rw [Stack.dealloc_pbuf, Function.update_of_ne apart]
      have same : (stack.setPbuf cell (some { pbuf with ref := pbuf.ref - 1 })).dealloc cell =
          stack.dealloc cell := by
        unfold Stack.dealloc Stack.setPbuf
        rw [Function.update_idem]
      rw [Stack.next_eq found] at path
      have path : Path (stack.dealloc cell).next pbuf.next cells none := by
        apply path.congr
        intro p member
        unfold Stack.next
        rw [other p member]
      have held : Held (stack.dealloc cell) cells := by
        intro p member
        rw [other p member]
        exact held p (List.mem_cons_of_mem _ member)
      rw [loop_iff, Program.unroll, Program.bind_eq, freeRound, Program.bind_assoc,
        loadPbuf_iff found, Program.bind_assoc, Program.bind_lift, storePbuf_iff, one,
        if_pos rfl, Program.bind_assoc, Program.bind_lift, dealloc_iff]
      rw [one] at same
      rw [same]
      exact inductionHypothesis path held

end Loops

/-! ## `echo_send_data` -/

/-- What `echo_send_data` leaves of a chain that fits. -/
def Stack.echoed (stack : Stack) (cells : List Nat) (err : Err) : Stack :=
  ((stack.storeAll 0 (stack.bytes cells)).freeAll cells).write (stack.bytes cells).length err

section Send

variable {p : Nat} {cells : List Nat} {err : Err}

/-- What was passed to `tcp_write` are the bytes of the chain. -/
theorem Stack.echoed_writes :
    (stack.echoed cells err).writes = stack.writes ++ [(stack.bytes cells, err)] := by
  have kept : (stack.storeAll 0 (stack.bytes cells)).freeAll cells = _ := freeAll_eq cells
  have data : ((stack.storeAll 0 (stack.bytes cells)).freeAll cells).data
      (stack.bytes cells).length = stack.bytes cells := by
    rw [kept]
    exact data_storeAll (stack.bytes cells)
  unfold echoed write
  rw [data, kept, storeAll_eq]

theorem Stack.echoed_copied :
    (stack.echoed cells err).copied = stack.copied + (stack.bytes cells).length := by
  unfold echoed write
  rw [freeAll_eq, storeAll_eq]

theorem Stack.echoed_recved : (stack.echoed cells err).recved = stack.recved := by
  unfold echoed write
  rw [freeAll_eq, storeAll_eq]

theorem Stack.storeAll_freed {cnt : Nat} {data : List Byte} :
    (stack.storeAll cnt data).freed = stack.freed := by
  rw [storeAll_eq]

/-- Each packet buffer of the chain is freed once. -/
theorem Stack.echoed_freed (distinct : cells.Nodup) {q : Nat} (member : q ∈ cells) :
    (stack.echoed cells err).freed q = stack.freed q + 1 := by
  apply (freeAll_member distinct member).2.trans
  rw [storeAll_freed]

theorem Stack.echoed_freed_of_notMem {q : Nat} (other : q ∉ cells) :
    (stack.echoed cells err).freed q = stack.freed q := by
  apply (freeAll_other other).2.trans
  rw [storeAll_freed]

theorem Stack.echoed_pbuf (distinct : cells.Nodup) {q : Nat} (member : q ∈ cells) :
    (stack.echoed cells err).pbuf q = none :=
  (freeAll_member distinct member).1

theorem Chain.echoes_iff (chain : Chain stack p cells)
    (fits : (stack.bytes cells).length ≤ maxSize) {post : Err → Stack → Prop} :
    Fulfils post (echoSendData p) stack ↔ ∀ err, post err (stack.echoed cells err) := by
  rcases chain.path.of_some with ⟨others, same, _⟩
  have member : p ∈ cells := same ▸ List.mem_cons_self
  rcases chain.held p member with ⟨pbuf, found, _⟩
  have kept : (stack.storeAll 0 (stack.bytes cells)).pbuf = stack.pbuf := Stack.storeAll_pbuf _ _
  have path : Path (stack.storeAll 0 (stack.bytes cells)).next (some p) cells none := by
    rw [Stack.next_congr kept]
    exact chain.path
  have held : Held (stack.storeAll 0 (stack.bytes cells)) cells := by
    intro cell member
    rw [kept]
    exact chain.held cell member
  unfold echoSendData
  rw [loadPbuf_iff found, Program.bind_iterate, copyLoop_iff chain.path chain.held (by omega),
    freeLoop_iff path held]
  have length := chain.totLen pbuf found
  have sent : ∀ err, ((stack.storeAll 0 (stack.bytes cells)).freeAll cells).write
      pbuf.totLen.toNat err = stack.echoed cells err := by
    intro err
    rw [length]
    rfl
  constructor
  · intro fulfils err
    exact sent err ▸ fulfils.returns err _ (.perform rfl .done)
  · intro holds
    apply Server.Meets.lift trivial
    rintro err after same
    rw [show after = _ from same, sent err]
    exact ⟨trivial, holds err⟩

/-- The chain is passed on as it is, and no more of `mydata` than was copied. -/
def Passes (stack : Stack) (cells : List Nat) (err : Err) (after : Stack) : Prop :=
  ∃ data, after.writes = stack.writes ++ [(data, err)] ∧ data = stack.bytes cells ∧
    stack.copied + data.length ≤ after.copied

/-- A chain that is longer than `mydata` is copied beyond its end. -/
theorem not_fulfils_echoSendData (chain : Chain stack p cells)
    (outside : maxSize < (stack.bytes cells).length) {post : Err → Stack → Prop} :
    ¬ Fulfils post (echoSendData p) stack := by
  intro fulfils
  rcases chain.path.of_some with ⟨others, same, _⟩
  have member : p ∈ cells := same ▸ List.mem_cons_self
  rcases chain.held p member with ⟨pbuf, found, _⟩
  unfold echoSendData at fulfils
  rw [loadPbuf_iff found, Program.bind_iterate] at fulfils
  exact not_fulfils_copyLoop chain.path chain.held (Nat.zero_le _) (by omega) _ fulfils

/-- The copy of a chain keeps to `mydata`, and is what `tcp_write` gets, if and only if the chain
is not longer than `mydata`. -/
theorem echoSendData_bounded_iff (chain : Chain stack p cells) :
    Fulfils (Passes stack cells) (echoSendData p) stack ↔
      (stack.bytes cells).length ≤ maxSize := by
  constructor
  · intro fulfils
    by_contra outside
    exact not_fulfils_echoSendData chain (not_le.mp outside) fulfils
  · intro fits
    rw [chain.echoes_iff fits]
    intro err
    exact ⟨_, Stack.echoed_writes, rfl, Stack.echoed_copied.ge⟩

end Send

/-- The window of a connection. -/
def tcpWnd : Nat := 8 * 1500

/-- A chain of two packet buffers. -/
theorem chain_bounded : Fulfils (Passes (Stack.initial.place 0 [[1, 2], [3]]) [0, 1])
    (echoSendData 0) (Stack.initial.place 0 [[1, 2], [3]]) := by
  have chain : Chain (Stack.initial.place 0 [[1, 2], [3]]) 0 [0, 1] :=
    place_chain (by decide) (by decide)
  exact (echoSendData_bounded_iff chain).mpr (by decide)

/-- Three full segments. -/
def fullSegments : List (List Byte) := List.replicate 3 (List.replicate 1460 0)

theorem length_fullSegments : fullSegments.flatten.length = 4380 := by
  unfold fullSegments
  rw [List.length_flatten, List.map_replicate, List.length_replicate]
  rfl

/-- Three full segments are inside of the window, and longer than `mydata`. -/
theorem not_echoSendData_bounded : ¬ ∀ (stack : Stack) (p : Nat) (cells : List Nat),
    Chain stack p cells → (stack.bytes cells).length ≤ tcpWnd →
      Fulfils (Passes stack cells) (echoSendData p) stack := by
  intro holds
  have chain : Chain (Stack.initial.place 0 fullSegments) 0 (places 0 fullSegments) := by
    refine place_chain (by decide) ?_
    rw [length_fullSegments]
    decide
  have length : ((Stack.initial.place 0 fullSegments).bytes (places 0 fullSegments)).length =
      4380 := by
    rw [place_bytes, length_fullSegments]
  have inside : 4380 ≤ tcpWnd := by decide
  have outside : maxSize < 4380 := by decide
  rw [← length] at inside outside
  exact not_fulfils_echoSendData chain outside (holds _ _ _ chain inside)

end BbbEth.Echo
