import BbbEth.Irq.Position

/-!
# Through the routine

Runs that go from the entry into `irq_isr` to its last instructions, with a handler between them
that has a critical section.
-/

namespace BbbEth.Service

open Arm

variable {program core : Core} {routine irqVector : Word} {index : Nat}
variable {kind : Machine → Prop}

/-- The routine goes on with a request pending, as interrupts are disabled. -/
theorem Executing.free (executing : Executing routine program core index) (early : index < 20) :
    Machine.interrupted ⟨core, true, [⟨program, none⟩]⟩ = false := by
  change (true && !core.masked) = false
  rw [executing.masked early]
  rfl

/-- The routine is not at its last instructions. -/
theorem Executing.not_exposed {request : Bool} (executing : Executing routine program core index)
    (early : index < 20) : ¬Machine.Exposed routine ⟨core, request, [⟨program, none⟩]⟩ := by
  rintro ⟨_, _, _, other, late, inside, place⟩
  have same := index_eq executing.inside inside (executing.place.symm.trans place)
  omega

theorem straight_code (inside : index < 23) (branch : index ≠ 9) (call : index ≠ 12) :
    ∃ instr, (code irqVector)[index]? = some instr ∧ straight instr = true := by
  match index with
  | 0 | 1 | 2 | 3 | 4 | 5 | 6 | 7 | 8 | 10 | 11 | 13 | 14 | 15 | 16 | 17 | 18 | 19 | 20 | 21 | 22 =>
      exact ⟨_, rfl, rfl⟩
  | 9 => exact absurd rfl branch
  | 12 => exact absurd rfl call
  | index + 23 => omega

theorem follow_straight {entries : List Entry} (next : straight instr = true) :
    follow core instr entries = entries := by
  cases instr with
  | blx rm => cases next
  | subsPcLr value => cases next
  | _ => rfl

/-! ## Straight on -/

/-- The routine can go on from an instruction. -/
def Goes (routine : Word) (kind : Machine → Prop) (program : Core) (request : Bool)
    (index : Nat) : Prop :=
  ∀ core, Executing routine program core index →
    Machine.interrupted ⟨core, request, [⟨program, none⟩]⟩ = false ∧
      kind ⟨core, request, [⟨program, none⟩]⟩

/-- The routine runs up to an instruction with no branch before it. -/
theorem Run.forward (sirIrq : Word) {request : Bool} {first : Nat} (last : Nat)
    (run : Run routine irqVector kind ⟨core, request, [⟨program, none⟩]⟩)
    (executing : Executing routine program core first) (order : first ≤ last) (inside : last ≤ 23)
    (goes : ∀ index, first ≤ index → index < last → Goes routine kind program request index)
    (plain : ∀ index, first ≤ index → index < last → index ≠ 9 ∧ index ≠ 12) :
    ∃ after, Run routine irqVector kind ⟨after, request, [⟨program, none⟩]⟩ ∧
      Executing routine program after last := by
  induction last, order using Nat.le_induction with
  | base => exact ⟨core, run, executing⟩
  | succ last order ih =>
      obtain ⟨after, reached, at_last⟩ := ih (by omega)
        (fun index above below => goes index above (by omega))
        fun index above below => plain index above (by omega)
      obtain ⟨branch, call⟩ := plain last order (by omega)
      obtain ⟨free, holds⟩ := goes last order (by omega) after at_last
      obtain ⟨instr, fetch, next⟩ := straight_code (by omega) branch call
      have stepped := reached.step holds (.exec sirIrq free rfl at_last.place fetch)
      have same : follow (exec (intc sirIrq) after instr) instr [⟨program, none⟩] =
          [⟨program, none⟩] := follow_straight next
      rw [same] at stepped
      exact ⟨_, stepped, at_last.next fetch next (by omega)⟩

/-- A kind that only the last instructions may leave. -/
def Outside (routine : Word) (kind : Machine → Prop) : Prop :=
  ∀ machine : Machine, ¬machine.Exposed routine → kind machine

theorem Outside.goes (outside : Outside routine kind) (early : index < 20) :
    Goes routine kind program true index :=
  fun _ executing => ⟨executing.free early, outside _ (executing.not_exposed early)⟩

/-- An instruction before the last ones. -/
theorem Outside.exec (outside : Outside routine kind) (sirIrq : Word) {instr : Instr}
    (run : Run routine irqVector kind ⟨core, true, [⟨program, none⟩]⟩)
    (executing : Executing routine program core index) (early : index < 20)
    (fetch : (code irqVector)[index]? = some instr) :
    Run routine irqVector kind ⟨Arm.exec (intc sirIrq) core instr, true,
      follow (Arm.exec (intc sirIrq) core instr) instr [⟨program, none⟩]⟩ := by
  obtain ⟨free, holds⟩ := outside.goes early core executing
  exact run.step holds (.exec sirIrq free rfl executing.place fetch)

theorem Outside.next (outside : Outside routine kind) (sirIrq : Word) {instr : Instr}
    (run : Run routine irqVector kind ⟨core, true, [⟨program, none⟩]⟩)
    (executing : Executing routine program core index) (early : index < 20)
    (fetch : (code irqVector)[index]? = some instr) (next : straight instr = true) :
    Run routine irqVector kind ⟨Arm.exec (intc sirIrq) core instr, true, [⟨program, none⟩]⟩ ∧
      Executing routine program (Arm.exec (intc sirIrq) core instr) (index + 1) := by
  have stepped := outside.exec sirIrq run executing early fetch
  rw [follow_straight next] at stepped
  exact ⟨stepped, executing.next fetch next (by omega)⟩

/-! ## Up to the acknowledgement -/

/-- The entry. -/
theorem Run.entered (routine irqVector : Word) (mode : program.mode = modeSys)
    (unmasked : program.masked = false) (outside : Outside routine kind) :
    Run routine irqVector kind ⟨enter routine program, true, [⟨program, none⟩]⟩ := by
  have requested : Machine.interrupted ⟨program, true, []⟩ = true := by
    change (true && !program.masked) = true
    rw [unmasked]
    rfl
  have idle : ¬Machine.Exposed routine ⟨program, true, []⟩ := by
    rintro ⟨_, _, runs, _⟩
    cases runs
  exact Run.step (.start mode) (outside _ idle) (.enter requested)

/-- The number of the active interrupt is read and compared. -/
theorem Run.tested (sirIrq : Word) (outside : Outside routine kind)
    (run : Run routine irqVector kind ⟨core, true, [⟨program, none⟩]⟩)
    (executing : Executing routine program core 6) :
    ∃ after, Run routine irqVector kind ⟨after, true, [⟨program, none⟩]⟩ ∧
      Executing routine program after 9 ∧ after.ge = (Irq.cmp sirIrq 0x80).ge := by
  have code (index : Nat) : (code irqVector)[index]? = (code irqVector)[index]? := rfl
  obtain ⟨based, at_ldr⟩ := outside.next sirIrq run executing (by decide)
    (code 6 : _ = some (.ldrConst .r0 socAintcRegs)) rfl
  obtain ⟨read, at_cmp⟩ := outside.next sirIrq based at_ldr (by decide)
    (code 7 : _ = some (.ldr .r1 .r0 intcSirIrq)) rfl
  obtain ⟨compared, at_branch⟩ := outside.next sirIrq read at_cmp (by decide)
    (code 8 : _ = some (.cmp .r1 0x80)) rfl
  exact ⟨_, compared, at_branch, ge_exec_cmp .r1 0x80⟩

/-- A handler with a critical section, which returns. -/
theorem Run.through (sirIrq : Word) (outside : Outside routine kind)
    (run : Run routine irqVector kind ⟨core, true, [⟨program, none⟩]⟩)
    (executing : Executing routine program core 12) :
    ∃ after, Run routine irqVector kind ⟨after, true, [⟨program, none⟩]⟩ ∧
      Executing routine program after 13 := by
  obtain ⟨saved, back, masked⟩ := executing.call sirIrq
  have called := outside.exec sirIrq run executing (by decide) rfl
  change Run routine irqVector kind ⟨exec (intc sirIrq) core (.blx .r2), true,
    [⟨program, some ⟨exec (intc sirIrq) core (.blx .r2), []⟩⟩]⟩ at called
  generalize exec (intc sirIrq) core (.blx .r2) = call at saved back masked called
  have holds (core : Core) (handler : Handler) :
      kind ⟨core, true, [⟨program, some handler⟩]⟩ := by
    refine outside _ ?_
    rintro ⟨_, _, runs, _⟩
    cases runs
  have free {core : Core} (masked : core.masked = true) (handler : Handler) :
      Machine.interrupted ⟨core, true, [⟨program, some handler⟩]⟩ = false := by
    change (true && !core.masked) = false
    rw [masked]
    rfl
  have level : Run routine irqVector kind ⟨call, true,
      [⟨program, some ⟨call, [sysArchLevel call]⟩⟩]⟩ :=
    called.step (holds ..) (.level (free masked _) rfl)
  have guarded : Run routine irqVector kind ⟨intMasterIRQDisable call, true,
      [⟨program, some ⟨call, [sysArchLevel call]⟩⟩]⟩ :=
    level.step (holds ..) (.protect (free masked _) rfl)
  have left : Run routine irqVector kind
      ⟨sysArchUnprotect (sysArchLevel call) (intMasterIRQDisable call), true,
        [⟨program, some ⟨call, []⟩⟩]⟩ :=
    guarded.step (holds ..) (.unprotect (free masked_disable _) rfl rfl)
  rw [sysArchUnprotect_masked (sysArchLevel_masked masked)] at left
  have mode : (intMasterIRQDisable call).mode = call.mode :=
    (mode_control ..).trans (mode_orr call.cpsr)
  have same : (defHandler call).masked = (intMasterIRQDisable call).masked :=
    Eq.trans masked masked_disable.symm
  have worked : Run routine irqVector kind ⟨defHandler call, true,
      [⟨program, some ⟨call, []⟩⟩]⟩ :=
    left.step (holds ..) (.work (free masked_disable _) rfl mode.symm same)
  have conforms : Conforms call (defHandler call) := conforms_defHandler saved.mode
  have returned : Run routine irqVector kind ⟨defHandler call, true, [⟨program, none⟩]⟩ :=
    worked.step (holds ..) (.ret (free masked ⟨call, []⟩) rfl conforms)
  exact ⟨_, returned, executing_handled saved back masked conforms⟩

/-- The handler of the active interrupt is called. -/
theorem Run.handled (sirIrq : Word) (outside : Outside routine kind)
    (run : Run routine irqVector kind ⟨core, true, [⟨program, none⟩]⟩)
    (executing : Executing routine program core 9) (active : core.ge = false) :
    ∃ after, Run routine irqVector kind ⟨after, true, [⟨program, none⟩]⟩ ∧
      Executing routine program after 13 := by
  have branched := outside.exec sirIrq run executing (by decide) rfl
  have passed := executing.branch sirIrq
  rw [if_neg (ne_true_of_eq_false active)] at passed
  obtain ⟨call, reached, at_call⟩ := branched.forward sirIrq 12 passed (by decide) (by decide)
    (fun index _ below => outside.goes (by omega)) fun index above below => by omega
  exact reached.through sirIrq outside at_call

/-- The routine gets to the instructions that enable interrupts. -/
theorem Run.acknowledged (sirIrq : Word) (outside : Outside routine kind)
    (run : Run routine irqVector kind ⟨core, true, [⟨program, none⟩]⟩)
    (executing : Executing routine program core 0) :
    ∃ after, Run routine irqVector kind ⟨after, true, [⟨program, none⟩]⟩ ∧
      Executing routine program after 18 := by
  obtain ⟨saved, begun, at_ldr⟩ := run.forward sirIrq 6 executing (by decide) (by decide)
    (fun index _ below => outside.goes (by omega)) fun index _ below => by omega
  obtain ⟨tested, reached, at_branch, _⟩ := begun.tested sirIrq outside at_ldr
  have finish {core : Core} (run : Run routine irqVector kind ⟨core, true, [⟨program, none⟩]⟩)
      (executing : Executing routine program core 13) :=
    run.forward sirIrq 18 executing (by decide) (by decide)
      (fun index _ below => outside.goes (by omega)) fun index above below => by omega
  cases ge : tested.ge with
  | false =>
      obtain ⟨after, returned, behind⟩ := reached.handled sirIrq outside at_branch ge
      exact finish returned behind
  | true =>
      have branched := outside.exec sirIrq reached at_branch (by decide) rfl
      have taken := at_branch.branch sirIrq
      rw [if_pos ge] at taken
      exact finish branched taken

/-! ## Up to the last instruction -/

/-- A request is served and taken back, and the routine gets to its last instruction. -/
theorem Run.served (routine irqVector sirIrq : Word) (mode : program.mode = modeSys)
    (unmasked : program.masked = false) (active : (Irq.cmp sirIrq 0x80).ge = false) :
    ∃ core, Run routine irqVector (Machine.Quiet routine) ⟨core, false, [⟨program, none⟩]⟩ ∧
      Executing routine program core 23 := by
  have outside : Outside routine (Machine.Quiet routine) := fun _ away exposed =>
    absurd exposed away
  have early {first last : Nat} (below : last ≤ 20) : ∀ index, first ≤ index → index < last →
      Goes routine (Machine.Quiet routine) program true index :=
    fun index _ below => outside.goes (by omega)
  have entered : Run routine irqVector _ _ := .entered routine irqVector mode unmasked outside
  obtain ⟨_, saved, at_ldr⟩ := entered.forward sirIrq 6 executing_enter (by decide) (by decide)
    (early (by decide)) fun index _ below => by omega
  obtain ⟨_, tested, at_branch, ge⟩ := saved.tested sirIrq outside at_ldr
  obtain ⟨_, handled, behind⟩ := tested.handled sirIrq outside at_branch (ge.trans active)
  obtain ⟨_, told, at_msr⟩ := handled.forward sirIrq 19 behind (by decide) (by decide)
    (early (by decide)) fun index above below => by omega
  have taken_back := told.step (outside _ (at_msr.not_exposed (by decide))) (.request false)
  have late (index : Nat) : Goes routine (Machine.Quiet routine) program false index :=
    fun _ _ => ⟨rfl, fun _ => rfl⟩
  exact taken_back.forward sirIrq 23 at_msr (by decide) (by decide) (fun index _ _ => late index)
    fun index above below => by omega

end BbbEth.Service
