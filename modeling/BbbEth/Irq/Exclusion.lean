import BbbEth.Irq.Passage

/-!
# One interrupt at a time

What holds of the entries into `irq_isr` in every run in which no request is pending at its last
instructions.
-/

namespace BbbEth.Service

open Arm

variable {program core : Core} {instr : Instr} {routine irqVector sirIrq : Word} {index : Nat}

/-! ## Runs -/

/-- A machine with one entry at most, and that in order. -/
inductive Orderly (routine : Word) : Machine → Prop where
  | program {core : Core} {request : Bool} (mode : core.mode = modeSys) :
      Orderly routine ⟨core, request, []⟩
  | service {program core : Core} {request : Bool} {index : Nat}
      (mode : program.mode = modeSys) (executing : Executing routine program core index) :
      Orderly routine ⟨core, request, [⟨program, none⟩]⟩
  | handler {program core : Core} {request : Bool} {handler : Handler}
      (mode : program.mode = modeSys) (saved : Saved program handler.call)
      (back : handler.call.irqLr = routine + 4 * BitVec.ofNat 32 13)
      (masked : core.masked = true)
      (levels : ∀ level ∈ handler.levels, level &&& 0x80 ≠ 0) :
      Orderly routine ⟨core, request, [⟨program, some handler⟩]⟩

variable {machine next : Machine}

/-- An interrupt is taken with interrupts enabled only. -/
theorem unmasked_of_taken (taken : machine.interrupted = true) :
    machine.request = true ∧ machine.core.masked = false := by
  unfold Machine.interrupted at taken
  rwa [Bool.and_eq_true, Bool.not_eq_true'] at taken

/-- The routine is not interrupted, as long as no request is pending at its last instructions. -/
theorem Executing.kept_out {request : Bool} (executing : Executing routine program core index)
    (quiet : Machine.Quiet routine ⟨core, request, [⟨program, none⟩]⟩)
    (taken : Machine.interrupted ⟨core, request, [⟨program, none⟩]⟩ = true) : False := by
  obtain ⟨requested, unmasked⟩ := unmasked_of_taken taken
  by_cases early : index < 20
  · rw [executing.masked early] at unmasked
    cases unmasked
  · have exposed : Machine.Exposed routine ⟨core, request, [⟨program, none⟩]⟩ :=
      ⟨program, [], rfl, index, by omega, executing.inside, executing.place⟩
    rw [quiet exposed] at requested
    cases requested

/-- An instruction of the routine. -/
theorem Executing.orderly {request : Bool} (executing : Executing routine program core index)
    (mode : program.mode = modeSys) (fetch : (code irqVector)[index]? = some instr) :
    Orderly routine ⟨exec (intc sirIrq) core instr, request,
      follow (exec (intc sirIrq) core instr) instr [⟨program, none⟩]⟩ := by
  obtain ⟨next, inside⟩ | ⟨rfl, rfl⟩ | ⟨rfl, rfl⟩ | ⟨rfl, rfl⟩ := code_cases fetch
  · rw [follow_straight next]
    exact .service mode (executing.next fetch next inside)
  · exact .service mode (executing.branch sirIrq)
  · obtain ⟨saved, back, masked⟩ := executing.call sirIrq
    exact .handler mode saved back masked fun _ member => absurd member List.not_mem_nil
  · have restored : Restored program core := executing.stage
    have returned : Returned program (exec (intc sirIrq) core (.subsPcLr 4)) := restored.returned
    exact .program ((congrArg (· &&& modeMask) returned.cpsr).trans mode)

theorem Orderly.step (orderly : Orderly routine machine) (quiet : machine.Quiet routine)
    (step : Step routine irqVector machine next) : Orderly routine next := by
  cases step with
  | request request =>
      cases orderly with
      | program mode => exact .program mode
      | service mode executing => exact .service mode executing
      | handler mode saved back masked levels => exact .handler mode saved back masked levels
  | enter taken =>
      cases orderly with
      | program mode => exact .service mode executing_enter
      | service mode executing => exact absurd taken (executing.kept_out quiet)
      | handler mode saved back masked levels =>
          have unmasked := (unmasked_of_taken taken).2
          rw [masked] at unmasked
          cases unmasked
  | program free idle kept =>
      cases orderly with
      | program mode => exact .program (kept.trans mode)
      | service mode executing => cases idle
      | handler mode saved back masked levels => cases idle
  | exec sirIrq free runs place fetch =>
      cases orderly with
      | program mode => cases runs
      | service mode executing =>
          have inside := index_lt fetch
          cases runs
          obtain rfl := index_eq executing.inside inside (executing.place.symm.trans place)
          exact executing.orderly mode fetch
      | handler mode saved back masked levels => cases runs
  | work free runs kept same =>
      cases orderly with
      | program mode => cases runs
      | service mode executing => cases runs
      | handler mode saved back masked levels =>
          exact .handler mode saved back (same.trans masked) levels
  | level free runs =>
      cases orderly with
      | program mode => cases runs
      | service mode executing => cases runs
      | handler mode saved back masked levels =>
          cases runs
          refine .handler mode saved back masked ?_
          exact List.forall_mem_cons.2 ⟨sysArchLevel_masked masked, levels⟩
  | protect free runs =>
      cases orderly with
      | program mode => cases runs
      | service mode executing => cases runs
      | handler mode saved back masked levels =>
          exact .handler mode saved back masked_disable levels
  | unprotect free runs held =>
      cases orderly with
      | program mode => cases runs
      | service mode executing => cases runs
      | handler mode saved back masked levels =>
          cases runs
          rw [held] at levels
          obtain ⟨first, rest⟩ := List.forall_mem_cons.1 levels
          rw [sysArchUnprotect_masked first]
          exact .handler mode saved back masked rest
  | ret free runs conforms =>
      cases orderly with
      | program mode => cases runs
      | service mode executing => cases runs
      | handler mode saved back masked levels =>
          cases runs
          exact .service mode (executing_handled saved back masked conforms)

theorem Run.orderly (run : Run routine irqVector (Machine.Quiet routine) machine) :
    Orderly routine machine := by
  induction run with
  | start mode => exact .program mode
  | step run quiet step ih => exact ih.step quiet step

/-- What holds of the entry at the last instruction. -/
theorem Orderly.restored (orderly : Orderly routine machine) {entries : List Entry}
    (runs : machine.entries = ⟨program, none⟩ :: entries)
    (place : machine.core.pc = routine + 4 * BitVec.ofNat 32 23) :
    Restored program machine.core := by
  cases orderly with
  | program mode => cases runs
  | service mode executing =>
      cases runs
      obtain rfl := index_eq executing.inside (by decide) (executing.place.symm.trans place)
      exact executing.stage
  | handler mode saved back masked levels => cases runs

/-- In a run in which no request is pending at the last instructions of the routine, there are no
interrupts within interrupts. -/
theorem Run.exclusive (run : Run routine irqVector (Machine.Quiet routine) machine) :
    machine.Exclusive routine where
  single := by
    cases run.orderly with
    | program mode => exact Nat.zero_le _
    | service mode executing => exact Nat.le_refl _
    | handler mode saved back masked levels => exact Nat.le_refl _
  irqLr _ _ runs place := (run.orderly.restored runs place).irqLr
  spsrIrq _ _ runs place := (run.orderly.restored runs place).spsrIrq
  resumes program _ runs place device := by
    have returned : Returned program (exec device machine.core (.subsPcLr 4)) :=
      (run.orderly.restored runs place).returned
    exact ⟨returned.pc, congrArg (· &&& modeMask) returned.cpsr⟩

/-- It holds at the last instruction, behind a handler that was called with a request pending
until the routine was about to enable interrupts, and in the program behind it. -/
theorem exclusive_served : ∃ core : Core, core.pc = 0x40301000 + 4 * BitVec.ofNat 32 23 ∧
    Machine.Exclusive 0x40301000 ⟨core, false, [⟨idle, none⟩]⟩ ∧
    Machine.Exclusive 0x40301000 ⟨exec (intc 41) core (.subsPcLr 4), false, []⟩ := by
  obtain ⟨core, run, executing⟩ := Run.served 0x40301000 0x40300000 41 (rfl : idle.mode = modeSys)
    rfl rfl
  have left := run.step (fun _ => rfl) (.exec 41 rfl rfl executing.place rfl)
  exact ⟨core, executing.place, Run.exclusive run, Run.exclusive left⟩

end BbbEth.Service
