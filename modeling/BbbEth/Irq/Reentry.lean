import BbbEth.Irq.Exclusion

/-!
# Interrupts within interrupts

From every program that can be interrupted, a second entry into `irq_isr` before the first returns.
-/

namespace BbbEth.Service

open Arm

variable {program core : Core} {routine irqVector : Word} {index : Nat}
variable {kind : Machine → Prop}

/-- A request that stays pending is taken behind the instruction that enables interrupts. -/
theorem exists_nested (routine irqVector sirIrq : Word) (mode : program.mode = modeSys)
    (unmasked : program.masked = false) (any : ∀ machine, kind machine) :
    ∃ machine, Run routine irqVector kind machine ∧ machine.entries.length = 2 := by
  have outside : Outside routine kind := fun machine _ => any machine
  have entered : Run routine irqVector kind _ := .entered routine irqVector mode unmasked outside
  obtain ⟨core, reached, executing⟩ := entered.acknowledged sirIrq outside executing_enter
  have cleared := Run.step reached (any _)
    (.exec sirIrq (executing.free (by decide)) rfl executing.place rfl)
  have fetch : (code irqVector)[18]? = some (.bic .r1 .r1 0x80) := rfl
  have clear : Executing routine program (exec (intc sirIrq) core (.bic .r1 .r1 0x80)) 19 :=
    executing.next fetch rfl (by decide)
  have enabled := Run.step cleared (any _)
    (.exec sirIrq (clear.free (by decide)) rfl clear.place rfl)
  have enables : (exec (intc sirIrq) (exec (intc sirIrq) core (.bic .r1 .r1 0x80))
      (.msrCpsrC .r1)).masked = false := by
    refine (masked_control _ _).trans ?_
    change (core.regs .r1 &&& ~~~irqDisable).getLsbD 7 = false
    rw [BitVec.getLsbD_and]
    exact Bool.and_false _
  refine ⟨_, Run.step enabled (any _) (.enter ?_), rfl⟩
  change (true && !(exec (intc sirIrq) (exec (intc sirIrq) core (.bic .r1 .r1 0x80))
    (.msrCpsrC .r1)).masked) = true
  rw [enables]
  rfl

/-- Without a condition on the requests, a second entry is reached. -/
theorem not_exclusive : ¬∀ machine, Run 0x40301000 0x40300000 (fun _ => True) machine →
    machine.Exclusive 0x40301000 := by
  intro exclusive
  obtain ⟨machine, run, entries⟩ := exists_nested 0x40301000 0x40300000 41
    (rfl : idle.mode = modeSys) rfl fun _ => trivial
  have single := (exclusive machine run).single
  rw [entries] at single
  cases single with
  | step le => cases le

end BbbEth.Service
