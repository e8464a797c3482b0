import BbbEth.Irq.Frame

/-!
# Interrupts within interrupts

A machine on which a program runs in SYS mode and a request may come up at every instruction, with
the entries into `irq_isr` that have not returned.
-/

namespace BbbEth.Service

open Arm

/-! ## Critical sections -/

/-- `IntMasterStatusGet`. -/
def intMasterStatusGet (core : Core) : Word := core.cpsr &&& 0xc0

/-- `IntMasterIRQEnable`. -/
def intMasterIRQEnable (core : Core) : Core :=
  let after := [.mrsCpsr .r0, .bic .r0 .r0 0x80, .msrCpsrC .r0].foldl (exec fun _ => none) core
  { after with pc := after.lr }

/-- `IntMasterIRQDisable`. -/
def intMasterIRQDisable (core : Core) : Core :=
  let after := [.mrsCpsr .r0, .orr .r0 .r0 0x80, .msrCpsrC .r0].foldl (exec fun _ => none) core
  { after with pc := after.lr }

/-- The level that `sys_arch_protect` returns, before it disables interrupts. -/
def sysArchLevel (core : Core) : Word := intMasterStatusGet core &&& 0xff

/-- `sys_arch_unprotect`. -/
def sysArchUnprotect (level : Word) (core : Core) : Core :=
  if level &&& 0x80 = 0 then intMasterIRQEnable core else core

/-! ## The machine -/

/-- `irq_isr`. -/
def code (irqVector : Word) : List Instr :=
  prologue ++ spurious :: dispatch irqVector ++ epilogue

/-- A handler that runs: the core at its call, and the levels of its critical sections. -/
structure Handler where
  call : Core
  levels : List Word

/-- An entry that has not returned: the program behind it, and its handler while that runs. -/
structure Entry where
  program : Core
  handler : Option Handler

/-- The core, the request line of the interrupt controller, and the entries, the last one first. -/
structure Machine where
  core : Core
  request : Bool
  entries : List Entry

/-- The core takes an interrupt before it goes on. -/
def Machine.interrupted (machine : Machine) : Bool := machine.request && !machine.core.masked

/-- What an instruction of the routine does to the entries. -/
def follow (core : Core) : Instr → List Entry → List Entry
  | .blx _, entry :: entries => { entry with handler := some ⟨core, []⟩ } :: entries
  | .subsPcLr _, _ :: entries => entries
  | _, entries => entries

/-- The steps.  Requests come and go.  The program does anything in its mode.  The routine runs
from `routine`, on whatever the interrupt controller answers.  A handler does anything but change
its mode and the I bit, which it changes in critical sections, and conforms when it returns. -/
inductive Step (routine irqVector : Word) : Machine → Machine → Prop where
  | request {machine : Machine} (request : Bool) :
      Step routine irqVector machine { machine with request }
  | enter {machine : Machine} (taken : machine.interrupted = true) :
      Step routine irqVector machine { machine with
        core := enter routine machine.core
        entries := ⟨machine.core, none⟩ :: machine.entries }
  | program {machine : Machine} {after : Core} (free : machine.interrupted = false)
      (idle : machine.entries = []) (mode : after.mode = machine.core.mode) :
      Step routine irqVector machine { machine with core := after }
  | exec {machine : Machine} {program : Core} {entries : List Entry} {index : Nat} {instr : Instr}
      (sirIrq : Word) (free : machine.interrupted = false)
      (runs : machine.entries = ⟨program, none⟩ :: entries)
      (place : machine.core.pc = routine + 4 * BitVec.ofNat 32 index)
      (fetch : (code irqVector)[index]? = some instr) :
      Step routine irqVector machine { machine with
        core := exec (intc sirIrq) machine.core instr
        entries := follow (exec (intc sirIrq) machine.core instr) instr machine.entries }
  | work {machine : Machine} {program : Core} {handler : Handler} {entries : List Entry}
      {after : Core} (free : machine.interrupted = false)
      (runs : machine.entries = ⟨program, some handler⟩ :: entries)
      (mode : after.mode = machine.core.mode) (masked : after.masked = machine.core.masked) :
      Step routine irqVector machine { machine with core := after }
  | level {machine : Machine} {program : Core} {handler : Handler} {entries : List Entry}
      (free : machine.interrupted = false)
      (runs : machine.entries = ⟨program, some handler⟩ :: entries) :
      Step routine irqVector machine { machine with
        entries := ⟨program, some { handler with
          levels := sysArchLevel machine.core :: handler.levels }⟩ :: entries }
  | protect {machine : Machine} {program : Core} {handler : Handler} {entries : List Entry}
      (free : machine.interrupted = false)
      (runs : machine.entries = ⟨program, some handler⟩ :: entries) :
      Step routine irqVector machine { machine with core := intMasterIRQDisable machine.core }
  | unprotect {machine : Machine} {program : Core} {handler : Handler} {entries : List Entry}
      {level : Word} {levels : List Word} (free : machine.interrupted = false)
      (runs : machine.entries = ⟨program, some handler⟩ :: entries)
      (held : handler.levels = level :: levels) :
      Step routine irqVector machine { machine with
        core := sysArchUnprotect level machine.core
        entries := ⟨program, some { handler with levels }⟩ :: entries }
  | ret {machine : Machine} {program : Core} {handler : Handler} {entries : List Entry}
      (free : machine.interrupted = false)
      (runs : machine.entries = ⟨program, some handler⟩ :: entries)
      (conforms : Conforms handler.call machine.core) :
      Step routine irqVector machine { machine with entries := ⟨program, none⟩ :: entries }

/-- The states of a run in which every step starts in a state of a kind. -/
inductive Run (routine irqVector : Word) (kind : Machine → Prop) : Machine → Prop where
  | start {core : Core} {request : Bool} (mode : core.mode = modeSys) :
      Run routine irqVector kind ⟨core, request, []⟩
  | step {machine after : Machine} (run : Run routine irqVector kind machine)
      (holds : kind machine) (step : Step routine irqVector machine after) :
      Run routine irqVector kind after

/-! ## No interrupts within interrupts -/

/-- The routine is at its last instructions, behind the one that enables interrupts. -/
def Machine.Exposed (routine : Word) (machine : Machine) : Prop :=
  ∃ program entries, machine.entries = ⟨program, none⟩ :: entries ∧
    ∃ index, 20 ≤ index ∧ index < 24 ∧ machine.core.pc = routine + 4 * BitVec.ofNat 32 index

/-- No request is pending there. -/
def Machine.Quiet (routine : Word) (machine : Machine) : Prop :=
  machine.Exposed routine → machine.request = false

/-- There is no second entry, and the last instruction returns from the only one. -/
structure Machine.Exclusive (routine : Word) (machine : Machine) : Prop where
  single : machine.entries.length ≤ 1
  irqLr : ∀ program entries, machine.entries = ⟨program, none⟩ :: entries →
    machine.core.pc = routine + 4 * BitVec.ofNat 32 23 →
      machine.core.irqLr = program.pc + 4
  spsrIrq : ∀ program entries, machine.entries = ⟨program, none⟩ :: entries →
    machine.core.pc = routine + 4 * BitVec.ofNat 32 23 →
      machine.core.spsrIrq = program.cpsr
  resumes : ∀ program entries, machine.entries = ⟨program, none⟩ :: entries →
    machine.core.pc = routine + 4 * BitVec.ofNat 32 23 → ∀ device,
      (exec device machine.core (.subsPcLr 4)).pc = program.pc ∧
        (exec device machine.core (.subsPcLr 4)).mode = program.mode

end BbbEth.Service
