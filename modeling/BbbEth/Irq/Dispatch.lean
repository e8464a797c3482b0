import Mathlib.Data.BitVec

/-!
# Interrupt dispatch

`irq_isr` reads the number of the active interrupt, branches through the table of the handlers and
acknowledges the controller.  The controller sets the upper bits of the number when the interrupt
is spurious.
-/

namespace BbbEth.Irq

abbrev Word := BitVec 32

/-! ## Comparison -/

/-- The flags of `cmp` that the signed conditions test. -/
structure Flags where
  n : Bool
  v : Bool

def cmp (first second : Word) : Flags where
  n := (first - second).msb
  v := (first.msb != second.msb) && ((first - second).msb != first.msb)

/-- The condition of `bge`. -/
def Flags.ge (flags : Flags) : Bool := flags.n == flags.v

/-- The condition holds if the first number is not less, as a signed number. -/
theorem ge_cmp {first second : Word} : (cmp first second).ge = second.sle first := by
  have wrapped := Int.bmod_add_bdiv (first.toInt - second.toInt) (2 ^ 32)
  rw [← BitVec.toInt_sub] at wrapped
  have least := BitVec.le_toInt (first - second)
  have less := BitVec.toInt_lt (x := first - second)
  have firstLeast := BitVec.le_toInt first
  have firstLess := BitVec.toInt_lt (x := first)
  have secondLeast := BitVec.le_toInt second
  have secondLess := BitVec.toInt_lt (x := second)
  have compare : second.sle first = decide (second.toInt ≤ first.toInt) := rfl
  simp only [cmp, Flags.ge, compare, BitVec.msb_eq_toInt]
  generalize (first - second).toInt = difference at *
  generalize first.toInt = value at *
  generalize second.toInt = value' at *
  by_cases negative : value < 0 <;> by_cases negative' : value' < 0 <;>
    by_cases below : difference < 0 <;> by_cases le : value' ≤ value <;>
    simp only [negative, negative', below, le, decide_true, decide_false] <;>
    first | rfl | omega

/-! ## The routine -/

/-- The handlers of the table. -/
inductive Isr where
  | defIsr
  | dmaCompletionISR
  | dmaCCErrorISR
  | gpioIsr
  | eth0RxIsr
  | eth0TxIsr
  | mmc0Isr
  | uart0Isr
  | rtcIsr
  deriving DecidableEq

/-- The number of words of `irq_vector`. -/
def vectors : Nat := 128

/-- `irq_vector`. -/
def irqVector : Nat → Isr
  | 12 => .dmaCompletionISR
  | 13 => .dmaCCErrorISR
  | 32 => .gpioIsr
  | 41 => .eth0RxIsr
  | 42 => .eth0TxIsr
  | 64 => .mmc0Isr
  | 72 => .uart0Isr
  | 75 => .rtcIsr
  | _ => .defIsr

/-- A memory in which the table is linked. -/
structure Image where
  memory : Word → Word
  /-- The address of the table. -/
  base : Word
  address : Isr → Word
  linked : ∀ number < vectors, memory (base + 4 * BitVec.ofNat 32 number) =
    address (irqVector number)

def socAintcRegs : Word := 0x48200000
def intcSirIrq : Word := 0x40
def intcControl : Word := 0x48

/-- What the routine does, one step after the other. -/
inductive Act where
  | disableIrq
  | ldr (address : Word)
  | blx (address : Word)
  | str (address value : Word)
  | dsb
  | enableIrq
  | leave
  deriving DecidableEq

/-- `irq_isr`, for the value of the register that it reads. -/
def irqIsr (image : Image) (sirIrq : Word) : List Act :=
  [.disableIrq, .ldr (socAintcRegs + intcSirIrq)] ++
    (if (cmp sirIrq 0x80).ge then []
    else
      [.ldr (image.base + sirIrq <<< 2), .blx (image.memory (image.base + sirIrq <<< 2))]) ++
    [.str (socAintcRegs + intcControl) 0x1, .dsb, .enableIrq, .leave]

/-! ## Dispatch -/

def intcSirIrqActiveirq : Word := 0x0000007F
def intcSirIrqSpuriousirq : Word := 0xFFFFFF80

/-- The address of a branch. -/
def Act.target : Act → Option Word
  | .blx address => some address
  | _ => none

/-- The handlers that a run calls. -/
def called (acts : List Act) : List Word := acts.filterMap Act.target

/-- The handler of the active interrupt is called, and none for a spurious one; the controller is
acknowledged once. -/
structure Dispatches (image : Image) (sirIrq : Word) (acts : List Act) : Prop where
  active : sirIrq &&& intcSirIrqSpuriousirq = 0 →
    called acts = [image.address (irqVector (sirIrq &&& intcSirIrqActiveirq).toNat)]
  spurious : sirIrq &&& intcSirIrqSpuriousirq ≠ 0 → called acts = []
  acknowledges : acts.count (.str (socAintcRegs + intcControl) 0x1) = 1

section Dispatch

variable {image : Image} {sirIrq : Word}

theorem called_irqIsr : called (irqIsr image sirIrq) =
    if (cmp sirIrq 0x80).ge then [] else [image.memory (image.base + sirIrq <<< 2)] := by
  unfold irqIsr
  split
  · rfl
  · rfl

theorem acknowledges_irqIsr :
    (irqIsr image sirIrq).count (.str (socAintcRegs + intcControl) 0x1) = 1 := by
  unfold irqIsr
  split
  · simp
  · simp

/-- The values with no spurious bit. -/
theorem spurious_eq_zero_iff : sirIrq &&& intcSirIrqSpuriousirq = 0 ↔ sirIrq.toNat < vectors := by
  have mask : ∀ index < 32, intcSirIrqSpuriousirq.getLsbD index = decide (7 ≤ index) := by decide
  constructor
  · intro zero
    apply Nat.lt_pow_two_of_testBit (n := 7)
    intro index above
    by_cases inside : index < 32
    · have bit := congrArg (fun word : Word => word.getLsbD index) zero
      simp only [BitVec.getLsbD_and, mask index inside, decide_eq_true above, Bool.and_true] at bit
      rw [BitVec.testBit_toNat]
      exact bit.trans BitVec.getLsbD_zero
    · exact BitVec.getLsbD_of_ge sirIrq index (Nat.not_lt.mp inside)
  · intro small
    apply BitVec.eq_of_getLsbD_eq
    intro index inside
    rw [BitVec.getLsbD_and, mask index inside]
    refine Eq.trans ?_ BitVec.getLsbD_zero.symm
    by_cases above : 7 ≤ index
    · have power : 2 ^ 7 ≤ 2 ^ index := Nat.pow_le_pow_right (by decide) above
      rw [← BitVec.testBit_toNat, Nat.testBit_lt_two_pow (small.trans_le power), Bool.false_and]
    · rw [decide_eq_false above, Bool.and_false]

/-- The branch is left out for the values from the length of the table on that are not
negative. -/
theorem ge_iff : (cmp sirIrq 0x80).ge = true ↔ sirIrq.msb = false ∧ vectors ≤ sirIrq.toNat := by
  have length : (0x80 : Word).toInt = 128 := by decide
  rw [ge_cmp, BitVec.sle_iff_toInt_le, length, BitVec.toInt_eq_msb_cond, vectors]
  have less := sirIrq.isLt
  cases sirIrq.msb with
  | false =>
      rw [if_neg (by decide), and_iff_right rfl]
      omega
  | true =>
      rw [if_pos rfl]
      exact iff_of_false (by omega) fun both => absurd both.1 (by decide)

theorem active_eq (small : sirIrq.toNat < vectors) :
    (sirIrq &&& intcSirIrqActiveirq).toNat = sirIrq.toNat := by
  have mask : intcSirIrqActiveirq.toNat = 2 ^ 7 - 1 := by decide
  rw [BitVec.toNat_and, mask, Nat.and_two_pow_sub_one_eq_mod]
  exact Nat.mod_eq_of_lt small

/-- The word that the branch goes through. -/
theorem loaded_eq (small : sirIrq.toNat < vectors) :
    image.memory (image.base + sirIrq <<< 2) = image.address (irqVector sirIrq.toNat) := by
  rw [← image.linked _ small, BitVec.ofNat_toNat, BitVec.setWidth_eq, BitVec.mul_comm]
  congr 2
  exact BitVec.shiftLeft_eq_mul_twoPow ..

/-- The interrupt is dispatched unless the value of the register is negative. -/
theorem dispatches_iff (image : Image) (sirIrq : Word) :
    Dispatches image sirIrq (irqIsr image sirIrq) ↔ sirIrq.msb = false := by
  constructor
  · intro dispatches
    by_contra negative
    have large : ¬ sirIrq.toNat < vectors := by
      intro small
      rw [Bool.not_eq_false, BitVec.msb_eq_decide, decide_eq_true_iff] at negative
      have short : vectors < 2 ^ 31 := by decide
      omega
    have none := dispatches.spurious fun zero => large (spurious_eq_zero_iff.mp zero)
    have branches : (cmp sirIrq 0x80).ge ≠ true := fun ge => negative (ge_iff.mp ge).1
    rw [called_irqIsr, if_neg branches] at none
    cases none
  · intro positive
    refine ⟨fun zero => ?_, fun some => ?_, acknowledges_irqIsr⟩
    · have small := spurious_eq_zero_iff.mp zero
      have branches : (cmp sirIrq 0x80).ge ≠ true := fun ge =>
        Nat.not_lt.mpr (ge_iff.mp ge).2 small
      rw [called_irqIsr, if_neg branches, loaded_eq small, active_eq small]
    · have large : vectors ≤ sirIrq.toNat :=
        Nat.not_lt.mp fun small => some (spurious_eq_zero_iff.mpr small)
      rw [called_irqIsr, if_pos (ge_iff.mpr ⟨positive, large⟩)]

end Dispatch

/-- A memory with one word everywhere. -/
def flat : Image where
  memory _ := 0x80001000
  base := 0x80002000
  address _ := 0x80001000
  linked _ _ := rfl

/-- The value that the controller has for a spurious interrupt. -/
theorem not_dispatches : ¬ Dispatches flat 0xFFFFFFFF (irqIsr flat 0xFFFFFFFF) := by
  intro dispatches
  exact absurd (dispatches.spurious (by decide)) (by decide)

end BbbEth.Irq
