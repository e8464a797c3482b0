import BbbEth.Libc.Memory

/-!
# The routines of `libc.c` that compare

`strcmp`, `strncmp` and `memcmp` give the sign of the lexicographic order, and look at nothing
behind the first difference.  A `char` has no sign.
-/

namespace BbbEth.Libc

open Loops

/-- `return *s1 - *s2;`. -/
def difference (s1 s2 : Nat) (memory : Memory) : Int × Memory :=
  let (first, memory) := memory.load s1
  let (second, memory) := memory.load s2
  (first.toNat - second.toNat, memory)

/-- A round of `while ((*s1 && *s2) && (*s1 == *s2)) s1++, s2++;`, with what is returned behind
it. -/
def strcmpRound : Nat × Nat × Memory → (Nat × Nat × Memory) ⊕ (Int × Memory)
  | (s1, s2, memory) =>
      let (first, memory) := memory.load s1
      if first = 0 then .inr (difference s1 s2 memory) else
      let (second, memory) := memory.load s2
      if second = 0 then .inr (difference s1 s2 memory) else
      let (first, memory) := memory.load s1
      let (second, memory) := memory.load s2
      if first = second then .inl (s1 + 1, s2 + 1, memory)
      else .inr (difference s1 s2 memory)

/-- `strcmp`. -/
def strcmp (s1 s2 : Nat) (count : Nat) (memory : Memory) : Option (Int × Memory) :=
  run strcmpRound count (s1, s2, memory)

/-- The loop of `memcmp`, and of `strncmp`, which stops behind a zero. -/
def compareFrom (stops : Bool) : Nat → Nat → Nat → Memory → Int × Memory
  | 0, _, _, memory => (0, memory)
  | left + 1, cs, ct, memory =>
      let (first, memory) := memory.load cs
      let (second, memory) := memory.load ct
      if first < second then (-1, memory) else
      let (first, memory) := memory.load cs
      let (second, memory) := memory.load ct
      if second < first then (1, memory) else
      if stops then
        let (first, memory) := memory.load cs
        if first = 0 then (0, memory) else compareFrom stops left (cs + 1) (ct + 1) memory
      else compareFrom stops left (cs + 1) (ct + 1) memory

/-- `memcmp`. -/
def memcmp (cs ct n : Nat) (memory : Memory) : Int × Memory := compareFrom false n cs ct memory

/-- `strncmp`. -/
def strncmp (cs ct num : Nat) (memory : Memory) : Int × Memory :=
  compareFrom true num cs ct memory

/-! ## Comparisons -/

/-- The bytes from an address on. -/
def slice (byte : Nat → Byte) : Nat → Nat → List Byte
  | _, 0 => []
  | address, count + 1 => byte address :: slice byte (address + 1) count

/-- An address of a byte that is not behind the first difference, nor behind the end of a string,
and whose index is allowed. -/
def Scanned (allowed : Nat → Prop) (first second : Nat) (s t : List Byte) (address : Nat) : Prop :=
  ∃ index, allowed index ∧ index ≤ s.length ∧ index ≤ t.length ∧ s.take index = t.take index ∧
    (address = first + index ∨ address = second + index)

/-- A routine compares operands by their bytes: its result has the sign of the lexicographic order,
is antisymmetric and transitive, and only certain addresses are loaded from. -/
structure Compares {operand : Type} (memory : Memory) (bytes : operand → List Byte)
    (scanned : operand → operand → Nat → Prop)
    (returns : operand → operand → Int × Memory → Prop) : Prop where
  total : ∀ s t, ∃ outcome, returns s t outcome
  zero : ∀ {s t outcome}, returns s t outcome → (outcome.1 = 0 ↔ bytes s = bytes t)
  negative : ∀ {s t outcome}, returns s t outcome → (outcome.1 < 0 ↔ bytes s < bytes t)
  positive : ∀ {s t outcome}, returns s t outcome → (0 < outcome.1 ↔ bytes t < bytes s)
  antisymmetric : ∀ {s t outcome outcome'}, returns s t outcome → returns t s outcome' →
    outcome'.1.sign = -outcome.1.sign
  transitive : ∀ {s t u outcome outcome' outcome''}, returns s t outcome →
    returns t u outcome' → returns s u outcome'' → outcome.1 ≤ 0 → outcome'.1 ≤ 0 →
    outcome''.1 ≤ 0 ∧ (outcome.1 < 0 ∨ outcome'.1 < 0 → outcome''.1 < 0)
  reads : ∀ {s t outcome}, returns s t outcome → Reads (scanned s t) memory outcome.2
  same : ∀ {s t outcome}, returns s t outcome → outcome.2.byte = memory.byte

/-- The routines compare: strings, strings that are cut, and bytes. -/
structure Comparisons (memory : Memory) (n : Nat) : Prop where
  strcmp : Compares memory CString.text
    (fun (s t : CString memory) => Scanned (fun _ => True) s.address t.address s.text t.text)
    fun s t outcome => ∃ count, Libc.strcmp s.address t.address count memory = some outcome
  strncmp : Compares memory (fun (s : CString memory) => s.text.take n)
    (fun s t => Scanned (· < n) s.address t.address s.text t.text)
    fun s t outcome => Libc.strncmp s.address t.address n memory = outcome
  memcmp : Compares memory (fun a => slice memory.byte a n)
    (fun a b => Scanned (· < n) a b (slice memory.byte a n) (slice memory.byte b n))
    fun a b outcome => Libc.memcmp a b n memory = outcome

/-! ## The sign of the lexicographic order -/

def lexSign : List Byte → List Byte → Int
  | [], [] => 0
  | [], _ :: _ => -1
  | _ :: _, [] => 1
  | first :: s, second :: t =>
      if first < second then -1 else if second < first then 1 else lexSign s t

section Order

variable {first second : Byte} {s t u : List Byte}

theorem eq_of_not_lt (notLess : ¬ first < second) (notGreater : ¬ second < first) :
    first = second := by
  rw [BitVec.lt_def] at notLess notGreater
  exact BitVec.eq_of_toNat_eq (by omega)

theorem lexSign_swap (s t : List Byte) : lexSign t s = -lexSign s t := by
  induction s generalizing t with
  | nil => cases t <;> rfl
  | cons first s inductionHypothesis =>
      cases t with
      | nil => rfl
      | cons second t =>
          unfold lexSign
          by_cases less : first < second
          · rw [if_pos less, if_neg (BitVec.lt_asymm less), if_pos less]
            rfl
          · rw [if_neg less, if_neg less]
            split
            · rfl
            · exact inductionHypothesis t

theorem lexSign_neg : lexSign s t = -1 ↔ s < t := by
  induction s generalizing t with
  | nil =>
      cases t with
      | nil => exact iff_of_false (by decide) (List.lt_irrefl [])
      | cons second t => exact iff_of_true rfl (List.nil_lt_cons second t)
  | cons first s inductionHypothesis =>
      cases t with
      | nil => exact iff_of_false (show (1 : Int) ≠ -1 by decide) (List.not_lt_nil _)
      | cons second t =>
          rw [List.cons_lt_cons_iff]
          unfold lexSign
          by_cases less : first < second
          · rw [if_pos less]
            exact iff_of_true rfl (.inl less)
          · rw [if_neg less]
            by_cases greater : second < first
            · rw [if_pos greater]
              refine iff_of_false (by decide) (not_or.mpr ⟨less, fun same => ?_⟩)
              exact absurd (same.1 ▸ greater) (BitVec.lt_irrefl _)
            · rw [if_neg greater, inductionHypothesis]
              have same := eq_of_not_lt less greater
              constructor
              · exact fun rest => .inr ⟨same, rest⟩
              · exact fun either => (either.resolve_left less).2

theorem lexSign_zero : lexSign s t = 0 ↔ s = t := by
  induction s generalizing t with
  | nil => cases t <;> simp [lexSign]
  | cons first s inductionHypothesis =>
      cases t with
      | nil => simp [lexSign]
      | cons second t =>
          rw [List.cons.injEq]
          unfold lexSign
          by_cases less : first < second
          · rw [if_pos less]
            exact iff_of_false (by decide) fun same => absurd (same.1 ▸ less) (BitVec.lt_irrefl _)
          · rw [if_neg less]
            by_cases greater : second < first
            · rw [if_pos greater]
              exact iff_of_false (by decide)
                fun same => absurd (same.1 ▸ greater) (BitVec.lt_irrefl _)
            · rw [if_neg greater, inductionHypothesis]
              exact (and_iff_right (eq_of_not_lt less greater)).symm

theorem lexSign_pos : lexSign s t = 1 ↔ t < s := by
  rw [← lexSign_neg, lexSign_swap s t, neg_inj]

end Order

/-- A comparison of two lists of bytes. -/
structure Compared (sign : Int) (scanned : Nat → Prop) (memory : Memory)
    (outcome : Int × Memory) : Prop where
  sign : outcome.1.sign = sign
  same : outcome.2.byte = memory.byte
  reads : Reads scanned memory outcome.2

/-- A routine whose results have the sign of the order compares. -/
theorem compares_of {operand : Type} {memory : Memory} {bytes : operand → List Byte}
    {scanned : operand → operand → Nat → Prop}
    {returns : operand → operand → Int × Memory → Prop}
    (total : ∀ s t, ∃ outcome, returns s t outcome)
    (compared : ∀ s t outcome, returns s t outcome →
      Compared (lexSign (bytes s) (bytes t)) (scanned s t) memory outcome) :
    Compares memory bytes scanned returns := by
  have zero : ∀ {s t outcome}, returns s t outcome → (outcome.1 = 0 ↔ bytes s = bytes t) := by
    intro s t outcome given
    rw [← Int.sign_eq_zero_iff_zero, (compared s t outcome given).sign, lexSign_zero]
  have negative : ∀ {s t outcome}, returns s t outcome →
      (outcome.1 < 0 ↔ bytes s < bytes t) := by
    intro s t outcome given
    rw [← Int.sign_eq_neg_one_iff_neg, (compared s t outcome given).sign, lexSign_neg]
  have positive : ∀ {s t outcome}, returns s t outcome →
      (0 < outcome.1 ↔ bytes t < bytes s) := by
    intro s t outcome given
    rw [← Int.sign_eq_one_iff_pos, (compared s t outcome given).sign, lexSign_pos]
  refine ⟨total, zero, negative, positive, ?_, ?_, fun given => (compared _ _ _ given).reads,
    fun given => (compared _ _ _ given).same⟩
  · intro s t outcome outcome' given given'
    rw [(compared _ _ _ given).sign, (compared _ _ _ given').sign]
    exact lexSign_swap ..
  · intro s t u outcome outcome' outcome'' given given' given'' le le'
    have first := le.lt_or_eq
    have second := le'.lt_or_eq
    rw [negative given, zero given] at first
    rw [negative given', zero given'] at second
    rw [Int.le_iff_lt_or_eq, negative given, negative given', negative given'', zero given'']
    rcases first with less | same
    · rcases second with less' | same'
      · have less'' := List.lt_trans less less'
        exact ⟨.inl less'', fun _ => less''⟩
      · exact ⟨.inl (same' ▸ less), fun _ => same' ▸ less⟩
    · rw [same]
      exact ⟨second, fun either => either.resolve_left (same ▸ List.lt_irrefl _)⟩

/-! ## Rounds -/

section Rounds

variable {memory later : Memory} {first second : Nat} {s t : List Byte} {allowed : Nat → Prop}
variable {head : Byte} {count : Nat}

theorem IsString.headD (isString : IsString memory first s) :
    memory.byte first = s.headD 0 := by
  cases s with
  | nil => exact isString.nul
  | cons => exact isString.head

/-- The sign of the order of two strings, by their first bytes. -/
theorem lexSign_heads (nonzero : ∀ byte ∈ s, byte ≠ 0) (nonzero' : ∀ byte ∈ t, byte ≠ 0) :
    lexSign s t = if s.headD 0 < t.headD 0 then -1 else if t.headD 0 < s.headD 0 then 1 else
      if s.headD 0 = 0 then 0 else lexSign s.tail t.tail := by
  have positive : ∀ byte : Byte, byte ≠ 0 → 0 < byte :=
    fun byte => (BitVec.pos_iff_ne_zero byte).mpr
  cases s with
  | nil =>
      cases t with
      | nil => rfl
      | cons second t => exact (if_pos (positive second (nonzero' _ List.mem_cons_self))).symm
  | cons first s =>
      have above := positive first (nonzero _ List.mem_cons_self)
      cases t with
      | nil =>
          rw [List.headD_cons, List.headD_nil, if_neg (BitVec.lt_asymm above), if_pos above]
          rfl
      | cons second t =>
          rw [List.headD_cons, List.headD_cons, if_neg (nonzero _ List.mem_cons_self)]
          rfl

theorem scanned_first (inside : allowed 0) : Scanned allowed first second s t first :=
  ⟨0, inside, Nat.zero_le _, Nat.zero_le _, rfl, .inl rfl⟩

theorem scanned_second (inside : allowed 0) : Scanned allowed first second s t second :=
  ⟨0, inside, Nat.zero_le _, Nat.zero_le _, rfl, .inr rfl⟩

/-- What is looked at behind a common byte. -/
theorem Scanned.cons {allowed' : Nat → Prop} {address : Nat}
    (scanned : Scanned allowed (first + 1) (second + 1) s t address)
    (inside : ∀ index, allowed index → allowed' (index + 1)) :
    Scanned allowed' first second (head :: s) (head :: t) address := by
  rcases scanned with ⟨index, among, within, within', same, at'⟩
  refine ⟨index + 1, inside index among, Nat.succ_le_succ within, Nat.succ_le_succ within', ?_,
    by omega⟩
  rw [List.take_succ_cons, List.take_succ_cons, same]

/-- What is done behind a common byte. -/
theorem Compared.cons {sign : Int} {scanned scanned' : Nat → Prop} {outcome : Int × Memory}
    (others : Compared sign scanned later outcome) (same : later.byte = memory.byte)
    (reads : Reads scanned' memory later)
    (implies : ∀ address, scanned address → scanned' address) :
    Compared sign scanned' memory outcome :=
  ⟨others.sign, others.same.trans same, reads.trans (others.reads.mono implies)⟩

/-- The difference of two bytes. -/
theorem difference_compared {scanned : Nat → Prop} (same : later.byte = memory.byte)
    (reads : Reads scanned memory later) (inside : scanned first) (inside' : scanned second) :
    Compared (if memory.byte first < memory.byte second then -1 else
      if memory.byte second < memory.byte first then 1 else 0) scanned memory
      (difference first second later) := by
  refine ⟨?_, same, (reads.load inside).load inside'⟩
  change Int.sign ((later.byte first).toNat - (later.byte second).toNat : Int) = _
  rw [same]
  simp only [BitVec.lt_def]
  split
  · exact Int.sign_eq_neg_one_iff_neg.mpr (by omega)
  · split
    · exact Int.sign_eq_one_iff_pos.mpr (by omega)
    · exact Int.sign_eq_zero_iff_zero.mpr (by omega)

/-- The difference where the loop ends: at the end of a string or at a difference. -/
theorem difference_strings {scanned : Nat → Prop} (isString : IsString memory first s)
    (isString' : IsString memory second t) (same : later.byte = memory.byte)
    (reads : Reads scanned memory later) (inside : scanned first) (inside' : scanned second)
    (last : s.headD 0 = t.headD 0 → s.headD 0 = 0) :
    Compared (lexSign s t) scanned memory (difference first second later) := by
  have compared := difference_compared same reads inside inside'
  rw [isString.headD, isString'.headD] at compared
  rw [lexSign_heads isString.nonzero isString'.nonzero]
  split
  · rename_i less
    rwa [if_pos less] at compared
  · rename_i notLess
    split
    · rename_i greater
      rwa [if_neg notLess, if_pos greater] at compared
    · rename_i notGreater
      rw [if_pos (last (eq_of_not_lt notLess notGreater))]
      rwa [if_neg notLess, if_neg notGreater] at compared

/-- Two bytes were loaded. -/
def both (first second : Nat) (memory : Memory) : Memory := ((memory.load first).2.load second).2

theorem Reads.both {scanned : Nat → Prop} (reads : Reads scanned memory later)
    (inside : scanned first) (inside' : scanned second) :
    Reads scanned memory (Libc.both first second later) :=
  (reads.load inside).load inside'

theorem strcmpRound_eq (first second : Nat) (memory : Memory) :
    strcmpRound (first, second, memory) =
      if memory.byte first = 0 then .inr (difference first second (memory.load first).2)
      else if memory.byte second = 0 then .inr (difference first second (both first second memory))
      else if memory.byte first = memory.byte second then
        .inl (first + 1, second + 1, both first second (both first second memory))
      else .inr (difference first second (both first second (both first second memory))) := rfl

theorem lexSign_cons_self : lexSign (head :: s) (head :: t) = lexSign s t := by
  rw [lexSign, if_neg (BitVec.lt_irrefl _), if_neg (BitVec.lt_irrefl _)]

theorem strcmp_ends (isString : IsString memory first s) (isString' : IsString memory second t) :
    ∃ outcome, Ends strcmpRound (first, second, memory) outcome ∧
      Compared (lexSign s t) (Scanned (fun _ => True) first second s t) memory outcome := by
  induction s generalizing first second t memory with
  | nil =>
      have round := strcmpRound_eq first second memory
      rw [if_pos isString.nul] at round
      refine ⟨_, .last round, difference_strings isString isString' rfl ?_ ?_ ?_ fun _ => rfl⟩
      · exact (Reads.refl _ memory).load (scanned_first trivial)
      · exact scanned_first trivial
      · exact scanned_second trivial
  | cons head s inductionHypothesis =>
      have round := strcmpRound_eq first second memory
      rw [isString.head, if_neg isString.head_ne_zero, isString'.headD] at round
      have inside : Scanned (fun _ => True) first second (head :: s) t first :=
        scanned_first trivial
      have inside' : Scanned (fun _ => True) first second (head :: s) t second :=
        scanned_second trivial
      have once := (Reads.refl _ memory).both inside inside'
      have twice := once.both inside inside'
      cases t with
      | nil =>
          rw [List.headD_nil, if_pos rfl] at round
          exact ⟨_, .last round, difference_strings isString isString' rfl once inside inside' id⟩
      | cons head' t =>
          rw [List.headD_cons, if_neg isString'.head_ne_zero] at round
          by_cases same : head = head'
          · subst same
            rw [if_pos rfl] at round
            have rest : IsString (both first second (both first second memory)) (first + 1) s :=
              isString.tail.congr fun _ _ => rfl
            have rest' : IsString (both first second (both first second memory)) (second + 1) t :=
              isString'.tail.congr fun _ _ => rfl
            rcases inductionHypothesis rest rest' with ⟨outcome, ends, compared⟩
            refine ⟨outcome, ends.next round, ?_⟩
            rw [lexSign_cons_self]
            exact compared.cons rfl twice fun _ scanned => scanned.cons fun _ _ => trivial
          · rw [if_neg same] at round
            exact ⟨_, .last round, difference_strings isString isString' rfl twice inside inside'
              fun equal => absurd equal same⟩

theorem compareFrom_succ (stops : Bool) (left first second : Nat) (memory : Memory) :
    compareFrom stops (left + 1) first second memory =
      if memory.byte first < memory.byte second then (-1, both first second memory)
      else if memory.byte second < memory.byte first then
        (1, both first second (both first second memory))
      else if stops then
        if memory.byte first = 0 then
          (0, ((both first second (both first second memory)).load first).2)
        else
          compareFrom stops left (first + 1) (second + 1)
            ((both first second (both first second memory)).load first).2
      else
        compareFrom stops left (first + 1) (second + 1)
          (both first second (both first second memory)) := rfl

/-- `strncmp` compares the strings as they are cut. -/
theorem strncmp_compared (isString : IsString memory first s)
    (isString' : IsString memory second t) :
    Compared (lexSign (s.take count) (t.take count)) (Scanned (· < count) first second s t) memory
      (strncmp first second count memory) := by
  unfold strncmp
  induction count generalizing first second s t memory with
  | zero => exact ⟨rfl, rfl, .refl _ memory⟩
  | succ count inductionHypothesis =>
      have inside : Scanned (· < count + 1) first second s t first :=
        scanned_first (Nat.succ_pos count)
      have inside' : Scanned (· < count + 1) first second s t second :=
        scanned_second (Nat.succ_pos count)
      have once := (Reads.refl _ memory).both inside inside'
      have twice := once.both inside inside'
      have heads := @lexSign_heads (s.take (count + 1)) (t.take (count + 1))
        (fun byte member => isString.nonzero byte (List.mem_of_mem_take member))
        fun byte member => isString'.nonzero byte (List.mem_of_mem_take member)
      have head_take : ∀ text : List Byte, (text.take (count + 1)).headD 0 = text.headD 0 := by
        intro text
        cases text <;> rfl
      rw [head_take, head_take, ← isString.headD, ← isString'.headD] at heads
      rw [heads, compareFrom_succ]
      by_cases less : memory.byte first < memory.byte second
      · rw [if_pos less, if_pos less]
        exact ⟨rfl, rfl, once⟩
      · by_cases greater : memory.byte second < memory.byte first
        · rw [if_neg less, if_neg less, if_pos greater, if_pos greater]
          exact ⟨rfl, rfl, twice⟩
        · rw [if_neg less, if_neg less, if_neg greater, if_neg greater, if_pos rfl]
          have same := eq_of_not_lt less greater
          have again := twice.load inside
          by_cases zero : memory.byte first = 0
          · rw [if_pos zero, if_pos zero]
            exact ⟨rfl, rfl, again⟩
          · rw [if_neg zero, if_neg zero]
            cases s with
            | nil => exact absurd isString.nul zero
            | cons head s =>
                cases t with
                | nil => exact absurd (same.trans isString'.nul) zero
                | cons head' t =>
                    have equal : head = head' :=
                      isString.head.symm.trans (same.trans isString'.head)
                    subst equal
                    have rest : IsString ((both first second (both first second memory)).load
                        first).2 (first + 1) s := isString.tail.congr fun _ _ => rfl
                    have rest' : IsString ((both first second (both first second memory)).load
                        first).2 (second + 1) t := isString'.tail.congr fun _ _ => rfl
                    exact (inductionHypothesis rest rest').cons rfl again fun _ scanned =>
                      scanned.cons fun _ => Nat.succ_lt_succ

/-- `memcmp` compares the bytes. -/
theorem memcmp_compared (first second count : Nat) (memory : Memory) :
    Compared (lexSign (slice memory.byte first count) (slice memory.byte second count))
      (Scanned (· < count) first second (slice memory.byte first count)
        (slice memory.byte second count)) memory (memcmp first second count memory) := by
  unfold memcmp
  induction count generalizing first second memory with
  | zero => exact ⟨rfl, rfl, .refl _ memory⟩
  | succ count inductionHypothesis =>
      have inside : Scanned (· < count + 1) first second (slice memory.byte first (count + 1))
        (slice memory.byte second (count + 1)) first := scanned_first (Nat.succ_pos count)
      have inside' : Scanned (· < count + 1) first second (slice memory.byte first (count + 1))
        (slice memory.byte second (count + 1)) second := scanned_second (Nat.succ_pos count)
      have once := (Reads.refl _ memory).both inside inside'
      have twice := once.both inside inside'
      rw [compareFrom_succ]
      by_cases less : memory.byte first < memory.byte second
      · rw [if_pos less]
        refine ⟨?_, rfl, once⟩
        exact (if_pos less).symm
      · by_cases greater : memory.byte second < memory.byte first
        · rw [if_neg less, if_pos greater]
          refine ⟨?_, rfl, twice⟩
          exact ((if_neg less).trans (if_pos greater)).symm
        · rw [if_neg less, if_neg greater, if_neg Bool.false_ne_true]
          have same := eq_of_not_lt less greater
          unfold slice at twice ⊢
          rw [same, lexSign_cons_self]
          rw [same] at twice
          have others := inductionHypothesis (first + 1) (second + 1)
            (both first second (both first second memory))
          exact others.cons rfl twice fun _ scanned => scanned.cons fun _ => Nat.succ_lt_succ

end Rounds

/-- The routines compare. -/
theorem comparisons (memory : Memory) (n : Nat) : Comparisons memory n := by
  constructor
  · apply compares_of
    · intro s t
      rcases strcmp_ends s.isString t.isString with ⟨outcome, ends, _⟩
      exact ⟨outcome, ends⟩
    · intro s t outcome returns
      rcases strcmp_ends s.isString t.isString with ⟨outcome', ends, compared⟩
      rw [Ends.unique returns ends]
      exact compared
  · apply compares_of
    · exact fun _ _ => ⟨_, rfl⟩
    · rintro s t _ rfl
      exact strncmp_compared s.isString t.isString
  · apply compares_of
    · exact fun _ _ => ⟨_, rfl⟩
    · rintro a b _ rfl
      exact memcmp_compared a b n memory

end BbbEth.Libc
