import BbbEth.Console.Handlers

/-!
# The loop of the parser

`CmdLineParse` cuts a line in place.  What its loop leaves behind is described for a line of
any length: which characters it replaces, and where the pointers to the words end up.
-/

namespace BbbEth.Console

open BbbEth.Interference Routine

/-! ## Words of the rest of a line -/

/-- The words that the loop still finds, from the start of a word on or from inside of it. -/
def found (bFindArg : Bool) (rest : List Byte) : List (List Byte) :=
  if bFindArg then words rest else (split rest).2

/-- A character of a line that has been cut. -/
def cutChar (char : Byte) : Byte := if char = blank then 0 else char

theorem split_char (rest : List Byte) (index : Nat) (inside : index ≤ (split rest).1.length) :
    cutChar (rest.getD index 0) = (split rest).1.getD index 0 ∧ index ≤ rest.length := by
  induction rest generalizing index with
  | nil =>
      cases Nat.le_zero.mp inside
      exact ⟨rfl, le_rfl⟩
  | cons char rest inductionHypothesis =>
      by_cases isBlank : char = blank
      · rw [isBlank, split_blank] at inside
        rw [isBlank, split_blank]
        cases Nat.le_zero.mp inside
        exact ⟨rfl, Nat.zero_le _⟩
      · rw [split_other isBlank] at inside
        rw [split_other isBlank]
        cases index with
        | zero => exact ⟨if_neg isBlank, Nat.zero_le _⟩
        | succ index =>
            rcases inductionHypothesis index (Nat.le_of_succ_le_succ inside) with ⟨same, shorter⟩
            exact ⟨same, Nat.succ_le_succ shorter⟩

theorem found_blank (bFindArg : Bool) (rest : List Byte) :
    found bFindArg (blank :: rest) = found true rest := by
  cases bFindArg with
  | true =>
      change joinWord (split (blank :: rest)) = words rest
      rw [split_blank]
      rfl
  | false =>
      change (split (blank :: rest)).2 = words rest
      rw [split_blank]

theorem found_start {char : Byte} (other : char ≠ blank) (rest : List Byte) :
    found true (char :: rest) = (char :: (split rest).1) :: found false rest := by
  change joinWord (split (char :: rest)) = _
  rw [split_other other]
  rfl

theorem found_inside {char : Byte} (other : char ≠ blank) (rest : List Byte) :
    found false (char :: rest) = found false rest := by
  change (split (char :: rest)).2 = _
  rw [split_other other]
  rfl

/-! ## The loop -/

/-- The rest of the line is at `pcChar`, with its NUL. -/
structure Reads (memory : Memory) (pcChar : Nat) (rest : List Byte) : Prop where
  char : ∀ index, index ≤ rest.length → memory.cmdBuf (pcChar + index) = rest.getD index 0
  nonzero : ∀ byte ∈ rest, byte ≠ 0

theorem Reads.tail {memory memory' : Memory} {pcChar : Nat} {char : Byte} {rest : List Byte}
    (reads : Reads memory pcChar (char :: rest))
    (same : ∀ index, pcChar < index → memory'.cmdBuf index = memory.cmdBuf index) :
    Reads memory' (pcChar + 1) rest where
  char index inside := by
    rw [same _ (by omega), show pcChar + 1 + index = pcChar + (index + 1) by omega]
    exact reads.char (index + 1) (Nat.succ_le_succ inside)
  nonzero byte member := reads.nonzero byte (List.mem_cons_of_mem _ member)

/-- What the loop may do, also if it gives up: it replaces blanks of the rest of the line by
NUL, and it stores pointers to characters of the rest. -/
structure Scanned (pcChar argc : Nat) (rest : List Byte) (memory parsed : Memory) : Prop where
  others : parsed = { memory with cmdBuf := parsed.cmdBuf, argv := parsed.argv }
  chars : ∀ index, parsed.cmdBuf index = memory.cmdBuf index ∨
    pcChar ≤ index ∧ index < pcChar + rest.length ∧ memory.cmdBuf index = blank ∧
      parsed.cmdBuf index = 0
  argv : ∀ index offset, parsed.argv index = some offset → memory.argv index = some offset ∨
    pcChar + index ≤ argc + offset ∧ offset < pcChar + rest.length

/-- What the loop leaves of the rest of a line, and of the words that it finds. -/
structure Tokenised (pcChar argc : Nat) (rest : List Byte) (others : List (List Byte))
    (memory parsed : Memory) : Prop where
  kept : ∀ index, index < pcChar → parsed.cmdBuf index = memory.cmdBuf index
  cut : ∀ index, index ≤ rest.length →
    parsed.cmdBuf (pcChar + index) = cutChar (rest.getD index 0)
  earlier : ∀ index, index < argc → parsed.argv index = memory.argv index
  word : ∀ index word, others[index]? = some word → ∃ offset,
    parsed.argv (argc + index) = some offset ∧ offset + word.length ≤ pcChar + rest.length ∧
      ∀ position, position ≤ word.length → parsed.cmdBuf (offset + position) =
        word.getD position 0
  stale : ∀ index, argc + others.length ≤ index → parsed.argv index = memory.argv index

section Steps

variable {pcChar argc : Nat} {char : Byte} {rest : List Byte} {others : List (List Byte)}
variable {memory parsed : Memory}

theorem Scanned.refl : Scanned pcChar argc rest memory memory :=
  ⟨rfl, fun _ => .inl rfl, fun _ _ => .inl⟩

theorem Scanned.blank (reads : memory.cmdBuf pcChar = Console.blank)
    (later : Scanned (pcChar + 1) argc rest
      { memory with cmdBuf := Function.update memory.cmdBuf pcChar 0 } parsed) :
    Scanned pcChar argc (Console.blank :: rest) memory parsed where
  others := later.others
  chars index := by
    rw [List.length_cons]
    by_cases here : index = pcChar
    · subst here
      right
      refine ⟨le_rfl, by omega, reads, ?_⟩
      rcases later.chars index with same | ⟨behind, _⟩
      · rw [same]
        exact Function.update_self ..
      · omega
    · have kept : Function.update memory.cmdBuf pcChar 0 index = memory.cmdBuf index :=
        Function.update_of_ne here ..
      rcases later.chars index with same | ⟨behind, before, isBlank, zero⟩
      · exact .inl (same.trans kept)
      · exact .inr ⟨by omega, by omega, kept.symm.trans isBlank, zero⟩
  argv index offset points := by
    rw [List.length_cons]
    rcases later.argv index offset points with same | ⟨behind, before⟩
    · exact .inl same
    · exact .inr ⟨by omega, by omega⟩

theorem Scanned.inside (later : Scanned (pcChar + 1) argc rest memory parsed) :
    Scanned pcChar argc (char :: rest) memory parsed where
  others := later.others
  chars index := by
    rw [List.length_cons]
    rcases later.chars index with same | ⟨behind, before, isBlank, zero⟩
    · exact .inl same
    · exact .inr ⟨by omega, by omega, isBlank, zero⟩
  argv index offset points := by
    rw [List.length_cons]
    rcases later.argv index offset points with same | ⟨behind, before⟩
    · exact .inl same
    · exact .inr ⟨by omega, by omega⟩

theorem Scanned.start (later : Scanned (pcChar + 1) (argc + 1) rest
      { memory with argv := Function.update memory.argv argc (some pcChar) } parsed) :
    Scanned pcChar argc (char :: rest) memory parsed where
  others := later.others
  chars index := by
    rw [List.length_cons]
    rcases later.chars index with same | ⟨behind, before, isBlank, zero⟩
    · exact .inl same
    · exact .inr ⟨by omega, by omega, isBlank, zero⟩
  argv index offset points := by
    rw [List.length_cons]
    rcases later.argv index offset points with same | ⟨behind, before⟩
    · by_cases here : index = argc
      · have points : some pcChar = some offset := by
          rw [← same, here]
          exact (Function.update_self argc (some pcChar) memory.argv).symm
        cases points
        exact .inr ⟨by omega, by omega⟩
      · left
        rw [← same]
        exact (Function.update_of_ne here ..).symm
    · exact .inr ⟨by omega, by omega⟩

/-- A character in front of a part that has been cut. -/
theorem cut_cons (first : parsed.cmdBuf pcChar = cutChar char)
    (later : ∀ index, index ≤ rest.length →
      parsed.cmdBuf (pcChar + 1 + index) = cutChar (rest.getD index 0)) :
    ∀ index, index ≤ (char :: rest).length →
      parsed.cmdBuf (pcChar + index) = cutChar ((char :: rest).getD index 0)
  | 0, _ => first
  | index + 1, inside => by
      rw [show pcChar + (index + 1) = pcChar + 1 + index by omega]
      exact later index (Nat.le_of_succ_le_succ inside)

/-- A longer rest ends behind a word. -/
theorem Tokenised.word_cons (later : Tokenised (pcChar + 1) argc rest others memory parsed)
    {index : Nat} {word : List Byte} (finds : others[index]? = some word) : ∃ offset,
    parsed.argv (argc + index) = some offset ∧
      offset + word.length ≤ pcChar + (char :: rest).length ∧
      ∀ position, position ≤ word.length → parsed.cmdBuf (offset + position) =
        word.getD position 0 := by
  rcases later.word index word finds with ⟨offset, points, before, same⟩
  refine ⟨offset, points, ?_, same⟩
  rw [List.length_cons]
  omega

/-- A blank is replaced by NUL. -/
theorem Tokenised.blank
    (later : Tokenised (pcChar + 1) argc rest others
      { memory with cmdBuf := Function.update memory.cmdBuf pcChar 0 } parsed) :
    Tokenised pcChar argc (Console.blank :: rest) others memory parsed where
  kept index before := by
    rw [later.kept index (Nat.lt_succ_of_lt before)]
    exact Function.update_of_ne before.ne ..
  cut := by
    apply cut_cons _ later.cut
    rw [later.kept pcChar (Nat.lt_succ_self _)]
    exact Function.update_self ..
  earlier := later.earlier
  word _ _ finds := later.word_cons finds
  stale := later.stale

/-- Another character of a word stays. -/
theorem Tokenised.inside (reads : memory.cmdBuf pcChar = char) (other : char ≠ Console.blank)
    (later : Tokenised (pcChar + 1) argc rest others memory parsed) :
    Tokenised pcChar argc (char :: rest) others memory parsed where
  kept index before := later.kept index (Nat.lt_succ_of_lt before)
  cut := by
    apply cut_cons _ later.cut
    rw [later.kept pcChar (Nat.lt_succ_self _), reads]
    exact (if_neg other).symm
  earlier := later.earlier
  word _ _ finds := later.word_cons finds
  stale := later.stale

/-- The start of a word gets a pointer. -/
theorem Tokenised.start (reads : Reads memory pcChar (char :: rest))
    (other : char ≠ Console.blank)
    (later : Tokenised (pcChar + 1) (argc + 1) rest others
      { memory with argv := Function.update memory.argv argc (some pcChar) } parsed) :
    Tokenised pcChar argc (char :: rest) ((char :: (split rest).1) :: others) memory parsed := by
  have first : memory.cmdBuf pcChar = char := reads.char 0 (Nat.zero_le _)
  have cut : ∀ index, index ≤ (char :: rest).length →
      parsed.cmdBuf (pcChar + index) = cutChar ((char :: rest).getD index 0) := by
    apply cut_cons _ later.cut
    rw [later.kept pcChar (Nat.lt_succ_self _)]
    exact first.trans (if_neg other).symm
  have whole : (split (char :: rest)).1 = char :: (split rest).1 :=
    congrArg Prod.fst (split_other other rest)
  refine ⟨fun index before => later.kept index (Nat.lt_succ_of_lt before), cut, ?_, ?_, ?_⟩
  · intro index before
    rw [later.earlier index (Nat.lt_succ_of_lt before)]
    exact Function.update_of_ne before.ne ..
  · intro index word finds
    cases index with
    | zero =>
        cases finds
        refine ⟨pcChar, ?_, ?_, ?_⟩
        · rw [Nat.add_zero, later.earlier argc (Nat.lt_succ_self _)]
          exact Function.update_self ..
        · have shorter := (split_char (char :: rest) _ le_rfl).2
          rw [whole] at shorter
          omega
        · intro position inside
          rcases split_char (char :: rest) position (whole.symm ▸ inside) with ⟨same, shorter⟩
          rw [cut position shorter, same, whole]
    | succ index =>
        rw [show argc + (index + 1) = argc + 1 + index by omega]
        exact later.word_cons finds
  · intro index beyond
    rw [List.length_cons] at beyond
    rw [later.stale index (by omega)]
    exact Function.update_of_ne (by omega) ..

end Steps

/-- What the loop returns. -/
def counted (argc : Nat) (others : List (List Byte)) : Option Nat :=
  if argc + others.length ≤ cmdlineMaxArgs then some (argc + others.length) else none

/-- The loop counts the words, and cuts the line if there are not too many.  It reads no
character behind the NUL of the line. -/
theorem parseFrom_scans (rest : List Byte) : ∀ (left pcChar argc : Nat) (bFindArg : Bool)
    (memory : Memory), rest.length < left → argc ≤ cmdlineMaxArgs → Reads memory pcChar rest →
    ∃ parsed, parseFrom left pcChar argc bFindArg memory =
        some (counted argc (found bFindArg rest), parsed) ∧
      Scanned pcChar argc rest memory parsed ∧
      (argc + (found bFindArg rest).length ≤ cmdlineMaxArgs →
        Tokenised pcChar argc rest (found bFindArg rest) memory parsed) := by
  induction rest with
  | nil =>
      intro left pcChar argc bFindArg memory enough fewer reads
      have nothing : found bFindArg [] = [] := by
        cases bFindArg with
        | true => rfl
        | false => rfl
      have ends : memory.cmdBuf pcChar = 0 := reads.char 0 (Nat.zero_le _)
      rw [nothing]
      refine ⟨memory, ?_, .refl, fun _ => ?_⟩
      · rw [show left = left - 1 + 1 from (Nat.succ_pred_eq_of_pos enough).symm, parseFrom,
          if_pos ends]
        exact congrArg (fun count => some (count, memory)) (if_pos fewer).symm
      · refine ⟨fun _ _ => rfl, ?_, fun _ _ => rfl, nofun, fun _ _ => rfl⟩
        intro index inside
        cases Nat.le_zero.mp inside
        exact ends
  | cons char rest inductionHypothesis =>
      intro left pcChar argc bFindArg memory enough fewer reads
      have first : memory.cmdBuf pcChar = char := reads.char 0 (Nat.zero_le _)
      have more : ¬ char = 0 := reads.nonzero char List.mem_cons_self
      have enough' : rest.length < left - 1 := Nat.lt_sub_of_add_lt enough
      rw [show left = left - 1 + 1 by omega, parseFrom, first, if_neg more]
      by_cases isBlank : char = blank
      · subst isBlank
        rw [if_pos rfl, found_blank]
        rcases inductionHypothesis _ (pcChar + 1) argc true
          { memory with cmdBuf := Function.update memory.cmdBuf pcChar 0 } enough' fewer
          (reads.tail fun index after => Function.update_of_ne after.ne' ..) with
          ⟨parsed, parses, scanned, leaves⟩
        exact ⟨parsed, parses, scanned.blank first, fun few => (leaves few).blank⟩
      · rw [if_neg isBlank]
        cases bFindArg with
        | false =>
            rw [if_neg Bool.false_ne_true, found_inside isBlank]
            rcases inductionHypothesis _ (pcChar + 1) argc false memory enough' fewer
              (reads.tail fun _ _ => rfl) with ⟨parsed, parses, scanned, leaves⟩
            exact ⟨parsed, parses, scanned.inside, fun few => (leaves few).inside first isBlank⟩
        | true =>
            rw [if_pos rfl, found_start isBlank]
            by_cases room : argc < cmdlineMaxArgs
            · rw [if_pos room]
              rcases inductionHypothesis _ (pcChar + 1) (argc + 1) false
                { memory with argv := Function.update memory.argv argc (some pcChar) } enough'
                room (reads.tail fun _ _ => rfl) with ⟨parsed, parses, scanned, leaves⟩
              have count : argc + 1 + (found false rest).length =
                  argc + ((char :: (split rest).1) :: found false rest).length := by
                rw [List.length_cons]
                omega
              unfold counted at parses ⊢
              rw [count] at parses leaves
              exact ⟨parsed, parses, scanned.start, fun few => (leaves few).start reads isBlank⟩
            · have many : ¬ argc + ((char :: (split rest).1) :: found false rest).length ≤
                  cmdlineMaxArgs := by
                rw [List.length_cons]
                omega
              rw [if_neg room]
              exact ⟨memory, congrArg (fun count => some (count, memory)) (if_neg many).symm,
                .refl, fun few => absurd few many⟩

end BbbEth.Console
