import BbbEth.Console.Parse

/-!
# What `CmdLineParse` does with a line

The tokens of a line are its parts between blanks that are not empty.  `CmdLineParse` calls
the handler of the first token with all of them, or refuses the line.  It is described in a
buffer of any size behind the NUL of the line, so that nothing behind the NUL is read.
-/

namespace BbbEth.Console

open BbbEth.Interference Routine

/-! ## Tokens -/

/-- The maximal runs of characters that are not blanks. -/
def tokens (line : List Byte) : List (List Byte) :=
  (line.splitOn blank).filter (· ≠ [])

/-- A part counts if it is not empty. -/
theorem filter_parts (first : List Byte) (others : List (List Byte)) :
    (first :: others).filter (· ≠ []) = joinWord (first, others.filter (· ≠ [])) := by
  unfold joinWord
  by_cases empty : first = []
  · rw [if_pos empty, empty]
    rfl
  · rw [if_neg empty, List.filter_cons_of_pos (by simpa using empty)]

/-- The first part of a line, and the tokens of the parts behind it. -/
theorem splitOn_split (line : List Byte) : ∃ others,
    line.splitOn blank = (split line).1 :: others ∧ others.filter (· ≠ []) = (split line).2 := by
  induction line with
  | nil => exact ⟨[], List.splitOn_nil _, rfl⟩
  | cons char rest inductionHypothesis =>
      rcases inductionHypothesis with ⟨others, parts, filtered⟩
      rw [List.splitOn_cons_eq_if_modifyHead, parts]
      by_cases isBlank : char = blank
      · rw [if_pos (beq_iff_eq.mpr isBlank), isBlank, split_blank]
        refine ⟨(split rest).1 :: others, rfl, ?_⟩
        rw [filter_parts, filtered]
        rfl
      · rw [if_neg fun same => isBlank (beq_iff_eq.mp same), split_other isBlank]
        exact ⟨others, rfl, filtered⟩

/-- The words that the loop finds are the tokens. -/
theorem words_eq_tokens (line : List Byte) : words line = tokens line := by
  rcases splitOn_split line with ⟨others, parts, filtered⟩
  unfold tokens
  rw [parts, filter_parts, filtered]
  rfl

theorem tokens_nonzero {line : List Byte} (nonzero : ∀ byte ∈ line, byte ≠ 0) :
    ∀ token ∈ tokens line, ∀ byte ∈ token, byte ≠ 0 :=
  words_eq_tokens line ▸ words_nonzero nonzero

/-! ## A buffer of another size -/

/-- The buffer from an index on, if it has `size` bytes. -/
def Memory.within (memory : Memory) (size index : Nat) : Str :=
  ⟨size - index, fun offset => memory.cmdBuf (index + offset)⟩

/-- The string that an element of `argv` points to. -/
def argumentWithin (size : Nat) (memory : Memory) (index : Nat) : Option (List Byte) :=
  (memory.argv index).bind fun offset => text (memory.within size offset)

/-- `dispatch` in a buffer of `size` bytes. -/
def dispatchWithin (size argc : Nat) : Routine Int := do
  let memory ← load id
  let offset ← ofOption (memory.argv 0)
  let found ← ofOption (findCommand (memory.within size offset) cmdTable)
  match found with
  | some command => do
      let arguments ← ofOption ((List.range argc).mapM (argumentWithin size memory))
      call (.handler command arguments)
      command.handler argc
  | none => return cmdlineBadCmd

/-- `CmdLineParse` in a buffer of `size` bytes; a read behind them is a fault. -/
def parseWithin (size : Nat) : Routine Int := do
  let memory ← load id
  let (argc, parsed) ← ofOption (parseFrom size 0 0 true memory)
  change fun _ => parsed
  match argc with
  | none => return cmdlineTooManyArgs
  | some argc => if argc ≠ 0 then dispatchWithin size argc else return cmdlineBadCmd

theorem parseWithin_cmdBufSize : parseWithin cmdBufSize = cmdLineParse := rfl

/-! ## Outcomes -/

/-- What is left of a line: only blanks of the line are replaced, and `argv` points to the
tokens, each of which has its NUL inside of the line or at its end. -/
structure LineCut (memory : Memory) (line : List Byte) (parsed : Memory) : Prop where
  others : parsed = { memory with cmdBuf := parsed.cmdBuf, argv := parsed.argv }
  blanks : ∀ index, parsed.cmdBuf index ≠ memory.cmdBuf index →
    index < line.length ∧ memory.cmdBuf index = blank
  argv : (tokens line).length ≤ cmdlineMaxArgs →
    ∀ index token, (tokens line)[index]? = some token → ∃ offset,
      parsed.argv index = some offset ∧ Holds (parsed.within (line.length + 1) offset) token

/-- What `CmdLineParse` does with tokens, once the memory is `parsed`. -/
def outcome (parsed : Memory) (tokens : List (List Byte)) : Program Call (Int × Memory) :=
  if cmdlineMaxArgs < tokens.length then .done (cmdlineTooManyArgs, parsed)
  else
    match tokens.head?.bind lookup with
    | some command => .perform (.handler command tokens) fun _ =>
        command.handler tokens.length parsed
    | none => .done (cmdlineBadCmd, parsed)

section Line

variable {memory parsed : Memory} {line : List Byte} {size : Nat}

theorem Tokenised.points (tokenised : Tokenised 0 0 line (tokens line) memory parsed)
    (nonzero : ∀ byte ∈ line, byte ≠ 0) {index : Nat} {token : List Byte}
    (finds : (tokens line)[index]? = some token) (room : line.length < size) : ∃ offset,
    parsed.argv index = some offset ∧ Holds (parsed.within size offset) token := by
  rcases tokenised.word index token finds with ⟨offset, points, before, same⟩
  rw [Nat.zero_add] at points before
  have fits : token.length < size - offset := Nat.lt_sub_of_add_lt (by omega)
  exact ⟨offset, points, same, tokens_nonzero nonzero token (List.mem_of_getElem? finds), fits⟩

theorem Tokenised.supplied (tokenised : Tokenised 0 0 line (tokens line) memory parsed)
    (nonzero : ∀ byte ∈ line, byte ≠ 0) (room : line.length < size) :
    Supplied (argumentWithin size parsed) (tokens line) := by
  intro index token finds
  rcases tokenised.points nonzero finds room with ⟨offset, points, holds⟩
  unfold argumentWithin
  rw [points]
  exact text_holds holds

/-- The call of the handler of the first token. -/
theorem dispatchWithin_eq (tokenised : Tokenised 0 0 line (tokens line) memory parsed)
    (nonzero : ∀ byte ∈ line, byte ≠ 0) (room : line.length < size) {token : List Byte}
    (first : (tokens line)[0]? = some token) : dispatchWithin size (tokens line).length parsed =
      match lookup token with
      | some command => .perform (.handler command (tokens line)) fun _ =>
          command.handler (tokens line).length parsed
      | none => .done (cmdlineBadCmd, parsed) := by
  rcases tokenised.points nonzero first room with ⟨offset, points, holds⟩
  have supplied := (tokenised.supplied nonzero room).mapM
  unfold dispatchWithin
  rw [bind_memory, bind_ofOption points, bind_ofOption (lookup_holds holds)]
  cases lookup token with
  | none => rfl
  | some command =>
      dsimp only
      rw [bind_ofOption supplied, bind_call]

/-- A longer buffer changes nothing. -/
theorem parseFrom_mono {left more pcChar argc : Nat} {bFindArg : Bool}
    {result : Option Nat × Memory} (longer : left ≤ more)
    (parses : parseFrom left pcChar argc bFindArg memory = some result) :
    parseFrom more pcChar argc bFindArg memory = some result := by
  induction left generalizing more pcChar argc bFindArg memory with
  | zero => cases parses
  | succ left inductionHypothesis =>
      have longer' : left ≤ more - 1 := Nat.le_sub_of_add_le longer
      rw [show more = more - 1 + 1 by omega]
      unfold parseFrom at parses ⊢
      split at parses
      · next ends => rwa [if_pos ends]
      · next goesOn =>
          rw [if_neg goesOn]
          split at parses
          · next isBlank => rw [if_pos isBlank, inductionHypothesis longer' parses]
          · next other =>
              rw [if_neg other]
              split at parses
              · next find =>
                  rw [if_pos find]
                  split at parses
                  · next room => rw [if_pos room, inductionHypothesis longer' parses]
                  · next full => rwa [if_neg full]
              · next inside => rw [if_neg inside, inductionHypothesis longer' parses]

/-- The loop over a line, in a buffer of any size. -/
theorem scan_line (reads : Reads memory 0 line) : ∃ parsed, Scanned 0 0 line memory parsed ∧
    ((tokens line).length ≤ cmdlineMaxArgs → Tokenised 0 0 line (tokens line) memory parsed) ∧
    ∀ size, line.length < size →
      parseFrom size 0 0 true memory = some (counted 0 (tokens line), parsed) := by
  rw [← words_eq_tokens]
  rcases parseFrom_scans line (line.length + 1) 0 0 true memory (Nat.lt_succ_self _)
    (Nat.zero_le _) reads with ⟨parsed, parses, scanned, leaves⟩
  refine ⟨parsed, scanned, fun few => leaves ?_, fun size room => parseFrom_mono room parses⟩
  rw [Nat.zero_add]
  exact few

/-- The buffer behind the NUL of the line plays no part. -/
theorem parseWithin_eq (reads : Reads memory 0 line)
    (tokenised : (tokens line).length ≤ cmdlineMaxArgs →
      Tokenised 0 0 line (tokens line) memory parsed) (room : line.length < size)
    (parses : parseFrom size 0 0 true memory = some (counted 0 (tokens line), parsed)) :
    parseWithin size memory = outcome parsed (tokens line) := by
  unfold parseWithin outcome
  rw [bind_memory, bind_ofOption parses]
  dsimp only
  rw [bind_change]
  unfold counted
  rw [Nat.zero_add]
  by_cases few : (tokens line).length ≤ cmdlineMaxArgs
  · rw [if_pos few, if_neg (not_lt.mpr few)]
    dsimp only
    cases list : tokens line with
    | nil =>
        rw [if_neg (not_not.mpr List.length_nil)]
        rfl
    | cons token others =>
        have more : (token :: others).length ≠ 0 := Nat.succ_ne_zero _
        have first : (tokens line)[0]? = some token := by rw [list]; rfl
        have calls := dispatchWithin_eq (tokenised few) reads.nonzero room first
        rw [list] at calls
        rw [if_pos more]
        exact calls
  · rw [if_neg few, if_pos (not_le.mp few)]
    rfl

/-- `CmdLineParse` runs the handler of the first token with all tokens, or refuses the line. -/
theorem cmdLineParse_tokens (reads : Reads memory 0 line) : ∃ parsed,
    LineCut memory line parsed ∧
      (∀ size, line.length < size → parseWithin size memory = outcome parsed (tokens line)) ∧
      (line.length < cmdBufSize → cmdLineParse memory = outcome parsed (tokens line)) := by
  rcases scan_line reads with ⟨parsed, scanned, tokenised, parses⟩
  have within : ∀ size, line.length < size →
      parseWithin size memory = outcome parsed (tokens line) :=
    fun size room => parseWithin_eq reads tokenised room (parses size room)
  refine ⟨parsed, ⟨scanned.others, ?_, ?_⟩, within, fun room => within cmdBufSize room⟩
  · intro index changed
    rcases scanned.chars index with same | ⟨_, before, isBlank, _⟩
    · exact absurd same changed
    · exact ⟨(Nat.zero_add line.length).symm ▸ before, isBlank⟩
  · intro few index token finds
    exact (tokenised few).points reads.nonzero finds (Nat.lt_succ_self _)

end Line

/-- A line with one token, of which a blank is cut. -/
theorem pwd_parsed : ∃ parsed,
    cmdLineParse { Memory.initial with cmdBuf := initialised (chars [' ', 'p', 'w', 'd']) } =
      .perform (.handler .pwd [chars ['p', 'w', 'd']]) fun _ => Command.pwd.handler 1 parsed := by
  have reads : Reads { Memory.initial with cmdBuf := initialised (chars [' ', 'p', 'w', 'd']) } 0
      (chars [' ', 'p', 'w', 'd']) := by
    refine ⟨fun index _ => ?_, by decide⟩
    rw [Nat.zero_add]
    rfl
  rcases cmdLineParse_tokens reads with ⟨parsed, _, _, runs⟩
  refine ⟨parsed, (runs (by decide)).trans ?_⟩
  rw [← words_eq_tokens]
  rfl

end BbbEth.Console
