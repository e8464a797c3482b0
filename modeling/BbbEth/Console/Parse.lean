import BbbEth.Console.Tokens

/-!
# The words of a line

`CmdLineParse` cuts the line in its buffer into words.  It leaves pointers to them in `argv`,
behind which the pointers of longer lines before are left over.
-/

namespace BbbEth.Console

open BbbEth.Interference Routine

/-! ## The loop in `CmdBuf` -/

/-- The parser touches `CmdBuf` and `argv` only, and writes no character but NUL. -/
structure Cuts (memory parsed : Memory) : Prop where
  others : parsed = { memory with cmdBuf := parsed.cmdBuf, argv := parsed.argv }
  chars : ∀ index, parsed.cmdBuf index = memory.cmdBuf index ∨ parsed.cmdBuf index = 0
  argv : ∀ index offset, parsed.argv index = some offset →
    memory.argv index = some offset ∨ index ≤ offset ∧ offset < cmdBufSize

/-- What the loop leaves of the rest of a line, and of the words that it finds. -/
structure Parsed (pcChar argc : Nat) (rest : List Byte) (others : List (List Byte))
    (memory parsed : Memory) : Prop where
  kept : ∀ index, index < pcChar → parsed.cmdBuf index = memory.cmdBuf index
  cut : ∀ index, index ≤ rest.length →
    parsed.cmdBuf (pcChar + index) = cutChar (rest.getD index 0)
  earlier : ∀ index, index < argc → parsed.argv index = memory.argv index
  word : ∀ index word, others[index]? = some word → ∃ offset,
    parsed.argv (argc + index) = some offset ∧ offset + word.length < cmdBufSize ∧
      ∀ position, position ≤ word.length → parsed.cmdBuf (offset + position) =
        word.getD position 0
  stale : ∀ index, argc + others.length ≤ index → parsed.argv index = memory.argv index

section Fits

variable {pcChar argc : Nat} {rest : List Byte} {others : List (List Byte)}
variable {memory parsed : Memory}

theorem Scanned.cuts (scanned : Scanned pcChar argc rest memory parsed) (behind : argc ≤ pcChar)
    (fits : pcChar + rest.length < cmdBufSize) : Cuts memory parsed where
  others := scanned.others
  chars index := (scanned.chars index).imp_right fun cut => cut.2.2.2
  argv index offset points := by
    apply (scanned.argv index offset points).imp_right
    rintro ⟨later, before⟩
    exact ⟨by omega, by omega⟩

theorem Tokenised.fits (tokenised : Tokenised pcChar argc rest others memory parsed)
    (fits : pcChar + rest.length < cmdBufSize) : Parsed pcChar argc rest others memory parsed where
  kept := tokenised.kept
  cut := tokenised.cut
  earlier := tokenised.earlier
  word index word finds := by
    rcases tokenised.word index word finds with ⟨offset, points, before, same⟩
    exact ⟨offset, points, before.trans_lt fits, same⟩
  stale := tokenised.stale

end Fits

/-! ## The words -/

theorem split_nonzero {line : List Byte} (nonzero : ∀ byte ∈ line, byte ≠ 0) :
    (∀ byte ∈ (split line).1, byte ≠ 0) ∧ ∀ word ∈ (split line).2, ∀ byte ∈ word, byte ≠ 0 := by
  induction line with
  | nil => exact ⟨nofun, nofun⟩
  | cons char rest inductionHypothesis =>
      rcases inductionHypothesis fun byte member => nonzero byte (List.mem_cons_of_mem _ member)
        with ⟨first, others⟩
      by_cases isBlank : char = blank
      · subst isBlank
        rw [split_blank]
        refine ⟨nofun, fun word member => ?_⟩
        unfold words joinWord at member
        split at member
        · exact others word member
        · rcases List.mem_cons.mp member with rfl | member
          · exact first
          · exact others word member
      · rw [split_other isBlank]
        refine ⟨fun byte member => ?_, others⟩
        rcases List.mem_cons.mp member with rfl | member
        · exact nonzero byte List.mem_cons_self
        · exact first byte member

theorem words_nonzero {line : List Byte} (nonzero : ∀ byte ∈ line, byte ≠ 0) :
    ∀ word ∈ words line, ∀ byte ∈ word, byte ≠ 0 := by
  intro word member
  unfold words joinWord at member
  split at member
  · exact (split_nonzero nonzero).2 word member
  · rcases List.mem_cons.mp member with rfl | member
    · exact (split_nonzero nonzero).1
    · exact (split_nonzero nonzero).2 word member

/-- The arguments that a line supplies. -/
def Supplied (arguments : Arguments) (others : List (List Byte)) : Prop :=
  ∀ index word, others[index]? = some word → arguments index = some word

theorem mapM_supplied {arguments : Arguments} (others : List (List Byte)) : ∀ start : Nat,
    (∀ index word, others[index]? = some word → arguments (start + index) = some word) →
      (List.range' start others.length).mapM arguments = some others := by
  induction others with
  | nil => exact fun _ _ => rfl
  | cons word others inductionHypothesis =>
      intro start supplies
      have first : arguments start = some word := supplies 0 word rfl
      have rest := inductionHypothesis (start + 1) fun index word finds => by
        rw [show start + 1 + index = start + (index + 1) by omega]
        exact supplies (index + 1) word finds
      rw [List.length_cons, List.range'_succ, List.mapM_cons, first, rest]
      rfl

theorem Supplied.mapM {arguments : Arguments} {others : List (List Byte)}
    (supplied : Supplied arguments others) :
    (List.range others.length).mapM arguments = some others := by
  rw [List.range_eq_range']
  apply mapM_supplied others 0
  intro index word finds
  rw [Nat.zero_add]
  exact supplied index word finds

section Line

variable {memory parsed : Memory} {shell : Shell} {line : List Byte}

theorem Parsed.holds {pcChar argc : Nat} {rest : List Byte} {others : List (List Byte)}
    (leaves : Parsed pcChar argc rest others memory parsed) {index : Nat} {word : List Byte}
    (finds : others[index]? = some word) (nonzero : ∀ byte ∈ word, byte ≠ 0) :
    ∃ offset, parsed.argv (argc + index) = some offset ∧ Holds (parsed.cmd offset) word := by
  rcases leaves.word index word finds with ⟨offset, points, fits, same⟩
  exact ⟨offset, points, same, nonzero, Nat.lt_sub_of_add_lt (by omega)⟩

theorem Parsed.supplied {others : List (List Byte)}
    (leaves : Parsed 0 0 line others memory parsed)
    (nonzero : ∀ word ∈ others, ∀ byte ∈ word, byte ≠ 0) :
    Supplied (argument parsed) others := by
  intro index word finds
  rcases leaves.holds finds (nonzero word (List.mem_of_getElem? finds)) with
    ⟨offset, points, holds⟩
  rw [Nat.zero_add] at points
  unfold argument
  rw [points]
  exact text_holds holds

theorem Represents.cut (represents : Represents memory shell) (cuts : Cuts memory parsed) :
    Represents parsed shell := by
  have others := cuts.others
  have cwd : parsed.cwd = memory.cwd := by rw [others]; rfl
  have flag : parsed.udplogflag = memory.udplogflag := by rw [others]
  have wr : parsed.wrBufPath = memory.wrBufPath := by rw [others]
  refine ⟨cwd ▸ represents.cwd, represents.rooted, flag.trans represents.udplogflag,
    wr ▸ represents.wr, ?_, ?_⟩
  · rcases cuts.chars (cmdBufSize - 1) with same | zero
    · exact same.trans represents.last
    · exact zero
  · intro index offset points
    rcases cuts.argv index offset points with same | inside
    · exact represents.argv index offset same
    · exact inside

theorem Holds.reads (holds : Holds memory.line line) : Reads memory 0 line := by
  refine ⟨fun index inside => ?_, holds.nonzero⟩
  rw [Nat.zero_add]
  exact holds.char index inside

/-- The loop over a whole line. -/
theorem parse_line (holds : Holds memory.line line) : ∃ parsed,
    parseFrom cmdBufSize 0 0 true memory = some (counted 0 (words line), parsed) ∧
      Cuts memory parsed ∧ ((words line).length ≤ cmdlineMaxArgs →
        Parsed 0 0 line (words line) memory parsed) := by
  have fits : line.length < cmdBufSize := holds.fits
  have inside : 0 + line.length < cmdBufSize := (Nat.zero_add _).trans_lt fits
  rcases parseFrom_scans line cmdBufSize 0 0 true memory fits (Nat.zero_le _) holds.reads with
    ⟨parsed, parses, scanned, leaves⟩
  refine ⟨parsed, parses, scanned.cuts le_rfl inside, fun few => (leaves ?_).fits inside⟩
  rw [Nat.zero_add]
  exact few

end Line

/-! ## The handler of a line -/

theorem findCommand_holds {str : Str} {word : List Byte} (holds : Holds str word) :
    ∀ entries : List CmdLineEntry, (∀ entry ∈ entries, ∀ byte ∈ entry.pcCmd, byte ≠ 0) →
      findCommand str entries =
        some ((entries.find? fun entry => entry.pcCmd = word).map (·.command))
  | [], _ => rfl
  | entry :: rest, nonzero => by
      rcases strcmp_holds holds (literal_holds (nonzero entry List.mem_cons_self)) with
        ⟨differs, compares, same⟩
      have others := findCommand_holds holds rest fun entry member =>
        nonzero entry (List.mem_cons_of_mem _ member)
      have next : findCommand str (entry :: rest) =
          if differs = 0 then some (some entry.command) else findCommand str rest := by
        rw [findCommand, compares]
        rfl
      rw [next]
      by_cases isWord : entry.pcCmd = word
      · rw [if_pos (same.mpr isWord.symm), List.find?_cons_of_pos (by simpa using isWord)]
        rfl
      · rw [if_neg fun zero => isWord (same.mp zero).symm,
          List.find?_cons_of_neg (by simpa using isWord)]
        exact others

theorem cmdTable_nonzero : ∀ entry ∈ cmdTable, ∀ byte ∈ entry.pcCmd, byte ≠ 0 := by
  have all : (cmdTable.all fun entry => entry.pcCmd.all fun byte => byte != 0) = true := rfl
  intro entry member byte inside
  exact bne_iff_ne.mp (List.all_eq_true.mp (List.all_eq_true.mp all entry member) byte inside)

theorem lookup_holds {str : Str} {word : List Byte} (holds : Holds str word) :
    findCommand str cmdTable = some (lookup word) :=
  findCommand_holds holds cmdTable cmdTable_nonzero

/-- The arguments that the handler of the line in the buffer finds. -/
def Memory.arguments (memory : Memory) : Arguments :=
  match parseFrom cmdBufSize 0 0 true memory with
  | some (_, parsed) => argument parsed
  | none => fun _ => none

/-- Processing a line leaves the buffers for the shell that is left. -/
def Settles (left : Unit × Memory) (right : Shell) : Prop := Represents left.2 right

section Process

variable {memory : Memory} {shell : Shell} {line : List Byte}

theorem dispatch_matches (represents : Represents memory shell) {word : List Byte}
    {others : List (List Byte)} (leaves : ∃ offset, memory.argv 0 = some offset ∧
      Holds (memory.cmd offset) word) (supplied : Supplied (argument memory) (word :: others)) :
    (dispatch (word :: others).length memory).Matches Leaves
      (match lookup word with
        | some command => .perform (.handler command (word :: others)) fun _ =>
            shell.handler (argument memory) (word :: others).length command
        | none => .done (cmdlineBadCmd, shell)) := by
  rcases leaves with ⟨offset, points, holds⟩
  unfold dispatch dispatchBy
  rw [bind_memory, bind_ofOption points, bind_ofOption (lookup_holds holds)]
  cases lookup word with
  | none => exact .done ⟨rfl, represents⟩
  | some command =>
      dsimp only
      rw [bind_ofOption supplied.mapM, bind_call]
      exact .perform fun _ => handler_matches represents _ command

/-- What `CmdLineParse` does for a line is what the shell does, with some arguments in the
place of those that the line does not supply. -/
theorem cmdLineParse_matches (represents : Represents memory shell)
    (holds : Holds memory.line line) : ∃ arguments, Supplied arguments (words line) ∧
      ((words line).length ≤ cmdlineMaxArgs → arguments = memory.arguments) ∧
      (cmdLineParse memory).Matches Leaves (shell.execute arguments line) := by
  rcases parse_line holds with ⟨parsed, parses, cuts, leaves⟩
  have represents := represents.cut cuts
  have nonzero := words_nonzero holds.nonzero
  unfold cmdLineParse cmdLineParseBy Shell.execute
  rw [bind_memory, bind_ofOption parses]
  dsimp only
  rw [bind_change]
  unfold counted
  rw [Nat.zero_add]
  by_cases few : (words line).length ≤ cmdlineMaxArgs
  · have leaves := leaves few
    have supplied := leaves.supplied nonzero
    have finds : memory.arguments = argument parsed := by
      unfold Memory.arguments
      rw [parses]
    refine ⟨argument parsed, supplied, fun _ => finds.symm, ?_⟩
    rw [if_pos few, if_neg (not_lt.mpr few)]
    dsimp only
    cases list : words line with
    | nil =>
        rw [if_neg (not_not.mpr List.length_nil)]
        exact .done ⟨rfl, represents⟩
    | cons word others =>
        have more : (word :: others).length ≠ 0 := Nat.succ_ne_zero _
        rw [if_pos more]
        rw [list] at leaves supplied nonzero
        have finds : (word :: others)[0]? = some word := rfl
        have first := leaves.holds finds (nonzero word List.mem_cons_self)
        exact dispatch_matches represents first supplied
  · refine ⟨fun index => (words line)[index]?, fun _ _ finds => finds,
      fun few' => absurd few' few, ?_⟩
    rw [if_neg few, if_pos (not_le.mp few)]
    exact .done ⟨rfl, represents⟩

theorem Represents.emptied (represents : Represents memory shell) :
    Represents memory.emptied shell := by
  refine ⟨represents.cwd, represents.rooted, represents.udplogflag, represents.wr, ?_,
    represents.argv⟩
  have other : cmdBufSize - 1 ≠ 0 := by decide
  have kept : memory.emptied.cmdBuf (cmdBufSize - 1) = memory.cmdBuf (cmdBufSize - 1) :=
    Function.update_of_ne other 0 memory.cmdBuf
  exact kept.trans represents.last

theorem promptLine_matches (represents : Represents memory shell) :
    (promptLine memory).Matches Settles shell.prompt := by
  rw [promptLine_eq represents.cwd]
  exact .perform fun _ => .done represents.emptied

/-- What `CmdLineProcess` does for a line is what the shell does. -/
theorem cmdLineProcess_matches (represents : Represents memory shell)
    (holds : Holds memory.line line) : ∃ arguments, Supplied arguments (words line) ∧
      ((words line).length ≤ cmdlineMaxArgs → arguments = memory.arguments) ∧
      (cmdLineProcess memory).Matches Settles (shell.process arguments line) := by
  rcases cmdLineParse_matches represents holds with ⟨arguments, supplied, finds, parses⟩
  refine ⟨arguments, supplied, finds, ?_⟩
  have first : memory.cmdBuf 0 = 0 ↔ line = [] := by
    have char : memory.cmdBuf 0 = 0 ↔ 0 = line.length := holds.char_eq_zero_iff (Nat.zero_le _)
    rw [char, eq_comm, List.length_eq_zero_iff]
  unfold cmdLineProcess Shell.process
  rw [bind_memory, bind_ofOption (text_holds holds), bind_call]
  apply Program.Matches.perform
  intro _
  by_cases empty : line = []
  · rw [if_pos empty, if_neg (not_not.mpr (first.mpr empty))]
    exact promptLine_matches represents
  · rw [if_neg empty, if_pos fun zero => empty (first.mp zero), bind_apply]
    apply parses.bind
    rintro ⟨status, after⟩ ⟨_, shell'⟩ ⟨rfl, represents'⟩
    rw [bind_lift]
    apply (Program.Matches.refl (reportStatus status)).bind
    rintro _ _ rfl
    exact promptLine_matches represents'

end Process

end BbbEth.Console
