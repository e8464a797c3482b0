import BbbEth.Console.Memory

/-!
# Paths of FatFs

How `ff.c` reads a path: `auto_mount` takes the drive off, and `trace_path` compares the
parts between separators with directory entries, in the form that `make_dirfile` gives them.
-/

namespace BbbEth.FatFs

open BbbEth.Console

/-! ## `make_dirfile` -/

def dot : Byte := 0x2e
def colon : Byte := 0x3a
def digitZero : Byte := 0x30

/-- A name in the form of a directory entry, with the NT flag that follows it. -/
structure DirName where
  name : List Byte
  ntres : Byte
  deriving DecidableEq

/-- The variables of `make_dirfile`: the flags, the position, the end of the part that is
written, and the name so far. -/
structure Paragraph where
  a : Byte
  b : Byte
  n : Nat
  t : Nat
  dirname : List Byte
  deriving DecidableEq

namespace Paragraph

/-- The variables before the loop. -/
def start : Paragraph := ⟨0, 0x18, 0, 8, List.replicate 11 blank⟩

variable (paragraph : Paragraph) (c : Byte)

/-- The end of a paragraph, which must not be empty. -/
def finish : Option DirName :=
  if paragraph.n = 0 then none
  else some ⟨paragraph.dirname, paragraph.a &&& paragraph.b⟩

/-- `md_l2`. -/
def store : Option Paragraph :=
  if paragraph.t ≤ paragraph.n then none
  else some { paragraph with
    dirname := paragraph.dirname.set paragraph.n c, n := paragraph.n + 1 }

/-- `md_l1`. -/
def plain : Option Paragraph := { paragraph with a := paragraph.a &&& ~~~ 1 }.store c

/-- The NT flag of the part that is written. -/
def flag : Byte := if paragraph.t = 8 then 0x08 else 0x10

/-- The checks that are not applied to the second byte of a Shift JIS character. -/
def letter : Option Paragraph :=
  if c = 0x7c then none
  else if 0x5b ≤ c.toNat ∧ c.toNat ≤ 0x5d then none
  else if 0x41 ≤ c.toNat ∧ c.toNat ≤ 0x5a then
    { paragraph with b := paragraph.b &&& ~~~ paragraph.flag }.plain c
  else if 0x61 ≤ c.toNat ∧ c.toNat ≤ 0x7a then
    { paragraph with a := paragraph.a ||| paragraph.flag }.plain (c - 0x20)
  else paragraph.plain c

/-- The first byte of a Shift JIS character. -/
def IsLead : Prop := 0x81 ≤ c.toNat ∧ c.toNat ≤ 0x9f ∨ 0xe0 ≤ c.toNat ∧ c.toNat ≤ 0xfc

instance : Decidable (IsLead c) := inferInstanceAs (Decidable (_ ∨ _))

/-- The loop, for a character that does not end the paragraph. -/
def step : Option Paragraph :=
  if c.toNat ≤ 0x20 ∨ c = 0x7f then none
  else if c = dot then
    if paragraph.a &&& 1 = 0 ∧ 1 ≤ paragraph.n ∧ paragraph.n ≤ 8 then
      some { paragraph with n := 8, t := 11 }
    else none
  else if IsLead c then
    { paragraph with a := paragraph.a ^^^ 1 }.store
      (if paragraph.n = 0 ∧ c = 0xe5 then 0x05 else c)
  else if c = 0x22 then none
  else if c.toNat ≤ 0x29 then paragraph.plain c
  else if c.toNat ≤ 0x2c then none
  else if c.toNat ≤ 0x39 then paragraph.plain c
  else if c.toNat ≤ 0x3f then none
  else if paragraph.a &&& 1 = 0 then paragraph.letter c
  else paragraph.plain c

end Paragraph

/-- `make_dirfile`: the name of the first paragraph, and what is behind its separator. -/
def makeDirfile : List Byte → Paragraph → Option (DirName × Option (List Byte))
  | [], paragraph => paragraph.finish.map fun dirname => (dirname, none)
  | c :: path, paragraph =>
      if c = slash then paragraph.finish.map fun dirname => (dirname, some path)
      else (paragraph.step c).bind (makeDirfile path)

/-! ## `trace_path` -/

/-- The names that `trace_path` looks for, one in each directory. -/
def traceNames : List Byte → Paragraph → Option (List (List Byte))
  | [], paragraph => paragraph.finish.map fun dirname => [dirname.name]
  | c :: path, paragraph =>
      if c = slash then
        paragraph.finish.bind fun dirname =>
          (traceNames path .start).map (dirname.name :: ·)
      else (paragraph.step c).bind (traceNames path)

section Paragraphs

variable {c : Byte} {path rest : List Byte} {paragraph : Paragraph}

theorem makeDirfile_slash : makeDirfile (slash :: path) paragraph =
    paragraph.finish.map fun dirname => (dirname, some path) :=
  if_pos rfl

theorem makeDirfile_other (other : c ≠ slash) :
    makeDirfile (c :: path) paragraph = (paragraph.step c).bind (makeDirfile path) :=
  if_neg other

theorem traceNames_slash : traceNames (slash :: path) paragraph =
    paragraph.finish.bind fun dirname => (traceNames path .start).map (dirname.name :: ·) :=
  if_pos rfl

theorem traceNames_other (other : c ≠ slash) :
    traceNames (c :: path) paragraph = (paragraph.step c).bind (traceNames path) :=
  if_neg other

/-- The loop of `trace_path`: a paragraph, and then the paragraphs behind its separator. -/
theorem traceNames_eq : traceNames path paragraph =
    (makeDirfile path paragraph).bind fun found =>
      match found.2 with
      | none => some [found.1.name]
      | some rest => (traceNames rest .start).map (found.1.name :: ·) := by
  induction path generalizing paragraph with
  | nil =>
      change paragraph.finish.map _ = (paragraph.finish.map _).bind _
      cases paragraph.finish with
      | none => rfl
      | some dirname => rfl
  | cons c path inductionHypothesis =>
      by_cases separates : c = slash
      · rw [separates, traceNames_slash, makeDirfile_slash]
        cases paragraph.finish with
        | none => rfl
        | some dirname => rfl
      · rw [traceNames_other separates, makeDirfile_other separates]
        cases paragraph.step c with
        | none => rfl
        | some next => exact inductionHypothesis

/-- The names of a path and of what is behind it. -/
theorem traceNames_append : traceNames (path ++ slash :: rest) paragraph =
    (traceNames path paragraph).bind fun names =>
      (traceNames rest .start).map (names ++ ·) := by
  induction path generalizing paragraph with
  | nil =>
      rw [List.nil_append, traceNames_slash]
      change _ = (paragraph.finish.map _).bind _
      cases paragraph.finish with
      | none => rfl
      | some dirname => rfl
  | cons c path inductionHypothesis =>
      by_cases separates : c = slash
      · rw [separates, List.cons_append, traceNames_slash, traceNames_slash, inductionHypothesis]
        cases paragraph.finish with
        | none => rfl
        | some dirname =>
            cases traceNames path .start with
            | none => rfl
            | some names =>
                cases traceNames rest .start with
                | none => rfl
                | some others => rfl
      · rw [List.cons_append, traceNames_other separates, traceNames_other separates]
        cases paragraph.step c with
        | none => rfl
        | some next => exact inductionHypothesis

theorem traceNames_ne_nil {names : List (List Byte)}
    (traces : traceNames path paragraph = some names) : names ≠ [] := by
  induction path generalizing paragraph names with
  | nil =>
      rcases Option.map_eq_some_iff.mp traces with ⟨dirname, _, rfl⟩
      exact List.cons_ne_nil _ _
  | cons c path inductionHypothesis =>
      by_cases separates : c = slash
      · rw [separates, traceNames_slash] at traces
        rcases Option.bind_eq_some_iff.mp traces with ⟨dirname, _, others⟩
        rcases Option.map_eq_some_iff.mp others with ⟨rest, _, rfl⟩
        exact List.cons_ne_nil _ _
      · rw [traceNames_other separates] at traces
        rcases Option.bind_eq_some_iff.mp traces with ⟨next, _, others⟩
        exact inductionHypothesis others

/-- A paragraph is not empty. -/
theorem traceNames_empty : traceNames (slash :: path) .start = none :=
  traceNames_slash

end Paragraphs

/-! ## Resolution -/

/-- `_DRIVES`. -/
def drives : Nat := 2

/-- The drive and the rest of a path, behind the spaces. -/
def splitDrive (path : List Byte) : Nat × List Byte :=
  if (path.getD 0 0 - digitZero).toNat ≤ 9 ∧ path.getD 1 0 = colon then
    ((path.getD 0 0 - digitZero).toNat, path.drop 2)
  else (0, path)

/-- The heading separator is stripped. -/
def stripSlash : List Byte → List Byte
  | [] => []
  | c :: path => if c = slash then path else c :: path

/-- What `auto_mount` makes of a path: the drive, and the path in it. -/
def autoMount (path : List Byte) : Option (Nat × List Byte) :=
  let split := splitDrive (path.dropWhile (· = blank))
  if drives ≤ split.1 then none else some (split.1, stripSlash split.2)

/-- The names of a path in its drive, of which the root directory has none. -/
def names (path : List Byte) : Option (List (List Byte)) :=
  if path = [] then some [] else traceNames path .start

/-- What FatFs resolves a path to: the drive, and the names from its root directory on. -/
def resolve (path : List Byte) : Option (Nat × List (List Byte)) :=
  (autoMount path).bind fun split => (names split.2).map (split.1, ·)

/-- A path is resolved to a directory, or to one of its ancestors. -/
def Encloses (path directory : List Byte) : Prop :=
  ∃ drive above below, resolve path = some (drive, above) ∧
    resolve directory = some (drive, below) ∧ above <+: below

section Resolution

variable {path rest cwd : List Byte}

theorem dropBlanks_append : (path ++ slash :: rest).dropWhile (· = blank) =
    path.dropWhile (· = blank) ++ slash :: rest := by
  induction path with
  | nil => rfl
  | cons c path inductionHypothesis =>
      by_cases isBlank : c = blank
      · rw [List.cons_append, List.dropWhile_cons_of_pos (by simpa using isBlank),
          List.dropWhile_cons_of_pos (by simpa using isBlank)]
        exact inductionHypothesis
      · rw [List.cons_append, List.dropWhile_cons_of_neg (by simpa using isBlank),
          List.dropWhile_cons_of_neg (by simpa using isBlank)]
        rfl

theorem splitDrive_append : splitDrive (path ++ slash :: rest) =
    ((splitDrive path).1, (splitDrive path).2 ++ slash :: rest) := by
  match path with
  | [] =>
      have noDigit : ¬ ((slash - digitZero).toNat ≤ 9 ∧ (slash :: rest).getD 1 0 = colon) :=
        fun both => absurd both.1 (by decide)
      exact if_neg noDigit
  | [c] =>
      have noColon : ¬ ((c - digitZero).toNat ≤ 9 ∧ slash = colon) :=
        fun both => absurd both.2 (by decide)
      have noColon' : ¬ ((c - digitZero).toNat ≤ 9 ∧ (0 : Byte) = colon) :=
        fun both => absurd both.2 (by decide)
      have alone : splitDrive [c] = (0, [c]) := if_neg noColon'
      rw [alone]
      exact if_neg noColon
  | c :: d :: path =>
      by_cases drive : (c - digitZero).toNat ≤ 9 ∧ d = colon
      · have first : splitDrive (c :: d :: path) = ((c - digitZero).toNat, path) := if_pos drive
        rw [first]
        exact if_pos drive
      · have first : splitDrive (c :: d :: path) = (0, c :: d :: path) := if_neg drive
        rw [first]
        exact if_neg drive

theorem stripSlash_append : stripSlash (path ++ slash :: rest) =
    if path = [] then rest else stripSlash path ++ slash :: rest := by
  cases path with
  | nil => rfl
  | cons c path =>
      rw [if_neg (List.cons_ne_nil _ _)]
      change (if c = slash then path ++ slash :: rest else c :: (path ++ slash :: rest)) =
        (if c = slash then path else c :: path) ++ slash :: rest
      split
      · rfl
      · rfl

/-- What is behind a path stays behind it, or is all that is left. -/
theorem autoMount_append {drive : Nat} {found : List Byte}
    (mounts : autoMount path = some (drive, found)) :
    ∃ whole, autoMount (path ++ slash :: rest) = some (drive, whole) ∧
      (whole = found ++ slash :: rest ∨ found = [] ∧ whole = rest) := by
  unfold autoMount at mounts ⊢
  dsimp only at mounts ⊢
  rw [dropBlanks_append, splitDrive_append, stripSlash_append]
  by_cases valid : drives ≤ (splitDrive (path.dropWhile (· = blank))).1
  · rw [if_pos valid] at mounts
    cases mounts
  · rw [if_neg valid] at mounts ⊢
    cases mounts
    refine ⟨_, rfl, ?_⟩
    split
    · next empty =>
        rw [empty]
        exact .inr ⟨rfl, rfl⟩
    · exact .inl rfl

theorem autoMount_absolute : autoMount (slash :: path) = some (0, path) := by
  have noDrive : splitDrive ([] ++ slash :: path) = (0, slash :: path) := splitDrive_append
  have whole : (slash :: path).dropWhile (· = blank) = [] ++ slash :: path :=
    List.dropWhile_cons_of_neg (by decide)
  unfold autoMount
  rw [whole, noDrive]
  rfl

theorem resolve_of_autoMount {drive : Nat} {found : List Byte}
    (mounts : autoMount path = some (drive, found)) :
    resolve path = (names found).map (drive, ·) := by
  unfold resolve
  rw [mounts]
  rfl

theorem names_of_ne_nil (more : path ≠ []) : names path = traceNames path .start :=
  if_neg more

/-- The names of a path that goes on are more than those of the path. -/
theorem names_append {above below : List (List Byte)}
    (directory : names path = some below) (goesOn : names (path ++ slash :: rest) = some above) :
    ∃ others, others ≠ [] ∧ above = below ++ others := by
  have nonempty : path ++ slash :: rest ≠ [] :=
    List.append_ne_nil_of_right_ne_nil _ (List.cons_ne_nil _ _)
  rw [names_of_ne_nil nonempty] at goesOn
  by_cases empty : path = []
  · rw [empty, List.nil_append, traceNames_empty] at goesOn
    cases goesOn
  · rw [names_of_ne_nil empty] at directory
    rw [traceNames_append, directory] at goesOn
    rcases Option.map_eq_some_iff.mp goesOn with ⟨others, traces, rfl⟩
    exact ⟨others, traceNames_ne_nil traces, rfl⟩

/-- A path that goes on is not resolved to the directory that it goes on from, or above it. -/
theorem not_encloses_append (more : rest ≠ []) : ¬ Encloses (path ++ slash :: rest) path := by
  rintro ⟨drive, above, below, resolves, directory, isPrefix⟩
  cases mounts : autoMount path with
  | none =>
      unfold resolve at directory
      rw [mounts] at directory
      cases directory
  | some split =>
      rcases split with ⟨drive', found⟩
      have mounted : ∃ whole, autoMount (path ++ slash :: rest) = some (drive', whole) ∧ _ :=
        autoMount_append mounts
      rcases mounted with ⟨whole, mounts', same⟩
      rw [resolve_of_autoMount mounts] at directory
      rw [resolve_of_autoMount mounts'] at resolves
      rcases Option.map_eq_some_iff.mp directory with ⟨below', traces, ⟨⟩⟩
      rcases Option.map_eq_some_iff.mp resolves with ⟨above', traces', ⟨⟩⟩
      rcases same with rfl | ⟨rfl, rfl⟩
      · rcases names_append traces traces' with ⟨others, nonempty, rfl⟩
        have shorter := isPrefix.length_le
        rw [List.length_append] at shorter
        have positive := List.length_pos_iff.mpr nonempty
        omega
      · cases traces
        rw [names_of_ne_nil more] at traces'
        exact traceNames_ne_nil traces' (List.prefix_nil.mp isPrefix)

/-- A path up to a separator of a directory, or up to its end, is resolved to the directory or
to one of its ancestors. -/
theorem encloses_of_append {drive : Nat} {below : List (List Byte)}
    (resolves : resolve (slash :: (path ++ rest)) = some (drive, below))
    (ends : rest = [] ∨ ∃ more, rest = slash :: more) :
    Encloses (slash :: path) (slash :: (path ++ rest)) := by
  have whole := resolves
  rw [resolve_of_autoMount autoMount_absolute] at resolves
  rcases Option.map_eq_some_iff.mp resolves with ⟨below', traces, ⟨⟩⟩
  rcases ends with rfl | ⟨more, rfl⟩
  · rw [List.append_nil] at whole ⊢
    exact ⟨_, _, _, whole, whole, List.prefix_rfl⟩
  · have nonempty : path ≠ [] := by
      rintro rfl
      rw [List.nil_append, names_of_ne_nil (List.cons_ne_nil _ _), traceNames_empty] at traces
      cases traces
    rw [names_of_ne_nil (List.append_ne_nil_of_left_ne_nil nonempty _), traceNames_append] at traces
    rcases Option.bind_eq_some_iff.mp traces with ⟨above, first, goesOn⟩
    rcases Option.map_eq_some_iff.mp goesOn with ⟨others, _, rfl⟩
    have resolves' : resolve (slash :: path) = some (0, above) := by
      rw [resolve_of_autoMount autoMount_absolute, names_of_ne_nil nonempty, first]
      rfl
    exact ⟨_, _, _, resolves', whole, List.prefix_append _ _⟩

end Resolution

end BbbEth.FatFs
