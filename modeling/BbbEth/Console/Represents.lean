import BbbEth.Console.Shell
import BbbEth.Interference.Matches

/-!
# The buffers of the console

What the buffers hold for a shell, and what the routines of `con_uif.c` that work on
`TmpBufPath` leave in it.
-/

namespace BbbEth.Console

open BbbEth.Interference Routine

/-- A path is empty or begins with a separator. -/
def Rooted (path : List Byte) : Prop := path = [] ∨ path.getD 0 0 = slash

theorem Rooted.append {path : List Byte} (rooted : Rooted path) (more : path ≠ [])
    (rest : List Byte) : Rooted (path ++ rest) := by
  rcases rooted with rfl | first
  · exact absurd rfl more
  · right
    rwa [List.getD_append _ _ _ _ (List.length_pos_iff.mpr more)]

theorem Rooted.take {path : List Byte} (rooted : Rooted path) (count : Nat) :
    Rooted (path.take count) := by
  rcases rooted with rfl | first
  · rw [List.take_nil]
    exact .inl rfl
  · cases count with
    | zero => exact .inl rfl
    | succ count =>
        cases path with
        | nil => exact .inl rfl
        | cons byte rest => exact .inr first

/-- The test of a buffer for `>`. -/
theorem greater_iff {str : Str} {path : List Byte} (holds : Holds str path) :
    str.char 0 = greater ∧ str.char 1 = 0 ↔ path = [greater] := by
  constructor
  · rintro ⟨first, second⟩
    have more : path.length ≠ 0 := by
      intro empty
      rw [holds.char 0 (Nat.zero_le _), List.length_eq_zero_iff.mp empty] at first
      exact absurd first (by decide)
    have length : 1 = path.length :=
      (holds.char_eq_zero_iff (Nat.one_le_iff_ne_zero.mpr more)).mp second
    rcases List.length_eq_one_iff.mp length.symm with ⟨byte, rfl⟩
    rw [holds.char 0 (Nat.zero_le _)] at first
    exact congrArg (fun byte => [byte]) first
  · rintro rfl
    exact ⟨holds.char 0 (Nat.zero_le _), holds.char 1 le_rfl⟩

/-- The memory of the console between two lines, for a shell. -/
structure Represents (memory : Memory) (shell : Shell) : Prop where
  cwd : Holds memory.cwd shell.cwd
  rooted : Rooted shell.cwd
  udplogflag : memory.udplogflag = shell.udplogflag
  /-- No redirection is left over. -/
  wr : ¬ (memory.wrBufPath 0 = greater ∧ memory.wrBufPath 1 = 0)
  /-- The end of `CmdBuf` is never overwritten. -/
  last : memory.cmdBuf (cmdBufSize - 1) = 0
  argv : ∀ index offset, memory.argv index = some offset → index ≤ offset ∧ offset < cmdBufSize

/-- An object whose last character is NUL holds a string. -/
theorem holds_of_last {str : Str} (size : 0 < str.size) (last : str.char (str.size - 1) = 0) :
    ∃ text, Holds str text := by
  have reads : ∀ left index, index + left = str.size → 0 < left →
      ∃ found, textFrom str left index = some found := by
    intro left
    induction left with
    | zero => exact fun _ _ positive => absurd positive (lt_irrefl 0)
    | succ left inductionHypothesis =>
        intro index whole _
        unfold textFrom
        by_cases ends : str.char index = 0
        · exact ⟨[], if_pos ends⟩
        · rw [if_neg ends]
          have more : 0 < left := by
            by_contra none
            apply ends
            rwa [show index = str.size - 1 by omega]
          rcases inductionHypothesis (index + 1) (by omega) more with ⟨found, reads⟩
          exact ⟨_, congrArg (Option.map _) reads⟩
  rcases reads str.size 0 (Nat.zero_add _) size with ⟨found, reads⟩
  exact ⟨found, text_eq_some_iff.mp reads⟩

namespace Represents

variable {memory : Memory} {shell : Shell}

/-- A pointer of `argv` points to a string. -/
theorem argument (represents : Represents memory shell) {index offset : Nat}
    (points : memory.argv index = some offset) :
    ∃ text, Holds (memory.cmd offset) text ∧ text.length + index < cmdBufSize := by
  rcases represents.argv index offset points with ⟨least, inside⟩
  have positive : 0 < (memory.cmd offset).size := Nat.sub_pos_of_lt inside
  have last : (memory.cmd offset).char ((memory.cmd offset).size - 1) = 0 := by
    change memory.cmdBuf (offset + (cmdBufSize - offset - 1)) = 0
    rw [show offset + (cmdBufSize - offset - 1) = cmdBufSize - 1 by omega]
    exact represents.last
  rcases holds_of_last positive last with ⟨text, holds⟩
  refine ⟨text, holds, ?_⟩
  have fits : text.length < cmdBufSize - offset := holds.fits
  omega

theorem setTmp (represents : Represents memory shell) (tmp : Str) :
    Represents (memory.setTmp tmp) shell :=
  ⟨represents.cwd, represents.rooted, represents.udplogflag, represents.wr, represents.last,
    represents.argv⟩

theorem setWr (represents : Represents memory shell) {wr : Str} {path : List Byte}
    (holds : Holds wr path) (other : path ≠ [greater]) : Represents (memory.setWr wr) shell :=
  ⟨represents.cwd, represents.rooted, represents.udplogflag,
    fun redirects => other ((greater_iff holds).mp redirects), represents.last, represents.argv⟩

theorem setCwd (represents : Represents memory shell) {cwd : Str} {path : List Byte}
    (holds : Holds cwd path) (size : cwd.size = pathBufSize) (rooted : Rooted path) :
    Represents (memory.setCwd cwd) { shell with cwd := path } :=
  ⟨holds.congr (holds.fits.trans_eq size) fun _ _ => rfl, rooted, represents.udplogflag, represents.wr,
    represents.last, represents.argv⟩

end Represents

/-! ## The current directory -/

namespace Shell

variable {shell : Shell}

theorem base_ne_nil : shell.base ≠ [] := by
  unfold base
  by_cases root : shell.cwd = [slash]
  · rw [if_pos root, root]
    exact List.cons_ne_nil _ _
  · rw [if_neg root]
    exact List.append_ne_nil_of_right_ne_nil _ (List.cons_ne_nil _ _)

theorem base_rooted (rooted : Rooted shell.cwd) : Rooted shell.base := by
  unfold base
  by_cases root : shell.cwd = [slash]
  · rw [if_pos root]
    exact rooted
  · rw [if_neg root]
    by_cases empty : shell.cwd = []
    · rw [empty]
      exact .inr rfl
    · exact rooted.append empty _

/-- A path below the current directory is not `>`. -/
theorem base_append_ne (rooted : Rooted shell.cwd) (rest : List Byte) :
    shell.base ++ rest ≠ [greater] := by
  intro same
  rcases (base_rooted rooted).append base_ne_nil rest with empty | first
  · exact base_ne_nil (List.append_eq_nil_iff.mp empty).1
  · rw [same] at first
    exact absurd first (by decide)

theorem length_base_le : shell.base.length ≤ shell.cwd.length + 1 := by
  unfold base
  split
  · exact Nat.le_succ _
  · exact List.length_append.le

end Shell

/-! ## `TmpBufPath` -/

variable {result : Type} {memory : Memory} {shell : Shell} {path name : List Byte}

/-- The routine returns at once, with a path in `TmpBufPath`. -/
def Prepares (code : Routine result) (value : result) (path : List Byte) (memory : Memory) :
    Prop :=
  ∃ tmp, Holds (memory.setTmp tmp).tmp path ∧ code memory = .done (value, memory.setTmp tmp)

theorem literal_holds {text : List Byte} (nonzero : ∀ byte ∈ text, byte ≠ 0) :
    Holds (literal text) text :=
  ⟨fun _ _ => rfl, nonzero, Nat.lt_succ_self _⟩

theorem slash_holds : Holds (literal [slash]) [slash] :=
  literal_holds (by decide)

theorem setTmp_holds {tmp : Str} (holds : Holds tmp path) (size : tmp.size = pathBufSize) :
    Holds (memory.setTmp tmp).tmp path :=
  holds.congr (holds.fits.trans_eq size) fun _ _ => rfl

theorem copyCwd_prepares (cwd : Holds memory.cwd path) : Prepares copyCwd () path memory := by
  rcases strcpy_holds (d := memory.tmp) cwd cwd.fits with ⟨tmp, copies, holds, size, _⟩
  refine ⟨tmp, setTmp_holds holds size, ?_⟩
  unfold copyCwd
  rw [bind_memory, bind_ofOption copies]
  rfl

theorem copyPath_prepares {argument : Str} (holds : Holds argument name)
    (short : name.length < pathBufSize - 1) : Prepares (copyPath argument) () name memory := by
  have fits : pathBufSize - 1 ≤ memory.tmp.size := (by decide : 511 ≤ 512)
  rcases strncpy_holds holds short fits with ⟨tmp, copies, holds, size⟩
  refine ⟨tmp, setTmp_holds holds size, ?_⟩
  unfold copyPath
  rw [bind_memory, bind_ofOption copies]
  rfl

theorem appendName_tooLong {argument : Str} (tmp : Holds memory.tmp shell.cwd)
    (holds : Holds argument name) (tooLong : shell.TooLong name) :
    appendName argument memory = .done (false, memory) := by
  have tooLong : pathBufSize < shell.cwd.length + name.length + 1 + 1 := tooLong
  unfold appendName
  rw [bind_memory, bind_ofOption (strlen_holds tmp), bind_ofOption (strlen_holds holds),
    if_pos tooLong]
  rfl

/-- A string that is appended to `TmpBufPath`. -/
theorem strcat_prepares {argument : Str} (tmp : Holds memory.tmp path)
    (holds : Holds argument name) (fits : path.length + name.length < pathBufSize)
    (value : result) : Prepares (do
      let memory ← load id
      let tmp ← ofOption (strcat memory.tmp argument)
      change (·.setTmp tmp)
      return value) value (path ++ name) memory := by
  rcases strcat_holds tmp holds fits with ⟨after, appends, holds, size, _⟩
  refine ⟨after, setTmp_holds holds size, ?_⟩
  rw [bind_memory, bind_ofOption appends]
  rfl

theorem appendName_prepares {argument : Str} (tmp : Holds memory.tmp shell.cwd)
    (holds : Holds argument name) (fits : ¬ shell.TooLong name) :
    Prepares (appendName argument) true (shell.base ++ name) memory := by
  have room : shell.cwd.length + name.length + 1 + 1 ≤ pathBufSize := not_lt.mp fits
  rcases strcmp_holds tmp slash_holds with ⟨differs, compares, same⟩
  unfold Prepares appendName
  rw [bind_memory, bind_ofOption (strlen_holds tmp), bind_ofOption (strlen_holds holds),
    if_neg (not_lt.mpr room), bind_ofOption compares]
  dsimp only
  unfold Shell.base
  by_cases root : shell.cwd = [slash]
  · rw [if_pos root, if_neg (not_not.mpr (same.mpr root))]
    exact strcat_prepares tmp holds (by omega) true
  · rw [if_neg root, if_pos fun zero => root (same.mp zero)]
    have roomForOne : shell.cwd.length + 1 < pathBufSize := by omega
    rcases strcat_holds tmp slash_holds roomForOne with
      ⟨separated, separates, separatedHolds, size, _⟩
    have length : (shell.cwd ++ [slash]).length = shell.cwd.length + 1 := List.length_append
    rw [bind_memory, bind_ofOption separates, bind_change]
    exact strcat_prepares (setTmp_holds separatedHolds size) holds (by omega) true

end BbbEth.Console
