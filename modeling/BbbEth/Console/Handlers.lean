import BbbEth.Console.Represents

/-!
# The handlers and their buffers

Each handler of `con_uif.c` and of `udp_apps.c` makes the calls of the handler without buffers,
and leaves the buffers as they have to be.
-/

namespace BbbEth.Console

open BbbEth.Interference Routine

variable {memory : Memory} {shell : Shell} {path name : List Byte}

/-- The status, and buffers for the same shell. -/
def Keeps (shell : Shell) (left : Int × Memory) (right : Int) : Prop :=
  left.1 = right ∧ Represents left.2 shell

/-- The status, and buffers for the shell that is left. -/
def Leaves (left : Int × Memory) (right : Int × Shell) : Prop :=
  left.1 = right.1 ∧ Represents left.2 right.2

section Steps

variable {left middle : Type} {related : left × Memory → middle → Prop}

/-- Read an argument. -/
theorem argv_matches (represents : Represents memory shell) (index : Nat)
    {next : Str → Routine left} {other : List Byte → Program Call middle}
    (others : ∀ argument name, Holds argument name → name.length + index < cmdBufSize →
      (next argument memory).Matches related (other name)) :
    ((argv index >>= next) memory).Matches related
      (Arguments.read (argument memory) index other) := by
  rw [bind_argv]
  unfold Arguments.read
  apply Program.Matches.perform
  intro _
  cases points : memory.argv index with
  | none =>
      have missing : Console.argument memory index = none := by
        unfold Console.argument
        rw [points, Option.bind_none]
      rw [missing]
      exact .fault
  | some offset =>
      rcases represents.argument points with ⟨name, holds, short⟩
      have found : Console.argument memory index = some name := by
        unfold Console.argument
        rw [points]
        exact text_holds holds
      rw [found]
      exact others _ _ holds short

/-- Prepare a path. -/
theorem prepares_matches {result : Type} {code : Routine result} {value : result}
    (prepares : Prepares code value path memory) {next : result → Routine left}
    {other : Program Call middle}
    (others : ∀ tmp, Holds (memory.setTmp tmp).tmp path →
      (next value (memory.setTmp tmp)).Matches related other) :
    ((code >>= next) memory).Matches related other := by
  rcases prepares with ⟨tmp, holds, ends⟩
  rw [bind_of_eq_done ends]
  exact others tmp holds

/-- A message that ends a handler. -/
theorem complain_matches {message : String} {value : left} {value' : middle}
    (relates : related (value, memory) value') :
    ((consolePrintf message [] >>= fun _ => pure value) memory).Matches related
      (complain message value') :=
  .perform fun _ => .done relates

theorem printPath_bind {result : Type} {format : String} {buffer : Memory → Str}
    (holds : Holds (buffer memory) path) (next : Unit → Routine result) :
    (printPath format buffer >>= next) memory =
      .perform (.consolePrintf format [.text path]) fun _ => next () memory := by
  rw [bind_apply]
  unfold printPath
  rw [bind_load, bind_ofOption (text_holds holds)]
  rfl

end Steps

/-- The first character of a name. -/
theorem absolute_iff {argument : Str} (holds : Holds argument name) :
    argument.char 0 = slash ↔ name.getD 0 0 = slash := by
  rw [holds.char 0 (Nat.zero_le _)]

/-- A name fits into a path buffer. -/
theorem absolute_fits (short : name.length + 1 < cmdBufSize) :
    ¬ pathBufSize < name.length + 1 :=
  not_lt.mpr short.le

/-! ## `rm` -/

theorem removePath_matches (represents : Represents memory shell) (holds : Holds memory.tmp path) :
    (removePath memory).Matches (Keeps shell) (shell.unlink path) := by
  unfold removePath Shell.unlink
  rw [bind_memory, bind_ofOption (text_holds holds), bind_call]
  apply Program.Matches.perform
  intro fresult
  by_cases fails : fresult ≠ .ok
  · rw [if_pos fails, if_pos fails, printPath_bind represents.cwd]
    exact .perform fun _ => .done ⟨rfl, represents⟩
  · rw [if_neg fails, if_neg fails]
    exact .done ⟨rfl, represents⟩

theorem aboveCwd_eq (cwd : Holds memory.cwd shell.cwd) {argument : Str}
    (holds : Holds argument name) :
    aboveCwd argument memory = .done (decide (shell.IsAbove name), memory) := by
  unfold aboveCwd
  rw [bind_memory, bind_ofOption (strlen_holds cwd), bind_ofOption (strlen_holds holds)]
  by_cases shorter : name.length ≤ shell.cwd.length
  · rcases strncmp_holds cwd holds with ⟨differs, compares, same⟩
    have next : memory.cwdBuf name.length = shell.cwd.getD name.length 0 :=
      cwd.char _ shorter
    rw [if_pos shorter, bind_ofOption compares, next]
    have decides : decide (differs = 0 ∧
        (shell.cwd.getD name.length 0 = slash ∨ shell.cwd.getD name.length 0 = 0)) =
        decide (shell.IsAbove name) := decide_eq_decide.mpr (and_congr_left fun _ => same)
    rw [← decides]
    rfl
  · rw [if_neg shorter]
    have other : ¬ shell.IsAbove name := fun above => shorter above.1.length_le
    rw [decide_eq_false other]
    rfl

theorem cmdRm_matches (represents : Represents memory shell) :
    (cmdRm memory).Matches (Keeps shell) (shell.rm (argument memory)) := by
  apply argv_matches represents
  intro argument name holds short
  by_cases absolute : name.getD 0 0 = slash
  · rw [if_pos absolute, if_pos ((absolute_iff holds).mpr absolute),
      bind_ofOption (strlen_holds holds), if_neg (absolute_fits short),
      bind_of_eq_done (aboveCwd_eq represents.cwd holds)]
    by_cases above : shell.IsAbove name
    · rw [if_pos above, if_pos (decide_eq_true above)]
      exact complain_matches ⟨rfl, represents⟩
    · rw [if_neg above, if_neg (by rw [decide_eq_false above]; exact Bool.false_ne_true)]
      apply prepares_matches (copyPath_prepares holds (Nat.lt_pred_of_succ_lt short))
      intro tmp prepared
      exact removePath_matches (represents.setTmp tmp) prepared
  · rw [if_neg absolute, if_neg fun first => absolute ((absolute_iff holds).mp first)]
    apply prepares_matches (copyCwd_prepares represents.cwd)
    intro tmp copied
    by_cases tooLong : shell.TooLong name
    · rw [if_pos tooLong, bind_of_eq_done (appendName_tooLong copied holds tooLong)]
      exact complain_matches ⟨rfl, represents.setTmp tmp⟩
    · rw [if_neg tooLong]
      apply prepares_matches (appendName_prepares copied holds tooLong)
      intro tmp' prepared
      exact removePath_matches ((represents.setTmp tmp).setTmp tmp') prepared

/-! ## `mkdir` -/

theorem makePath_matches (represents : Represents memory shell) (holds : Holds memory.tmp path) :
    (makePath memory).Matches (Keeps shell) (Shell.create path) := by
  unfold makePath Shell.create
  rw [bind_memory, bind_ofOption (text_holds holds), bind_call]
  apply Program.Matches.perform
  intro fresult
  by_cases fails : fresult ≠ .ok
  · rw [if_pos fails, if_pos fails, printPath_bind holds]
    exact .perform fun _ => .done ⟨rfl, represents⟩
  · rw [if_neg fails, if_neg fails]
    exact .done ⟨rfl, represents⟩

theorem cmdMkdir_matches (represents : Represents memory shell) :
    (cmdMkdir memory).Matches (Keeps shell) (shell.mkdir (argument memory)) := by
  apply argv_matches represents
  intro argument name holds short
  unfold Shell.resolve
  by_cases absolute : name.getD 0 0 = slash
  · rw [if_pos absolute, if_pos ((absolute_iff holds).mpr absolute),
      bind_ofOption (strlen_holds holds), if_neg (absolute_fits short)]
    apply prepares_matches (copyPath_prepares holds (Nat.lt_pred_of_succ_lt short))
    intro tmp prepared
    exact makePath_matches (represents.setTmp tmp) prepared
  · rw [if_neg absolute, if_neg fun first => absolute ((absolute_iff holds).mp first)]
    apply prepares_matches (copyCwd_prepares represents.cwd)
    intro tmp copied
    by_cases tooLong : shell.TooLong name
    · rw [if_pos tooLong, bind_of_eq_done (appendName_tooLong copied holds tooLong)]
      exact complain_matches ⟨rfl, represents.setTmp tmp⟩
    · rw [if_neg tooLong]
      apply prepares_matches (appendName_prepares copied holds tooLong)
      intro tmp' prepared
      exact makePath_matches ((represents.setTmp tmp).setTmp tmp') prepared

/-! ## `cd` -/

/-- The index that `cd ..` finds. -/
theorem backUp_holds {str : Str} (holds : Holds str path) :
    ∀ index, index < path.length → backUp str index = some (Shell.cutIndex path index)
  | 0, _ => if_pos ((Nat.zero_le _).trans_lt holds.fits)
  | index + 1, inside => by
      have char := holds.char (index + 1) inside.le
      have fits : ¬ str.size ≤ index + 1 := not_le.mpr (inside.trans holds.fits)
      unfold backUp Shell.cutIndex
      rw [if_neg fits, char]
      by_cases goesOn : path.getD (index + 1) 0 ≠ slash ∧ 1 < index + 1
      · rw [if_pos goesOn, if_pos goesOn]
        exact backUp_holds holds index (Nat.lt_of_succ_lt inside)
      · rw [if_neg goesOn, if_neg goesOn]

theorem cutIndex_le (path : List Byte) : ∀ index, Shell.cutIndex path index ≤ index
  | 0 => le_rfl
  | index + 1 => by
      unfold Shell.cutIndex
      split
      · exact (cutIndex_le path index).trans (Nat.le_succ index)
      · exact le_rfl

theorem cutPath_prepares (holds : Holds memory.tmp path) (more : path ≠ []) :
    Prepares cutPath () (Shell.cut path) memory := by
  have positive : 0 < path.length := List.length_pos_iff.mpr more
  have fits : path.length < 512 := holds.fits
  have start : (BitVec.ofNat 32 path.length - 1).toNat = path.length - 1 := by
    bv_omega
  have index : backUp memory.tmp (BitVec.ofNat 32 path.length - 1).toNat =
      some (Shell.cutIndex path (path.length - 1)) := by
    rw [start]
    exact backUp_holds holds _ (Nat.sub_lt positive Nat.one_pos)
  have inside : Shell.cutIndex path (path.length - 1) ≤ path.length :=
    (cutIndex_le path _).trans (Nat.sub_le _ _)
  rcases store_nul holds inside with ⟨tmp, stores, cuts, size⟩
  refine ⟨tmp, setTmp_holds cuts size, ?_⟩
  unfold cutPath
  rw [bind_memory, bind_ofOption (strlen_holds holds), bind_ofOption index, bind_ofOption stores]
  rfl

/-- Without a current directory, the unsigned index is outside of the buffer. -/
theorem cutPath_fault {result : Type} (holds : Holds memory.tmp []) (next : Unit → Routine result) :
    (cutPath >>= next) memory = .fault := by
  have index : backUp memory.tmp (BitVec.ofNat 32 ([] : List Byte).length - 1).toNat = none := by
    change backUp memory.tmp (4294967294 + 1) = none
    unfold backUp
    exact if_pos (show pathBufSize ≤ 4294967294 + 1 by decide)
  rw [bind_apply]
  unfold cutPath
  rw [bind_memory, bind_ofOption (strlen_holds holds), bind_ofOption_none index]
  rfl

theorem enterPath_matches (represents : Represents memory shell) (holds : Holds memory.tmp path)
    (rooted : Rooted path) : (enterPath memory).Matches Leaves (shell.enter path) := by
  unfold enterPath Shell.enter
  rw [bind_memory, bind_ofOption (text_holds holds), bind_call]
  apply Program.Matches.perform
  intro fresult
  by_cases fails : fresult ≠ .ok
  · rw [if_pos fails, if_pos fails, printPath_bind holds]
    exact .perform fun _ => .done ⟨rfl, represents⟩
  · have shorter : path.length < pathBufSize := holds.fits
    have whole : pathBufSize ≤ memory.cwd.size := le_rfl
    rcases strncpy_holds holds shorter whole with ⟨cwd, copies, copied, size⟩
    rw [if_neg fails, if_neg fails, bind_memory, bind_ofOption copies]
    exact .done ⟨rfl, represents.setCwd copied size rooted⟩

theorem dots_holds : Holds (literal (chars ['.', '.'])) (chars ['.', '.']) :=
  literal_holds (by decide)

theorem dots_relative : ¬ (chars ['.', '.']).getD 0 0 = slash := by decide

theorem cmdCd_matches (represents : Represents memory shell) :
    (cmdCd memory).Matches Leaves (shell.cd (argument memory)) := by
  apply prepares_matches (copyCwd_prepares represents.cwd)
  intro tmp copied
  have represents := represents.setTmp tmp
  apply argv_matches represents
  intro argument name holds short
  rcases strcmp_holds holds dots_holds with ⟨differs, compares, same⟩
  by_cases absolute : name.getD 0 0 = slash
  · have other : name ≠ chars ['.', '.'] := by
      rintro rfl
      exact dots_relative absolute
    rw [if_neg other, if_pos ((absolute_iff holds).mpr absolute),
      bind_ofOption (strlen_holds holds), if_neg (absolute_fits short)]
    unfold Shell.resolve
    rw [if_pos absolute]
    apply prepares_matches (copyPath_prepares holds (Nat.lt_pred_of_succ_lt short))
    intro tmp' prepared
    exact enterPath_matches (represents.setTmp tmp') prepared (.inr absolute)
  · rw [if_neg fun first => absolute ((absolute_iff holds).mp first), bind_ofOption compares]
    by_cases dots : name = chars ['.', '.']
    · rw [if_pos dots, if_pos (same.mpr dots)]
      by_cases empty : shell.cwd = []
      · rw [if_pos empty, cutPath_fault (empty ▸ copied)]
        exact .fault
      · rw [if_neg empty]
        apply prepares_matches (cutPath_prepares copied empty)
        intro tmp' prepared
        exact enterPath_matches (represents.setTmp tmp') prepared (represents.rooted.take _)
    · rw [if_neg dots, if_neg fun zero => dots (same.mp zero)]
      unfold Shell.resolve
      rw [if_neg absolute]
      by_cases tooLong : shell.TooLong name
      · rw [if_pos tooLong, bind_of_eq_done (appendName_tooLong copied holds tooLong)]
        exact complain_matches ⟨rfl, represents⟩
      · rw [if_neg tooLong]
        apply prepares_matches (appendName_prepares copied holds tooLong)
        intro tmp' prepared
        exact enterPath_matches (represents.setTmp tmp') prepared
          ((Shell.base_rooted represents.rooted).append Shell.base_ne_nil name)

/-! ## `ls` and `pwd` -/

theorem lift_matches (represents : Represents memory shell) (code : Program Call Int) :
    (lift code memory).Matches (Keeps shell) code := by
  have matching : (code >>= fun value => .done (value, memory)).Matches (Keeps shell)
      (code >>= .done) := by
    apply (Program.Matches.refl code).bind
    rintro value _ rfl
    exact .done ⟨rfl, represents⟩
  rwa [Program.bind_pure] at matching

theorem cmdLs_matches (represents : Represents memory shell) :
    (cmdLs memory).Matches (Keeps shell) shell.ls := by
  unfold cmdLs Shell.ls
  rw [bind_memory, bind_ofOption (text_holds represents.cwd), bind_call]
  apply Program.Matches.perform
  intro fresult
  by_cases fails : fresult ≠ .ok
  · rw [if_pos fails, if_pos fails]
    exact .done ⟨rfl, represents⟩
  · rw [if_neg fails, if_neg fails]
    exact lift_matches represents _

theorem cmdPwd_matches (represents : Represents memory shell) :
    (cmdPwd memory).Matches (Keeps shell) shell.pwd := by
  unfold cmdPwd Shell.pwd
  rw [printPath_bind represents.cwd]
  exact .perform fun _ => .done ⟨rfl, represents⟩

/-! ## `cat` -/

theorem separate_prepares (cwd : Holds memory.cwd shell.cwd)
    (holds : Holds memory.tmp shell.cwd) (fits : shell.cwd.length + 1 < pathBufSize) :
    Prepares separate () shell.base memory := by
  rcases strcmp_holds slash_holds cwd with ⟨differs, compares, same⟩
  unfold Prepares separate
  rw [bind_memory, bind_ofOption compares]
  unfold Shell.base
  by_cases root : shell.cwd = [slash]
  · rw [if_pos root, if_neg (not_not.mpr (same.mpr root.symm))]
    exact ⟨memory.tmp, holds, rfl⟩
  · rw [if_neg root, if_pos fun zero => root (same.mp zero).symm]
    rcases strcat_holds holds slash_holds fits with ⟨tmp, appends, appended, size, _⟩
    refine ⟨tmp, setTmp_holds appended size, ?_⟩
    rw [bind_ofOption appends]
    rfl

theorem device_holds : Holds (literal devUart) devUart :=
  literal_holds (by decide)

theorem readUart_matches (represents : Represents memory shell) :
    (readUart memory).Matches (Keeps shell) Shell.uart :=
  .perform fun _ => .perform fun _ => .perform fun _ => .done ⟨rfl, represents⟩

/-- The result of `f_open`, and then the blocks. -/
theorem opened_matches (represents : Represents memory shell) (fresult : FResult)
    {code : Routine Int} {other : Program Call Int}
    (matching : (code memory).Matches (Keeps shell) other) :
    ((if fresult ≠ .ok then pure fresult.code else code : Routine Int) memory).Matches
      (Keeps shell) (if fresult ≠ .ok then .done fresult.code else other) := by
  by_cases fails : fresult ≠ .ok
  · rw [if_pos fails, if_pos fails]
    exact .done ⟨rfl, represents⟩
  · rw [if_neg fails, if_neg fails]
    exact matching

theorem readFile_matches (represents : Represents memory shell) {argument : Str}
    {flagWrite : Bool} (tmp : Holds memory.tmp shell.base) (holds : Holds argument name)
    (fits : shell.base.length + name.length < pathBufSize)
    (wr : flagWrite = true → Holds memory.wr shell.base) :
    (readFile argument flagWrite memory).Matches (Keeps shell)
      (shell.copy (Console.argument memory) name flagWrite) := by
  rcases strcat_holds tmp holds fits with ⟨opened, appends, appended, size, _⟩
  have represents := represents.setTmp opened
  unfold readFile Shell.copy
  rw [bind_memory, bind_ofOption appends, bind_change, bind_ofOption (text_holds appended),
    bind_call]
  apply Program.Matches.perform
  intro fresultRead
  cases flagWrite with
  | false => exact opened_matches represents fresultRead (lift_matches represents _)
  | true =>
      apply argv_matches represents
      intro target file targetHolds _
      have base : Holds (memory.setTmp opened).wr shell.base := wr rfl
      by_cases overflows : pathBufSize ≤ shell.base.length + file.length
      · rw [if_pos overflows, bind_memory,
          bind_ofOption_none (strcat_overflow base targetHolds overflows)]
        exact .fault
      · rcases strcat_holds base targetHolds (not_le.mp overflows) with
          ⟨target', appendsTarget, appendedTarget, _, _⟩
        have represents := represents.setWr appendedTarget
          (Shell.base_append_ne represents.rooted file)
        rw [if_neg overflows, bind_memory, bind_ofOption appendsTarget, bind_change,
          bind_ofOption (text_holds appendedTarget), bind_call]
        apply Program.Matches.perform
        intro fresultWrite
        exact opened_matches represents fresultRead
          (opened_matches represents fresultWrite (lift_matches represents _))

theorem redirect_other (other : ¬ (memory.wrBufPath 0 = greater ∧ memory.wrBufPath 1 = 0)) :
    redirect memory = .done (false, memory) := by
  unfold redirect
  rw [bind_memory, if_neg other]
  rfl

theorem redirect_greater (redirects : memory.wrBufPath 0 = greater ∧ memory.wrBufPath 1 = 0)
    (holds : Holds memory.tmp path) :
    ∃ wr, Holds (memory.setWr wr).wr path ∧
      redirect memory = .done (true, memory.setWr wr) := by
  rcases strcpy_holds (d := memory.wr) holds holds.fits with ⟨wr, copies, copied, size, _⟩
  refine ⟨wr, copied.congr (copied.fits.trans_eq size) fun _ _ => rfl, ?_⟩
  unfold redirect
  rw [bind_memory, if_pos redirects, bind_ofOption copies]
  rfl

/-- The part of `Cmd_cat` behind the paths. -/
theorem catFile_matches (represents : Represents memory shell) {argument : Str}
    {flagWrite : Bool} (tmp : Holds memory.tmp shell.base) (holds : Holds argument name)
    (fits : shell.base.length + name.length < pathBufSize)
    (wr : flagWrite = true → Holds memory.wr shell.base) :
    ((do
      let dataBufRW ← ofOption (strcpy ⟨dataBufSize, fun _ => 0⟩ argument)
      let differs ← ofOption (strcmp dataBufRW (literal devUart))
      if differs = 0 then readUart else readFile argument flagWrite : Routine Int) memory).Matches
      (Keeps shell) (shell.catFile (Console.argument memory) name flagWrite) := by
  have room : name.length < dataBufSize :=
    (Nat.le_add_left _ _).trans_lt (fits.trans (by decide))
  rcases strcpy_holds (d := ⟨dataBufSize, fun _ => 0⟩) holds room with ⟨data, copies, copied, _⟩
  rcases strcmp_holds copied device_holds with ⟨differs, compares, same⟩
  unfold Shell.catFile
  rw [bind_ofOption copies, bind_ofOption compares]
  by_cases device : name = devUart
  · rw [if_pos device, if_pos (same.mpr device)]
    exact readUart_matches represents
  · rw [if_neg device, if_neg fun zero => device (same.mp zero)]
    exact readFile_matches represents tmp holds fits wr

/-- The part of `Cmd_cat` that looks for a redirection. -/
theorem target_matches (represents : Represents memory shell) {argument : Str}
    (tmp : Holds memory.tmp shell.base) (holds : Holds argument name)
    (fits : shell.base.length + name.length < pathBufSize) (argc : Nat) :
    ((do
      copyTarget argc
      let flagWrite ← redirect
      let dataBufRW ← ofOption (strcpy ⟨dataBufSize, fun _ => 0⟩ argument)
      let differs ← ofOption (strcmp dataBufRW (literal devUart))
      if differs = 0 then readUart else readFile argument flagWrite : Routine Int) memory).Matches
      (Keeps shell)
      (if 4 ≤ argc then
        Arguments.read (Console.argument memory) 2 fun redirection =>
          shell.catFile (Console.argument memory) name (redirection = [greater])
      else shell.catFile (Console.argument memory) name false) := by
  unfold copyTarget
  by_cases redirected : 4 ≤ argc
  · rw [if_pos redirected, if_pos redirected, bind_bind]
    apply argv_matches represents
    intro redirection target targetHolds targetShort
    have targetFits : target.length < memory.wr.size := (Nat.le_add_right _ 2).trans_lt targetShort
    rcases strcpy_holds targetHolds targetFits with ⟨wr, copies, wrHolds, _⟩
    rw [bind_bind, bind_memory, bind_bind, bind_ofOption copies, bind_change]
    by_cases isGreater : target = [greater]
    · have redirects : (memory.setWr wr).wrBufPath 0 = greater ∧ (memory.setWr wr).wrBufPath 1 = 0 :=
        (greater_iff wrHolds).mpr isGreater
      have tmp' : Holds (memory.setWr wr).tmp shell.base := tmp
      have other : shell.base ≠ [greater] := by
        have appended := Shell.base_append_ne represents.rooted []
        rwa [List.append_nil] at appended
      rcases redirect_greater redirects tmp' with ⟨wr', wrHolds', copies'⟩
      rw [decide_eq_true isGreater, bind_of_eq_done copies']
      exact catFile_matches (represents.setWr wrHolds' other) tmp holds fits fun _ => wrHolds'
    · have kept := represents.setWr wrHolds isGreater
      rw [decide_eq_false isGreater, bind_of_eq_done (redirect_other kept.wr)]
      exact catFile_matches kept tmp holds fits nofun
  · have skips : (pure () : Routine Unit) memory = .done ((), memory) := rfl
    rw [if_neg redirected, if_neg redirected, bind_of_eq_done skips,
      bind_of_eq_done (redirect_other represents.wr)]
    exact catFile_matches represents tmp holds fits nofun

theorem cmdCat_matches (represents : Represents memory shell) (argc : Nat) :
    (cmdCat argc memory).Matches (Keeps shell) (shell.cat (argument memory) argc) := by
  unfold cmdCat Shell.cat
  rw [bind_memory, bind_ofOption (strlen_holds represents.cwd)]
  apply argv_matches represents
  intro argument name holds short
  rw [bind_ofOption (strlen_holds holds)]
  by_cases tooLong : shell.TooLong name
  · have tooLong' : pathBufSize < shell.cwd.length + name.length + 1 + 1 := tooLong
    rw [if_pos tooLong, if_pos tooLong']
    exact complain_matches ⟨rfl, represents⟩
  · have room : shell.cwd.length + name.length + 1 + 1 ≤ pathBufSize := not_lt.mp tooLong
    have fits : shell.base.length + name.length < pathBufSize := by
      have length := shell.length_base_le
      omega
    rw [if_neg tooLong, if_neg (not_lt.mpr room)]
    apply prepares_matches (copyCwd_prepares represents.cwd)
    intro tmp copied
    have represents := represents.setTmp tmp
    apply prepares_matches (separate_prepares represents.cwd copied (by omega))
    intro tmp' separated
    exact target_matches (represents.setTmp tmp') separated holds fits argc

/-! ## UDP -/

theorem cmdUdptx_matches (represents : Represents memory shell) (argc : Nat) :
    (cmdUdptx argc memory).Matches (Keeps shell) (Shell.udptx (argument memory) argc) := by
  apply argv_matches represents
  intro argument name holds short
  rw [bind_ofOption (strlen_holds holds)]
  by_cases nothing : argc < 2 ∨ name.length = 0
  · rw [if_pos nothing, if_pos nothing]
    exact complain_matches ⟨rfl, represents⟩
  · rw [if_neg nothing, if_neg nothing, bind_call]
    apply Program.Matches.perform
    intro _
    rw [bind_ofOption (text_holds holds), bind_print]
    apply Program.Matches.perform
    intro _
    rw [bind_call]
    apply Program.Matches.perform
    intro err
    by_cases fails : err ≠ 0
    · rw [if_pos fails, if_pos fails]
      exact .perform fun _ => .perform fun _ => .done ⟨rfl, represents⟩
    · rw [if_neg fails, if_neg fails]
      exact .perform fun _ => .done ⟨rfl, represents⟩

theorem namebuf_holds : Holds namebuf Shell.udplogs :=
  ⟨fun _ _ => rfl, by decide, by decide⟩

theorem cmdUdplog_matches (represents : Represents memory shell) :
    (cmdUdplog memory).Matches Leaves (shell.udplog (argument memory)) := by
  unfold cmdUdplog Shell.udplog
  rw [bind_load, represents.udplogflag]
  by_cases logging : shell.udplogflag = true
  · rw [if_pos logging, if_pos logging]
    exact .done ⟨rfl, represents⟩
  · rw [if_neg logging, if_neg logging]
    apply argv_matches represents
    intro argument name holds short
    by_cases overflows : pathBufSize ≤ Shell.udplogs.length + name.length
    · rw [if_pos overflows, bind_ofOption_none (strcat_overflow namebuf_holds holds overflows)]
      exact .fault
    · rcases strcat_holds namebuf_holds holds (not_le.mp overflows) with ⟨path, appends, appended, _⟩
      rw [if_neg overflows, bind_ofOption appends, bind_ofOption (text_holds appended), bind_call]
      apply Program.Matches.perform
      intro fresult
      exact .done ⟨rfl, represents.cwd, represents.rooted, rfl, represents.wr, represents.last,
        represents.argv⟩

theorem cmdUdplog0_matches (represents : Represents memory shell) :
    (cmdUdplog0 memory).Matches Leaves shell.udplog0 := by
  unfold cmdUdplog0 Shell.udplog0
  rw [bind_load, represents.udplogflag]
  by_cases logging : shell.udplogflag = true
  · rw [if_pos logging, if_pos logging]
    exact .perform fun _ => .done ⟨rfl, represents.cwd, represents.rooted, rfl, represents.wr,
      represents.last, represents.argv⟩
  · rw [if_neg logging, if_neg logging]
    exact .done ⟨rfl, represents⟩

/-! ## All handlers -/

theorem leaves_matches {code : Routine Int} {other : Program Call Int}
    (matching : (code memory).Matches (Keeps shell) other) :
    (code memory).Matches Leaves (shell.leaves other) := by
  have whole : (code memory >>= .done).Matches Leaves
      (other >>= fun status => .done (status, shell)) :=
    matching.bind fun _ _ keeps => .done keeps
  rwa [Program.bind_pure] at whole

/-- Each handler does what the handler without buffers does. -/
theorem handler_matches (represents : Represents memory shell) (argc : Nat) :
    ∀ command : Command, (command.handler argc memory).Matches Leaves
      (shell.handler (argument memory) argc command)
  | .help => leaves_matches (lift_matches represents _)
  | .ls => leaves_matches (cmdLs_matches represents)
  | .cd => cmdCd_matches represents
  | .mkdir => leaves_matches (cmdMkdir_matches represents)
  | .pwd => leaves_matches (cmdPwd_matches represents)
  | .cat => leaves_matches (cmdCat_matches represents argc)
  | .rm => leaves_matches (cmdRm_matches represents)
  | .udptx => leaves_matches (cmdUdptx_matches represents argc)
  | .udplog => cmdUdplog_matches represents
  | .udplog0 => cmdUdplog0_matches represents

end BbbEth.Console
