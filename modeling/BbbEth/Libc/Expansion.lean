import BbbEth.Libc.Digits

/-!
# What `ConsolePrintf` prints

The reference expansion, for formats without a `%` at the end and without negative numbers.
-/

namespace BbbEth.Libc

open Loops

variable (byTen : ByTen) {memory : Word → Byte}

section Reference

variable {args : List Word} {printed out : List Byte} {parts : List Piece} {right : Prop}

/-- What is printed is the reference if it is right, and shorter if not. -/
structure Shortens (right : Prop) (printed out : List Byte) : Prop where
  same : right → printed = out
  shorter : ¬ right → printed.length < out.length

theorem Shortens.append (text : List Byte) (shortens : Shortens right printed out) :
    Shortens right (text ++ printed) (text ++ out) := by
  constructor
  · intro holds
    rw [shortens.same holds]
  · intro fails
    have shorter := shortens.shorter fails
    rw [List.length_append, List.length_append]
    omega

/-- A negative number makes what is printed shorter. -/
theorem Shortens.decimal (word : Word) (shortens : Shortens right printed out) :
    Shortens (0 ≤ word.toInt ∧ right) (digits byTen word ++ printed)
      (numeral word.toInt ++ out) := by
  by_cases nonneg : 0 ≤ word.toInt
  · rw [digits_nonneg byTen nonneg]
    exact ⟨fun holds => (shortens.append _).same holds.2,
      fun fails => (shortens.append _).shorter fun holds => fails ⟨nonneg, holds⟩⟩
  · have le : printed.length ≤ out.length := by
      by_cases holds : right
      · rw [shortens.same holds]
      · exact (shortens.shorter holds).le
    have less := digits_negative byTen (not_le.mp nonneg)
    refine ⟨fun holds => absurd holds.1 nonneg, fun _ => ?_⟩
    rw [List.length_append, List.length_append]
    omega

theorem decimals_unknown {conversion : Byte}
    (known : conversion ∉ [char 'c', char 's', char 'x', char 'd']) :
    decimals (.conversion conversion :: parts) args = decimals parts args :=
  if_neg known

/-- With the digits that are printed the expansion is the reference, or shorter. -/
theorem Expands.digits (expands : Expands memory (fun word => numeral word.toInt) parts args out) :
    ∃ printed, Expands memory (digits byTen) parts args printed ∧
      Shortens (∀ word ∈ decimals parts args, 0 ≤ word.toInt) printed out := by
  induction expands with
  | nil => exact ⟨[], .nil, fun _ => rfl, fun fails => absurd (List.forall_mem_nil _) fails⟩
  | ordinary c _ inductionHypothesis =>
      rcases inductionHypothesis with ⟨printed, expands, shortens⟩
      exact ⟨_, .ordinary c expands, shortens.append [c]⟩
  | character _ inductionHypothesis =>
      rcases inductionHypothesis with ⟨printed, expands, shortens⟩
      exact ⟨_, .character expands, shortens.append [_]⟩
  | string found _ inductionHypothesis =>
      rcases inductionHypothesis with ⟨printed, expands, shortens⟩
      exact ⟨_, .string found expands, shortens.append _⟩
  | hexadecimal _ inductionHypothesis =>
      rcases inductionHypothesis with ⟨printed, expands, shortens⟩
      exact ⟨_, .hexadecimal expands, shortens.append _⟩
  | @decimal arg rest args out _ inductionHypothesis =>
      rcases inductionHypothesis with ⟨printed, expands, shortens⟩
      have first : decimals (.conversion (char 'd') :: rest) (arg :: args) =
        arg :: decimals rest args := rfl
      refine ⟨_, .decimal expands, ?_⟩
      rw [first, List.forall_mem_cons]
      exact shortens.decimal byTen arg
  | unknown c known _ inductionHypothesis =>
      rcases inductionHypothesis with ⟨printed, expands, shortens⟩
      refine ⟨_, .unknown c known expands, ?_⟩
      rw [decimals_unknown known]
      exact shortens.append [_]
  | lone => exact ⟨_, .lone, fun _ => rfl, fun fails => absurd (List.forall_mem_nil _) fails⟩

end Reference

section Run

variable {before text rest out : List Byte} {args : List Word} {c : Byte}
variable {result : Option Printer}

theorem string_ends {fmt : List Byte} {position : Nat} {s : Word} {bytes : List Byte}
    (found : StringAt memory s bytes)
    (ends : Ends (printRound byTen memory fmt) ⟨.format position, args, out ++ bytes⟩ result) :
    Ends (printRound byTen memory fmt) ⟨.string position s, args, out⟩ result := by
  induction bytes generalizing s out with
  | nil =>
      rw [List.append_nil] at ends
      exact ends.next (by rw [printRound]; exact if_neg (not_not.mpr found))
  | cons c bytes inductionHypothesis =>
      rcases found with ⟨rfl, nonzero, found⟩
      have goes : printRound byTen memory fmt ⟨.string position s, args, out⟩ =
          .inl ⟨.string position (s + 1), args, out ++ [memory s]⟩ := by
        rw [printRound]
        exact if_pos nonzero
      apply Ends.next goes
      apply inductionHypothesis found
      rwa [List.append_assoc]

theorem at_before : (before ++ c :: rest)[before.length]? = some c := by simp

/-- What a run ends with: a `%` at the end makes it read behind the format. -/
def finished (parts : List Piece) (printer : Printer) : Option Printer :=
  if .lone ∈ parts then none else some printer

theorem finished_cons {parts : List Piece} {part : Piece} {printer : Printer}
    (other : part ≠ .lone) : finished (part :: parts) printer = finished parts printer := by
  rw [finished, finished]
  simp [other.symm]

/-- A `%` and a conversion are two characters. -/
theorem convert_ends {conversion : Byte} {acc fmt : List Byte} {position stop : Nat}
    (expands : Expands memory (digits byTen) (.conversion conversion :: pieces rest) args out)
    (first : fmt[position]? = some (char '%')) (second : fmt[position + 1]? = some conversion)
    (rest_ends : ∀ {args out}, Expands memory (digits byTen) (pieces rest) args out → ∀ acc,
      Ends (printRound byTen memory fmt) ⟨.format (position + 2), args, acc⟩
        (finished (pieces rest) ⟨.format stop, [], acc ++ out⟩)) :
    Ends (printRound byTen memory fmt) ⟨.format position, args, acc⟩
      (finished (pieces rest) ⟨.format stop, [], acc ++ out⟩) := by
  have round : ∀ args, printRound byTen memory fmt ⟨.format position, args, acc⟩ =
      Printer.convert byTen ⟨.format position, args, acc⟩ conversion (position + 2) := by
    intro args
    rw [printRound]
    simp only [first, second]
    rfl
  have shows : ∀ text {args tail out}, Expands memory (digits byTen) (pieces rest) tail out →
      Printer.convert byTen ⟨.format position, args, acc⟩ conversion (position + 2) =
        .inl ⟨.format (position + 2), tail, acc ++ text⟩ →
      Ends (printRound byTen memory fmt) ⟨.format position, args, acc⟩
        (finished (pieces rest) ⟨.format stop, [], acc ++ (text ++ out)⟩) := by
    intro text args tail out expands converts
    have ends := rest_ends expands (acc ++ text)
    rw [List.append_assoc] at ends
    exact ends.next ((round args).trans converts)
  cases expands with
  | character expands => exact shows [_] expands rfl
  | string found expands =>
      apply Ends.next (round _)
      apply string_ends byTen found
      rw [← List.append_assoc]
      exact rest_ends expands _
  | hexadecimal expands =>
      rw [← hexFrom_eight]
      exact shows _ expands rfl
  | @decimal arg _ args _ expands =>
      have converts : Printer.convert byTen ⟨.format position, arg :: args, acc⟩ (char 'd')
          (position + 2) = .inl ⟨.format (position + 2), args, acc ++ digits byTen arg⟩ := by
        rw [Printer.convert, if_neg (by decide), if_neg (by decide), if_neg (by decide), if_pos rfl,
          Printer.takeArg]
        simp only [decimalFrom_eq]
      exact shows _ expands converts
  | unknown _ known expands =>
      have converts : Printer.convert byTen ⟨.format position, args, acc⟩ conversion
          (position + 2) = .inl ⟨.format (position + 2), args, acc ++ [char '?']⟩ := by
        simp only [List.mem_cons, List.not_mem_nil, or_false, not_or] at known
        rw [Printer.convert, if_neg known.1, if_neg known.2.1, if_neg known.2.2.1,
          if_neg known.2.2.2]
      exact shows [_] expands converts

/-- What is printed for a format. -/
theorem format_ends (nonzero : 0 ∉ text)
    (expands : Expands memory (digits byTen) (pieces text) args out) (before acc : List Byte) :
    Ends (printRound byTen memory (before ++ (text ++ [0]))) ⟨.format before.length, args, acc⟩
      (finished (pieces text) ⟨.format (before ++ text).length, [], acc ++ out⟩) := by
  induction text using pieces.induct generalizing before args out acc with
  | case1 =>
      rw [pieces] at expands
      cases expands
      rw [List.append_nil, List.append_nil]
      apply Ends.last
      rw [printRound]
      simp [finished, pieces]
  | case2 =>
      have first : (before ++ ([char '%'] ++ [0]))[before.length]? = some (char '%') := by simp
      have second : (before ++ ([char '%'] ++ [0]))[before.length + 1]? = some 0 := by
        rw [List.getElem?_append_right (by omega)]
        simp
      have behind : (before ++ ([char '%'] ++ [0]))[before.length + 2]? = none := by
        rw [List.getElem?_append_right (by omega)]
        simp
      rw [pieces] at expands
      cases expands
      have goes : printRound byTen memory (before ++ ([char '%'] ++ [0]))
          ⟨.format before.length, [], acc⟩ =
            .inl ⟨.format (before.length + 2), [], acc ++ [char '?']⟩ := by
        rw [printRound]
        simp only [first, second]
        rfl
      apply Ends.next goes
      apply Ends.last
      rw [printRound]
      simp only [behind]
      rfl
  | case3 conversion rest inductionHypothesis =>
      have apart : pieces (char '%' :: conversion :: rest) =
        .conversion conversion :: pieces rest := rfl
      have shifted : before ++ (char '%' :: conversion :: rest ++ [0]) =
          before ++ [char '%', conversion] ++ (rest ++ [0]) := by simp
      have length : (before ++ [char '%', conversion]).length = before.length + 2 := by simp
      have stop : (before ++ [char '%', conversion] ++ rest).length =
        (before ++ char '%' :: conversion :: rest).length := by simp
      have later : 0 ∉ rest := fun inside => nonzero (.tail _ (.tail _ inside))
      rw [apart] at expands ⊢
      rw [finished_cons (by simp)]
      apply convert_ends byTen expands at_before
      · rw [List.getElem?_append_right (by omega)]
        simp
      · intro args out expands acc
        have ends := inductionHypothesis later expands (before ++ [char '%', conversion]) acc
        rwa [← shifted, length, stop] at ends
  | case4 c rest other inductionHypothesis =>
      have apart : pieces (c :: rest) = .ordinary c :: pieces rest := by
        rw [pieces.eq_def]
        exact if_neg other
      have shifted : before ++ (c :: rest ++ [0]) = before ++ [c] ++ (rest ++ [0]) := by simp
      have length : (before ++ [c]).length = before.length + 1 := by simp
      have stop : (before ++ [c] ++ rest).length = (before ++ c :: rest).length := by simp
      have later : 0 ∉ rest := fun inside => nonzero (.tail _ inside)
      have visible : c ≠ 0 := by
        rintro rfl
        exact nonzero (.head _)
      rw [apart] at expands ⊢
      rw [finished_cons (by simp)]
      cases expands with
      | @ordinary _ _ _ out expands =>
          have goes : printRound byTen memory (before ++ (c :: rest ++ [0]))
              ⟨.format before.length, args, acc⟩ =
                .inl ⟨.format (before.length + 1), args, acc ++ [c]⟩ := by
            have first : (before ++ (c :: rest ++ [0]))[before.length]? = some c := at_before
            rw [printRound]
            simp only [first, if_neg visible, if_neg other]
          have ends := inductionHypothesis later expands (before ++ [c]) (acc ++ [c])
          rw [← shifted, length, stop, List.append_assoc] at ends
          exact ends.next goes

end Run

section Output

variable {text out : List Byte} {args : List Word}

/-- The output is the reference exactly if no `%` is at the end and no number is negative. -/
theorem consolePrintf_iff (nonzero : 0 ∉ text)
    (expands : Expands memory (fun word => numeral word.toInt) (pieces text) args out) :
    (∃ count, consolePrintf byTen memory (text ++ [0]) args count =
        some (some ⟨.format text.length, [], out⟩)) ↔
      .lone ∉ pieces text ∧ ∀ word ∈ decimals (pieces text) args, 0 ≤ word.toInt := by
  rcases expands.digits byTen with ⟨printed, prints, shortens⟩
  have ends := format_ends byTen nonzero prints [] []
  constructor
  · intro returns
    have same := Ends.unique ends returns
    rw [finished] at same
    by_cases lone : .lone ∈ pieces text
    · rw [if_pos lone] at same
      cases same
    · rw [if_neg lone] at same
      cases same
      refine ⟨lone, ?_⟩
      by_contra negative
      exact absurd (shortens.shorter negative) (lt_irrefl _)
  · rintro ⟨lone, nonneg⟩
    rw [finished, if_neg lone, shortens.same nonneg] at ends
    exact ends

/-- A memory with the string `ok` at 16. -/
def sampleMemory (address : Word) : Byte :=
  if address = 16 then char 'o' else if address = 17 then char 'k' else 0

/-- `%s%d%x%%` with its arguments is printed. -/
theorem consolePrintf_sample : ∃ count, consolePrintf helpers sampleMemory
    (['%', 's', '%', 'd', '%', 'x', '%', '%'].map char ++ [0]) [16, 102, 0xBEEF] count =
      some (some ⟨.format 8, [],
        ['o', 'k', '1', '0', '2', '0', '0', '0', '0', 'B', 'E', 'E', 'F', '?'].map char⟩) := by
  have string : StringAt sampleMemory 16 [char 'o', char 'k'] :=
    ⟨rfl, by decide, rfl, by decide, rfl⟩
  have expands : Expands sampleMemory (fun word => numeral word.toInt)
      (pieces (['%', 's', '%', 'd', '%', 'x', '%', '%'].map char)) [16, 102, 0xBEEF]
      ([char 'o', char 'k'] ++ (numeral 102 ++ (hexadecimal 0xBEEF ++ [char '?']))) :=
    .string string (.decimal (.hexadecimal (.unknown _ (by decide) .nil)))
  have nonneg : ∀ word ∈ decimals (pieces (['%', 's', '%', 'd', '%', 'x', '%', '%'].map char))
      [16, 102, 0xBEEF], 0 ≤ word.toInt := List.forall_mem_singleton.mpr (by decide)
  exact (consolePrintf_iff helpers (by decide) expands).mpr ⟨by decide, nonneg⟩

/-- `%d` does not show -5. -/
theorem not_consolePrintf : ¬ ∀ (byTen : ByTen) (memory : Word → Byte) (text : List Byte)
    (args : List Word) (out : List Byte), 0 ∉ text →
    Expands memory (fun word => numeral word.toInt) (pieces text) args out →
    ∃ count, consolePrintf byTen memory (text ++ [0]) args count =
      some (some ⟨.format text.length, [], out⟩) := by
  intro prints
  have expands : Expands sampleMemory (fun word => numeral word.toInt)
      (pieces [char '%', char 'd']) [-5] (numeral (-5) ++ []) := .decimal .nil
  have returns := prints operators sampleMemory _ [-5] _ (by decide) expands
  have printed : Ends (printRound operators sampleMemory ([char '%', char 'd'] ++ [0]))
      ⟨.format 0, [-5], []⟩ (some ⟨.format 2, [], [char '+']⟩) := ⟨2, rfl⟩
  have same := Ends.unique printed returns
  rw [Option.some.injEq, Printer.mk.injEq] at same
  exact absurd same.2.2 (by decide)

end Output

end BbbEth.Libc
