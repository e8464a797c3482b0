import BbbEth.Libc.Memory

/-!
# The routines of `libc.c` that copy

`memcpy`, `memset`, `strcat`, `strcpy` and `strncpy`, on a memory where strings may overlap with
what is stored.
-/

namespace BbbEth.Libc

open Loops

/-- `while (count--) { *dst8++ = *src8++; }`. -/
def copyBytes : Nat → Nat → Nat → Memory → Memory
  | 0, _, _, memory => memory
  | count + 1, dst8, src8, memory =>
      let (byte, memory) := memory.load src8
      copyBytes count (dst8 + 1) (src8 + 1) (memory.store dst8 byte)

/-- `memcpy`. -/
def memcpy (dest src count : Nat) (memory : Memory) : Nat × Memory :=
  (dest, copyBytes count dest src memory)

/-- `strncpy`, which does not look for the end of the string. -/
def strncpy (dest src count : Nat) (memory : Memory) : Nat × Memory :=
  (dest, copyBytes count dest src memory)

/-- `while (num--) { *dst8++ = val; }`. -/
def fillBytes : Nat → Nat → Byte → Memory → Memory
  | 0, _, _, memory => memory
  | num + 1, dst8, val, memory => fillBytes num (dst8 + 1) val (memory.store dst8 val)

/-- `memset`. -/
def memset (ptr : Nat) (value : Word) (num : Nat) (memory : Memory) : Nat × Memory :=
  (ptr, fillBytes num ptr (value.setWidth 8) memory)

/-- A round of the loop that copies in `strcpy`, with an index, and in `strcat`, with two of
them; then the last zero. -/
def copyRound (p q : Nat) : Nat × Nat × Memory → (Nat × Nat × Memory) ⊕ Memory
  | (c, d, memory) =>
      let (char, memory) := memory.load (q + d)
      if char ≠ 0 then
        let (char, memory) := memory.load (q + d)
        .inl (c + 1, d + 1, memory.store (p + c) char)
      else
        .inr (memory.store (p + c) 0)

/-- `strcpy`. -/
def strcpy (d s : Nat) (count : Nat) (memory : Memory) : Option (Nat × Memory) := do
  let memory ← run (copyRound d s) count (0, 0, memory)
  some (d, memory)

/-- A round of `while (p[c] != '\0') c++;`. -/
def endRound (p : Nat) : Nat × Memory → (Nat × Memory) ⊕ (Nat × Memory)
  | (c, memory) =>
      let (char, memory) := memory.load (p + c)
      if char ≠ 0 then .inl (c + 1, memory) else .inr (c, memory)

/-- `strcat`. -/
def strcat (p q : Nat) (count : Nat) (memory : Memory) : Option (Nat × Memory) := do
  let (c, memory) ← run (endRound p) count (0, memory)
  let memory ← run (copyRound p q) count (c, 0, memory)
  some (p, memory)

/-! ## Contracts -/

/-- A routine returns its first argument, with bytes stored and with loads at certain addresses
only. -/
structure Stores (dest start size : Nat) (value : Nat → Byte) (allowed : Nat → Prop)
    (before : Memory) (outcome : Nat × Memory) : Prop where
  returns : outcome.1 = dest
  puts : Puts start size value before outcome.2
  reads : Reads allowed before outcome.2

/-- The contracts of the routines: `strncpy` copies a string and fills up with zeros, and the others
follow the standard where their operands are apart. -/
structure CopyContracts (memory : Memory) (dest : Nat) (src : CString memory) (count : Nat) :
    Prop where
  strncpy : Stores dest dest count (fun index => src.text.getD index 0)
    (fun address => src.address ≤ address ∧ address ≤ src.address + src.text.length) memory
    (Libc.strncpy dest src.address count memory)
  memcpy : ∀ memory dest src count, Apart dest count src count →
    Stores dest dest count (fun index => memory.byte (src + index))
      (fun address => src ≤ address ∧ address < src + count) memory
      (Libc.memcpy dest src count memory)
  memset : ∀ memory ptr value num, Stores ptr ptr num (fun _ => value.setWidth 8)
    (fun _ => False) memory (Libc.memset ptr value num memory)
  strcpy : ∀ memory d (s : CString memory),
    Apart d (s.text.length + 1) s.address (s.text.length + 1) →
    ∃ outcome, (∃ count, Libc.strcpy d s.address count memory = some outcome) ∧
      Stores d d (s.text.length + 1) (fun index => s.text.getD index 0)
        (fun address => s.address ≤ address ∧ address ≤ s.address + s.text.length) memory outcome
  strcat : ∀ memory (p q : CString memory),
    Apart p.address (p.text.length + q.text.length + 1) q.address (q.text.length + 1) →
    ∃ outcome, (∃ count, Libc.strcat p.address q.address count memory = some outcome) ∧
      Stores p.address (p.address + p.text.length) (q.text.length + 1)
        (fun index => q.text.getD index 0)
        (fun address => p.address ≤ address ∧ address ≤ p.address + p.text.length ∨
          q.address ≤ address ∧ address ≤ q.address + q.text.length) memory outcome

/-! ## Loops with a count -/

section Counted

variable {memory : Memory} {dst8 src8 count : Nat} {val : Byte}

theorem copyBytes_outside (count dst8 src8 : Nat) (memory : Memory) {address : Nat}
    (outside : address < dst8 ∨ dst8 + count ≤ address) :
    (copyBytes count dst8 src8 memory).byte address = memory.byte address := by
  induction count generalizing dst8 src8 memory with
  | zero => rfl
  | succ count inductionHypothesis =>
      have different : address ≠ dst8 := by omega
      refine (inductionHypothesis _ _ _ (by omega)).trans ?_
      exact Function.update_of_ne different ..

/-- A byte that was stored before its turn to be loaded is copied as it was stored. -/
theorem copyBytes_inside (count dst8 src8 : Nat) (memory : Memory) {index : Nat}
    (inside : index < count) : (copyBytes count dst8 src8 memory).byte (dst8 + index) =
      if src8 < dst8 ∧ dst8 ≤ src8 + index then
        (copyBytes count dst8 src8 memory).byte (src8 + index)
      else memory.byte (src8 + index) := by
  induction count generalizing dst8 src8 memory index with
  | zero => exact absurd inside (Nat.not_lt_zero _)
  | succ count inductionHypothesis =>
      have first : (copyBytes (count + 1) dst8 src8 memory).byte dst8 = memory.byte src8 := by
        refine (copyBytes_outside count _ _ _ (.inl (Nat.lt_succ_self dst8))).trans ?_
        exact Function.update_self ..
      cases index with
      | zero =>
          rw [if_neg (by omega)]
          exact first
      | succ index =>
          have others := inductionHypothesis (dst8 + 1) (src8 + 1)
            ((memory.load src8).2.store dst8 (memory.load src8).1) (Nat.lt_of_succ_lt_succ inside)
          rw [Nat.add_right_comm, Nat.add_right_comm src8] at others
          by_cases stored : src8 < dst8 ∧ dst8 ≤ src8 + index
          · rw [if_pos (by omega)] at others ⊢
            exact others
          · rw [if_neg (by omega)] at others
            by_cases last : dst8 = src8 + index + 1
            · rw [if_pos (by omega)]
              refine others.trans ?_
              rw [← Nat.add_assoc, ← last, first]
              exact Function.update_self ..
            · rw [if_neg (by omega)]
              refine others.trans ?_
              exact Function.update_of_ne (Ne.symm last) ..

theorem copyBytes_loads (count dst8 src8 : Nat) (memory : Memory) :
    (copyBytes count dst8 src8 memory).loads = memory.loads ++ List.range' src8 count := by
  induction count generalizing dst8 src8 memory with
  | zero => exact (List.append_nil _).symm
  | succ count inductionHypothesis =>
      refine (inductionHypothesis _ _ _).trans ?_
      rw [List.range'_succ]
      exact List.append_assoc ..

theorem copyBytes_reads {allowed : Nat → Prop} :
    Reads allowed memory (copyBytes count dst8 src8 memory) ↔
      ∀ address, src8 ≤ address → address < src8 + count → allowed address := by
  constructor
  · rintro ⟨loads, same, inside⟩ address least less
    rw [copyBytes_loads] at same
    apply inside
    rw [← List.append_cancel_left same]
    exact List.mem_range'_1.mpr ⟨least, less⟩
  · intro inside
    refine ⟨_, copyBytes_loads .., fun address member => ?_⟩
    rcases List.mem_range'_1.mp member with ⟨least, less⟩
    exact inside address least less

/-- The bytes are copied as they were exactly if those that are stored before their turn do not
change. -/
theorem copyBytes_right : (∀ index < count,
      (copyBytes count dst8 src8 memory).byte (dst8 + index) = memory.byte (src8 + index)) ↔
    ∀ index, src8 < dst8 → dst8 + index < src8 + count →
      memory.byte (dst8 + index) = memory.byte (src8 + index) := by
  constructor
  · intro right index before inside
    -- the source at `later` is the destination at `index`
    obtain ⟨later, same⟩ : ∃ later, src8 + later = dst8 + index := ⟨dst8 + index - src8, by omega⟩
    have copied := copyBytes_inside count dst8 src8 memory (show later < count by omega)
    rw [if_pos ⟨before, by omega⟩, right later (by omega), same, right index (by omega)] at copied
    exact copied
  · intro unchanged index
    induction index using Nat.strongRecOn with
    | ind index inductionHypothesis =>
        intro inside
        rw [copyBytes_inside count dst8 src8 memory inside]
        split
        · rename_i stored
          obtain ⟨earlier, same⟩ : ∃ earlier, dst8 + earlier = src8 + index :=
            ⟨src8 + index - dst8, by omega⟩
          rw [← same, inductionHypothesis earlier (by omega) (by omega)]
          exact (unchanged earlier stored.1 (by omega)).symm
        · rfl

theorem fillBytes_puts (num dst8 : Nat) (val : Byte) (memory : Memory) :
    Puts dst8 num (fun _ => val) memory (fillBytes num dst8 val memory) := by
  induction num generalizing dst8 memory with
  | zero => exact .zero rfl
  | succ num inductionHypothesis => exact .cons rfl (inductionHypothesis _ (memory.store dst8 val))

theorem fillBytes_reads (num dst8 : Nat) (val : Byte) (memory : Memory) :
    Reads (fun _ => False) memory (fillBytes num dst8 val memory) := by
  induction num generalizing dst8 memory with
  | zero => exact .refl _ memory
  | succ num inductionHypothesis =>
      exact ((Reads.refl _ memory).store dst8 val).trans (inductionHypothesis _ _)

end Counted

/-! ## Loops to the end of a string -/

section Strings

variable {memory : Memory} {p q c d : Nat} {text : List Byte}

/-- The loop that copies ends behind the zero of the string. -/
theorem copyRound_ends (isString : IsString memory (q + d) text)
    (apart : Apart (p + c) (text.length + 1) (q + d) (text.length + 1)) :
    ∃ after, Ends (copyRound p q) (c, d, memory) after ∧
      Puts (p + c) (text.length + 1) (fun index => text.getD index 0) memory after ∧
      Reads (fun address => q + d ≤ address ∧ address ≤ q + d + text.length) memory after := by
  induction text generalizing c d memory with
  | nil =>
      have round : copyRound p q (c, d, memory) =
          .inr ((memory.load (q + d)).2.store (p + c) 0) :=
        if_neg (not_not.mpr isString.nul)
      refine ⟨_, .last round, .cons rfl (.zero rfl), ?_⟩
      exact ((Reads.refl _ memory).load ⟨le_rfl, le_rfl⟩).store ..
  | cons first text inductionHypothesis =>
      have round : copyRound p q (c, d, memory) = .inl (c + 1, d + 1,
          ((memory.load (q + d)).2.load (q + d)).2.store (p + c) (memory.byte (q + d))) :=
        if_pos (isString.head.symm ▸ isString.head_ne_zero)
      have others : IsString (((memory.load (q + d)).2.load (q + d)).2.store (p + c)
          (memory.byte (q + d))) (q + (d + 1)) text := by
        apply isString.tail.congr
        intro index inside
        refine Function.update_of_ne ?_ ..
        rintro same
        rcases apart with before | behind
        · omega
        · rw [List.length_cons] at behind
          omega
      have apart' : Apart (p + (c + 1)) (text.length + 1) (q + (d + 1)) (text.length + 1) := by
        rw [List.length_cons] at apart
        unfold Apart at apart ⊢
        omega
      rcases inductionHypothesis others apart' with ⟨after, ends, puts, reads⟩
      refine ⟨after, ends.next round, .cons ?_ puts, ?_⟩
      · rw [List.getD_cons_zero, ← isString.head]
        rfl
      · have bounds : q + d ≤ q + d ∧ q + d ≤ q + d + (first :: text).length :=
          ⟨le_rfl, Nat.le_add_right ..⟩
        refine .trans ((((Reads.refl _ memory).load ?_).load ?_).store (p + c)
          (memory.byte (q + d))) (reads.mono fun address inside => ?_)
        · exact bounds
        · exact bounds
        · rw [List.length_cons]
          omega

/-- The loop that looks for the end of a string finds it. -/
theorem endRound_ends (isString : IsString memory (p + c) text) :
    ∃ after, Ends (endRound p) (c, memory) (c + text.length, after) ∧
      after.byte = memory.byte ∧
      Reads (fun address => p + c ≤ address ∧ address ≤ p + c + text.length) memory after := by
  induction text generalizing c memory with
  | nil =>
      have round : endRound p (c, memory) = .inr (c, (memory.load (p + c)).2) :=
        if_neg (not_not.mpr isString.nul)
      exact ⟨_, .last round, rfl, (Reads.refl _ memory).load ⟨le_rfl, le_rfl⟩⟩
  | cons first text inductionHypothesis =>
      have round : endRound p (c, memory) = .inl (c + 1, (memory.load (p + c)).2) :=
        if_pos (isString.head.symm ▸ isString.head_ne_zero)
      have others : IsString (memory.load (p + c)).2 (p + (c + 1)) text :=
        isString.tail.congr fun _ _ => rfl
      rcases inductionHypothesis others with ⟨after, ends, same, reads⟩
      refine ⟨after, ?_, same, ?_⟩
      · rw [List.length_cons, Nat.add_comm text.length, ← Nat.add_assoc]
        exact ends.next round
      · have bounds : p + c ≤ p + c ∧ p + c ≤ p + c + (first :: text).length :=
          ⟨le_rfl, Nat.le_add_right ..⟩
        refine ((Reads.refl _ memory).load bounds).trans (reads.mono fun address inside => ?_)
        rw [List.length_cons]
        omega

theorem strcpy_stores (memory : Memory) (d : Nat) (s : CString memory)
    (apart : Apart d (s.text.length + 1) s.address (s.text.length + 1)) :
    ∃ outcome, (∃ count, strcpy d s.address count memory = some outcome) ∧
      Stores d d (s.text.length + 1) (fun index => s.text.getD index 0)
        (fun address => s.address ≤ address ∧ address ≤ s.address + s.text.length) memory
        outcome := by
  rcases @copyRound_ends memory d s.address 0 0 _ s.isString apart with
    ⟨after, ⟨count, ran⟩, puts, reads⟩
  refine ⟨(d, after), ⟨count, ?_⟩, rfl, puts, reads⟩
  rw [strcpy, ran]
  rfl

theorem strcat_stores (memory : Memory) (p q : CString memory)
    (apart : Apart p.address (p.text.length + q.text.length + 1) q.address (q.text.length + 1)) :
    ∃ outcome, (∃ count, strcat p.address q.address count memory = some outcome) ∧
      Stores p.address (p.address + p.text.length) (q.text.length + 1)
        (fun index => q.text.getD index 0)
        (fun address => p.address ≤ address ∧ address ≤ p.address + p.text.length ∨
          q.address ≤ address ∧ address ≤ q.address + q.text.length) memory outcome := by
  rcases @endRound_ends memory p.address 0 _ p.isString with ⟨middle, ends, same, reads⟩
  have isString : IsString middle (q.address + 0) q.text :=
    q.isString.congr fun _ _ => by rw [same]
  have apart' : Apart (p.address + (0 + p.text.length)) (q.text.length + 1) (q.address + 0)
      (q.text.length + 1) := by
    unfold Apart at apart ⊢
    omega
  rcases copyRound_ends isString apart' with ⟨after, ends', puts, reads'⟩
  rcases ends.eventually with ⟨count, ran⟩
  rcases ends'.eventually with ⟨count', ran'⟩
  refine ⟨(p.address, after), ⟨max count count', ?_⟩, rfl, ?_, ?_⟩
  · rw [strcat, ran _ (le_max_left ..)]
    simp only [Option.bind_eq_bind, Option.bind_some, ran' _ (le_max_right ..)]
  · rw [Nat.zero_add] at puts
    exact ⟨puts.inside, fun address outside => (puts.outside address outside).trans (by rw [same])⟩
  · exact (reads.mono fun _ inside => .inl inside).trans (reads'.mono fun _ inside => .inr inside)

end Strings

/-- The routines keep their contracts exactly if `strncpy` is not asked for more than the string
with its zero, and what it stores before its turn to be loaded does not change. -/
theorem copies_iff (memory : Memory) (dest : Nat) (src : CString memory) (count : Nat) :
    CopyContracts memory dest src count ↔ count ≤ src.text.length + 1 ∧
      ∀ index, src.address < dest → dest + index < src.address + count →
        memory.byte (dest + index) = memory.byte (src.address + index) := by
  constructor
  · intro contracts
    have stores := contracts.strncpy
    have small : count ≤ src.text.length + 1 := by
      by_contra large
      have inside := copyBytes_reads.mp stores.reads (src.address + (src.text.length + 1))
        (Nat.le_add_right ..) (by omega)
      omega
    refine ⟨small, copyBytes_right.mp fun index inside => ?_⟩
    rw [src.isString.char index (by omega)]
    exact stores.puts.inside index inside
  · rintro ⟨small, unchanged⟩
    constructor
    · refine ⟨rfl, ⟨fun index inside => ?_, fun address outside => ?_⟩, ?_⟩
      · rw [← src.isString.char index (by omega)]
        exact copyBytes_right.mpr unchanged index inside
      · exact copyBytes_outside _ _ _ _ outside
      · exact copyBytes_reads.mpr fun address least less => ⟨least, by omega⟩
    · intro memory dest src count apart
      refine ⟨rfl, ⟨?_, fun address outside => copyBytes_outside _ _ _ _ outside⟩, ?_⟩
      · refine copyBytes_right.mpr fun index before inside => ?_
        unfold Apart at apart
        omega
      · exact copyBytes_reads.mpr fun address least less => ⟨least, less⟩
    · intro memory ptr value num
      exact ⟨rfl, fillBytes_puts .., fillBytes_reads ..⟩
    · exact strcpy_stores
    · exact strcat_stores

/-- A string of one character is not filled up with zeros. -/
theorem not_copies : ¬ ∀ (memory : Memory) (dest : Nat) (src : CString memory) (count : Nat),
    CopyContracts memory dest src count := by
  intro claim
  let memory : Memory := ⟨fun address => if address = 1 then 0 else 0x61, []⟩
  have isString : IsString memory 0 [0x61] := ⟨by decide, by decide⟩
  have padded : (0x61 : Byte) = 0 :=
    (claim memory 16 ⟨0, [0x61], isString⟩ 3).strncpy.puts.inside 2 (by decide)
  exact absurd padded (by decide)

end BbbEth.Libc
