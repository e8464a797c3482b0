import Mathlib.Data.List.GetD
import Mathlib.Logic.Function.Basic
import Mathlib.Order.Nat

/-!
# Strings of C

The string routines of `libc.c`, on objects of a known size.  An access outside of an
object gives `none`, apart from the reads of `strncpy`, which copies as many characters
as it is told.  Each routine has a lemma about strings that end inside of their object.
-/

namespace BbbEth.Console

/-- A character. -/
abbrev Byte := BitVec 8

/-- The memory from a pointer to the end of the object that it points into. -/
structure Str where
  size : Nat
  char : Nat → Byte

namespace Str

/-- Store a character. -/
def store (d : Str) (index : Nat) (value : Byte) : Option Str :=
  if index < d.size then some { d with char := Function.update d.char index value } else none

end Str

/-- The loop of `strlen`. -/
def strlenFrom (str : Str) : Nat → Nat → Option Nat
  | 0, _ => none
  | left + 1, s => if str.char s = 0 then some s else strlenFrom str left (s + 1)

/-- `strlen`. -/
def strlen (str : Str) : Option Nat := strlenFrom str str.size 0

/-- The loop of `strcpy` and of `strcat`, with the character that ends it. -/
def copyFrom (q : Str) : Nat → Nat → Nat → Str → Option Str
  | 0, _, _, _ => none
  | left + 1, d, c, p => do
      let p ← p.store c (q.char d)
      if q.char d = 0 then some p else copyFrom q left (d + 1) (c + 1) p

/-- `strcpy`. -/
def strcpy (d s : Str) : Option Str := copyFrom s s.size 0 0 d

/-- `strcat`. -/
def strcat (p q : Str) : Option Str := do
  let c ← strlen p
  copyFrom q q.size 0 c p

/-- The loop of `strcmp`. -/
def strcmpFrom (s1 s2 : Str) : Nat → Nat → Option Int
  | 0, _ => none
  | left + 1, index =>
      if s1.char index ≠ 0 ∧ s2.char index ≠ 0 ∧ s1.char index = s2.char index then
        strcmpFrom s1 s2 left (index + 1)
      else
        some ((s1.char index).toNat - (s2.char index).toNat : Int)

/-- `strcmp`. -/
def strcmp (s1 s2 : Str) : Option Int := strcmpFrom s1 s2 (min s1.size s2.size) 0

/-- The loop of `strncmp`. -/
def strncmpFrom (cs ct : Str) : Nat → Nat → Option Int
  | 0, _ => some 0
  | left + 1, i =>
      if cs.size ≤ i ∨ ct.size ≤ i then none
      else if (cs.char i).toNat < (ct.char i).toNat then some (-1)
      else if (ct.char i).toNat < (cs.char i).toNat then some 1
      else if cs.char i = 0 then some 0
      else strncmpFrom cs ct left (i + 1)

/-- `strncmp`. -/
def strncmp (cs ct : Str) (num : Nat) : Option Int := strncmpFrom cs ct num 0

/-- The loop of `strncpy`. -/
def strncpyFrom (src : Str) : Nat → Nat → Str → Option Str
  | 0, _, dest => some dest
  | count + 1, index, dest => do
      let dest ← dest.store index (src.char index)
      strncpyFrom src count (index + 1) dest

/-- `strncpy`, which does not stop at the end of the string. -/
def strncpy (dest src : Str) (count : Nat) : Option Str := strncpyFrom src count 0 dest

/-! ## Strings -/

/-- The object holds a string, with the character that ends it. -/
structure Holds (str : Str) (text : List Byte) : Prop where
  char : ∀ index, index ≤ text.length → str.char index = text.getD index 0
  nonzero : ∀ byte ∈ text, byte ≠ 0
  fits : text.length < str.size

namespace Holds

variable {str other : Str} {text : List Byte} {index : Nat}

theorem nul (holds : Holds str text) : str.char text.length = 0 := by
  rw [holds.char _ le_rfl, List.getD_eq_default _ _ le_rfl]

theorem char_ne_zero (holds : Holds str text) (inside : index < text.length) :
    str.char index ≠ 0 := by
  rw [holds.char _ inside.le, List.getD_eq_getElem _ _ inside]
  exact holds.nonzero _ (List.getElem_mem inside)

theorem char_eq_zero_iff (holds : Holds str text) (inside : index ≤ text.length) :
    str.char index = 0 ↔ index = text.length := by
  constructor
  · intro zero
    by_contra other
    exact holds.char_ne_zero (lt_of_le_of_ne inside other) zero
  · intro last
    rw [last]
    exact holds.nul

/-- An object holds one string only. -/
theorem unique {text' : List Byte} (holds : Holds str text) (holds' : Holds str text') :
    text = text' := by
  have notLonger : ∀ {left right : List Byte}, Holds str left → Holds str right →
      left.length ≤ right.length := by
    intro left right first second
    by_contra longer
    exact first.char_ne_zero (not_le.mp longer) second.nul
  have length : text.length = text'.length :=
    le_antisymm (notLonger holds holds') (notLonger holds' holds)
  apply List.ext_getElem length
  intro index left right
  rw [← List.getD_eq_getElem text 0 left, ← List.getD_eq_getElem text' 0 right,
    ← holds.char _ left.le, ← holds'.char _ right.le]

/-- Only the characters of the string matter. -/
theorem congr (holds : Holds str text) (size : text.length < other.size)
    (same : ∀ index, index ≤ text.length → other.char index = str.char index) :
    Holds other text :=
  ⟨fun index inside => (same index inside).trans (holds.char index inside), holds.nonzero, size⟩

end Holds

section Spec

variable {str p q s d : Str} {text left right : List Byte}

theorem strlenFrom_holds (holds : Holds str text) (index : Nat) (inside : index ≤ text.length) :
    strlenFrom str (str.size - index) index = some text.length := by
  have fits := holds.fits
  induction distance : text.length - index generalizing index with
  | zero =>
      have last : index = text.length := by omega
      rw [show str.size - index = str.size - index - 1 + 1 by omega, strlenFrom,
        if_pos ((holds.char_eq_zero_iff inside).mpr last), last]
  | succ distance inductionHypothesis =>
      have before : index < text.length := by omega
      rw [show str.size - index = str.size - (index + 1) + 1 by omega, strlenFrom,
        if_neg (holds.char_ne_zero before)]
      exact inductionHypothesis (index + 1) before (by omega)

/-- `strlen` returns the length of the string. -/
theorem strlen_holds (holds : Holds str text) : strlen str = some text.length :=
  strlenFrom_holds holds 0 (Nat.zero_le _)

/-- What a copy leaves: the characters from `d` on are at `c`. -/
structure Copied (text : List Byte) (d c : Nat) (before after : Str) : Prop where
  size : after.size = before.size
  copied : ∀ index, index ≤ text.length - d → after.char (c + index) = text.getD (d + index) 0
  kept : ∀ index, index < c ∨ c + (text.length - d) < index →
    after.char index = before.char index

theorem copyFrom_holds (holds : Holds q text) (d c : Nat) (p : Str) (inside : d ≤ text.length)
    (fits : c + (text.length - d) < p.size) :
    ∃ after, copyFrom q (q.size - d) d c p = some after ∧ Copied text d c p after := by
  have ends := holds.fits
  induction distance : text.length - d generalizing d c p with
  | zero =>
      have last : d = text.length := by omega
      have stored : p.store c (q.char d) =
          some { p with char := Function.update p.char c (q.char d) } := if_pos (by omega)
      refine ⟨{ p with char := Function.update p.char c (q.char d) }, ?_, rfl, ?_, ?_⟩
      · rw [show q.size - d = q.size - d - 1 + 1 by omega, copyFrom, stored]
        exact if_pos ((holds.char_eq_zero_iff inside).mpr last)
      · intro index within
        have first : index = 0 := by omega
        rw [first, Nat.add_zero, Nat.add_zero, ← holds.char d inside]
        exact Function.update_self ..
      · intro index apart
        exact Function.update_of_ne (by omega) ..
  | succ distance inductionHypothesis =>
      have before : d < text.length := by omega
      have stored : p.store c (q.char d) =
          some { p with char := Function.update p.char c (q.char d) } := if_pos (by omega)
      have fitsNext : c + 1 + (text.length - (d + 1)) < p.size := by omega
      rcases inductionHypothesis (d + 1) (c + 1)
        { p with char := Function.update p.char c (q.char d) } before fitsNext (by omega)
        with ⟨after, copies, size, copied, kept⟩
      refine ⟨after, ?_, size, ?_, ?_⟩
      · rw [show q.size - d = q.size - (d + 1) + 1 by omega, copyFrom, stored]
        exact (if_neg (holds.char_ne_zero before)).trans copies
      · intro index within
        by_cases first : index = 0
        · rw [first, Nat.add_zero, Nat.add_zero, kept c (.inl (Nat.lt_succ_self c)),
            ← holds.char d inside]
          exact Function.update_self ..
        · have later := copied (index - 1) (by omega)
          rw [show c + 1 + (index - 1) = c + index by omega,
            show d + 1 + (index - 1) = d + index by omega] at later
          exact later
      · intro index apart
        rw [kept index (by omega)]
        exact Function.update_of_ne (by omega) ..

/-- `strcpy` copies the string, and nothing behind it. -/
theorem strcpy_holds (holds : Holds s text) (fits : text.length < d.size) :
    ∃ after, strcpy d s = some after ∧ Holds after text ∧ after.size = d.size ∧
      ∀ index, text.length < index → after.char index = d.char index := by
  rcases copyFrom_holds holds 0 0 d (Nat.zero_le _) (by omega) with
    ⟨after, copies, size, copied, kept⟩
  refine ⟨after, copies, ⟨fun index inside => ?_, holds.nonzero, size ▸ fits⟩, size,
    fun index beyond => kept index (by omega)⟩
  have same := copied index (by omega)
  rwa [Nat.zero_add] at same

/-- `strcat` appends the string, and changes nothing behind it. -/
theorem strcat_holds (first : Holds p left) (second : Holds q right)
    (fits : left.length + right.length < p.size) :
    ∃ after, strcat p q = some after ∧ Holds after (left ++ right) ∧ after.size = p.size ∧
      ∀ index, left.length + right.length < index → after.char index = p.char index := by
  rcases copyFrom_holds second 0 left.length p (Nat.zero_le _) (by omega) with
    ⟨after, copies, size, copied, kept⟩
  refine ⟨after, ?_, ⟨fun index inside => ?_, ?_, ?_⟩, size,
    fun index beyond => kept index (by omega)⟩
  · unfold strcat
    rw [strlen_holds first]
    exact copies
  · rw [List.length_append] at inside
    by_cases before : index < left.length
    · rw [kept index (.inl before), first.char index before.le,
        List.getD_append _ _ _ _ before]
    · have later := copied (index - left.length) (by omega)
      rw [Nat.add_sub_cancel' (not_lt.mp before), Nat.zero_add] at later
      rw [later, List.getD_append_right _ _ _ _ (not_lt.mp before)]
  · intro byte member
    rcases List.mem_append.mp member with member | member
    · exact first.nonzero byte member
    · exact second.nonzero byte member
  · rw [List.length_append, size]
    exact fits

/-- A copy that does not fit is an access outside of the object. -/
theorem copyFrom_overflow (holds : Holds q text) (d c : Nat) (p : Str) (inside : d ≤ text.length)
    (tooLong : p.size ≤ c + (text.length - d)) : copyFrom q (q.size - d) d c p = none := by
  have ends := holds.fits
  induction distance : text.length - d generalizing d c p with
  | zero =>
      have outside : p.store c (q.char d) = none := if_neg (by omega)
      rw [show q.size - d = q.size - d - 1 + 1 by omega, copyFrom, outside]
      rfl
  | succ distance inductionHypothesis =>
      have before : d < text.length := by omega
      rw [show q.size - d = q.size - (d + 1) + 1 by omega, copyFrom]
      by_cases room : c < p.size
      · have stored : p.store c (q.char d) =
            some { p with char := Function.update p.char c (q.char d) } := if_pos room
        have stillTooLong : p.size ≤ c + 1 + (text.length - (d + 1)) := by omega
        rw [stored]
        exact (if_neg (holds.char_ne_zero before)).trans
          (inductionHypothesis (d + 1) (c + 1)
            { p with char := Function.update p.char c (q.char d) } before stillTooLong (by omega))
      · have outside : p.store c (q.char d) = none := if_neg room
        rw [outside]
        rfl

theorem strcat_overflow (first : Holds p left) (second : Holds q right)
    (tooLong : p.size ≤ left.length + right.length) : strcat p q = none := by
  unfold strcat
  rw [strlen_holds first]
  exact copyFrom_overflow second 0 left.length p (Nat.zero_le _) tooLong

/-- A NUL inside of a string cuts it. -/
theorem store_nul (holds : Holds str text) {index : Nat} (inside : index ≤ text.length) :
    ∃ after, str.store index 0 = some after ∧ Holds after (text.take index) ∧
      after.size = str.size := by
  have length : (text.take index).length = index := List.length_take_of_le inside
  refine ⟨_, if_pos (inside.trans_lt holds.fits), ⟨?_, ?_, ?_⟩, rfl⟩
  · intro position before
    rw [length] at before
    rcases before.lt_or_eq with earlier | rfl
    · rw [List.getD_eq_getElem _ _ (earlier.trans_eq length.symm), List.getElem_take,
        ← List.getD_eq_getElem text 0 (earlier.trans_le inside),
        ← holds.char _ (earlier.le.trans inside)]
      exact Function.update_of_ne earlier.ne ..
    · rw [List.getD_eq_default _ _ length.le]
      exact Function.update_self ..
  · exact fun byte member => holds.nonzero byte (List.mem_of_mem_take member)
  · rw [length]
    exact inside.trans_lt holds.fits

/-- Characters up to an index are those of a string. -/
theorem strcmpFrom_holds (first : Holds p left) (second : Holds q right) (rest index : Nat)
    (enough : min left.length right.length < rest + index)
    (inside : index ≤ left.length) (inside' : index ≤ right.length)
    (same : left.take index = right.take index) :
    ∃ result, strcmpFrom p q rest index = some result ∧ (result = 0 ↔ left = right) := by
  induction rest generalizing index with
  | zero => omega
  | succ rest inductionHypothesis =>
      unfold strcmpFrom
      by_cases goesOn : p.char index ≠ 0 ∧ q.char index ≠ 0 ∧ p.char index = q.char index
      · rw [if_pos goesOn]
        rcases goesOn with ⟨more, more', equal⟩
        have before : index < left.length :=
          lt_of_le_of_ne inside fun last => more ((first.char_eq_zero_iff inside).mpr last)
        have before' : index < right.length :=
          lt_of_le_of_ne inside' fun last => more' ((second.char_eq_zero_iff inside').mpr last)
        apply inductionHypothesis (index + 1) (by omega) before before'
        rw [first.char _ inside, second.char _ inside', List.getD_eq_getElem _ _ before,
          List.getD_eq_getElem _ _ before'] at equal
        rw [List.take_add_one, List.take_add_one, same, List.getElem?_eq_getElem before,
          List.getElem?_eq_getElem before', equal]
      · rw [if_neg goesOn]
        refine ⟨_, rfl, ?_⟩
        constructor
        · intro zero
          have equal : p.char index = q.char index := BitVec.eq_of_toNat_eq (by omega)
          have ends : p.char index = 0 := by
            by_contra more
            exact goesOn ⟨more, equal ▸ more, equal⟩
          have last := (first.char_eq_zero_iff inside).mp ends
          have last' := (second.char_eq_zero_iff inside').mp (equal ▸ ends)
          rwa [List.take_of_length_le last.ge, List.take_of_length_le last'.ge] at same
        · rintro rfl
          rw [first.char _ inside, second.char _ inside, Int.sub_self]

/-- `strcmp` tells whether two strings are the same. -/
theorem strcmp_holds (first : Holds p left) (second : Holds q right) :
    ∃ result, strcmp p q = some result ∧ (result = 0 ↔ left = right) := by
  have fits := first.fits
  have fits' := second.fits
  exact strcmpFrom_holds first second _ 0 (by omega) (Nat.zero_le _) (Nat.zero_le _) rfl

/-- Where two strings agree up to `num` characters, or differ before. -/
theorem strncmpFrom_holds (first : Holds p left) (second : Holds q right) (rest index : Nat)
    (inside : index ≤ left.length) (whole : index + rest = right.length)
    (same : left.take index = right.take index) :
    ∃ result, strncmpFrom p q rest index = some result ∧ (result = 0 ↔ right <+: left) := by
  have fits := first.fits
  have fits' := second.fits
  induction rest generalizing index with
  | zero =>
      refine ⟨0, rfl, fun _ => ?_, fun _ => rfl⟩
      rw [Nat.add_zero] at whole
      rw [List.prefix_iff_eq_take, ← whole, same, whole, List.take_length]
  | succ rest inductionHypothesis =>
      have before' : index < right.length := by omega
      have more' : q.char index ≠ 0 := second.char_ne_zero before'
      have differ : p.char index ≠ q.char index → ¬ right <+: left := by
        intro different isPrefix
        have longer : index < left.length := lt_of_lt_of_le before' isPrefix.length_le
        apply different
        rw [first.char _ inside, second.char _ before'.le, List.getD_eq_getElem _ _ longer,
          List.getD_eq_getElem _ _ before']
        exact (isPrefix.getElem before').symm
      unfold strncmpFrom
      rw [if_neg (by omega)]
      by_cases less : (p.char index).toNat < (q.char index).toNat
      · rw [if_pos less]
        refine ⟨-1, rfl, nofun, fun isPrefix => absurd isPrefix (differ fun equal => ?_)⟩
        rw [equal] at less
        exact lt_irrefl _ less
      · rw [if_neg less]
        by_cases more : (q.char index).toNat < (p.char index).toNat
        · rw [if_pos more]
          refine ⟨1, rfl, nofun, fun isPrefix => absurd isPrefix (differ fun equal => ?_)⟩
          rw [equal] at more
          exact lt_irrefl _ more
        · have equal : p.char index = q.char index := BitVec.eq_of_toNat_eq (by omega)
          rw [if_neg more, if_neg (equal ▸ more')]
          have before : index < left.length :=
            lt_of_le_of_ne inside fun last =>
              more' (equal ▸ (first.char_eq_zero_iff inside).mpr last)
          apply inductionHypothesis (index + 1) before (by omega)
          rw [first.char _ inside, second.char _ before'.le, List.getD_eq_getElem _ _ before,
            List.getD_eq_getElem _ _ before'] at equal
          rw [List.take_add_one, List.take_add_one, same, List.getElem?_eq_getElem before,
            List.getElem?_eq_getElem before', equal]

/-- `strncmp` up to the length of a string tells whether it is a prefix. -/
theorem strncmp_holds (first : Holds p left) (second : Holds q right) :
    ∃ result, strncmp p q right.length = some result ∧ (result = 0 ↔ right <+: left) :=
  strncmpFrom_holds first second _ 0 (Nat.zero_le _) (Nat.zero_add _) rfl

theorem strncpyFrom_eq (src : Str) (count index : Nat) (dest : Str)
    (fits : index + count ≤ dest.size) : strncpyFrom src count index dest =
      some { dest with char := fun other =>
        if index ≤ other ∧ other < index + count then src.char other else dest.char other } := by
  induction count generalizing index dest with
  | zero =>
      have nothing : (fun other => if index ≤ other ∧ other < index + 0 then src.char other
          else dest.char other) = dest.char := by
        funext other
        exact if_neg (by omega)
      rw [strncpyFrom, nothing]
  | succ count inductionHypothesis =>
      have stored : dest.store index (src.char index) =
          some { dest with char := Function.update dest.char index (src.char index) } :=
        if_pos (by omega)
      have fitsNext : index + 1 + count ≤ dest.size := by omega
      rw [strncpyFrom, stored]
      refine (inductionHypothesis (index + 1)
        { dest with char := Function.update dest.char index (src.char index) } fitsNext).trans ?_
      congr
      funext other
      by_cases first : other = index
      · rw [first, if_neg (by omega), if_pos (by omega)]
        exact Function.update_self ..
      · have kept : Function.update dest.char index (src.char index) other = dest.char other :=
          Function.update_of_ne first ..
        by_cases inside : index ≤ other ∧ other < index + (count + 1)
        · rw [if_pos (by omega), if_pos inside]
        · rw [if_neg (by omega), if_neg inside]
          exact kept

/-- `strncpy` copies a string that is shorter than the count, and keeps what is behind. -/
theorem strncpy_holds {src dest : Str} {count : Nat} (holds : Holds src text)
    (shorter : text.length < count) (fits : count ≤ dest.size) :
    ∃ after, strncpy dest src count = some after ∧ Holds after text ∧ after.size = dest.size := by
  refine ⟨_, strncpyFrom_eq src count 0 dest (by omega), ?_, rfl⟩
  refine Holds.congr holds (shorter.trans_le fits) fun index inside => ?_
  exact if_pos (by omega)

end Spec

end BbbEth.Console
