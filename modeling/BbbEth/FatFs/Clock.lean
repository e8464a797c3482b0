import BbbEth.FatFs.Time
import BbbEth.Interference.Schedule

/-!
# The clock interrupt

`rtc_isr` stores the time in six variables, and `get_fattime` loads them one by one.  The
compiler may load them in any order, and a variable is named twice.
-/

namespace BbbEth.FatFs

open BbbEth.Console BbbEth.Interference

inductive Var where
  | year
  | month
  | day
  | hour
  | min
  | sec
  deriving DecidableEq, Repr

/-- The two places where `get_fattime` names a variable. -/
inductive Digit where
  | tens
  | units
  deriving DecidableEq, Repr

abbrev Mention := Var × Digit

def TimeVars.get (vars : TimeVars) : Var → Word
  | .year => vars.year
  | .month => vars.month
  | .day => vars.day
  | .hour => vars.hour
  | .min => vars.min
  | .sec => vars.sec

/-- The expression of `get_fattime`, where each mention of a variable has a value. -/
def stampOf (value : Mention → Word) : Word :=
  (((value (.year, .tens) >>> 4) &&& 0x7) * 10 + (value (.year, .units) &&& 0xF)) <<< 25
    ||| (((value (.month, .tens) >>> 4) &&& 0x1) * 10 + (value (.month, .units) &&& 0xF)) <<< 21
    ||| (((value (.day, .tens) >>> 4) &&& 0x3) * 10 + (value (.day, .units) &&& 0xF)) <<< 16
    ||| (((value (.hour, .tens) >>> 4) &&& 0x3) * 10 + (value (.hour, .units) &&& 0xF)) <<< 11
    ||| (((value (.min, .tens) >>> 4) &&& 0x7) * 10 + (value (.min, .units) &&& 0xF)) <<< 5
    ||| (((value (.sec, .tens) >>> 4) &&& 0x7) * 10 + (value (.sec, .units) &&& 0xF)) >>> 1

/-- Without an interrupt, the value is that of `getFattime`. -/
theorem stampOf_get (vars : TimeVars) :
    stampOf (fun mention => vars.get mention.1) = getFattime vars := rfl

/-- The bits of a variable that the expression has from one mention of it. -/
def Mention.bits : Mention → Word → Word
  | (.year, .tens), value | (.min, .tens), value | (.sec, .tens), value => (value >>> 4) &&& 0x7
  | (.month, .tens), value => (value >>> 4) &&& 0x1
  | (.day, .tens), value | (.hour, .tens), value => (value >>> 4) &&& 0x3
  -- the last bit of the seconds is shifted out
  | (.sec, .units), value => (value >>> 1) &&& 0x7
  | (_, .units), value => value &&& 0xF

/-- An order in which the variables are loaded. -/
structure Order where
  loads : List Mention
  nodup : loads.Nodup
  all : ∀ mention, mention ∈ loads

/-- The order of the text. -/
def Order.source : Order where
  loads :=
    [(.year, .tens), (.year, .units), (.month, .tens), (.month, .units), (.day, .tens),
      (.day, .units), (.hour, .tens), (.hour, .units), (.min, .tens), (.min, .units),
      (.sec, .tens), (.sec, .units)]
  nodup := by decide
  all := by
    rintro ⟨var, digit⟩
    cases var <;> cases digit <;> decide

/-! ## The routine and the interrupt -/

/-- The time of the clock, the variables, the counter of interrupts, and all that was stored in
the variables since the call. -/
structure ClockState where
  now : DateTime
  vars : TimeVars
  rtcIrqCount : Word
  stored : List TimeVars

inductive Access : Type → Type where
  | load : Mention → Access Word

def Access.perform {reply : Type} : Access reply → ClockState → reply × ClockState
  | .load mention, state => (state.vars.get mention.1, state)

/-- `rtc_isr`. -/
def rtcIsr (state : ClockState) : ClockState :=
  { state with
    vars := state.now.reading
    rtcIrqCount := state.rtcIrqCount + 1
    stored := state.now.reading :: state.stored }

/-- The loads of the variables that are left. -/
def loadAll : List Mention → (Mention → Word) → Program Access (Mention → Word)
  | [], seen => .done seen
  | mention :: others, seen =>
      .perform (.load mention) fun value => loadAll others (Function.update seen mention value)

/-- `get_fattime`, with its loads in some order. -/
def getFattimeIn (order : Order) : Program Access Word := do
  let seen ← loadAll order.loads fun _ => 0
  .done (stampOf seen)

/-- The clock goes on, and may interrupt where it is allowed to. -/
inductive Tick (allowed : ClockState → Prop) : ClockState → ClockState → Prop where
  | advance {state : ClockState} {later : DateTime} :
      state.now.Before later → Tick allowed state { state with now := later }
  | rtcIsr {state : ClockState} : allowed state → Tick allowed state (rtcIsr state)

/-- `get_fattime` beside the clock, with interrupts where they are allowed. -/
def clock (allowed : Option (Pending Access) → ClockState → Prop) : Setting Access ClockState where
  perform := Access.perform
  rely pending := Tick (allowed pending)
  admits _ _ := True

/-- `get_fattime` returns the time stamp of something that was stored in the variables, before the
call or by an interrupt. -/
def Consistent (setting : Setting Access ClockState) (order : Order) : Prop :=
  ∀ before, before.stored = [before.vars] →
    setting.Completes (getFattimeIn order) before fun value after =>
      ∃ vars ∈ after.stored, value = getFattime vars

/-- An interrupt keeps the bits that were loaded before. -/
def Keeps (order : Order) : Option (Pending Access) → ClockState → Prop
  | some ⟨_, .load mention⟩, state =>
      ∀ loaded ∈ order.loads.takeWhile (· ≠ mention),
        loaded.bits (state.now.reading.get loaded.1) = loaded.bits (state.vars.get loaded.1)
  | none, _ => True

/-! ## One time for all loads -/

section Bits

/-- The seconds, without their last bit. -/
theorem half_seconds (tens units : Word) :
    (((tens >>> 4) &&& 0x7) * 10 + (units &&& 0xF)) >>> 1 =
      ((tens >>> 4) &&& (0x7 : Word)) * (5 : Word) + ((units >>> 1) &&& (0x7 : Word)) := by
  have first : ((tens >>> 4) &&& 0x7).toNat = _ := toNat_and_low (tens >>> 4) 3 (by decide)
  have second : (units &&& 0xF).toNat = _ := toNat_and_low units 4 (by decide)
  have half : ((units >>> 1) &&& 0x7).toNat = _ := toNat_and_low (units >>> 1) 3 (by decide)
  rw [BitVec.toNat_ushiftRight, Nat.shiftRight_eq_div_pow] at half
  apply BitVec.eq_of_toNat_eq
  rw [BitVec.toNat_ushiftRight, Nat.shiftRight_eq_div_pow, BitVec.toNat_add, BitVec.toNat_add,
    BitVec.toNat_mul, BitVec.toNat_mul, second, half, show (10 : Word).toNat = 10 from rfl,
    show (5 : Word).toNat = 5 from rfl]
  have small : ((tens >>> 4) &&& 0x7).toNat < 8 := first ▸ Nat.mod_lt _ (by decide)
  have last : units.toNat % 2 ^ 4 < 16 := Nat.mod_lt _ (by decide)
  have even : units.toNat / 2 ^ 1 % 2 ^ 3 = units.toNat % 2 ^ 4 / 2 := by omega
  rw [even]
  generalize ((tens >>> 4) &&& 0x7).toNat = high at small
  generalize units.toNat % 2 ^ 4 = low at last
  rw [Nat.mod_eq_of_lt (show high * 10 < 2 ^ 32 by omega),
    Nat.mod_eq_of_lt (show high * 5 < 2 ^ 32 by omega),
    Nat.mod_eq_of_lt (show high * 10 + low < 2 ^ 32 by omega),
    Nat.mod_eq_of_lt (show high * 5 + low / 2 < 2 ^ 32 by omega)]
  omega

/-- The value depends on the bits only. -/
theorem stampOf_congr {value value' : Mention → Word}
    (same : ∀ mention : Mention, mention.bits (value mention) = mention.bits (value' mention)) :
    stampOf value = stampOf value' := by
  have tens : ∀ var, Mention.bits (var, .tens) (value (var, .tens)) =
      Mention.bits (var, .tens) (value' (var, .tens)) := fun var => same (var, .tens)
  have units : ∀ var, Mention.bits (var, .units) (value (var, .units)) =
      Mention.bits (var, .units) (value' (var, .units)) := fun var => same (var, .units)
  simp only [stampOf, half_seconds]
  rw [show (value (.year, .tens) >>> 4) &&& 0x7 = _ from tens .year,
    show (value (.month, .tens) >>> 4) &&& 0x1 = _ from tens .month,
    show (value (.day, .tens) >>> 4) &&& 0x3 = _ from tens .day,
    show (value (.hour, .tens) >>> 4) &&& 0x3 = _ from tens .hour,
    show (value (.min, .tens) >>> 4) &&& 0x7 = _ from tens .min,
    show (value (.sec, .tens) >>> 4) &&& 0x7 = _ from tens .sec,
    show value (.year, .units) &&& 0xF = _ from units .year,
    show value (.month, .units) &&& 0xF = _ from units .month,
    show value (.day, .units) &&& 0xF = _ from units .day,
    show value (.hour, .units) &&& 0xF = _ from units .hour,
    show value (.min, .units) &&& 0xF = _ from units .min,
    show (value (.sec, .units) >>> 1) &&& 0x7 = _ from units .sec]
  rfl

end Bits

section Loads

variable {order : Order}

/-- The contract of the calls: the value is a time stamp of what was stored. -/
def clockContract (order : Order) : Contract Access ClockState where
  toSetting := clock (Keeps order)
  safe _ := True
  guarantee _ _ := True
  mayFault := False

/-- What was loaded so far has the bits of the variables. -/
structure Seen (loaded : List Mention) (seen : Mention → Word) (state : ClockState) : Prop where
  same : ∀ mention ∈ loaded, mention.bits (seen mention) = mention.bits (state.vars.get mention.1)
  stored : state.vars ∈ state.stored

/-- What was loaded has the bits of one time that was stored. -/
def SeenOne (seen : Mention → Word) (state : ClockState) : Prop :=
  ∃ vars ∈ state.stored, ∀ mention : Mention,
    mention.bits (seen mention) = mention.bits (vars.get mention.1)

variable {loaded others : List Mention} {mention : Mention} {seen : Mention → Word}
variable {state : ClockState}

/-- The clock and its interrupts leave what was loaded right. -/
theorem Seen.stable (split : order.loads = loaded ++ mention :: others) :
    (clockContract order).Stable (some ⟨_, .load mention⟩) (Seen loaded seen) := by
  have nodup := order.nodup
  rw [split] at nodup
  have fresh : ∀ other ∈ loaded, decide (other ≠ mention) = true := by
    intro other member
    exact decide_eq_true ((List.nodup_append.mp nodup).2.2 _ member _ List.mem_cons_self)
  have before : order.loads.takeWhile (· ≠ mention) = loaded := by
    rw [split, List.takeWhile_append_of_pos fresh, List.takeWhile_cons_of_neg (by simp),
      List.append_nil]
  intro current next holds tick
  cases tick with
  | advance => exact ⟨holds.same, holds.stored⟩
  | rtcIsr keeps =>
      change ∀ other ∈ order.loads.takeWhile (· ≠ mention), _ at keeps
      rw [before] at keeps
      refine ⟨fun other member => ?_, List.mem_cons_self⟩
      exact (holds.same other member).trans (keeps other member).symm

/-- After the last load, everything may change. -/
theorem SeenOne.stable : (clockContract order).Stable none (SeenOne seen) := by
  rintro current next ⟨vars, member, same⟩ tick
  cases tick with
  | advance => exact ⟨vars, member, same⟩
  | rtcIsr => exact ⟨vars, List.mem_cons_of_mem _ member, same⟩

/-- One more variable is loaded. -/
theorem Seen.load (holds : Seen loaded seen state) (mention : Mention) :
    Seen (loaded ++ [mention]) (Function.update seen mention (state.vars.get mention.1)) state := by
  refine ⟨fun other member => ?_, holds.stored⟩
  rcases eq_or_ne other mention with rfl | different
  · rw [Function.update_self]
  · rw [Function.update_of_ne different]
    rcases List.mem_append.mp member with earlier | last
    · exact holds.same other earlier
    · exact absurd (List.mem_singleton.mp last) different

theorem loadAll_ensures (split : order.loads = loaded ++ others) (holds : Seen loaded seen state) :
    (clockContract order).Ensures SeenOne (loadAll others seen) state := by
  induction others generalizing loaded seen state with
  | nil =>
      refine .of_done SeenOne.stable ?_ (fun _ _ => trivial) (fun _ one => one)
      rw [List.append_nil] at split
      exact ⟨state.vars, holds.stored,
        fun mention => holds.same mention (split ▸ order.all mention)⟩
  | cons mention others inductionHypothesis =>
      refine .of_perform (Seen.stable split) holds (fun _ _ => trivial) (fun _ _ _ => trivial) ?_
      intro before kept _
      refine inductionHypothesis ?_ (kept.load mention)
      rw [split, List.append_assoc, List.singleton_append]

/-- In any order of the loads, the value is the time stamp of one time, if interrupts keep the
bits that were loaded before. -/
theorem consistent_of_keeps (order : Order) : Consistent (clock (Keeps order)) order := by
  intro before start
  have holds : Seen [] (fun _ => 0) before := by
    refine ⟨fun _ member => absurd member List.not_mem_nil, ?_⟩
    rw [start]
    exact List.mem_cons_self
  have ensures : (clockContract order).Ensures
      (fun value after => ∃ vars ∈ after.stored, value = getFattime vars)
      (getFattimeIn order) before := by
    refine (loadAll_ensures (List.nil_append _).symm holds).bind fun seen last one => ?_
    refine .of_done SeenOne.stable one (fun _ _ => trivial) ?_
    rintro _ ⟨vars, member, same⟩
    exact ⟨vars, member, (stampOf_congr same).trans (stampOf_get vars)⟩
  exact ensures.completes id

end Loads

/-! ## A time that never was -/

instance (time other : DateTime) : Decidable (time.Before other) := by
  unfold DateTime.Before
  infer_instance

/-- The last second of the year 05. -/
def yearEnd05 : DateTime :=
  ⟨5, 12, 31, 23, 59, 59, by decide, by decide, by decide, by decide, by decide, by decide,
    by decide, by decide⟩

/-- The first second of the year 06. -/
def newYear06 : DateTime :=
  { DateTime.newYear79 with
    year := 6
    year_lt := by decide
    day_le := by decide }

/-- The clock goes over to the year 06 behind the loads of the year, and interrupts. -/
def midnight : Schedule (clock fun _ _ => True) where
  ahead
    | .load mention, current =>
        if mention = (.month, .tens) ∧ current.now.Before newYear06 then
          rtcIsr { current with now := newYear06 }
        else
          current
  follows := by
    rintro _ ⟨mention⟩ current
    dsimp only
    split
    · rename_i passes
      exact .tail (.single (.advance passes.2)) (.rtcIsr trivial)
    · exact .refl

/-- The year is that of the time before midnight, and the rest is of the time after it. -/
theorem not_consistent : ¬ Consistent (clock fun _ _ => True) .source := by
  intro consistent
  let start : ClockState := ⟨yearEnd05, yearEnd05.reading, 0, [yearEnd05.reading]⟩
  have computed : midnight.run (fun _ _ => true) 13 (getFattimeIn .source) start =
      some (stampOf fun mention => if mention.1 = .year then yearEnd05.reading.year
        else newYear06.reading.get mention.1,
        ⟨newYear06, newYear06.reading, 1, [newYear06.reading, yearEnd05.reading]⟩) := rfl
  have returns := Schedule.returns_of_run (fun _ _ _ => trivial) computed
  rcases (consistent _ rfl).ends _ _ returns with ⟨vars, member, same⟩
  rcases List.mem_pair.mp member with rfl | rfl
  · exact absurd same (by decide)
  · exact absurd same (by decide)

end BbbEth.FatFs
