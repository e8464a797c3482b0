import BbbEth.Mmc.System
import BbbEth.Interference.Schedule

/-!
# Concrete runs

A state that `mmc0_start` may leave, and runs from it that can be computed.
-/

namespace BbbEth.Mmc

open BbbEth.Interference State

/-- A state after `mmc0_start`, with nothing in the cache. -/
def started : State where
  flag _ := false
  dmaEnable := false
  cmd := 0
  rsp _ := 0
  clockStable := true
  card := .zero
  enabled _ := false
  paRam _ := ⟨0, 0, 0, 0, 0, 0, 0, 0, 0, 0, 0, 0⟩
  moved := 0
  cached := ⟨fun _ => 0, fun _ => none⟩
  history := []

theorem started_started : Started started := ⟨fun _ => rfl, rfl, fun _ => rfl, rfl⟩

/-- Whether an access is admitted where only spinning is restricted. -/
def spins : {reply : Type} → Access reply → State → Bool
  | _, .awaitFlags first second, state => state.flag first || state.flag second
  | _, _, _ => true

theorem admits_of_spins {dataBuffer : Nat} {reply : Type} (request : Access reply)
    (state : State) (test : spins request state = true) :
    (mmcSystem dataBuffer .none).admits request state := by
  refine ⟨?_, trivial⟩
  cases request with
  | awaitFlags first second => exact Eq.mp (Bool.or_eq_true _ _) test
  | _ => trivial

/-- A call of which the run is computed leads from an idle state to an idle state. -/
theorem idle_of_run {dataBuffer : Nat}
    {schedule : Schedule (mmcSystem dataBuffer .none).toSetting} {fuel : Nat}
    {code : Routine Unit} {before after : State}
    (idle : (mmcSystem dataBuffer .none).Idle before) (called : MmcCall dataBuffer code)
    (computed : schedule.run @spins fuel code before = some ((), after)) :
    (mmcSystem dataBuffer .none).Idle after :=
  idle.returns called (Schedule.returns_of_run admits_of_spins computed)

end BbbEth.Mmc
