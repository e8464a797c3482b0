import BbbEth.Mmc.Calls
import BbbEth.Interference.System

/-!
# The driver and its environment

Between any two accesses of a routine `mmc0_isr` may run on any status word, the
DMA callback may run, the receive channel may store a byte, and the cache may
write lines back and drop them.
-/

namespace BbbEth.Mmc

open BbbEth.Interference BbbEth.Coherence State

/-- A condition on the schedule. -/
structure Condition where
  admits : {reply : Type} → Access reply → State → Prop
  /-- Where the card may be removed. -/
  removable : State → Prop
  /-- Which byte the receive channel may store. -/
  delivers : State → Byte → Prop

/-- Every schedule. -/
def Condition.none : Condition where
  admits _ _ := True
  removable _ := True
  delivers _ _ := True

/-- What happens beside the routines. -/
inductive Environment (condition : Condition) : State → State → Prop where
  | isr (state : State) (status : Word) :
      (status &&& statCRem ≠ 0 → condition.removable state) →
      Environment condition state (state.mmc0Isr status)
  /-- A channel completes only while it is enabled. -/
  | callback (state : State) (channel : Channel) : state.enabled channel = true →
      Environment condition state (state.callback channel)
  | deliver (state : State) (value : Byte) : state.enabled .mmc0Rx = true →
      condition.delivers state value → Environment condition state (state.deliver value)
  | drift (state : State) (cached : Cached Nat Nat Byte) :
      Cached.Drift lineOf state.cached cached →
      Environment condition state { state with cached := cached }
  | device (state : State) (rsp : Fin 4 → Word) (clockStable : Bool) :
      Environment condition state { state with rsp := rsp, clockStable := clockStable }

/-- A loop that spins until a flag is set ends when one is. -/
def Spins : {reply : Type} → Access reply → State → Prop
  | _, .awaitFlags first second, state => state.flag first = true ∨ state.flag second = true
  | _, _, _ => True

/-- The routines that the disk layer calls. -/
inductive MmcCall (dataBuffer : Nat) : Routine Unit → Prop where
  | cardInit : MmcCall dataBuffer (mmcCardInit dataBuffer >>= fun _ => .done ())
  | busWidthSet : MmcCall dataBuffer (mmcBusWidthSet >>= fun _ => .done ())
  | tranSpeedSet : MmcCall dataBuffer (mmcTranSpeedSet dataBuffer >>= fun _ => .done ())
  | readCmdSend (ptr : Nat) (block nblks : Word) :
      MmcCall dataBuffer (mmcReadCmdSend ptr block nblks >>= fun _ => .done ())
  | writeCmdSend (ptr : Nat) (block nblks : Word) :
      MmcCall dataBuffer (mmcWriteCmdSend ptr block nblks >>= fun _ => .done ())

/-- The state that `mmc0_start` leaves. -/
structure Started (state : State) : Prop where
  flags : ∀ flag, state.flag flag = false
  dmaEnable : state.dmaEnable = false
  enabled : ∀ channel, state.enabled channel = false
  history : state.history = []

/-- The driver, under a condition. -/
def mmcSystem (dataBuffer : Nat) (condition : Condition) : System Access State where
  perform := State.perform
  rely _ := Environment condition
  admits request state := Spins request state ∧ condition.admits request state
  initial := Started
  calls _ code := MmcCall dataBuffer code
  outside _ _ := False

/-- What a proof about the calls shows for every run. -/
theorem Respects.invariant {dataBuffer : Nat} {condition : Condition}
    {safe : State → Prop} {guarantee : State → State → Prop} {resting armed : State → Prop}
    (respects : Respects
      ⟨(mmcSystem dataBuffer condition).toSetting, safe, guarantee, False⟩ resting armed)
    (initial : ∀ state, Started state → resting state) :
    (mmcSystem dataBuffer condition).Invariant safe guarantee resting where
  initial := initial
  outside _ _ _ step := step.elim
  rely := respects.stable
  safely := respects.safe
  calls current code holds called := by
    cases called with
    | cardInit => exact ((respects.cardInit dataBuffer).bind fun _ => respects.done ()) _ holds
    | busWidthSet => exact (respects.busWidthSet.bind fun _ => respects.done ()) _ holds
    | tranSpeedSet =>
        exact ((respects.tranSpeedSet dataBuffer).bind fun _ => respects.done ()) _ holds
    | readCmdSend ptr block nblks =>
        exact ((respects.readCmdSend ptr block nblks).bind fun _ => respects.done ()) _ holds
    | writeCmdSend ptr block nblks =>
        exact ((respects.writeCmdSend ptr block nblks).bind fun _ => respects.done ()) _ holds

end BbbEth.Mmc
