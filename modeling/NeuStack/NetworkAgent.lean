import Mathlib.Algebra.Group.Nat.Defs
import Mathlib.Data.Rat.Defs

/-! # The network agent

`ai_agent.hpp` and `ai_agent.cpp`: the state machine that turns the answers of the models
into a policy.  A decision is logged with the states it leads from and to; its time and
its text are left out, as nothing reads them.

Only an anomaly score takes the agent into or out of `UNDER_ATTACK`
(`onCwndAdjust_attack`, `onBwPrediction_attack`).
-/
namespace NeuStack

/-- `float` -/
class AgentFloat (ι : Type) where
  ofNat : Nat → ι
  /-- The literal `m / 10 ^ k`. -/
  ofScientific : Nat → Nat → ι
  neg : ι → ι
  sub : ι → ι → ι
  mul : ι → ι → ι
  div : ι → ι → ι
  lt : ι → ι → Bool
  le : ι → ι → Bool

/-- Without rounding. -/
instance : AgentFloat ℚ where
  ofNat n := n
  ofScientific m k := mkRat m (10 ^ k)
  neg x := -x
  sub x y := x - y
  mul x y := x * y
  div x y := x / y
  lt x y := x < y
  le x y := x ≤ y

inductive AgentState where
  | normal | degraded | underAttack | recovery
  deriving DecidableEq, Repr

structure Decision where
  fromState : AgentState
  toState : AgentState
  deriving DecidableEq, Repr

/-- `MAX_HISTORY_SIZE` -/
def maxHistorySize : Nat := 1000

/-- `ANOMALY_CLEAR_REQUIRED` -/
def anomalyClearRequired : Nat := 50

/-- `RECOVERY_TICKS_REQUIRED` -/
def recoveryTicksRequired : Nat := 100

structure NetworkAgent (ι : Type) where
  state : AgentState := .normal
  anomalyThreshold : ι
  anomalyScore : ι
  predictedBw : UInt32 := 0
  currentAlpha : ι
  anomalyClearCount : Nat := 0
  recoveryTicks : Nat := 0
  prevPredictedBw : ι
  preDegradedBw : ι
  history : List Decision := []

namespace NetworkAgent
variable {ι : Type} [AgentFloat ι]

/-- `static_cast<float>` -/
def castBw (bw : UInt32) : ι := AgentFloat.ofNat bw.toNat

/-- `BW_DROP_RATIO` -/
def bwDropRatio : ι := AgentFloat.ofScientific 5 1

/-- `BW_RECOVER_RATIO` -/
def bwRecoverRatio : ι := AgentFloat.ofScientific 85 2

/-- `NetworkAgent(anomaly_threshold)` -/
def create (anomalyThreshold : ι) : NetworkAgent ι where
  anomalyThreshold
  anomalyScore := AgentFloat.ofNat 0
  currentAlpha := AgentFloat.ofNat 0
  prevPredictedBw := AgentFloat.ofNat 0
  preDegradedBw := AgentFloat.ofNat 0

omit [AgentFloat ι] in
/-- `_history.emplace_back`, and `pop_front` if it is too long. -/
def record (d : Decision) (history : List Decision) : List Decision :=
  let history := history ++ [d]
  if maxHistorySize < history.length then history.tail else history

omit [AgentFloat ι] in
/-- `transition_to` -/
def transitionTo (newState : AgentState) (a : NetworkAgent ι) : NetworkAgent ι :=
  if a.state = newState then a
  else
    let a := { a with state := newState, history := record ⟨a.state, newState⟩ a.history }
    if newState = .recovery then { a with recoveryTicks := 0, anomalyClearCount := 0 } else a

omit [AgentFloat ι] in
/-- `on_cwnd_adjust` -/
def onCwndAdjust (alpha : ι) (a : NetworkAgent ι) : NetworkAgent ι :=
  let a := { a with currentAlpha := alpha }
  if a.state = .recovery then
    let a := { a with recoveryTicks := a.recoveryTicks + 1 }
    if recoveryTicksRequired ≤ a.recoveryTicks then a.transitionTo .normal else a
  else a

/-- `on_anomaly` -/
def onAnomaly (score : ι) (a : NetworkAgent ι) : NetworkAgent ι :=
  let a := { a with anomalyScore := score }
  if AgentFloat.lt a.anomalyThreshold score then
    let a := { a with anomalyClearCount := 0 }
    if a.state ≠ .underAttack then a.transitionTo .underAttack else a
  else if a.state = .underAttack then
    let a := { a with anomalyClearCount := a.anomalyClearCount + 1 }
    if anomalyClearRequired ≤ a.anomalyClearCount then a.transitionTo .recovery else a
  else a

/-- `on_bw_prediction` -/
def onBwPrediction (bw : UInt32) (a : NetworkAgent ι) : NetworkAgent ι :=
  let zero : ι := AgentFloat.ofNat 0
  let a := { a with prevPredictedBw := castBw a.predictedBw, predictedBw := bw }
  if a.state = .normal && AgentFloat.lt zero a.prevPredictedBw then
    let dropRatio :=
      AgentFloat.sub (AgentFloat.ofNat 1) (AgentFloat.div (castBw bw) a.prevPredictedBw)
    if AgentFloat.lt bwDropRatio dropRatio then
      { a with preDegradedBw := a.prevPredictedBw }.transitionTo .degraded
    else a
  else if a.state = .degraded && AgentFloat.lt zero a.preDegradedBw then
    if AgentFloat.le (AgentFloat.mul a.preDegradedBw bwRecoverRatio) (castBw bw) then
      a.transitionTo .normal
    else a
  else a

/-- `std::clamp` -/
def clamp (v lo hi : ι) : ι :=
  if AgentFloat.lt v lo then lo else if AgentFloat.lt hi v then hi else v

/-- `effective_alpha` -/
def effectiveAlpha (a : NetworkAgent ι) : ι :=
  let one : ι := AgentFloat.ofNat 1
  match a.state with
  | .normal => clamp a.currentAlpha (AgentFloat.neg one) one
  | .degraded => clamp a.currentAlpha (AgentFloat.neg one) (AgentFloat.ofScientific 3 1)
  | .underAttack => AgentFloat.ofNat 0
  | .recovery => clamp a.currentAlpha (AgentFloat.neg one) (AgentFloat.ofScientific 5 1)

/-! ## What enters and leaves UNDER_ATTACK -/

variable {a : NetworkAgent ι}

omit [AgentFloat ι] in
@[simp] theorem transitionTo_state (newState : AgentState) :
    (a.transitionTo newState).state = newState := by
  rw [transitionTo]
  split
  · assumption
  · split <;> rfl

omit [AgentFloat ι] in
/-- A transition between two of the other states. -/
theorem transitionTo_attack {newState : AgentState} (hs : a.state ≠ .underAttack)
    (hnew : newState ≠ .underAttack) :
    (a.transitionTo newState).state = .underAttack ↔ a.state = .underAttack :=
  iff_of_false (by rw [transitionTo_state]; exact hnew) hs

omit [AgentFloat ι] in
theorem onCwndAdjust_attack (alpha : ι) :
    (a.onCwndAdjust alpha).state = .underAttack ↔ a.state = .underAttack := by
  rw [onCwndAdjust]
  dsimp only
  split
  · rename_i hs
    split
    · exact transitionTo_attack (by rw [hs]; decide) (by decide)
    · rfl
  · rfl

theorem onBwPrediction_attack (bw : UInt32) :
    (a.onBwPrediction bw).state = .underAttack ↔ a.state = .underAttack := by
  rw [onBwPrediction]
  dsimp only
  split
  · rename_i hs
    have hs := of_decide_eq_true (Bool.and_eq_true_iff.mp hs).1
    split
    · exact transitionTo_attack (by rw [hs]; decide) (by decide)
    · rfl
  · split
    · rename_i hs
      have hs := of_decide_eq_true (Bool.and_eq_true_iff.mp hs).1
      split
      · exact transitionTo_attack (by rw [hs]; decide) (by decide)
      · rfl
    · rfl

end NetworkAgent
end NeuStack
