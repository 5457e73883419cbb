import NeuStack.NetworkAgent
import NeuStack.GuardedRun
import Mathlib.Algebra.Order.Field.Rat
import Mathlib.Data.List.Chain
import Mathlib.Tactic.Linarith
import Mathlib.Tactic.NormNum

/-! # The policy of the network agent

What takes the agent from one state to another, in terms of the events it has received.
`Moves` lists what one event can do to the state and to the counters and memories beside it
(`Core`).  An `AgentRun` keeps the events with the state each of them led to, the newest
first; the counters are what can be counted in that log (`Tracks`), and the conditions of
`Policy` are about the log alone.

The numbers are taken without rounding.
-/
namespace NeuStack

/-- The calls on an agent. -/
inductive AgentEvent
  | cwndAdjust (alpha : ℚ)
  | anomaly (score : ℚ)
  | bwPrediction (bw : UInt32)

namespace NetworkAgent

def handle (a : NetworkAgent ℚ) : AgentEvent → NetworkAgent ℚ
  | .cwndAdjust alpha => a.onCwndAdjust alpha
  | .anomaly score => a.onAnomaly score
  | .bwPrediction bw => a.onBwPrediction bw

/-! ## What one event can do -/

/-- The state, the counters, the last prediction and the level before the last drop. -/
structure Core where
  state : AgentState
  clear : Nat
  ticks : Nat
  bw : UInt32
  level : ℚ

def core (a : NetworkAgent ℚ) : Core where
  state := a.state
  clear := a.anomalyClearCount
  ticks := a.recoveryTicks
  bw := a.predictedBw
  level := a.preDegradedBw

/-- More than half of the bandwidth is gone. -/
def Drops (before bw : UInt32) : Prop := 2 * bw.toNat < before.toNat

/-- The bandwidth is back at 85 percent of the level. -/
def Recovers (level : ℚ) (bw : UInt32) : Prop := level * (85 / 100) ≤ bw.toNat

/-- **All that an event can do**, for a given threshold. -/
inductive Moves (threshold : ℚ) (c : Core) : AgentEvent → Core → Prop
  | adjusted (alpha : ℚ) (hstate : c.state ≠ .recovery) : Moves threshold c (.cwndAdjust alpha) c
  | recovering (alpha : ℚ) (hstate : c.state = .recovery) (hticks : c.ticks + 1 < 100) :
      Moves threshold c (.cwndAdjust alpha) { c with ticks := c.ticks + 1 }
  | recovered (alpha : ℚ) (hstate : c.state = .recovery) (hticks : 100 ≤ c.ticks + 1) :
      Moves threshold c (.cwndAdjust alpha) { c with state := .normal, ticks := c.ticks + 1 }
  | attacked (score : ℚ) (hscore : threshold < score) :
      Moves threshold c (.anomaly score) { c with state := .underAttack, clear := 0 }
  | calm (score : ℚ) (hscore : ¬ threshold < score) (hstate : c.state ≠ .underAttack) :
      Moves threshold c (.anomaly score) c
  | clearing (score : ℚ) (hscore : ¬ threshold < score) (hstate : c.state = .underAttack)
      (hclear : c.clear + 1 < 50) :
      Moves threshold c (.anomaly score) { c with clear := c.clear + 1 }
  | cleared (score : ℚ) (hscore : ¬ threshold < score) (hstate : c.state = .underAttack)
      (hclear : 50 ≤ c.clear + 1) :
      Moves threshold c (.anomaly score) { c with state := .recovery, clear := 0, ticks := 0 }
  | dropped (bw : UInt32) (hstate : c.state = .normal) (hdrops : Drops c.bw bw) :
      Moves threshold c (.bwPrediction bw)
        { c with state := .degraded, bw := bw, level := c.bw.toNat }
  | regained (bw : UInt32) (hstate : c.state = .degraded) (hlevel : 0 < c.level)
      (hrecovers : Recovers c.level bw) :
      Moves threshold c (.bwPrediction bw) { c with state := .normal, bw := bw }
  | predicted (bw : UInt32) (hsteady : c.state = .normal → ¬ Drops c.bw bw)
      (hlow : c.state = .degraded → 0 < c.level → ¬ Recovers c.level bw) :
      Moves threshold c (.bwPrediction bw) { c with bw := bw }

/-- What every event leaves alone, and how the history grows. -/
structure Keeps (a a' : NetworkAgent ℚ) : Prop where
  threshold : a'.anomalyThreshold = a.anomalyThreshold
  history : a'.state = a.state ∧ a'.history = a.history ∨
    a'.history = record ⟨a.state, a'.state⟩ a.history

theorem Keeps.transitionTo {a a' : NetworkAgent ℚ} (s : AgentState)
    (threshold : a'.anomalyThreshold = a.anomalyThreshold) (state : a'.state = a.state)
    (history : a'.history = a.history) : Keeps a (a'.transitionTo s) := by
  rw [NetworkAgent.transitionTo]
  split
  · exact ⟨threshold, .inl ⟨state, history⟩⟩
  · rw [state, history]
    split
    · exact ⟨threshold, .inr rfl⟩
    · exact ⟨threshold, .inr rfl⟩

end NetworkAgent

/-! ## The log -/

namespace AgentEvent

def isAdjust : AgentEvent → Bool
  | .cwndAdjust _ => true
  | _ => false

def score? : AgentEvent → Option ℚ
  | .anomaly score => some score
  | _ => none

def prediction? : AgentEvent → Option UInt32
  | .bwPrediction bw => some bw
  | _ => none

end AgentEvent

/-- The events so far, with the state each led to, the newest first. -/
abbrev AgentLog := List (AgentEvent × AgentState)

namespace AgentLog

/-- How many scores there were since the last one above the threshold. -/
def calmScores (threshold : ℚ) (log : AgentLog) : Nat :=
  ((log.filterMap (·.1.score?)).takeWhile (· ≤ threshold)).length

/-- How often `on_cwnd_adjust` was called since the agent entered the state it is in. -/
def adjustsSince (state : AgentState) (log : AgentLog) : Nat :=
  (log.takeWhile (·.2 = state)).countP (·.1.isAdjust)

/-- The last prediction; 0 if there was none. -/
def lastPrediction (log : AgentLog) : UInt32 := (log.findSome? (·.1.prediction?)).getD 0

/-- The last prediction but those since the agent entered the state it is in, and the one
that took it there. -/
def levelBefore (state : AgentState) (log : AgentLog) : UInt32 :=
  lastPrediction (log.dropWhile (·.2 = state))

variable {s : AgentState} {e : AgentEvent} {log : AgentLog}

theorem lastPrediction_cons :
    lastPrediction ((e, s) :: log) = e.prediction?.getD log.lastPrediction := by
  rw [lastPrediction, List.findSome?_cons]
  dsimp only
  cases e.prediction? <;> rfl

theorem adjustsSince_cons :
    adjustsSince s ((e, s) :: log) = adjustsSince s log + if e.isAdjust then 1 else 0 := by
  rw [adjustsSince, List.takeWhile_cons_of_pos (by exact decide_eq_true rfl),
    List.countP_cons]
  rfl

theorem levelBefore_cons : levelBefore s ((e, s) :: log) = levelBefore s log := by
  rw [levelBefore, List.dropWhile_cons_of_pos (by exact decide_eq_true rfl)]
  rfl

/-- A call that brings no score. -/
theorem calmScores_cons_none {threshold : ℚ} (he : e.score? = none) :
    calmScores threshold ((e, s) :: log) = calmScores threshold log := by
  rw [calmScores, List.filterMap_cons_none (by exact he)]
  rfl

theorem calmScores_cons_calm {threshold score : ℚ} (hscore : ¬ threshold < score) :
    calmScores threshold ((.anomaly score, s) :: log) = calmScores threshold log + 1 := by
  rw [calmScores, List.filterMap_cons_some (b := score) (by rfl),
    List.takeWhile_cons_of_pos (by exact decide_eq_true (not_lt.mp hscore)), List.length_cons]
  rfl

theorem calmScores_cons_anomalous {threshold score : ℚ} (hscore : threshold < score) :
    calmScores threshold ((.anomaly score, s) :: log) = 0 := by
  rw [calmScores, List.filterMap_cons_some (b := score) (by rfl),
    List.takeWhile_cons_of_neg (by rw [decide_eq_true_iff]; exact not_le.mpr hscore)]
  rfl

end AgentLog

namespace NetworkAgent

/-- What the counters and memories of the agent stand for. -/
structure Tracks (threshold : ℚ) (log : AgentLog) (c : Core) : Prop where
  current : ∀ p ∈ log.head?, p.2 = c.state
  bw : c.bw = log.lastPrediction
  clear : c.state = .underAttack → c.clear = log.calmScores threshold ∧ c.clear < 50
  ticks : c.state = .recovery → c.ticks = log.adjustsSince .recovery ∧ c.ticks < 100
  level : c.state = .degraded → c.level = (log.levelBefore .degraded).toNat ∧ 0 < c.level

variable {threshold : ℚ} {log : AgentLog} {c c' : Core} {e : AgentEvent}

/-- An agent that is not in a state has not been there since it entered it. -/
theorem Tracks.elsewhere (h : Tracks threshold log c) {s : AgentState} (hs : c.state ≠ s) :
    log.adjustsSince s = 0 ∧ log.levelBefore s = c.bw := by
  rw [h.bw, AgentLog.adjustsSince, AgentLog.levelBefore]
  cases log with
  | nil => exact ⟨rfl, rfl⟩
  | cons p log =>
    have hp : ¬ decide (p.2 = s) = true := by
      rw [decide_eq_true_iff, h.current p rfl]
      exact hs
    rw [List.takeWhile_cons_of_neg (by exact hp), List.dropWhile_cons_of_neg (by exact hp)]
    exact ⟨rfl, rfl⟩

/-- An event that stays in the state, and is neither an adjustment in `RECOVERY` nor a score
in `UNDER_ATTACK`. -/
theorem Tracks.stay (h : Tracks threshold log c) {bw : UInt32}
    (hbw : bw = e.prediction?.getD c.bw) (hscore : c.state = .underAttack → e.score? = none)
    (hadjust : c.state = .recovery → e.isAdjust = false) :
    Tracks threshold ((e, c.state) :: log) { c with bw := bw } where
  current := by
    rintro _ ⟨⟩
    rfl
  bw := by rw [AgentLog.lastPrediction_cons, ← h.bw, hbw]
  clear hstate := by
    rw [AgentLog.calmScores_cons_none (hscore hstate)]
    exact h.clear hstate
  ticks hstate := by
    have hcons : AgentLog.adjustsSince .recovery ((e, c.state) :: log) =
        log.adjustsSince .recovery := by
      rw [← hstate, AgentLog.adjustsSince_cons, hadjust hstate]
      rfl
    rw [hcons]
    exact h.ticks hstate
  level hstate := by
    have hcons : AgentLog.levelBefore .degraded ((e, c.state) :: log) =
        log.levelBefore .degraded := by
      rw [← hstate, AgentLog.levelBefore_cons]
    rw [hcons]
    exact h.level hstate

/-- An event that leads to `NORMAL`. -/
theorem Tracks.normal (h : Tracks threshold log c) (hstate : c'.state = .normal)
    (hbw : c'.bw = e.prediction?.getD c.bw) : Tracks threshold ((e, c'.state) :: log) c' where
  current := by
    rintro _ ⟨⟩
    rfl
  bw := by rw [AgentLog.lastPrediction_cons, ← h.bw, hbw]
  clear hs := by rw [hstate] at hs; cases hs
  ticks hs := by rw [hstate] at hs; cases hs
  level hs := by rw [hstate] at hs; cases hs

/-- **The counters keep their meaning**, whatever the event does. -/
theorem Tracks.next (h : Tracks threshold log c) (hmove : Moves threshold c e c') :
    Tracks threshold ((e, c'.state) :: log) c' := by
  have hother : ∀ {s t : AgentState}, c.state = s → s ≠ t → c.state ≠ t :=
    fun hs hne ht => hne (hs.symm.trans ht)
  cases hmove with
  | adjusted alpha hstate => exact h.stay rfl (fun _ => rfl) fun hs => absurd hs hstate
  | recovering alpha hstate hticks =>
    refine ⟨?_, ?_, fun hs => ?_, fun _ => ?_, fun hs => ?_⟩
    · rintro _ ⟨⟩
      rfl
    · rw [AgentLog.lastPrediction_cons]
      exact h.bw
    · cases hstate.symm.trans hs
    · refine ⟨?_, hticks⟩
      show _ = AgentLog.adjustsSince .recovery ((_, c.state) :: log)
      rw [← hstate, AgentLog.adjustsSince_cons, hstate, ← (h.ticks hstate).1]
      rfl
    · cases hstate.symm.trans hs
  | recovered alpha hstate hticks => exact h.normal rfl rfl
  | attacked score hscore =>
    refine ⟨?_, ?_, fun _ => ⟨?_, Nat.zero_lt_succ _⟩, nofun, nofun⟩
    · rintro _ ⟨⟩
      rfl
    · rw [AgentLog.lastPrediction_cons]
      exact h.bw
    · exact (AgentLog.calmScores_cons_anomalous hscore).symm
  | calm score hscore hstate =>
    exact h.stay rfl (fun hs => absurd hs hstate) fun _ => rfl
  | clearing score hscore hstate hclear =>
    refine ⟨?_, ?_, fun _ => ⟨?_, hclear⟩, fun hs => ?_, fun hs => ?_⟩
    · rintro _ ⟨⟩
      rfl
    · rw [AgentLog.lastPrediction_cons]
      exact h.bw
    · rw [AgentLog.calmScores_cons_calm hscore, ← (h.clear hstate).1]
    · cases hstate.symm.trans hs
    · cases hstate.symm.trans hs
  | cleared score hscore hstate hclear =>
    refine ⟨?_, ?_, nofun, fun _ => ⟨?_, Nat.zero_lt_succ _⟩, nofun⟩
    · rintro _ ⟨⟩
      rfl
    · rw [AgentLog.lastPrediction_cons]
      exact h.bw
    · rw [AgentLog.adjustsSince_cons, (h.elsewhere (hother hstate (by decide))).1]
      rfl
  | dropped bw hstate hdrops =>
    refine ⟨?_, ?_, nofun, nofun, fun _ => ⟨?_, ?_⟩⟩
    · rintro _ ⟨⟩
      rfl
    · rw [AgentLog.lastPrediction_cons]
      rfl
    · rw [AgentLog.levelBefore_cons, (h.elsewhere (hother hstate (by decide))).2]
    · exact Nat.cast_pos.mpr (Nat.zero_lt_of_lt hdrops)
  | regained bw hstate hlevel hrecovers => exact h.normal rfl rfl
  | predicted bw hsteady hlow => exact h.stay rfl (fun _ => rfl) fun _ => rfl

/-- The history is bounded and chained, and leads to the current state. -/
structure Logged (a : NetworkAgent ℚ) : Prop where
  bounded : a.history.length ≤ maxHistorySize
  chained : a.history.IsChain fun d d' => d.toState = d'.fromState
  current : ∀ d ∈ a.history.getLast?, d.toState = a.state

theorem Logged.keeps {a a' : NetworkAgent ℚ} (h : Logged a) (hkeeps : Keeps a a') :
    Logged a' := by
  obtain ⟨hstate, hhistory⟩ | hhistory := hkeeps.history
  · exact ⟨by rw [hhistory]; exact h.bounded, by rw [hhistory]; exact h.chained,
      by rw [hhistory, hstate]; exact h.current⟩
  · have hchained : (a.history ++ [(⟨a.state, a'.state⟩ : Decision)]).IsChain
        fun d d' => d.toState = d'.fromState := by
      refine List.isChain_append.mpr ⟨h.chained, .singleton _, fun d hd d' hd' => ?_⟩
      cases hd'
      exact h.current d hd
    have hlast : ∀ d ∈ (a.history ++ [(⟨a.state, a'.state⟩ : Decision)]).getLast?,
        d.toState = a'.state := by
      rw [List.getLast?_append]
      rintro _ ⟨⟩
      rfl
    rw [record] at hhistory
    split at hhistory
    · rename_i hfull
      refine ⟨?_, ?_, ?_⟩ <;> rw [hhistory]
      · rw [List.length_tail, List.length_append]
        exact h.bounded
      · exact hchained.tail
      · rw [List.getLast?_tail]
        split
        · nofun
        · exact hlast
    · rename_i hroom
      refine ⟨?_, ?_, ?_⟩ <;> rw [hhistory]
      · exact Nat.not_lt.mp hroom
      · exact hchained
      · exact hlast

end NetworkAgent

/-! ## Runs -/

/-- An agent with the log of its events. -/
structure AgentRun where
  agent : NetworkAgent ℚ
  log : AgentLog

namespace AgentRun

def start (threshold : ℚ) : AgentRun := ⟨.create threshold, []⟩

/-- What holds of every agent at work. -/
structure Sound (threshold : ℚ) (r : AgentRun) : Prop where
  fixed : r.agent.anomalyThreshold = threshold
  tracks : NetworkAgent.Tracks threshold r.log r.agent.core
  logged : r.agent.Logged

theorem Sound.start (threshold : ℚ) : Sound threshold (.start threshold) where
  fixed := rfl
  tracks := ⟨nofun, rfl, nofun, nofun, nofun⟩
  logged := ⟨Nat.zero_le _, .nil, nofun⟩

end AgentRun
end NeuStack
