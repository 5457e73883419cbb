import NeuStack.RuleEngine

/-! # The anomaly detector of the firewall

`SecurityMetrics` counts packets in a sliding window; `FirewallAI` shows them to a
model from time to time, keeps its answer, and turns it into a verdict on all
traffic.  It can leave and enter its shadow mode, in which it only warns, by
itself.

The model is not part of the code: what it answers, and whether it could be
loaded, are inputs (`Inference`, `loads`).
-/
namespace NeuStack

/-! ## Metrics -/

namespace SecurityMetrics

def windowSize : Nat := 10

/-- `SecurityMetrics::Counters`, and a slot of the window. -/
structure Counters where
  packetsTotal : UInt64 := 0
  bytesTotal : UInt64 := 0
  synPackets : UInt64 := 0
  synAckPackets : UInt64 := 0
  rstPackets : UInt64 := 0
  finPackets : UInt64 := 0
  newConnections : UInt64 := 0
  halfOpen : UInt64 := 0
  droppedPackets : UInt64 := 0
  alertedPackets : UInt64 := 0
  deriving DecidableEq, Repr

end SecurityMetrics

/-- `class SecurityMetrics`. -/
structure SecurityMetrics where
  current : SecurityMetrics.Counters := {}
  window : List SecurityMetrics.Counters := List.replicate SecurityMetrics.windowSize {}
  windowIndex : Nat := 0
  windowCount : Nat := 0
  deriving DecidableEq, Repr

namespace SecurityMetrics

/-- One, if the condition holds. -/
def one (c : Prop) [Decidable c] : UInt64 := if c then 1 else 0

/-- `record_packet` -/
def recordPacket (m : SecurityMetrics) (len : UInt16) (tcpFlags : UInt8) : SecurityMetrics :=
  let c := m.current
  let syn := tcpFlags &&& 0x02 ≠ 0
  let rst := tcpFlags &&& 0x04 ≠ 0
  let fin := tcpFlags &&& 0x01 ≠ 0
  let ack := tcpFlags &&& 0x10 ≠ 0
  { m with current := { c with
      packetsTotal := c.packetsTotal + 1
      bytesTotal := c.bytesTotal + len.toUInt64
      synPackets := c.synPackets + one (syn ∧ ¬ ack)
      newConnections := c.newConnections + one (syn ∧ ¬ ack)
      synAckPackets := c.synAckPackets + one (syn ∧ ack)
      rstPackets := c.rstPackets + one rst
      finPackets := c.finPackets + one fin } }

/-- `record_alert` -/
def recordAlert (m : SecurityMetrics) : SecurityMetrics :=
  { m with current := { m.current with alertedPackets := m.current.alertedPackets + 1 } }

/-- `tick` -/
def tick (m : SecurityMetrics) : SecurityMetrics where
  current := {}
  window := m.window.set m.windowIndex m.current
  windowIndex := (m.windowIndex + 1) % windowSize
  windowCount := min (m.windowCount + 1) windowSize

/-- `total_packets` of `snapshot`: the current slot and the window. -/
def totalPackets (m : SecurityMetrics) : UInt64 :=
  (m.window.take m.windowCount).foldl (fun n c => n + c.packetsTotal) m.current.packetsTotal

/-- `snapshot.pps < 1.0`: fewer packets than seconds. -/
def idle (m : SecurityMetrics) : Bool := m.totalPackets.toNat < m.windowCount + 1

end SecurityMetrics

/-! ## The detector -/

/-- `struct FirewallAIConfig`. -/
structure FirewallAIConfig (φ : Type) where
  modelPath : String := ""
  anomalyThreshold : φ
  shadowMode : Bool := true
  autoEscalate : Bool := false
  escalateConsecutive : UInt32 := 5
  deescalateNormalCount : UInt32 := 30
  escalateCooldownMs : UInt64 := 60000
  inferenceIntervalMs : UInt32 := 1000

/-- `struct FirewallAIStats`. -/
structure FirewallAIStats (φ : Type) where
  inferencesTotal : UInt64 := 0
  anomaliesDetected : UInt64 := 0
  alertsTriggered : UInt64 := 0
  dropsByAi : UInt64 := 0
  lastAnomalyScore : φ
  maxAnomalyScore : φ
  lastAnomalyTimeMs : UInt64 := 0
  escalations : UInt64 := 0
  deescalations : UInt64 := 0

/-- What one call of `run_inference` gets from outside: the answer of the model, a
score and whether it is an anomaly, if there is one, and the clock. -/
structure Inference (φ : Type) where
  result : Option (φ × Bool)
  anomalyMs : UInt64
  currentMs : UInt64

/-- `class FirewallAI`. -/
structure FirewallAI (φ : Type) where
  config : FirewallAIConfig φ
  loaded : Bool
  metrics : SecurityMetrics := {}
  cachedAnomalyScore : φ
  cachedIsAnomaly : Bool := false
  stats : FirewallAIStats φ
  consecutiveAnomaly : UInt32 := 0
  consecutiveNormal : UInt32 := 0
  lastEscalationTimeMs : UInt64 := 0

namespace FirewallAI
variable {φ : Type}

/-- `record_packet` -/
def recordPacket (ai : FirewallAI φ) (evt : PacketEvent) : FirewallAI φ :=
  { ai with metrics := ai.metrics.recordPacket evt.totalLen evt.tcpFlags }

/-- `tick` -/
def tick (ai : FirewallAI φ) : FirewallAI φ := { ai with metrics := ai.metrics.tick }

/-- `load_model`; `loads` is whether the model at the path can be loaded. -/
def loadModel (ai : FirewallAI φ) (loads : Bool) : FirewallAI φ := { ai with loaded := loads }

/-- `set_shadow_mode` -/
def setShadowMode (ai : FirewallAI φ) (shadow : Bool) : FirewallAI φ :=
  { ai with config := { ai.config with shadowMode := shadow } }

/-- Not enough time has passed since the last switch of the mode. -/
def inCooldown (ai : FirewallAI φ) (currentMs : UInt64) : Bool :=
  0 < ai.lastEscalationTimeMs ∧
    currentMs - ai.lastEscalationTimeMs < ai.config.escalateCooldownMs

/-- The switch of the mode in `run_inference`. -/
def escalate (ai : FirewallAI φ) (isAnomaly : Bool) (currentMs : UInt64) : FirewallAI φ :=
  let cooldown := ai.inCooldown currentMs
  if isAnomaly then
    let ai := { ai with
      consecutiveAnomaly := ai.consecutiveAnomaly + 1
      consecutiveNormal := 0 }
    if ai.config.shadowMode ∧ ¬ cooldown ∧ ai.config.escalateConsecutive ≤ ai.consecutiveAnomaly then
      { ai with
        config := { ai.config with shadowMode := false }
        consecutiveAnomaly := 0
        lastEscalationTimeMs := currentMs
        stats := { ai.stats with escalations := ai.stats.escalations + 1 } }
    else ai
  else
    let ai := { ai with
      consecutiveNormal := ai.consecutiveNormal + 1
      consecutiveAnomaly := 0 }
    if ¬ ai.config.shadowMode ∧ ¬ cooldown ∧
        ai.config.deescalateNormalCount ≤ ai.consecutiveNormal then
      { ai with
        config := { ai.config with shadowMode := true }
        consecutiveNormal := 0
        lastEscalationTimeMs := currentMs
        stats := { ai.stats with deescalations := ai.stats.deescalations + 1 } }
    else ai

variable [FirewallFloat φ]

/-- `FirewallAI(config)`. -/
def create (config : FirewallAIConfig φ) (loads : Bool) : FirewallAI φ where
  config
  loaded := config.modelPath ≠ "" ∧ loads
  cachedAnomalyScore := FirewallFloat.zero
  stats := { lastAnomalyScore := FirewallFloat.zero, maxAnomalyScore := FirewallFloat.zero }

/-- `evaluate` -/
def evaluate (ai : FirewallAI φ) : FirewallDecision φ :=
  if !ai.loaded then FirewallDecision.pass
  else if !ai.cachedIsAnomaly then FirewallDecision.pass
  else if ai.config.shadowMode then ⟨.alert, .aiAnomaly, 0, ai.cachedAnomalyScore, 0, 0⟩
  else ⟨.drop, .aiAnomaly, 0, ai.cachedAnomalyScore, 0, 0⟩

/-- The statistics of one more anomaly. -/
def countAnomaly (ai : FirewallAI φ) (anomalyMs : UInt64) : FirewallAI φ :=
  let ai := { ai with stats := { ai.stats with
    anomaliesDetected := ai.stats.anomaliesDetected + 1
    lastAnomalyTimeMs := anomalyMs
    alertsTriggered := ai.stats.alertsTriggered + 1 } }
  if ai.config.shadowMode then { ai with metrics := ai.metrics.recordAlert }
  else { ai with stats := { ai.stats with dropsByAi := ai.stats.dropsByAi + 1 } }

/-- The cache and the statistics after an answer of the model. -/
def recordResult (ai : FirewallAI φ) (score : φ) (isAnomaly : Bool) (anomalyMs : UInt64) :
    FirewallAI φ :=
  let ai := { ai with
    cachedAnomalyScore := score
    cachedIsAnomaly := isAnomaly
    stats := { ai.stats with
      inferencesTotal := ai.stats.inferencesTotal + 1
      lastAnomalyScore := score
      maxAnomalyScore := if FirewallFloat.less ai.stats.maxAnomalyScore score then score
        else ai.stats.maxAnomalyScore } }
  if isAnomaly then ai.countAnomaly anomalyMs else ai

/-- `run_inference` -/
def runInference (ai : FirewallAI φ) (inf : Inference φ) : FirewallAI φ :=
  if !ai.loaded then ai
  else if ai.metrics.idle then
    { ai with cachedAnomalyScore := FirewallFloat.zero, cachedIsAnomaly := false }
  else
    match inf.result with
    | none => ai
    | some (score, isAnomaly) =>
      let ai := ai.recordResult score isAnomaly inf.anomalyMs
      if ai.config.autoEscalate then ai.escalate isAnomaly inf.currentMs else ai

/-- The calls on the detector that `ai()` gives access to. -/
inductive Op (φ : Type)
  | loadModel (loads : Bool)
  | recordPacket (evt : PacketEvent)
  | tick
  | runInference (inf : Inference φ)
  | setThreshold (threshold : φ)
  | setShadowMode (shadow : Bool)
  | setInferenceIntervalMs (ms : UInt32)
  | resetStats

def apply (ai : FirewallAI φ) : Op φ → FirewallAI φ
  | .loadModel loads => ai.loadModel loads
  | .recordPacket evt => ai.recordPacket evt
  | .tick => ai.tick
  | .runInference inf => ai.runInference inf
  | .setThreshold threshold => { ai with config := { ai.config with anomalyThreshold := threshold } }
  | .setShadowMode shadow => ai.setShadowMode shadow
  | .setInferenceIntervalMs ms => { ai with config := { ai.config with inferenceIntervalMs := ms } }
  | .resetStats => { ai with stats :=
      { lastAnomalyScore := FirewallFloat.zero, maxAnomalyScore := FirewallFloat.zero } }

end FirewallAI

end NeuStack
