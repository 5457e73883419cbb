import NeuStack.FirewallAI
import NeuStack.GuardedRun

/-! # The firewall engine

`FirewallEngine` asks the rule engine and the detector about every packet, and
keeps account of what became of it.  Both overloads of `inspect` end in the same
tail (`judge`); they differ in how the event is filled.

`FirewallOp` lists what can happen to an engine: the calls of its own interface,
and those on the rule engine and the detector it gives access to.
-/
namespace NeuStack

/-- A `FixedPool`, by the number of its free slots. -/
structure FixedPool where
  available : Nat
  deriving DecidableEq, Repr

namespace FixedPool

/-- `acquire_ptr`, unless no slot is free. -/
def acquire (p : FixedPool) : Option FixedPool :=
  if 0 < p.available then some ⟨p.available - 1⟩ else none

/-- What the deleter of an acquired pointer does. -/
def release (p : FixedPool) : FixedPool := ⟨p.available + 1⟩

theorem release_of_acquire {p q : FixedPool} (h : p.acquire = some q) : q.release = p := by
  rw [acquire] at h
  split at h
  · cases h
    rw [release, Nat.sub_add_cancel (by assumption)]
  · cases h

end FixedPool

/-- `struct FirewallConfig`. -/
structure FirewallConfig (φ : Type) where
  enabled : Bool := true
  shadowMode : Bool := true
  aiEnabled : Bool := false
  aiModelPath : String := ""
  aiThreshold : φ

/-- `struct FirewallStats`. -/
structure FirewallStats where
  packetsInspected : UInt64 := 0
  packetsPassed : UInt64 := 0
  packetsDropped : UInt64 := 0
  packetsAlerted : UInt64 := 0
  poolAcquireFailed : UInt64 := 0
  deriving DecidableEq, Repr

/-- `class FirewallEngine`; times are in nanoseconds. -/
structure FirewallEngine (φ : Type) where
  config : FirewallConfig φ
  ruleEngine : RuleEngine φ := {}
  ai : Option (FirewallAI φ) := none
  lastTickTime : Nat
  lastInferenceTime : Nat
  eventPool : FixedPool := ⟨4096⟩
  decisionPool : FixedPool := ⟨4096⟩
  stats : FirewallStats := {}

/-- What a call of `inspect` leaves: the engine, the verdict, and what the decision
callback saw. -/
structure Inspection (φ : Type) where
  engine : FirewallEngine φ
  verdict : Bool
  decision : Option (PacketEvent × FirewallDecision φ) := none

namespace FirewallEngine
variable {φ : Type} [FirewallFloat φ]

/-! ## Packets -/

/-- `evaluate` -/
def evaluate (e : FirewallEngine φ) (evt : PacketEvent) (nowUs : UInt64) :
    FirewallEngine φ × FirewallDecision φ :=
  let (ruleEngine, decision) := e.ruleEngine.evaluate evt nowUs
  let e := { e with ruleEngine }
  if decision.shouldDrop then (e, decision) else
  match e.ai with
  | none => (e, decision)
  | some ai =>
    if !ai.loaded then (e, decision)
    else if ai.evaluate.isAlert || ai.evaluate.shouldDrop then (e, ai.evaluate)
    else (e, decision)

/-- `record_decision` -/
def recordDecision (e : FirewallEngine φ) (action : FirewallDecision.Action) :
    FirewallEngine φ :=
  let s := { e.stats with packetsInspected := e.stats.packetsInspected + 1 }
  { e with stats := match action with
    | .pass | .log => { s with packetsPassed := s.packetsPassed + 1 }
    | .drop => { s with packetsDropped := s.packetsDropped + 1 }
    | .alert => { s with
        packetsAlerted := s.packetsAlerted + 1
        packetsPassed := s.packetsPassed + 1 } }

/-- No object was left in a pool. -/
def poolFailed (e : FirewallEngine φ) : Inspection φ where
  engine := { e with stats := { e.stats with poolAcquireFailed := e.stats.poolAcquireFailed + 1 } }
  verdict := true

/-- `parse_packet` rejected the packet. -/
def malformed (e : FirewallEngine φ) : Inspection φ where
  engine := { e with stats := { e.stats with
    packetsInspected := e.stats.packetsInspected + 1
    packetsDropped := e.stats.packetsDropped + 1 } }
  verdict := false

/-- The second half of both overloads of `inspect`, from `record_packet` on. -/
def judge (e : FirewallEngine φ) (evt : PacketEvent) (nowUs : UInt64) : Inspection φ :=
  let e : FirewallEngine φ := { e with ai := e.ai.map fun ai => ai.recordPacket evt }
  match e.decisionPool.acquire with
  | none => e.poolFailed
  | some pool =>
    let (e, decision) := evaluate { e with decisionPool := pool } evt nowUs
    let e := e.recordDecision decision.action
    { engine := { e with decisionPool := e.decisionPool.release }
      verdict := decision.shouldPass
      decision := some (evt, decision) }

/-- What `inspect` does with a disabled firewall: the packet is counted, if it can be. -/
def observe (e : FirewallEngine φ) (ai : FirewallAI φ) (evt : Option PacketEvent) :
    Inspection φ where
  engine := match evt with
    | some evt => { e with ai := some (ai.recordPacket evt) }
    | none => e
  verdict := true

/-- The event goes back to its pool. -/
def releaseEvent (i : Inspection φ) : Inspection φ :=
  { i with engine := { i.engine with eventPool := i.engine.eventPool.release } }

/-- `inspect(data, len)`; the clock is read for the event and again for the limiter. -/
def inspect (e : FirewallEngine φ) (mem : Memory) (len : Nat) (stampUs nowUs : UInt64) :
    Scan (Inspection φ) :=
  if !e.config.enabled then
    match e.ai with
    | none => pure ⟨e, true, none⟩
    | some ai =>
      match e.eventPool.acquire with
      | none => pure ⟨e, true, none⟩
      | some pool => do
        let evt ← parsePacket mem len stampUs
        pure (releaseEvent (observe { e with eventPool := pool } ai evt))
  else
    match e.eventPool.acquire with
    | none => pure e.poolFailed
    | some pool => do
      let evt ← parsePacket mem len stampUs
      let e := { e with eventPool := pool }
      match evt with
      | none => pure (releaseEvent e.malformed)
      | some evt => pure (releaseEvent (e.judge evt nowUs))

/-- `inspect(pkt)` -/
def inspectPacket (e : FirewallEngine φ) (mem : Memory) (pkt : IPv4Packet)
    (stampUs nowUs : UInt64) : Scan (Inspection φ) :=
  if !e.config.enabled then
    match e.ai with
    | none => pure ⟨e, true, none⟩
    | some ai =>
      match e.eventPool.acquire with
      | none => pure ⟨e, true, none⟩
      | some pool => do
        let evt ← fillEventFromIpv4 mem pkt stampUs
        pure (releaseEvent (observe { e with eventPool := pool } ai (some evt)))
  else
    match e.eventPool.acquire with
    | none => pure e.poolFailed
    | some pool => do
      let evt ← fillEventFromIpv4 mem pkt stampUs
      pure (releaseEvent (judge { e with eventPool := pool } evt nowUs))

/-! ## The detector -/

/-- `enable_ai`; the detector goes away if its model cannot be loaded. -/
def enableAi (e : FirewallEngine φ) (modelPath : String) (threshold : φ) (loads : Bool) :
    FirewallEngine φ × Bool :=
  let ai := FirewallAI.create
    { modelPath, anomalyThreshold := threshold, shadowMode := e.config.shadowMode } loads
  if ai.loaded then ({ e with ai := some ai }, true) else ({ e with ai := none }, false)

/-- The first half of `on_timer`: the window moves on once a second. -/
def timerTick (e : FirewallEngine φ) (now : Nat) : FirewallEngine φ :=
  if 1000 ≤ (now - e.lastTickTime) / 1000000 then
    { e with ai := e.ai.map fun ai => ai.tick, lastTickTime := now }
  else e

/-- The second half: the model is asked once in its interval. -/
def timerInference (e : FirewallEngine φ) (now : Nat) (inf : Inference φ) : FirewallEngine φ :=
  match e.ai with
  | none => e
  | some ai =>
    if ai.loaded ∧ ai.config.inferenceIntervalMs.toNat ≤ (now - e.lastInferenceTime) / 1000000 then
      { e with ai := some (ai.runInference inf), lastInferenceTime := now }
    else e

/-- `on_timer` -/
def onTimer (e : FirewallEngine φ) (now : Nat) (inf : Inference φ) : FirewallEngine φ :=
  if e.ai.isNone then e else (e.timerTick now).timerInference now inf

/-- `set_shadow_mode`, the only thing `NeuStack::firewall_set_shadow_mode` calls. -/
def setShadowMode (e : FirewallEngine φ) (shadow : Bool) : FirewallEngine φ :=
  { e with config := { e.config with shadowMode := shadow } }

/-- `FirewallEngine(config)` -/
def create (config : FirewallConfig φ) (now : Nat) (loads : Bool) : FirewallEngine φ :=
  let e : FirewallEngine φ := { config, lastTickTime := now, lastInferenceTime := now }
  if config.aiEnabled ∧ config.aiModelPath ≠ "" then
    (e.enableAi config.aiModelPath config.aiThreshold loads).1
  else e

end FirewallEngine

/-! ## Runs -/

/-- The calls on a firewall engine. -/
inductive FirewallOp (φ : Type)
  | inspect (mem : Memory) (len : Nat) (stampUs nowUs : UInt64)
  | inspectPacket (mem : Memory) (pkt : IPv4Packet) (stampUs nowUs : UInt64)
  | setEnabled (enabled : Bool)
  | setShadowMode (shadow : Bool)
  | rules (op : RuleEngine.Op)
  | enableAi (modelPath : String) (threshold : φ) (loads : Bool)
  | disableAi
  | setAi (ai : Option (FirewallAI φ))
  | onAi (op : FirewallAI.Op φ)
  | onTimer (now : Nat) (inf : Inference φ)
  | resetStats

namespace FirewallEngine
variable {φ : Type} [FirewallFloat φ] [RuleSort]

/-- One call. -/
def step (e : FirewallEngine φ) : FirewallOp φ → FirewallEngine φ
  | .inspect mem len stampUs nowUs => (e.inspect mem len stampUs nowUs).value.engine
  | .inspectPacket mem pkt stampUs nowUs => (e.inspectPacket mem pkt stampUs nowUs).value.engine
  | .setEnabled enabled => { e with config := { e.config with enabled } }
  | .setShadowMode shadow => e.setShadowMode shadow
  | .rules op => { e with ruleEngine := e.ruleEngine.apply op }
  | .enableAi modelPath threshold loads => (e.enableAi modelPath threshold loads).1
  | .disableAi => { e with ai := none }
  | .setAi ai => { e with ai }
  | .onAi op => { e with ai := e.ai.map fun ai => ai.apply op }
  | .onTimer now inf => e.onTimer now inf
  | .resetStats => { e with stats := {} }

/-- The engines any calls lead to. -/
def Reachable (e : FirewallEngine φ) : Prop :=
  ∃ config now loads ops, e = GuardedRun.run step (create config now loads) ops

end FirewallEngine

end NeuStack
