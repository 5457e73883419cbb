import NeuStack.FirewallEngine

/-! # What a call of `inspect` does

One lemma for each function of the engine.  `evaluate` gives the verdict of the
rule engine, unless that is no drop and the detector is alarmed (`evaluate_quiet`,
`evaluate_alarmed`).  Both overloads of `inspect` are `judge` on the event they
fill; `Inspects` lists what they can come to, from which every invariant of the
engine follows by cases.
-/
namespace NeuStack
namespace FirewallEngine
variable {φ : Type} [FirewallFloat φ] {e : FirewallEngine φ} {evt : PacketEvent}
  {mem : Memory} {len : Nat} {pkt : IPv4Packet} {stampUs nowUs : UInt64}

/-! ## Verdicts -/

/-- A loaded detector holds its last answer for an anomaly. -/
def Alarmed (e : FirewallEngine φ) : Prop :=
  ∃ ai, e.ai = some ai ∧ ai.loaded = true ∧ ai.cachedIsAnomaly = true

/-- The verdict of the rule engine in the state before the packet. -/
def ruleVerdict (e : FirewallEngine φ) (evt : PacketEvent) (nowUs : UInt64) :
    FirewallDecision φ :=
  (e.ruleEngine.evaluate evt nowUs).2

theorem evaluate_dropped (h : (e.ruleVerdict evt nowUs).shouldDrop = true) :
    (e.evaluate evt nowUs).2 = e.ruleVerdict evt nowUs := by
  rw [evaluate]
  exact congrArg Prod.snd (if_pos h)

/-- The detector is quiet: the rule engine has the last word. -/
theorem evaluate_quiet (h : ¬ e.Alarmed) :
    (e.evaluate evt nowUs).2 = e.ruleVerdict evt nowUs := by
  by_cases hdrop : (e.ruleVerdict evt nowUs).shouldDrop = true
  · exact evaluate_dropped hdrop
  have hstep : (e.evaluate evt nowUs).2 = _ := congrArg Prod.snd (if_neg hdrop)
  rw [hstep]
  cases hai : e.ai with
  | none => rfl
  | some ai =>
    by_cases hloaded : ai.loaded = true
    · have hcached : ai.cachedIsAnomaly = false := by
        refine Bool.eq_false_iff.mpr fun hcached => h ⟨ai, hai, hloaded, hcached⟩
      have hpass : ai.evaluate = FirewallDecision.pass := by
        rw [FirewallAI.evaluate, hloaded, hcached]
        rfl
      simp only [hpass]
      split <;> rfl
    · simp only [Bool.not_eq_true _ ▸ hloaded]
      rfl

/-- The detector is alarmed: whatever the rule engine lets pass gets its verdict. -/
theorem evaluate_alarmed {ai : FirewallAI φ} (hai : e.ai = some ai) (hloaded : ai.loaded = true)
    (hcached : ai.cachedIsAnomaly = true)
    (hdrop : (e.ruleVerdict evt nowUs).shouldDrop = false) :
    (e.evaluate evt nowUs).2 =
      ⟨if ai.config.shadowMode then .alert else .drop, .aiAnomaly, 0, ai.cachedAnomalyScore, 0, 0⟩ := by
  have hstep : (e.evaluate evt nowUs).2 = _ :=
    congrArg Prod.snd (if_neg (Bool.eq_false_iff.mp hdrop))
  rw [hstep]
  have hverdict : ai.evaluate = ⟨if ai.config.shadowMode then .alert else .drop, .aiAnomaly, 0,
      ai.cachedAnomalyScore, 0, 0⟩ := by
    rw [FirewallAI.evaluate, hloaded, hcached]
    cases ai.config.shadowMode <;> rfl
  have htaken : (ai.evaluate.isAlert || ai.evaluate.shouldDrop) = true := by
    rw [hverdict]
    cases ai.config.shadowMode <;> rfl
  simp only [hai, hloaded, htaken]
  exact hverdict

/-- Only the rule engine changes. -/
theorem evaluate_engine (e : FirewallEngine φ) (evt : PacketEvent) (nowUs : UInt64) :
    (e.evaluate evt nowUs).1 = { e with ruleEngine := (e.ruleEngine.evaluate evt nowUs).1 } := by
  rw [evaluate]
  dsimp only
  split
  · rfl
  split
  · rfl
  split
  · rfl
  split <;> rfl

/-! ## The tail of `inspect` -/

/-- The engine `judge` asks for the verdict: the packet is counted, and an object
for the decision taken. -/
def counted (e : FirewallEngine φ) (evt : PacketEvent) (pool : FixedPool) : FirewallEngine φ :=
  { e with ai := e.ai.map fun ai => ai.recordPacket evt, decisionPool := pool }

theorem judge_decision {pool : FixedPool} (hpool : e.decisionPool.acquire = some pool) :
    (e.judge evt nowUs).decision = some (evt, ((e.counted evt pool).evaluate evt nowUs).2) ∧
      (e.judge evt nowUs).verdict = ((e.counted evt pool).evaluate evt nowUs).2.shouldPass := by
  rw [judge]
  simp only [hpool]
  exact ⟨rfl, rfl⟩

omit [FirewallFloat φ] in
/-- Counting a packet does not touch what the detector holds for an answer. -/
theorem alarmed_counted {pool : FixedPool} : (e.counted evt pool).Alarmed ↔ e.Alarmed := by
  constructor
  · rintro ⟨ai', hai', hloaded, hcached⟩
    obtain ⟨ai, hai, rfl⟩ := Option.map_eq_some_iff.mp hai'
    exact ⟨ai, hai, hloaded, hcached⟩
  · rintro ⟨ai, hai, hloaded, hcached⟩
    exact ⟨ai.recordPacket evt, Option.map_eq_some_iff.mpr ⟨ai, hai, rfl⟩, hloaded, hcached⟩

theorem judge_quiet {pool : FixedPool} (hpool : e.decisionPool.acquire = some pool)
    (h : ¬ e.Alarmed) : (e.judge evt nowUs).decision = some (evt, e.ruleVerdict evt nowUs) ∧
      (e.judge evt nowUs).verdict = (e.ruleVerdict evt nowUs).shouldPass := by
  have hverdict : ((e.counted evt pool).evaluate evt nowUs).2 = e.ruleVerdict evt nowUs :=
    evaluate_quiet (mt alarmed_counted.mp h)
  rw [← hverdict]
  exact judge_decision hpool

theorem judge_dropped {pool : FixedPool} (hpool : e.decisionPool.acquire = some pool)
    (h : (e.ruleVerdict evt nowUs).shouldDrop = true) :
    (e.judge evt nowUs).decision = some (evt, e.ruleVerdict evt nowUs) := by
  have hverdict : ((e.counted evt pool).evaluate evt nowUs).2 = e.ruleVerdict evt nowUs :=
    evaluate_dropped h
  rw [← hverdict]
  exact (judge_decision hpool).1

theorem judge_alarmed {pool : FixedPool} (hpool : e.decisionPool.acquire = some pool)
    {ai : FirewallAI φ} (hai : e.ai = some ai) (hloaded : ai.loaded = true)
    (hcached : ai.cachedIsAnomaly = true) (hdrop : (e.ruleVerdict evt nowUs).shouldDrop = false) :
    (e.judge evt nowUs).decision = some (evt,
      ⟨if ai.config.shadowMode then .alert else .drop, .aiAnomaly, 0, ai.cachedAnomalyScore, 0, 0⟩) := by
  have hai' : (e.counted evt pool).ai = some (ai.recordPacket evt) :=
    Option.map_eq_some_iff.mpr ⟨ai, hai, rfl⟩
  have hverdict := @evaluate_alarmed φ _ (e.counted evt pool) evt nowUs _ hai' hloaded hcached
    hdrop
  rw [(judge_decision hpool).1, hverdict]
  rfl

/-! ## The pools -/

/-- Between calls no object is in use. -/
structure PoolsFree (e : FirewallEngine φ) : Prop where
  event : e.eventPool = ⟨4096⟩
  decision : e.decisionPool = ⟨4096⟩

theorem judge_pools (e : FirewallEngine φ) (evt : PacketEvent) (nowUs : UInt64) :
    (e.judge evt nowUs).engine.eventPool = e.eventPool ∧
      (e.judge evt nowUs).engine.decisionPool = e.decisionPool := by
  rw [judge]
  cases hpool : e.decisionPool.acquire with
  | none =>
    exact ⟨rfl, rfl⟩
  | some pool =>
    simp only [evaluate_engine]
    exact ⟨rfl, FixedPool.release_of_acquire hpool⟩

/-! ## The overloads -/

theorem inspect_enabled {pool : FixedPool} (henabled : e.config.enabled = true)
    (hpool : e.eventPool.acquire = some pool) :
    (e.inspect mem len stampUs nowUs).value = releaseEvent
      (match (parsePacket mem len stampUs).value with
        | none => malformed { e with eventPool := pool }
        | some evt => judge { e with eventPool := pool } evt nowUs) := by
  rw [inspect, henabled, hpool, if_neg (show ¬ (!true) = true by decide), Scan.value_bind]
  cases (parsePacket mem len stampUs).value <;> rfl

theorem inspectPacket_enabled {pool : FixedPool} (henabled : e.config.enabled = true)
    (hpool : e.eventPool.acquire = some pool) :
    (e.inspectPacket mem pkt stampUs nowUs).value = releaseEvent
      (judge { e with eventPool := pool } (fillEventFromIpv4 mem pkt stampUs).value nowUs) := by
  rw [inspectPacket, henabled, hpool]
  rfl

theorem inspect_disabled (hdisabled : e.config.enabled = false) :
    (e.inspect mem len stampUs nowUs).value =
      match e.ai, e.eventPool.acquire with
      | some ai, some pool => releaseEvent (observe { e with eventPool := pool } ai
          (parsePacket mem len stampUs).value)
      | _, _ => ⟨e, true, none⟩ := by
  rw [inspect, hdisabled]
  cases e.ai with
  | none => rfl
  | some ai => cases e.eventPool.acquire <;> rfl

theorem inspectPacket_disabled (hdisabled : e.config.enabled = false) :
    (e.inspectPacket mem pkt stampUs nowUs).value =
      match e.ai, e.eventPool.acquire with
      | some ai, some pool => releaseEvent (observe { e with eventPool := pool } ai
          (some (fillEventFromIpv4 mem pkt stampUs).value))
      | _, _ => ⟨e, true, none⟩ := by
  rw [inspectPacket, hdisabled]
  cases e.ai with
  | none => rfl
  | some ai => cases e.eventPool.acquire <;> rfl

/-- **All that a call of `inspect` can come to**, by either overload. -/
inductive Inspects (e : FirewallEngine φ) (nowUs : UInt64) : Inspection φ → Prop
  | off : Inspects e nowUs ⟨e, true, none⟩
  | observed {ai pool} (hai : e.ai = some ai) (hpool : e.eventPool.acquire = some pool) (evt) :
      Inspects e nowUs (releaseEvent (observe { e with eventPool := pool } ai evt))
  | failed : Inspects e nowUs e.poolFailed
  | malformed {pool} (hpool : e.eventPool.acquire = some pool) :
      Inspects e nowUs (releaseEvent (malformed { e with eventPool := pool }))
  | judged {pool} (hpool : e.eventPool.acquire = some pool) (evt) :
      Inspects e nowUs (releaseEvent (judge { e with eventPool := pool } evt nowUs))

theorem inspect_inspects (e : FirewallEngine φ) (mem : Memory) (len : Nat)
    (stampUs nowUs : UInt64) : Inspects e nowUs (e.inspect mem len stampUs nowUs).value := by
  cases hpool : e.eventPool.acquire with
  | none =>
    rw [inspect, hpool]
    cases e.config.enabled with
    | true => exact .failed
    | false => cases e.ai <;> exact .off
  | some pool =>
    cases henabled : e.config.enabled with
    | true =>
      rw [inspect_enabled henabled hpool]
      cases (parsePacket mem len stampUs).value with
      | none => exact .malformed hpool
      | some evt => exact .judged hpool evt
    | false =>
      rw [inspect_disabled henabled, hpool]
      split
      · rename_i hai hpool'
        cases hpool'
        exact .observed hai hpool _
      · exact .off

theorem inspectPacket_inspects (e : FirewallEngine φ) (mem : Memory) (pkt : IPv4Packet)
    (stampUs nowUs : UInt64) :
    Inspects e nowUs (e.inspectPacket mem pkt stampUs nowUs).value := by
  cases hpool : e.eventPool.acquire with
  | none =>
    rw [inspectPacket, hpool]
    cases e.config.enabled with
    | true => exact .failed
    | false => cases e.ai <;> exact .off
  | some pool =>
    cases henabled : e.config.enabled with
    | true =>
      rw [inspectPacket_enabled henabled hpool]
      exact .judged hpool _
    | false =>
      rw [inspectPacket_disabled henabled, hpool]
      split
      · rename_i hai hpool'
        cases hpool'
        exact .observed hai hpool _
      · exact .off

omit [FirewallFloat φ] in
/-- Releasing the event undoes its acquisition. -/
theorem release_event {pool : FixedPool} {i : Inspection φ}
    (hpool : e.eventPool.acquire = some pool) (hi : i.engine.eventPool = pool) :
    (releaseEvent i).engine.eventPool = e.eventPool := by
  rw [releaseEvent, hi]
  exact FixedPool.release_of_acquire hpool

/-- Both pools are back where they were. -/
theorem Inspects.pools {i : Inspection φ} (h : Inspects e nowUs i) :
    i.engine.eventPool = e.eventPool ∧ i.engine.decisionPool = e.decisionPool := by
  cases h with
  | off | failed => exact ⟨rfl, rfl⟩
  | observed hai hpool evt =>
    cases evt with
    | none => exact ⟨release_event hpool rfl, rfl⟩
    | some evt => exact ⟨release_event hpool rfl, rfl⟩
  | malformed hpool => exact ⟨release_event hpool rfl, rfl⟩
  | judged hpool evt =>
    obtain ⟨hevent, hdecision⟩ := judge_pools { e with eventPool := _ } evt nowUs
    exact ⟨release_event hpool hevent, hdecision⟩

/-- The detector counts the packet, or is left alone. -/
theorem Inspects.ai {i : Inspection φ} (h : Inspects e nowUs i) :
    i.engine.ai = e.ai ∨ ∃ evt, i.engine.ai = e.ai.map fun ai => ai.recordPacket evt := by
  cases h with
  | off | failed | malformed => exact Or.inl rfl
  | @observed ai pool hai hpool evt =>
    cases evt with
    | none => exact Or.inl rfl
    | some evt => exact Or.inr ⟨evt, by rw [hai]; rfl⟩
  | @judged pool hpool evt =>
    refine Or.inr ⟨evt, ?_⟩
    show (judge { e with eventPool := pool } evt nowUs).engine.ai = _
    rw [judge]
    dsimp only
    split
    · rfl
    · simp only [evaluate_engine]
      rfl

/-! ## Runs -/

omit [FirewallFloat φ] in
theorem timerTick_pools (e : FirewallEngine φ) (now : Nat) :
    (e.timerTick now).eventPool = e.eventPool ∧
      (e.timerTick now).decisionPool = e.decisionPool := by
  rw [timerTick]
  split <;> exact ⟨rfl, rfl⟩

theorem timerInference_pools (e : FirewallEngine φ) (now : Nat) (inf : Inference φ) :
    (e.timerInference now inf).eventPool = e.eventPool ∧
      (e.timerInference now inf).decisionPool = e.decisionPool := by
  rw [timerInference]
  split
  · exact ⟨rfl, rfl⟩
  · split <;> exact ⟨rfl, rfl⟩

theorem onTimer_pools (e : FirewallEngine φ) (now : Nat) (inf : Inference φ) :
    (e.onTimer now inf).eventPool = e.eventPool ∧
      (e.onTimer now inf).decisionPool = e.decisionPool := by
  obtain ⟨htick1, htick2⟩ := e.timerTick_pools now
  obtain ⟨hinf1, hinf2⟩ := (e.timerTick now).timerInference_pools now inf
  rw [onTimer]
  split
  · exact ⟨rfl, rfl⟩
  · exact ⟨hinf1.trans htick1, hinf2.trans htick2⟩

theorem enableAi_pools (e : FirewallEngine φ) (modelPath : String) (threshold : φ) (loads : Bool) :
    (e.enableAi modelPath threshold loads).1.eventPool = e.eventPool ∧
      (e.enableAi modelPath threshold loads).1.decisionPool = e.decisionPool := by
  rw [enableAi]
  split <;> exact ⟨rfl, rfl⟩

theorem poolsFree_create (config : FirewallConfig φ) (now : Nat) (loads : Bool) :
    (create config now loads).PoolsFree := by
  rw [create]
  split
  · exact ⟨(enableAi_pools ..).1, (enableAi_pools ..).2⟩
  · exact ⟨rfl, rfl⟩

/-- No call leaves an object in use. -/
theorem step_pools [RuleSort] (e : FirewallEngine φ) (op : FirewallOp φ) :
    (e.step op).eventPool = e.eventPool ∧ (e.step op).decisionPool = e.decisionPool := by
  cases op with
  | inspect mem len stampUs nowUs => exact (e.inspect_inspects mem len stampUs nowUs).pools
  | inspectPacket mem pkt stampUs nowUs => exact (e.inspectPacket_inspects mem pkt stampUs nowUs).pools
  | enableAi modelPath threshold loads => exact e.enableAi_pools modelPath threshold loads
  | onTimer now inf => exact e.onTimer_pools now inf
  | setEnabled | setShadowMode | rules | disableAi | setAi | onAi | resetStats => exact ⟨rfl, rfl⟩

theorem poolsFree_step [RuleSort] (e : FirewallEngine φ) (op : FirewallOp φ) (h : e.PoolsFree) :
    (e.step op).PoolsFree := by
  obtain ⟨hevent, hdecision⟩ := e.step_pools op
  exact ⟨hevent.trans h.event, hdecision.trans h.decision⟩

/-- **Between calls, all objects of both pools are free.** -/
theorem Reachable.pools [RuleSort] (h : e.Reachable) : e.PoolsFree := by
  obtain ⟨config, now, loads, ops, rfl⟩ := h
  exact GuardedRun.run_invariant poolsFree_step (poolsFree_create config now loads) ops

end FirewallEngine
end NeuStack
