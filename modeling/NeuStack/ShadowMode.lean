import NeuStack.Whitelist

/-! # The shadow mode

The flag is kept twice: in the configuration of the engine, which is what
`shadow_mode()` reports, and in that of the detector, which is what it goes by.
`enable_ai` copies the one to the other, and nothing does so later: `set_shadow_mode`
of the engine and that of the detector write their own copy, `set_ai` brings in
another detector, and the detector switches its copy by itself (`switches`).

`shadow_iff` lists the steps that keep the two together, and says that a run has
one truth, and obeys it, exactly if all of its steps are such.
-/
namespace NeuStack

/-! ## When the detector switches -/

namespace FirewallAI
variable {φ : Type}

/-- The test for one more anomaly, or one more normal answer. -/
def mayFlip (ai : FirewallAI φ) : Bool → Bool
  | true => ai.config.shadowMode && ai.config.escalateConsecutive ≤ ai.consecutiveAnomaly + 1
  | false => !ai.config.shadowMode && ai.config.deescalateNormalCount ≤ ai.consecutiveNormal + 1

/-- `run_inference` leaves or enters the shadow mode: the model answers, for the
configured number of times in a row, outside of the cooldown. -/
def switches (ai : FirewallAI φ) (inf : Inference φ) : Bool :=
  ai.loaded && !ai.metrics.idle && ai.config.autoEscalate && !ai.inCooldown inf.currentMs &&
    match inf.result with
    | none => false
    | some (_, isAnomaly) => ai.mayFlip isAnomaly

theorem mayFlip_iff {ai : FirewallAI φ} {isAnomaly : Bool} {currentMs : UInt64} :
    (!ai.inCooldown currentMs && ai.mayFlip isAnomaly) = true ↔
      ¬ ai.inCooldown currentMs = true ∧ ai.mayFlip isAnomaly = true := by
  rw [Bool.and_eq_true, Bool.not_eq_true', Bool.not_eq_true]

/-- The switch of the mode happens on these conditions, and turns it around. -/
theorem escalate_shadowMode (ai : FirewallAI φ) (isAnomaly : Bool) (currentMs : UInt64) :
    (ai.escalate isAnomaly currentMs).config.shadowMode =
      (ai.config.shadowMode ^^ (!ai.inCooldown currentMs && ai.mayFlip isAnomaly)) := by
  by_cases hflip : (!ai.inCooldown currentMs && ai.mayFlip isAnomaly) = true
  · rw [hflip, Bool.xor_true]
    obtain ⟨hcool, hmay⟩ := mayFlip_iff.mp hflip
    cases isAnomaly with
    | true =>
      obtain ⟨hshadow, hcount⟩ := (Bool.and_eq_true _ _).mp hmay
      rw [escalate, if_pos rfl]
      refine (congrArg (fun a : FirewallAI φ => a.config.shadowMode)
        (if_pos ⟨hshadow, hcool, of_decide_eq_true hcount⟩)).trans ?_
      rw [hshadow]
      rfl
    | false =>
      obtain ⟨hshadow, hcount⟩ := (Bool.and_eq_true _ _).mp hmay
      rw [Bool.not_eq_true'] at hshadow
      rw [escalate, if_neg Bool.false_ne_true]
      refine (congrArg (fun a : FirewallAI φ => a.config.shadowMode)
        (if_pos ⟨Bool.eq_false_iff.mp hshadow, hcool, of_decide_eq_true hcount⟩)).trans ?_
      rw [hshadow]
      rfl
  · rw [Bool.eq_false_iff.mpr hflip, Bool.xor_false]
    rw [mayFlip_iff] at hflip
    cases isAnomaly with
    | true =>
      have hno : ¬ (ai.config.shadowMode = true ∧ ¬ ai.inCooldown currentMs = true ∧
          ai.config.escalateConsecutive ≤ ai.consecutiveAnomaly + 1) := by
        rintro ⟨hshadow, hcool, hcount⟩
        exact hflip ⟨hcool, (Bool.and_eq_true _ _).mpr ⟨hshadow, decide_eq_true hcount⟩⟩
      rw [escalate, if_pos rfl]
      exact (congrArg (fun a : FirewallAI φ => a.config.shadowMode) (if_neg hno)).trans rfl
    | false =>
      have hno : ¬ (¬ ai.config.shadowMode = true ∧ ¬ ai.inCooldown currentMs = true ∧
          ai.config.deescalateNormalCount ≤ ai.consecutiveNormal + 1) := by
        rintro ⟨hshadow, hcool, hcount⟩
        refine hflip ⟨hcool, (Bool.and_eq_true _ _).mpr ⟨?_, decide_eq_true hcount⟩⟩
        rw [Bool.eq_false_iff.mpr hshadow]
        rfl
      rw [escalate, if_neg Bool.false_ne_true]
      exact (congrArg (fun a : FirewallAI φ => a.config.shadowMode) (if_neg hno)).trans rfl

variable [FirewallFloat φ]

/-- What the switch of the mode looks at is not touched by the statistics. -/
def SameMode (ai ai' : FirewallAI φ) : Prop :=
  ai'.config = ai.config ∧ ai'.consecutiveAnomaly = ai.consecutiveAnomaly ∧
    ai'.consecutiveNormal = ai.consecutiveNormal ∧
    ai'.lastEscalationTimeMs = ai.lastEscalationTimeMs

omit [FirewallFloat φ] in
theorem sameMode_countAnomaly (ai : FirewallAI φ) (anomalyMs : UInt64) :
    ai.SameMode (ai.countAnomaly anomalyMs) := by
  rw [countAnomaly]
  split <;> exact ⟨rfl, rfl, rfl, rfl⟩

theorem sameMode_recordResult (ai : FirewallAI φ) (score : φ) (isAnomaly : Bool)
    (anomalyMs : UInt64) : ai.SameMode (ai.recordResult score isAnomaly anomalyMs) := by
  cases isAnomaly with
  | true => exact sameMode_countAnomaly _ anomalyMs
  | false => exact ⟨rfl, rfl, rfl, rfl⟩

/-- **What an inference does to the mode.** -/
theorem runInference_shadowMode (ai : FirewallAI φ) (inf : Inference φ) :
    (ai.runInference inf).config.shadowMode = (ai.config.shadowMode ^^ ai.switches inf) := by
  rw [runInference, switches]
  cases hloaded : ai.loaded with
  | false => simp
  | true =>
    cases hidle : ai.metrics.idle with
    | true => simp
    | false =>
      cases hresult : inf.result with
      | none => simp
      | some answer =>
        obtain ⟨score, isAnomaly⟩ := answer
        obtain ⟨hconfig, hanomaly, hnormal, htime⟩ :=
          ai.sameMode_recordResult score isAnomaly inf.anomalyMs
        have hcool : (ai.recordResult score isAnomaly inf.anomalyMs).inCooldown inf.currentMs =
            ai.inCooldown inf.currentMs := by
          rw [inCooldown, hconfig, htime, inCooldown]
        have hflip : (ai.recordResult score isAnomaly inf.anomalyMs).mayFlip isAnomaly =
            ai.mayFlip isAnomaly := by
          cases isAnomaly <;> simp only [mayFlip, hconfig, hanomaly, hnormal]
        cases hauto : ai.config.autoEscalate with
        | false => simp [hconfig, hauto]
        | true => simp [hconfig, hauto, escalate_shadowMode, hcool, hflip]

end FirewallAI

namespace FirewallEngine
variable {φ : Type} [FirewallFloat φ] {e : FirewallEngine φ} {evt : PacketEvent} {nowUs : UInt64}

/-! ## One truth, and obeying it -/

/-- The flag of the engine and the one the detector goes by agree. -/
def OneTruth (e : FirewallEngine φ) : Prop :=
  ∀ ai, e.ai = some ai → ai.config.shadowMode = e.config.shadowMode

/-- The decision to drop a packet for an anomaly. -/
def AiDrop (d : FirewallDecision φ) : Prop := d.action = .drop ∧ d.reason = .aiAnomaly

/-- The packet of the call is not dropped for an anomaly while the engine reports its
shadow mode. -/
def Obeys (e : FirewallEngine φ) : FirewallOp φ → Prop
  | .inspect mem len stampUs nowUs => e.config.shadowMode = true → ∀ evt d,
      (e.inspect mem len stampUs nowUs).value.decision = some (evt, d) → ¬ AiDrop d
  | .inspectPacket mem pkt stampUs nowUs => e.config.shadowMode = true → ∀ evt d,
      (e.inspectPacket mem pkt stampUs nowUs).value.decision = some (evt, d) → ¬ AiDrop d
  | _ => True

/-- `on_timer` asks the model. -/
def Asks (e : FirewallEngine φ) (ai : FirewallAI φ) (now : Nat) : Prop :=
  ai.loaded = true ∧
    ai.config.inferenceIntervalMs.toNat ≤ (now - e.lastInferenceTime) / 1000000

/-- **The calls that keep the two flags together.**  A flag is written only as the
other one stands, the detector does not switch, and no rule is labelled as an
anomaly and drops the packet. -/
def Keeps (e : FirewallEngine φ) : FirewallOp φ → Prop
  | .inspect mem len stampUs nowUs => e.config.enabled = true → e.config.shadowMode = true →
      ∀ evt, (parsePacket mem len stampUs).value = some evt → ¬ AiDrop (e.ruleVerdict evt nowUs)
  | .inspectPacket mem pkt stampUs nowUs => e.config.enabled = true → e.config.shadowMode = true →
      ¬ AiDrop (e.ruleVerdict (fillEventFromIpv4 mem pkt stampUs).value nowUs)
  | .setShadowMode shadow => ∀ ai, e.ai = some ai → ai.config.shadowMode = shadow
  | .setAi ai => ∀ a, ai = some a → a.config.shadowMode = e.config.shadowMode
  | .onAi (.setShadowMode shadow) => ∀ ai, e.ai = some ai → shadow = e.config.shadowMode
  | .onAi (.runInference inf) => ∀ ai, e.ai = some ai → ai.switches inf = false
  | .onTimer now inf => ∀ ai, (e.timerTick now).ai = some ai → e.Asks ai now →
      ai.switches inf = false
  | _ => True

/-! ## What leaves the flags alone -/

/-- Both flags. -/
def modes (e : FirewallEngine φ) : Bool × Option Bool :=
  (e.config.shadowMode, e.ai.map fun ai => ai.config.shadowMode)

omit [FirewallFloat φ] in
theorem oneTruth_iff : e.OneTruth ↔ ∀ b, e.modes.2 = some b → b = e.modes.1 := by
  constructor
  · intro h b hb
    obtain ⟨ai, hai, rfl⟩ := Option.map_eq_some_iff.mp hb
    exact h ai hai
  · intro h ai hai
    exact h _ (Option.map_eq_some_iff.mpr ⟨ai, hai, rfl⟩)

omit [FirewallFloat φ] in
theorem oneTruth_congr {e' : FirewallEngine φ} (h : e'.modes = e.modes) :
    e'.OneTruth ↔ e.OneTruth := by
  rw [oneTruth_iff, oneTruth_iff, h]

omit [FirewallFloat φ] in
theorem modes_map (e : FirewallEngine φ) {f : FirewallAI φ → FirewallAI φ}
    (hf : ∀ ai, (f ai).config.shadowMode = ai.config.shadowMode) :
    ({ e with ai := e.ai.map f } : FirewallEngine φ).modes = e.modes := by
  refine Prod.ext rfl ?_
  show (e.ai.map f).map (fun ai => ai.config.shadowMode) = e.ai.map fun ai => ai.config.shadowMode
  rw [Option.map_map]
  exact congrArg (e.ai.map ·) (funext hf)

theorem judge_modes (e : FirewallEngine φ) (evt : PacketEvent) (nowUs : UInt64) :
    (e.judge evt nowUs).engine.modes = e.modes := by
  have hcount := modes_map e (f := fun ai => ai.recordPacket evt) fun _ => rfl
  rw [judge]
  cases e.decisionPool.acquire with
  | none => exact hcount
  | some pool =>
    simp only [evaluate_engine]
    exact hcount

/-- No packet changes a flag. -/
theorem Inspects.modes {i : Inspection φ} (h : Inspects e nowUs i) : i.engine.modes = e.modes := by
  cases h with
  | off | failed | malformed => rfl
  | observed hai hpool evt =>
    cases evt with
    | none => rfl
    | some evt =>
      refine Prod.ext rfl ?_
      show some _ = e.ai.map _
      rw [hai]
      rfl
  | judged hpool evt => exact judge_modes { e with eventPool := _ } evt nowUs

/-! ## Each call -/

/-- With one truth, `judge` drops for an anomaly only what the rules do. -/
theorem judge_obeys (htruth : e.OneTruth) (hshadow : e.config.shadowMode = true)
    {pool : FixedPool} (hpool : e.decisionPool.acquire = some pool) :
    (∀ evt' d, (e.judge evt nowUs).decision = some (evt', d) → ¬ AiDrop d) ↔
      ¬ AiDrop (e.ruleVerdict evt nowUs) := by
  cases hdrop : (e.ruleVerdict evt nowUs).shouldDrop with
  | true =>
    rw [judge_dropped hpool hdrop]
    constructor
    · exact fun h => h _ _ rfl
    · rintro h evt' d hd
      cases hd
      exact h
  | false =>
    have hpassed : ¬ AiDrop (e.ruleVerdict evt nowUs) := fun h =>
      absurd (show (e.ruleVerdict evt nowUs).shouldDrop = true from decide_eq_true h.1)
        (by rw [hdrop]; exact Bool.false_ne_true)
    refine iff_of_true (fun evt' d hd => ?_) hpassed
    by_cases halarmed : e.Alarmed
    · obtain ⟨ai, hai, hloaded, hcached⟩ := halarmed
      rw [judge_alarmed hpool hai hloaded hcached hdrop, htruth ai hai, hshadow] at hd
      cases hd
      rintro ⟨haction, -⟩
      cases haction
    · rw [(judge_quiet hpool halarmed).1] at hd
      cases hd
      exact hpassed

/-- So does a packet that has taken its event. -/
theorem judge_obeys_taken (hpools : e.PoolsFree) (htruth : e.OneTruth)
    (hshadow : e.config.shadowMode = true) (evt : PacketEvent) :
    (∀ evt' d, (judge { e with eventPool := ⟨4095⟩ } evt nowUs).decision = some (evt', d) →
      ¬ AiDrop d) ↔ ¬ AiDrop (e.ruleVerdict evt nowUs) := by
  have hdecision : e.decisionPool.acquire = some ⟨4095⟩ := by rw [hpools.decision]; rfl
  exact @judge_obeys φ _ { e with eventPool := ⟨4095⟩ } evt nowUs htruth hshadow _ hdecision

/-- With the pools full, an enabled engine judges what it could parse. -/
theorem inspect_obeys (hpools : e.PoolsFree) (htruth : e.OneTruth) (mem : Memory) (len : Nat)
    (stampUs nowUs : UInt64) : e.Obeys (.inspect mem len stampUs nowUs) ↔
      e.Keeps (.inspect mem len stampUs nowUs) := by
  have hevent : e.eventPool.acquire = some ⟨4095⟩ := by rw [hpools.event]; rfl
  cases henabled : e.config.enabled with
  | false =>
    refine iff_of_true (fun _ evt d hd => ?_) fun h =>
      absurd h (by rw [henabled]; exact Bool.false_ne_true)
    rw [inspect_disabled henabled, hevent] at hd
    split at hd <;> cases hd
  | true =>
    rw [Obeys, Keeps, inspect_enabled henabled hevent]
    refine ⟨fun h _ hshadow evt hparse => ?_, fun h hshadow => ?_⟩
    · have hjudge := h hshadow
      rw [hparse] at hjudge
      exact (judge_obeys_taken hpools htruth hshadow evt).mp hjudge
    · cases hparse : (parsePacket mem len stampUs).value with
      | none =>
        intro evt d hd
        cases hd
      | some evt =>
        exact (judge_obeys_taken hpools htruth hshadow evt).mpr (h henabled hshadow evt hparse)

theorem inspectPacket_obeys (hpools : e.PoolsFree) (htruth : e.OneTruth) (mem : Memory)
    (pkt : IPv4Packet) (stampUs nowUs : UInt64) : e.Obeys (.inspectPacket mem pkt stampUs nowUs) ↔
      e.Keeps (.inspectPacket mem pkt stampUs nowUs) := by
  have hevent : e.eventPool.acquire = some ⟨4095⟩ := by rw [hpools.event]; rfl
  cases henabled : e.config.enabled with
  | false =>
    refine iff_of_true (fun _ evt d hd => ?_) fun h =>
      absurd h (by rw [henabled]; exact Bool.false_ne_true)
    rw [inspectPacket_disabled henabled, hevent] at hd
    split at hd <;> cases hd
  | true =>
    rw [Obeys, Keeps, inspectPacket_enabled henabled hevent]
    constructor
    · exact fun h _ hshadow => (judge_obeys_taken hpools htruth hshadow _).mp (h hshadow)
    · exact fun h hshadow =>
        (judge_obeys_taken hpools htruth hshadow _).mpr (h henabled hshadow)

omit [FirewallFloat φ] in
/-- A change of the detector's mode keeps the truth exactly if it is none. -/
theorem oneTruth_flip {ai ai' : FirewallAI φ} {flip : Bool}
    (hflip : ai'.config.shadowMode = (ai.config.shadowMode ^^ flip))
    (hai : ai.config.shadowMode = e.config.shadowMode) :
    ai'.config.shadowMode = e.config.shadowMode ↔ flip = false := by
  have hxor : ∀ a b : Bool, (a ^^ b) = a ↔ b = false := by decide
  rw [hflip, hai]
  exact hxor _ _

omit [FirewallFloat φ] in
/-- One truth about a detector that is there. -/
theorem oneTruth_some {ai : FirewallAI φ} (hai : e.ai = some ai) :
    e.OneTruth ↔ ai.config.shadowMode = e.config.shadowMode := by
  constructor
  · exact fun h => h ai hai
  · intro h ai' hai'
    rw [hai] at hai'
    cases hai'
    exact h

omit [FirewallFloat φ] in
theorem timerTick_modes (e : FirewallEngine φ) (now : Nat) : (e.timerTick now).modes = e.modes := by
  rw [timerTick]
  split
  · exact modes_map e fun _ => rfl
  · rfl

theorem timerInference_oneTruth (h : e.OneTruth) (now : Nat) (inf : Inference φ) :
    (e.timerInference now inf).OneTruth ↔
      ∀ ai, e.ai = some ai → e.Asks ai now → ai.switches inf = false := by
  rw [timerInference]
  cases hai : e.ai with
  | none => exact iff_of_true h fun ai hai' => by cases hai'
  | some ai =>
    have hsame := h ai hai
    dsimp only
    by_cases hasks : e.Asks ai now
    · have hflip := oneTruth_flip (ai.runInference_shadowMode inf) hsame
      rw [if_pos (show ai.loaded = true ∧ _ from hasks)]
      refine (oneTruth_some rfl).trans
        (hflip.trans ⟨fun hno ai' hai' _ => ?_, fun hno => hno ai rfl hasks⟩)
      cases hai'
      exact hno
    · rw [if_neg (show ¬ (ai.loaded = true ∧ _) from hasks)]
      refine iff_of_true h fun ai' hai' hasks' => ?_
      cases hai'
      exact absurd hasks' hasks

theorem onTimer_oneTruth (h : e.OneTruth) (now : Nat) (inf : Inference φ) :
    (e.onTimer now inf).OneTruth ↔ e.Keeps (.onTimer now inf) := by
  have htick : (e.timerTick now).OneTruth := (oneTruth_congr (timerTick_modes e now)).mpr h
  have htime : (e.timerTick now).lastInferenceTime = e.lastInferenceTime := by
    rw [timerTick]
    split <;> rfl
  rw [onTimer, Keeps]
  by_cases hnone : e.ai.isNone = true
  · rw [if_pos hnone]
    refine iff_of_true h fun ai hai => ?_
    have hmodes := congrArg Prod.snd (timerTick_modes e now)
    rw [modes, modes, hai, Option.isNone_iff_eq_none.mp hnone] at hmodes
    cases hmodes
  · rw [if_neg hnone, timerInference_oneTruth htick]
    simp only [Asks, htime]

/-- A call on the detector itself. -/
theorem onAi_oneTruth [RuleSort] (h : e.OneTruth) (op : FirewallAI.Op φ) :
    (e.step (.onAi op)).OneTruth ↔ e.Keeps (.onAi op) := by
  have hsame : ∀ f : FirewallAI φ → FirewallAI φ,
      (∀ ai, (f ai).config.shadowMode = ai.config.shadowMode) →
      ({ e with ai := e.ai.map f } : FirewallEngine φ).OneTruth := fun f hf =>
    (oneTruth_congr (modes_map e hf)).mpr h
  cases op with
  | loadModel | recordPacket | tick | setThreshold | setInferenceIntervalMs | resetStats =>
    exact iff_of_true (hsame _ fun _ => rfl) trivial
  | runInference inf =>
    constructor
    · intro hafter ai hai
      have hrun := hafter (ai.runInference inf) (Option.map_eq_some_iff.mpr ⟨ai, hai, rfl⟩)
      exact (oneTruth_flip (ai.runInference_shadowMode inf) (h ai hai)).mp hrun
    · intro hno ai' hai'
      obtain ⟨ai, hai, rfl⟩ := Option.map_eq_some_iff.mp hai'
      exact (oneTruth_flip (ai.runInference_shadowMode inf) (h ai hai)).mpr (hno ai hai)
  | setShadowMode shadow =>
    constructor
    · exact fun hafter ai hai =>
        hafter (ai.setShadowMode shadow) (Option.map_eq_some_iff.mpr ⟨ai, hai, rfl⟩)
    · intro hset ai' hai'
      obtain ⟨ai, hai, rfl⟩ := Option.map_eq_some_iff.mp hai'
      exact hset ai hai

theorem enableAi_oneTruth (e : FirewallEngine φ) (modelPath : String) (threshold : φ)
    (loads : Bool) : (e.enableAi modelPath threshold loads).1.OneTruth := by
  rw [enableAi]
  split
  · exact (oneTruth_some rfl).mpr rfl
  · intro ai hai
    cases hai

/-- **One call keeps the truth and obeys it exactly if it is one of these.** -/
theorem keeps_iff [RuleSort] (hpools : e.PoolsFree) (htruth : e.OneTruth) (op : FirewallOp φ) :
    e.Keeps op ↔ (e.step op).OneTruth ∧ e.Obeys op := by
  cases op with
  | inspect mem len stampUs nowUs =>
    have hmodes := (e.inspect_inspects mem len stampUs nowUs).modes
    rw [← inspect_obeys hpools htruth]
    exact (and_iff_right ((oneTruth_congr hmodes).mpr htruth)).symm
  | inspectPacket mem pkt stampUs nowUs =>
    have hmodes := (e.inspectPacket_inspects mem pkt stampUs nowUs).modes
    rw [← inspectPacket_obeys hpools htruth]
    exact (and_iff_right ((oneTruth_congr hmodes).mpr htruth)).symm
  | setEnabled | rules | resetStats =>
    exact iff_of_true trivial ⟨htruth, trivial⟩
  | disableAi => exact iff_of_true trivial ⟨fun ai hai => (nomatch hai), trivial⟩
  | enableAi modelPath threshold loads =>
    exact iff_of_true trivial ⟨enableAi_oneTruth e modelPath threshold loads, trivial⟩
  | setShadowMode shadow => exact (and_iff_left trivial).symm
  | setAi ai => exact (and_iff_left trivial).symm
  | onAi op =>
    exact (onAi_oneTruth htruth op).symm.trans (and_iff_left (by cases op <;> trivial)).symm
  | onTimer now inf =>
    exact (onTimer_oneTruth htruth now inf).symm.trans (and_iff_left trivial).symm

theorem create_oneTruth (config : FirewallConfig φ) (now : Nat) (loads : Bool) :
    (create config now loads).OneTruth := by
  rw [create]
  split
  · exact enableAi_oneTruth _ config.aiModelPath config.aiThreshold loads
  · intro ai hai
    cases hai

/-- **Every run: the shadow mode has one truth and is obeyed exactly as long as every
call keeps it.** -/
theorem shadow_iff [RuleSort] (config : FirewallConfig φ) (now : Nat) (loads : Bool)
    (ops : List (FirewallOp φ)) :
    (∀ done, done <+: ops → (GuardedRun.run step (create config now loads) done).OneTruth) ∧
        GuardedRun.Meets step Obeys (create config now loads) ops ↔
      GuardedRun.Meets step Keeps (create config now loads) ops :=
  GuardedRun.always_and_meets_iff poolsFree_step
    (fun _ op hpools htruth => keeps_iff hpools htruth op)
    (poolsFree_create config now loads) (create_oneTruth config now loads) ops

/-- The detector is loaded, and then the operator turns the shadow mode off. -/
def turnedOff : List (FirewallOp Unit) := [.enableAi "model" () true, .setShadowMode false]

/-- The facade reports that the mode is off; the detector still only warns. -/
theorem turnedOff_apart : ¬ ((∀ done, done <+: turnedOff →
      (GuardedRun.run step (create (φ := Unit) { aiThreshold := () } 0 true) done).OneTruth) ∧
    GuardedRun.Meets step (Obeys (φ := Unit)) (create { aiThreshold := () } 0 true) turnedOff) := by
  rintro ⟨htruth, -⟩
  have hmodes := oneTruth_iff.mp (htruth turnedOff (List.prefix_refl _)) true (by decide)
  exact absurd hmodes (by decide)

end FirewallEngine

end NeuStack
