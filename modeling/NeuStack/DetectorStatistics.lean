import NeuStack.FirewallAccounting
import NeuStack.ShadowMode

/-! # The statistics of the detector

`drops_by_ai` is documented as the packets the detector dropped, and `SecurityMetrics` can
record dropped and alerted packets.  The code counts a drop or an alert when the model
reports an anomaly, not when a packet is judged by it, and records no dropped packet at
all.

A `Watch` compares the counters with what happens to the packets while a model is loaded.
`exact_iff`: they agree in every state of a run exactly if nothing happens that either of
the two would count.
-/
namespace NeuStack

/-- Packets the detector dropped, packets dropped, and packets alerted. -/
structure DropCounts where
  aiDrops : UInt64
  dropped : UInt64
  alerted : UInt64
  deriving DecidableEq, Repr

namespace FirewallAI
variable {φ : Type}

/-- The counters of the detector, those of its metrics for the current window. -/
def counters (ai : FirewallAI φ) : DropCounts :=
  ⟨ai.stats.dropsByAi, ai.metrics.current.droppedPackets, ai.metrics.current.alertedPackets⟩

/-- `run_inference` finds an anomaly. -/
def FindsAnomaly (ai : FirewallAI φ) (inf : Inference φ) : Prop :=
  ai.loaded = true ∧ ai.metrics.idle = false ∧ ∃ score, inf.result = some (score, true)

theorem escalate_counters (ai : FirewallAI φ) (isAnomaly : Bool) (currentMs : UInt64) :
    (ai.escalate isAnomaly currentMs).counters = ai.counters := by
  rw [escalate]
  cases isAnomaly with
  | true =>
    rw [if_pos rfl]
    dsimp only
    split <;> rfl
  | false =>
    rw [if_neg Bool.false_ne_true]
    dsimp only
    split <;> rfl

/-- One more anomaly, by the mode of the detector. -/
def anomalyCounters (ai : FirewallAI φ) : DropCounts :=
  if ai.config.shadowMode then { ai.counters with alerted := ai.counters.alerted + 1 }
  else { ai.counters with aiDrops := ai.counters.aiDrops + 1 }

variable [FirewallFloat φ]

theorem recordResult_counters (ai : FirewallAI φ) (score : φ) (isAnomaly : Bool)
    (anomalyMs : UInt64) : (ai.recordResult score isAnomaly anomalyMs).counters =
      if isAnomaly then ai.anomalyCounters else ai.counters := by
  cases isAnomaly with
  | false => rfl
  | true =>
    rw [if_pos rfl, anomalyCounters, recordResult, if_pos rfl, countAnomaly]
    dsimp only
    split <;> rfl

/-- An inference counts an anomaly, and nothing else. -/
theorem runInference_counters (ai : FirewallAI φ) (inf : Inference φ) :
    (ai.FindsAnomaly inf → (ai.runInference inf).counters = ai.anomalyCounters) ∧
      (¬ ai.FindsAnomaly inf → (ai.runInference inf).counters = ai.counters) := by
  unfold FindsAnomaly
  rw [runInference]
  cases hloaded : ai.loaded with
  | false => exact ⟨fun h => absurd h.1 Bool.false_ne_true, fun _ => rfl⟩
  | true =>
    cases hidle : ai.metrics.idle with
    | true => exact ⟨fun h => absurd h.2.1.symm Bool.false_ne_true, fun _ => rfl⟩
    | false =>
      cases hresult : inf.result with
      | none =>
        refine ⟨fun h => ?_, fun _ => rfl⟩
        obtain ⟨-, -, score, hscore⟩ := h
        cases hscore
      | some answer =>
        obtain ⟨score, isAnomaly⟩ := answer
        have hcounters : (if (ai.recordResult score isAnomaly inf.anomalyMs).config.autoEscalate
            then (ai.recordResult score isAnomaly inf.anomalyMs).escalate isAnomaly inf.currentMs
            else ai.recordResult score isAnomaly inf.anomalyMs).counters =
              if isAnomaly then ai.anomalyCounters else ai.counters := by
          rw [← recordResult_counters ai score isAnomaly inf.anomalyMs]
          split
          · exact escalate_counters ..
          · rfl
        cases isAnomaly with
        | true => exact ⟨fun _ => hcounters, fun hno => absurd ⟨rfl, rfl, score, rfl⟩ hno⟩
        | false =>
          refine ⟨fun h => ?_, fun _ => hcounters⟩
          obtain ⟨-, -, score', hscore⟩ := h
          cases hscore

end FirewallAI

/-! ## Watching an engine -/

/-- An engine, what the metrics have recorded in completed windows, and what the counters
should be.  The watch begins anew with every detector that is installed. -/
structure Watch (φ : Type) where
  engine : FirewallEngine φ
  completedDrops : UInt64 := 0
  completedAlerts : UInt64 := 0
  due : DropCounts := ⟨0, 0, 0⟩

namespace Watch
variable {φ : Type}

/-- What the counters say, over all windows. -/
def recorded (s : Watch φ) : DropCounts :=
  match s.engine.ai with
  | none => ⟨0, s.completedDrops, s.completedAlerts⟩
  | some ai => ⟨ai.counters.aiDrops, s.completedDrops + ai.counters.dropped,
      s.completedAlerts + ai.counters.alerted⟩

/-- The counters are exact. -/
def Exact (s : Watch φ) : Prop := s.recorded = s.due

instance (s : Watch φ) : Decidable s.Exact := inferInstanceAs (Decidable (_ = _))

/-- A detector is installed, or removed; what it has counted before is not questioned. -/
def install (engine : FirewallEngine φ) : Watch φ :=
  let s : Watch φ := { engine }
  { s with due := s.recorded }

/-- The current window is completed. -/
def complete (s : Watch φ) : Watch φ :=
  match s.engine.ai with
  | none => s
  | some ai => { s with
      completedDrops := s.completedDrops + ai.counters.dropped
      completedAlerts := s.completedAlerts + ai.counters.alerted }

/-- A model is loaded. -/
def Loaded (e : FirewallEngine φ) : Prop := ∃ ai, e.ai = some ai ∧ ai.loaded = true

instance (e : FirewallEngine φ) : Decidable (Loaded e) :=
  match h : e.ai with
  | none => .isFalse fun ⟨_, hai, _⟩ => by rw [h] at hai; cases hai
  | some ai => decidable_of_iff (ai.loaded = true)
      ⟨fun hloaded => ⟨ai, h, hloaded⟩, fun ⟨ai', hai', hloaded⟩ => by
        rw [h] at hai'; cases hai'; exact hloaded⟩

end Watch

/-- The decision was to drop a packet for an anomaly. -/
def Inspection.aiDropped {φ : Type} (i : Inspection φ) : Bool :=
  !i.verdict && i.decision.any fun p => p.2.reason = .aiAnomaly

/-- The decision was to let a packet pass with an alert. -/
def Inspection.alerted {φ : Type} (i : Inspection φ) : Bool := i.decision.any (·.2.isAlert)

/-- What should be counted of an inspection. -/
def DropCounts.count {φ : Type} (c : DropCounts) (i : Inspection φ) : DropCounts where
  aiDrops := c.aiDrops + SecurityMetrics.one (i.aiDropped = true)
  dropped := c.dropped + SecurityMetrics.one (i.verdict = false)
  alerted := c.alerted + SecurityMetrics.one (i.alerted = true)

namespace Watch
variable {φ : Type} [FirewallFloat φ]

/-- The call completes a window. -/
def ticks (e : FirewallEngine φ) : FirewallOp φ → Bool
  | .onTimer now _ => 1000 ≤ (now - e.lastTickTime) / 1000000
  | .onAi .tick => true
  | _ => false

def witness (s : Watch φ) (i : Inspection φ) : Watch φ :=
  { s with engine := i.engine, due := if Loaded s.engine then s.due.count i else s.due }

/-- One call. -/
def watch [RuleSort] (s : Watch φ) (op : FirewallOp φ) : Watch φ :=
  match op with
  | .inspect mem len stampUs nowUs =>
    s.witness (s.engine.inspectSubmission stampUs nowUs (.raw mem len))
  | .inspectPacket mem pkt stampUs nowUs =>
    s.witness (s.engine.inspectSubmission stampUs nowUs (.parsed mem pkt))
  | .enableAi .. | .disableAi | .setAi _ => install (s.engine.step op)
  | .onAi .resetStats => { s with engine := s.engine.step op, due := { s.due with aiDrops := 0 } }
  | _ => { (if ticks s.engine op then s.complete else s) with engine := s.engine.step op }

/-- The rules let the packet pass without an alert, and so does the detector. -/
def Harmless (e : FirewallEngine φ) (evt : PacketEvent) (nowUs : UInt64) : Prop :=
  ((e.ruleVerdict evt nowUs).action = .pass ∨ (e.ruleVerdict evt nowUs).action = .log) ∧
    ¬ e.Alarmed

/-- What is inspected while a model is loaded is well formed and harmless. -/
def Unnoticed (e : FirewallEngine φ) (stampUs nowUs : UInt64) (p : Submission) : Prop :=
  Loaded e → e.config.enabled = true → ∃ evt, p.event stampUs = some evt ∧ Harmless e evt nowUs

/-- **Nothing to count**: no packet is dropped or alerted while a model is loaded, and no
inference finds an anomaly. -/
def Uneventful (e : FirewallEngine φ) : FirewallOp φ → Prop
  | .inspect mem len stampUs nowUs => Unnoticed e stampUs nowUs (.raw mem len)
  | .inspectPacket mem pkt stampUs nowUs => Unnoticed e stampUs nowUs (.parsed mem pkt)
  | .onTimer now inf => ∀ ai, (e.timerTick now).ai = some ai → e.Asks ai now →
      ¬ ai.FindsAnomaly inf
  | .onAi (.runInference inf) => ∀ ai, e.ai = some ai → ¬ ai.FindsAnomaly inf
  | _ => True

/-! ## The counters -/

theorem add_one_eq_iff (n : UInt64) (c : Prop) [Decidable c] :
    n + SecurityMetrics.one c = n ↔ ¬ c := by
  rw [UInt64.add_eq_left, SecurityMetrics.one]
  split
  · exact iff_of_false (by decide) (not_not_intro (by assumption))
  · exact iff_of_true rfl (by assumption)

omit [FirewallFloat φ] in
/-- Nothing is counted of an inspection that passed the packet without an alert. -/
theorem count_eq_iff (c : DropCounts) (i : Inspection φ) :
    c.count i = c ↔ i.verdict = true ∧ i.alerted = false := by
  rw [DropCounts.count, DropCounts.mk.injEq, add_one_eq_iff, add_one_eq_iff, add_one_eq_iff,
    Bool.not_eq_false, Bool.not_eq_true, Bool.not_eq_true]
  constructor
  · exact fun h => h.2
  · rintro ⟨hverdict, halerted⟩
    exact ⟨by rw [Inspection.aiDropped, hverdict]; rfl, hverdict, halerted⟩

omit [FirewallFloat φ] in
theorem recorded_of_counters {s : Watch φ} {e : FirewallEngine φ}
    (h : e.ai.map FirewallAI.counters = s.engine.ai.map FirewallAI.counters) :
    ({ s with engine := e } : Watch φ).recorded = s.recorded := by
  unfold recorded
  cases hai : s.engine.ai with
  | none =>
    rw [hai] at h
    rw [Option.map_eq_none_iff.mp h]
  | some ai =>
    rw [hai] at h
    obtain ⟨ai', hai', hcounters⟩ := Option.map_eq_some_iff.mp h
    rw [hai']
    simp only [hcounters]

omit [FirewallFloat φ] in
/-- One more anomaly shows. -/
theorem recorded_anomaly {s : Watch φ} {e : FirewallEngine φ} {ai ai' : FirewallAI φ}
    (hai : s.engine.ai = some ai) (hai' : e.ai = some ai')
    (h : ai'.counters = ai.anomalyCounters) :
    ({ s with engine := e } : Watch φ).recorded ≠ s.recorded := by
  unfold recorded
  simp only [hai, hai', h, FirewallAI.anomalyCounters]
  split
  · intro hsame
    rw [DropCounts.mk.injEq, ← UInt64.add_assoc, UInt64.add_eq_left] at hsame
    exact absurd hsame.2.2 (by decide)
  · intro hsame
    rw [DropCounts.mk.injEq, UInt64.add_eq_left] at hsame
    exact absurd hsame.1 (by decide)

omit [FirewallFloat φ] in
/-- Completing a window does not change the sums. -/
theorem recorded_tick (s : Watch φ) {e : FirewallEngine φ}
    (h : e.ai = s.engine.ai.map FirewallAI.tick) :
    ({ s.complete with engine := e } : Watch φ).recorded = s.recorded := by
  unfold recorded complete
  cases hai : s.engine.ai with
  | none =>
    rw [hai] at h
    rw [h]
    rfl
  | some ai =>
    rw [hai] at h
    rw [h]
    exact congrArg₂ (DropCounts.mk ai.counters.aiDrops) (UInt64.add_zero _) (UInt64.add_zero _)

/-! ## Each call -/

variable {s : Watch φ}

/-- A harmless packet is passed, perhaps logged, and no other is. -/
theorem decisionOn_harmless (e : FirewallEngine φ) (evt : PacketEvent) (nowUs : UInt64) :
    ((e.decisionOn evt nowUs).action = .pass ∨ (e.decisionOn evt nowUs).action = .log) ↔
      Harmless e evt nowUs := by
  have hflagged : ∀ shadow : Bool,
      ¬ ((if shadow then FirewallDecision.Action.alert else .drop) = .pass ∨
        (if shadow then FirewallDecision.Action.alert else .drop) = .log) := by
    decide
  rw [Harmless]
  by_cases halarmed : e.Alarmed
  · refine iff_of_false ?_ fun h => h.2 halarmed
    obtain ⟨ai, hai, hloaded, hcached⟩ := halarmed
    cases hdrop : (e.ruleVerdict evt nowUs).shouldDrop with
    | true =>
      have hsame : e.decisionOn evt nowUs = e.ruleVerdict evt nowUs :=
        FirewallEngine.evaluate_dropped (e := e.counted evt e.decisionPool) hdrop
      have haction : (e.ruleVerdict evt nowUs).action = .drop := of_decide_eq_true hdrop
      rw [hsame, haction]
      decide
    | false =>
      have hsame := FirewallEngine.evaluate_alarmed (e := e.counted evt e.decisionPool)
        (Option.map_eq_some_iff.mpr ⟨ai, hai, rfl⟩) hloaded hcached hdrop
      have haction := congrArg FirewallDecision.action hsame
      rw [show (e.decisionOn evt nowUs).action = _ from haction]
      exact hflagged _
  · have hsame : e.decisionOn evt nowUs = e.ruleVerdict evt nowUs :=
      FirewallEngine.evaluate_quiet (e := e.counted evt e.decisionPool)
        (mt FirewallEngine.alarmed_counted.mp halarmed)
    rw [hsame]
    exact (and_iff_left halarmed).symm

/-- What is inspected without an event to count is what passes without an alert. -/
theorem unnoticed_iff (hpools : s.engine.PoolsFree) (hloaded : Loaded s.engine)
    (stampUs nowUs : UInt64) (p : Submission) : Unnoticed s.engine stampUs nowUs p ↔
      (s.engine.inspectSubmission stampUs nowUs p).verdict = true ∧
        (s.engine.inspectSubmission stampUs nowUs p).alerted = false := by
  cases henabled : s.engine.config.enabled with
  | false =>
    obtain ⟨hdecision, hverdict, -⟩ := FirewallEngine.inspect_off (p := p) henabled
    refine iff_of_true (fun _ h => ?_) ⟨hverdict, ?_⟩
    · rw [henabled] at h
      cases h
    · rw [Inspection.alerted, hdecision]
      rfl
  | true =>
    cases hevent : p.event stampUs with
    | none =>
      obtain ⟨-, hverdict, -⟩ := FirewallEngine.inspect_malformed henabled hpools hevent
      rw [hverdict]
      refine iff_of_false (fun h => ?_) fun h => (nomatch h.1)
      obtain ⟨evt, hsome, -⟩ := h hloaded henabled
      rw [hevent] at hsome
      cases hsome
    | some evt =>
      obtain ⟨hdecision, hverdict, -⟩ :=
        FirewallEngine.inspect_wellFormed henabled hpools hevent
      have hharmless := decisionOn_harmless s.engine evt nowUs
      rw [hverdict, Inspection.alerted, hdecision]
      have hactions : ∀ d : FirewallDecision φ, d.shouldPass = true ∧ d.isAlert = false ↔
          d.action = .pass ∨ d.action = .log := by
        intro d
        rw [FirewallDecision.shouldPass, FirewallDecision.isAlert]
        cases d.action <;> decide
      refine Iff.trans ⟨fun h => ?_, fun h _ _ => ⟨evt, hevent, h⟩⟩
        (hharmless.symm.trans (hactions _).symm)
      obtain ⟨evt', hsome, h⟩ := h hloaded henabled
      rw [hevent] at hsome
      cases hsome
      exact h

theorem witness_exact (h : s.Exact) (hpools : s.engine.PoolsFree) (stampUs nowUs : UInt64)
    (p : Submission) : (s.witness (s.engine.inspectSubmission stampUs nowUs p)).Exact ↔
      Unnoticed s.engine stampUs nowUs p := by
  have hrecorded : (s.witness (s.engine.inspectSubmission stampUs nowUs p)).recorded =
      s.recorded := by
    refine recorded_of_counters (s := { s with due := _ }) ?_
    have hai : (s.engine.inspectSubmission stampUs nowUs p).engine.ai = s.engine.ai ∨
        ∃ evt, (s.engine.inspectSubmission stampUs nowUs p).engine.ai =
          s.engine.ai.map fun ai => ai.recordPacket evt := by
      cases p with
      | raw mem len => exact (s.engine.inspect_inspects mem len stampUs nowUs).ai
      | parsed mem pkt => exact (s.engine.inspectPacket_inspects mem pkt stampUs nowUs).ai
    rcases hai with hai | ⟨evt, hai⟩
    · exact congrArg _ hai
    · refine (congrArg _ hai).trans ?_
      rw [Option.map_map]
      rfl
  rw [Exact, hrecorded, h]
  by_cases hloaded : Loaded s.engine
  · rw [witness, if_pos hloaded, unnoticed_iff hpools hloaded, ← count_eq_iff s.due]
    exact eq_comm
  · rw [witness, if_neg hloaded]
    exact iff_of_true rfl fun hloaded' => absurd hloaded' hloaded

variable [RuleSort]

omit [RuleSort] in
/-- An inference is counted if it finds an anomaly. -/
theorem recorded_inference_iff {e : FirewallEngine φ} {ai : FirewallAI φ} {inf : Inference φ}
    (hai : s.engine.ai = some ai) (he : e.ai = some (ai.runInference inf)) :
    ({ s with engine := e } : Watch φ).recorded = s.recorded ↔ ¬ ai.FindsAnomaly inf := by
  obtain ⟨hfinds, hquiet⟩ := ai.runInference_counters inf
  by_cases hanomaly : ai.FindsAnomaly inf
  · exact iff_of_false (recorded_anomaly hai he (hfinds hanomaly)) (not_not_intro hanomaly)
  · refine iff_of_true (recorded_of_counters ?_) hanomaly
    rw [he, hai]
    exact congrArg some (hquiet hanomaly)

omit [RuleSort] in
theorem recorded_timerInference_iff (s : Watch φ) (now : Nat) (inf : Inference φ) :
    ({ s with engine := s.engine.timerInference now inf } : Watch φ).recorded = s.recorded ↔
      ∀ ai, s.engine.ai = some ai → s.engine.Asks ai now → ¬ ai.FindsAnomaly inf := by
  rw [FirewallEngine.timerInference]
  cases hai : s.engine.ai with
  | none =>
    refine iff_of_true rfl fun ai hai' => ?_
    cases hai'
  | some ai =>
    dsimp only
    by_cases hasks : s.engine.Asks ai now
    · rw [if_pos (show ai.loaded = true ∧ _ from hasks)]
      refine (recorded_inference_iff hai rfl).trans ⟨fun h ai' hai' _ => ?_, fun h => h ai rfl hasks⟩
      cases hai'
      exact h
    · rw [if_neg (show ¬ (ai.loaded = true ∧ _) from hasks)]
      refine iff_of_true rfl fun ai' hai' hasks' => ?_
      cases hai'
      exact absurd hasks' hasks

omit [FirewallFloat φ] [RuleSort] in
/-- The first half of `on_timer` leaves alone what is recorded and what is due. -/
theorem recorded_timerTick (s : Watch φ) (now : Nat) (inf : Inference φ) {mid : Watch φ}
    (hmid : (if ticks s.engine (.onTimer now inf) then s.complete else s) = mid) :
    ({ mid with engine := s.engine.timerTick now } : Watch φ).recorded = s.recorded ∧
      mid.due = s.due := by
  rw [← hmid, ticks, FirewallEngine.timerTick]
  by_cases htick : 1000 ≤ (now - s.engine.lastTickTime) / 1000000
  · rw [if_pos (decide_eq_true htick), if_pos htick]
    refine ⟨recorded_tick s rfl, ?_⟩
    rw [complete]
    split <;> rfl
  · have hno : ¬ decide (1000 ≤ (now - s.engine.lastTickTime) / 1000000) = true := by
      rw [decide_eq_true_iff]
      exact htick
    rw [if_neg hno, if_neg htick]
    exact ⟨rfl, rfl⟩

theorem onTimer_exact (h : s.Exact) (now : Nat) (inf : Inference φ) :
    (s.watch (.onTimer now inf)).Exact ↔ Uneventful s.engine (.onTimer now inf) := by
  generalize hmid : (if ticks s.engine (.onTimer now inf) then s.complete else s) = mid
  obtain ⟨hrecorded, hdue⟩ := recorded_timerTick s now inf hmid
  have hwatch : s.watch (.onTimer now inf) = { mid with engine := s.engine.onTimer now inf } := by
    rw [← hmid]
    rfl
  have hexact : (s.watch (.onTimer now inf)).Exact ↔
      ({ mid with engine := s.engine.onTimer now inf } : Watch φ).recorded =
        ({ mid with engine := s.engine.timerTick now } : Watch φ).recorded := by
    rw [hwatch, hrecorded, h, ← hdue]
    rfl
  have htick : (s.engine.timerTick now).lastInferenceTime = s.engine.lastInferenceTime ∧
      ((s.engine.timerTick now).ai.isNone = s.engine.ai.isNone) := by
    rw [FirewallEngine.timerTick]
    split
    · exact ⟨rfl, Option.isNone_map⟩
    · exact ⟨rfl, rfl⟩
  rw [hexact, Uneventful, FirewallEngine.onTimer, ← htick.2]
  by_cases hnone : (s.engine.timerTick now).ai.isNone = true
  · -- Without a detector the call returns before the tick.
    have hai := Option.isNone_iff_eq_none.mp hnone
    rw [htick.2, Option.isNone_iff_eq_none] at hnone
    rw [if_pos (by rw [hai]; rfl)]
    refine iff_of_true (recorded_of_counters
      (s := { mid with engine := s.engine.timerTick now }) ?_) fun ai hsome => ?_
    · rw [hai, hnone]
    · rw [hai] at hsome
      cases hsome
  · rw [if_neg hnone]
    refine (recorded_timerInference_iff { mid with engine := s.engine.timerTick now } now inf).trans
      (forall₂_congr fun ai _ => ?_)
    rw [FirewallEngine.Asks, FirewallEngine.Asks, htick.1]

theorem onAi_exact (h : s.Exact) (op : FirewallAI.Op φ) :
    (s.watch (.onAi op)).Exact ↔ Uneventful s.engine (.onAi op) := by
  have hsame : ∀ f : FirewallAI φ → FirewallAI φ, (∀ ai, (f ai).counters = ai.counters) →
      ({ s with engine := { s.engine with ai := s.engine.ai.map f } } : Watch φ).Exact := by
    intro f hf
    refine (recorded_of_counters ?_).trans h
    rw [Option.map_map]
    exact congrArg (s.engine.ai.map ·) (funext hf)
  cases op with
  | loadModel | recordPacket | setThreshold | setShadowMode | setInferenceIntervalMs =>
    exact iff_of_true (hsame _ fun _ => rfl) trivial
  | tick =>
    refine iff_of_true ((recorded_tick s rfl).trans (h.trans ?_)) trivial
    show s.due = s.complete.due
    rw [complete]
    split <;> rfl
  | resetStats =>
    refine iff_of_true ?_ trivial
    show recorded _ = { s.due with aiDrops := 0 }
    rw [← show s.recorded = s.due from h]
    show recorded { s with engine := { s.engine with ai := s.engine.ai.map _ }, due := _ } = _
    unfold recorded
    cases s.engine.ai <;> rfl
  | runInference inf =>
    show ({ s with engine := s.engine.step (.onAi (.runInference inf)) } : Watch φ).recorded =
        s.due ↔ ∀ ai, s.engine.ai = some ai → ¬ ai.FindsAnomaly inf
    rw [← show s.recorded = s.due from h]
    cases hai : s.engine.ai with
    | none =>
      refine iff_of_true (recorded_of_counters ?_) fun ai hsome => (nomatch hsome)
      show (s.engine.ai.map _).map _ = s.engine.ai.map _
      rw [hai]
      rfl
    | some ai =>
      have hafter : (s.engine.step (.onAi (.runInference inf))).ai = some (ai.runInference inf) :=
        Option.map_eq_some_iff.mpr ⟨ai, hai, rfl⟩
      refine (recorded_inference_iff hai hafter).trans ⟨fun h ai' hai' => ?_, fun h => h ai rfl⟩
      cases hai'
      exact h

/-- **A call keeps the counters exact if and only if it has nothing to count.** -/
theorem watch_exact (hpools : s.engine.PoolsFree) (h : s.Exact) (op : FirewallOp φ) :
    (s.watch op).Exact ↔ Uneventful s.engine op := by
  cases op with
  | inspect mem len stampUs nowUs => exact witness_exact h hpools stampUs nowUs _
  | inspectPacket mem pkt stampUs nowUs => exact witness_exact h hpools stampUs nowUs _
  | onTimer now inf => exact onTimer_exact h now inf
  | onAi op => exact onAi_exact h op
  | enableAi | disableAi | setAi => exact iff_of_true rfl trivial
  | setEnabled | setShadowMode | rules | resetStats =>
    exact iff_of_true ((recorded_of_counters rfl).trans h) trivial

/-! ## Runs -/

/-- A new engine; a detector that it loads starts with its counters at zero. -/
def start (config : FirewallConfig φ) (now : Nat) (loads : Bool) : Watch φ :=
  install (FirewallEngine.create config now loads)

theorem watch_engine (s : Watch φ) (op : FirewallOp φ) :
    (s.watch op).engine = s.engine.step op := by
  cases op with
  | onAi op => cases op <;> rfl
  | _ => rfl

/-- **Every run: the counters are exact in all of its states if and only if there is
nothing to count in any of its steps.** -/
theorem statistics_exact_iff (config : FirewallConfig φ) (now : Nat) (loads : Bool)
    (ops : List (FirewallOp φ)) :
    (∀ done, done <+: ops → (GuardedRun.run watch (start config now loads) done).Exact) ↔
      GuardedRun.Meets watch (fun s op => Uneventful s.engine op) (start config now loads) ops := by
  have hpools : ∀ (s : Watch φ) op, s.engine.PoolsFree → (s.watch op).engine.PoolsFree := by
    intro s op h
    rw [watch_engine]
    exact FirewallEngine.poolsFree_step s.engine op h
  have hfree := FirewallEngine.poolsFree_create config now loads
  have hexact : (start config now loads).Exact := rfl
  constructor
  · exact GuardedRun.meets_of_always (Q := fun s => s.engine.PoolsFree) hpools
      (fun s op hs hexact => (watch_exact hs hexact op).mp) (s := start config now loads) hfree
  · intro hmeets
    have halways := GuardedRun.Meets.always
      (P := fun s : Watch φ => s.Exact ∧ s.engine.PoolsFree)
      (fun s op _ hs hok => ⟨(watch_exact hs.2 hs.1 op).mpr hok, hpools s op hs.2⟩)
      ⟨hexact, hfree⟩ hmeets
    exact fun done hdone => (halways done hdone).1

end Watch

namespace Watch

/-- Two packets; an anomaly; two more packets, which are dropped for it. -/
def misreported : List (FirewallOp Unit) :=
  [.enableAi "model" () true,
    .inspect (FirewallEngine.synDatagram 6 0xCE) 40 1 1,
    .inspect (FirewallEngine.synDatagram 6 0xCE) 40 2 2,
    .onTimer 1000000000 ⟨some ((), true), 1000, 1000⟩,
    .inspect (FirewallEngine.synDatagram 6 0xCE) 40 3 3,
    .inspect (FirewallEngine.synDatagram 6 0xCE) 40 4 4]

/-- One drop by the detector is reported instead of two, and no dropped packet. -/
theorem misreported_not_exact : ¬ ∀ done, done <+: misreported →
    (GuardedRun.run watch (start { shadowMode := false, aiThreshold := () } 0 true)
      done).Exact := by
  intro h
  have hdue : (GuardedRun.run watch (start { shadowMode := false, aiThreshold := () } 0 true)
      misreported).due = ⟨2, 2, 0⟩ := by decide +kernel
  have hrecorded : (GuardedRun.run watch (start { shadowMode := false, aiThreshold := () } 0 true)
      misreported).recorded = ⟨1, 0, 0⟩ := by decide +kernel
  have hexact := h misreported (List.prefix_refl _)
  rw [Exact, hdue, hrecorded] at hexact
  exact absurd hexact (by decide)

end Watch
end NeuStack
