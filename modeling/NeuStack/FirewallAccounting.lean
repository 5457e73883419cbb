import NeuStack.FirewallRun

/-! # The accounts of the firewall

An `Audit` is an engine together with what its user has seen of it: how often `inspect`
was called, what it returned, and what the decision callback was shown.  `Books` says
that the statistics of the engine agree, and is kept by every call (`serve_books`).

The callback may use the engine, but not inspect another packet with it.  It is called
when the decision is recorded, and `inspect` only gives its two objects back afterwards;
meanwhile they are in use (`react`).

Calls of a firewall that is off are not inspections, and `reset_stats` starts new books.
-/
namespace NeuStack

/-! ## Calls -/

/-- What `inspect` is given, by its two overloads. -/
inductive Submission
  | raw (mem : Memory) (len : Nat)
  | parsed (mem : Memory) (pkt : IPv4Packet)

namespace FirewallOp
variable {φ : Type}

def isInspect : FirewallOp φ → Bool
  | .inspect .. | .inspectPacket .. => true
  | _ => false

/-- The calls other than `inspect`. -/
def Management (φ : Type) : Type := { op : FirewallOp φ // op.isInspect = false }

end FirewallOp

/-- A call on an engine; the callback answers a decision with calls of its own. -/
inductive FirewallCall (φ : Type)
  | manage (op : FirewallOp.Management φ)
  | inspect (p : Submission) (stampUs nowUs : UInt64)
      (callback : PacketEvent → FirewallDecision φ → List (FirewallOp.Management φ))

namespace FirewallEngine
variable {φ : Type} [FirewallFloat φ]

def inspectSubmission (e : FirewallEngine φ) (stampUs nowUs : UInt64) : Submission → Inspection φ
  | .raw mem len => (e.inspect mem len stampUs nowUs).value
  | .parsed mem pkt => (e.inspectPacket mem pkt stampUs nowUs).value

end FirewallEngine

/-- The event of a well-formed packet. -/
def Submission.event (stampUs : UInt64) : Submission → Option PacketEvent
  | .raw mem len => (FirewallEngine.parsePacket mem len stampUs).value
  | .parsed mem pkt => some (FirewallEngine.fillEventFromIpv4 mem pkt stampUs).value

/-- The statistics of one more decision. -/
def FirewallStats.decided (s : FirewallStats) (action : FirewallDecision.Action) : FirewallStats :=
  match action with
  | .pass | .log => { s with
      packetsInspected := s.packetsInspected + 1, packetsPassed := s.packetsPassed + 1 }
  | .drop => { s with
      packetsInspected := s.packetsInspected + 1, packetsDropped := s.packetsDropped + 1 }
  | .alert => { s with
      packetsInspected := s.packetsInspected + 1, packetsAlerted := s.packetsAlerted + 1
      packetsPassed := s.packetsPassed + 1 }

/-- What the statistics count for one packet. -/
structure FirewallStats.Counted (s : FirewallStats) (verdict alert : Bool) (s' : FirewallStats) :
    Prop where
  inspected : s'.packetsInspected = s.packetsInspected + 1
  passed : s'.packetsPassed = s.packetsPassed + if verdict then 1 else 0
  dropped : s'.packetsDropped = s.packetsDropped + if verdict then 0 else 1
  alerted : s'.packetsAlerted = s.packetsAlerted + if alert then 1 else 0
  failed : s'.poolAcquireFailed = s.poolAcquireFailed

theorem FirewallDecision.shouldPass_of_alert {φ : Type} {d : FirewallDecision φ}
    (h : d.isAlert = true) : d.shouldPass = true := by
  rw [isAlert, decide_eq_true_iff] at h
  rw [shouldPass, h]
  rfl

theorem FirewallStats.decided_counted {φ : Type} (s : FirewallStats) (d : FirewallDecision φ) :
    s.Counted d.shouldPass d.isAlert (s.decided d.action) := by
  rw [FirewallDecision.shouldPass, FirewallDecision.isAlert]
  have hzero (n : UInt64) : n = n + 0 := (UInt64.add_zero n).symm
  cases d.action with
  | pass | log => exact ⟨rfl, rfl, hzero _, hzero _, rfl⟩
  | drop => exact ⟨rfl, hzero _, rfl, hzero _, rfl⟩
  | alert => exact ⟨rfl, rfl, hzero _, rfl, rfl⟩

namespace FirewallEngine
variable {φ : Type} [FirewallFloat φ] {e : FirewallEngine φ} {p : Submission}
  {stampUs nowUs : UInt64}

/-- The decision on an event, in the engine that has counted it. -/
def decisionOn (e : FirewallEngine φ) (evt : PacketEvent) (nowUs : UInt64) : FirewallDecision φ :=
  (evaluate { e with ai := e.ai.map fun ai => ai.recordPacket evt } evt nowUs).2

/-- What the callback should see: of a firewall that is on, the decision on a well-formed
packet. -/
def decisionDue (e : FirewallEngine φ) (stampUs nowUs : UInt64) (p : Submission) :
    Option (PacketEvent × FirewallDecision φ) :=
  if e.config.enabled then (p.event stampUs).map fun evt => (evt, e.decisionOn evt nowUs) else none

/-! ## One call of `inspect` -/

omit [FirewallFloat φ] in
theorem recordDecision_stats (e : FirewallEngine φ) (action : FirewallDecision.Action) :
    (e.recordDecision action).stats = e.stats.decided action := by
  cases action <;> rfl

/-- The decision depends on the rule engine and the detector. -/
theorem evaluate_congr (e e' : FirewallEngine φ) (hrules : e'.ruleEngine = e.ruleEngine)
    (hai : e'.ai = e.ai) (evt : PacketEvent) (nowUs : UInt64) :
    (e'.evaluate evt nowUs).2 = (e.evaluate evt nowUs).2 := by
  rw [evaluate, evaluate, hrules, hai]
  dsimp only
  split
  · rfl
  split
  · rfl
  split
  · rfl
  split <;> rfl

/-- What `judge` shows, returns and counts. -/
theorem judge_spec {pool : FixedPool} (hpool : e.decisionPool.acquire = some pool)
    (evt : PacketEvent) (nowUs : UInt64) :
    (e.judge evt nowUs).decision = some (evt, e.decisionOn evt nowUs) ∧
      (e.judge evt nowUs).verdict = (e.decisionOn evt nowUs).shouldPass ∧
      (e.judge evt nowUs).engine.stats =
        e.stats.decided (e.decisionOn evt nowUs).action := by
  obtain ⟨hdecision, hverdict⟩ := @judge_decision φ _ e evt nowUs pool hpool
  have hsame : ((e.counted evt pool).evaluate evt nowUs).2 = e.decisionOn evt nowUs :=
    evaluate_congr { e with ai := e.ai.map fun ai => ai.recordPacket evt } (e.counted evt pool)
      rfl rfl evt nowUs
  refine ⟨hsame ▸ hdecision, hsame ▸ hverdict, ?_⟩
  have hstats : (e.judge evt nowUs).engine.stats =
      e.stats.decided ((e.counted evt pool).evaluate evt nowUs).2.action := by
    rw [judge]
    simp only [hpool, recordDecision_stats, evaluate_engine]
    rfl
  rw [hstats, hsame]

/-- A malformed packet: refused, counted, and not shown. -/
theorem inspect_malformed (henabled : e.config.enabled = true) (hpools : e.PoolsFree)
    (hevent : p.event stampUs = none) :
    (e.inspectSubmission stampUs nowUs p).decision = none ∧
      (e.inspectSubmission stampUs nowUs p).verdict = false ∧
      (e.inspectSubmission stampUs nowUs p).engine.stats = { e.stats with
        packetsInspected := e.stats.packetsInspected + 1
        packetsDropped := e.stats.packetsDropped + 1 } := by
  have hpool : e.eventPool.acquire = some ⟨4095⟩ := by rw [hpools.event]; rfl
  cases p with
  | raw mem len =>
    have hparse : (parsePacket mem len stampUs).value = none := hevent
    rw [inspectSubmission, inspect_enabled henabled hpool, hparse]
    exact ⟨rfl, rfl, rfl⟩
  | parsed mem pkt => cases hevent

/-- A well-formed packet: shown, and counted for what was decided on it. -/
theorem inspect_wellFormed (henabled : e.config.enabled = true) (hpools : e.PoolsFree)
    {evt : PacketEvent} (hevent : p.event stampUs = some evt) :
    (e.inspectSubmission stampUs nowUs p).decision = some (evt, e.decisionOn evt nowUs) ∧
      (e.inspectSubmission stampUs nowUs p).verdict = (e.decisionOn evt nowUs).shouldPass ∧
      (e.inspectSubmission stampUs nowUs p).engine.stats =
        e.stats.decided (e.decisionOn evt nowUs).action := by
  have hpool : e.eventPool.acquire = some ⟨4095⟩ := by rw [hpools.event]; rfl
  have hdecision : e.decisionPool.acquire = some ⟨4095⟩ := by rw [hpools.decision]; rfl
  have hjudge := @judge_spec φ _ { e with eventPool := ⟨4095⟩ } _ hdecision evt nowUs
  have hsame : decisionOn { e with eventPool := ⟨4095⟩ } evt nowUs = e.decisionOn evt nowUs :=
    evaluate_congr { e with ai := e.ai.map fun ai => ai.recordPacket evt }
      { e with ai := e.ai.map fun ai => ai.recordPacket evt, eventPool := ⟨4095⟩ } rfl rfl evt nowUs
  have hinspect : e.inspectSubmission stampUs nowUs p =
      releaseEvent (judge { e with eventPool := ⟨4095⟩ } evt nowUs) := by
    cases p with
    | raw mem len =>
      have hparse : (parsePacket mem len stampUs).value = some evt := hevent
      rw [inspectSubmission, inspect_enabled henabled hpool, hparse]
    | parsed mem pkt =>
      cases hevent
      exact inspectPacket_enabled henabled hpool
  rw [hsame] at hjudge
  rw [hinspect]
  exact hjudge

/-- With the firewall off, everything passes, and nothing is counted or shown. -/
theorem inspect_off (hdisabled : e.config.enabled = false) :
    (e.inspectSubmission stampUs nowUs p).decision = none ∧
      (e.inspectSubmission stampUs nowUs p).verdict = true ∧
      (e.inspectSubmission stampUs nowUs p).engine.stats = e.stats := by
  cases p with
  | raw mem len =>
    rw [inspectSubmission, inspect_disabled hdisabled]
    split
    · rename_i ai pool hai hpool
      cases (parsePacket mem len stampUs).value <;> exact ⟨rfl, rfl, rfl⟩
    · exact ⟨rfl, rfl, rfl⟩
  | parsed mem pkt =>
    rw [inspectSubmission, inspectPacket_disabled hdisabled]
    split <;> exact ⟨rfl, rfl, rfl⟩

theorem inspectSubmission_pools (e : FirewallEngine φ) (stampUs nowUs : UInt64) (p : Submission) :
    (e.inspectSubmission stampUs nowUs p).engine.eventPool = e.eventPool ∧
      (e.inspectSubmission stampUs nowUs p).engine.decisionPool = e.decisionPool := by
  cases p with
  | raw mem len => exact (e.inspect_inspects mem len stampUs nowUs).pools
  | parsed mem pkt => exact (e.inspectPacket_inspects mem pkt stampUs nowUs).pools

/-! ## The other calls -/

/-- Only `inspect` and `reset_stats` write the statistics. -/
theorem step_stats [RuleSort] (e : FirewallEngine φ) {op : FirewallOp φ}
    (hop : op.isInspect = false) (hreset : op ≠ .resetStats) : (e.step op).stats = e.stats := by
  cases op with
  | inspect | inspectPacket => cases hop
  | resetStats => exact absurd rfl hreset
  | enableAi modelPath threshold loads =>
    rw [step, enableAi]
    split <;> rfl
  | onTimer now inf =>
    have htick : (e.timerTick now).stats = e.stats := by
      rw [timerTick]
      split <;> rfl
    rw [step, onTimer]
    split
    · rfl
    · rw [timerInference]
      split
      · exact htick
      · split <;> exact htick
  | setEnabled | setShadowMode | rules | disableAi | setAi | onAi => rfl

/-- While the decision callback runs, an event and a decision are in use. -/
def lend (e : FirewallEngine φ) : FirewallEngine φ :=
  { e with
    eventPool := ⟨e.eventPool.available - 1⟩
    decisionPool := ⟨e.decisionPool.available - 1⟩ }

/-- The two objects are given back. -/
def takeBack (e : FirewallEngine φ) : FirewallEngine φ :=
  { e with eventPool := e.eventPool.release, decisionPool := e.decisionPool.release }

end FirewallEngine

/-! ## The books -/

/-- An engine, and what its user has seen of the inspections since the statistics were
reset; `seen` and `due` go back to the beginning. -/
structure Audit (φ : Type) where
  engine : FirewallEngine φ
  calls : Nat := 0
  passed : Nat := 0
  refused : Nat := 0
  alerts : Nat := 0
  /-- What the decision callback has been shown. -/
  seen : List (PacketEvent × FirewallDecision φ) := []
  /-- What it should have been shown. -/
  due : List (PacketEvent × FirewallDecision φ) := []

namespace Audit
variable {φ : Type} [FirewallFloat φ]

/-- A call other than `inspect`. -/
def manage [RuleSort] (s : Audit φ) (op : FirewallOp.Management φ) : Audit φ :=
  let s := { s with engine := s.engine.step op.val }
  match op.val with
  | .resetStats => { s with calls := 0, passed := 0, refused := 0, alerts := 0 }
  | _ => s

/-- The calls of a decision callback. -/
def react [RuleSort] (s : Audit φ) (ops : List (FirewallOp.Management φ)) : Audit φ :=
  let s := ops.foldl manage { s with engine := s.engine.lend }
  { s with engine := s.engine.takeBack }

/-- The user takes note of an inspection, if the firewall was on. -/
def note (s : Audit φ) (i : Inspection φ) : Audit φ :=
  let s' := { s with engine := i.engine, seen := s.seen ++ i.decision.toList }
  if s.engine.config.enabled then
    { s' with
      calls := s.calls + 1
      passed := s.passed + if i.verdict then 1 else 0
      refused := s.refused + if i.verdict then 0 else 1
      alerts := s.alerts + if i.decision.any (·.2.isAlert) then 1 else 0 }
  else s'

/-- An inspection, without what the callback calls. -/
def inspected (s : Audit φ) (stampUs nowUs : UInt64) (p : Submission) : Audit φ :=
  { s.note (s.engine.inspectSubmission stampUs nowUs p) with
    due := s.due ++ (s.engine.decisionDue stampUs nowUs p).toList }

/-- One call. -/
def serve [RuleSort] (s : Audit φ) : FirewallCall φ → Audit φ
  | .manage op => s.manage op
  | .inspect p stampUs nowUs callback =>
    match (s.engine.inspectSubmission stampUs nowUs p).decision with
    | none => s.inspected stampUs nowUs p
    | some (evt, d) => (s.inspected stampUs nowUs p).react (callback evt d)

/-- **The statistics agree with what the user has seen.** -/
structure Books (s : Audit φ) : Prop where
  inspected : s.engine.stats.packetsInspected = UInt64.ofNat s.calls
  passed : s.engine.stats.packetsPassed = UInt64.ofNat s.passed
  dropped : s.engine.stats.packetsDropped = UInt64.ofNat s.refused
  alerted : s.engine.stats.packetsAlerted = UInt64.ofNat s.alerts
  failed : s.engine.stats.poolAcquireFailed = 0
  total : s.calls = s.passed + s.refused
  alerts_le : s.alerts ≤ s.passed
  shown : s.seen = s.due

variable {s : Audit φ}

/-! ## What a call does to them -/

theorem ofNat_count (n : Nat) (b : Bool) :
    UInt64.ofNat (n + if b then 1 else 0) = UInt64.ofNat n + if b then 1 else 0 := by
  rw [UInt64.ofNat_add]
  cases b <;> rfl

theorem ofNat_count_not (n : Nat) (b : Bool) :
    UInt64.ofNat (n + if b then 0 else 1) = UInt64.ofNat n + if b then 0 else 1 := by
  rw [UInt64.ofNat_add]
  cases b <;> rfl

theorem manage_engine [RuleSort] (s : Audit φ) (op : FirewallOp.Management φ) :
    (s.manage op).engine = s.engine.step op.val := by
  rw [manage]
  split <;> rfl

theorem manage_books [RuleSort] (h : s.Books) (op : FirewallOp.Management φ) :
    (s.manage op).Books := by
  obtain ⟨op, hop⟩ := op
  by_cases hreset : op = .resetStats
  · subst hreset
    exact ⟨rfl, rfl, rfl, rfl, rfl, rfl, Nat.le_refl _, h.shown⟩
  · have hstats := s.engine.step_stats hop hreset
    have hmanage : s.manage ⟨op, hop⟩ = { s with engine := s.engine.step op } := by
      cases op with
      | resetStats => exact absurd rfl hreset
      | _ => rfl
    rw [hmanage]
    exact ⟨hstats ▸ h.inspected, hstats ▸ h.passed, hstats ▸ h.dropped, hstats ▸ h.alerted,
      hstats ▸ h.failed, h.total, h.alerts_le, h.shown⟩

/-- What the callback calls keeps the books, and leaves the pools alone. -/
theorem foldl_manage [RuleSort] (ops : List (FirewallOp.Management φ)) (h : s.Books) :
    (ops.foldl manage s).Books ∧
      (ops.foldl manage s).engine.eventPool = s.engine.eventPool ∧
      (ops.foldl manage s).engine.decisionPool = s.engine.decisionPool := by
  induction ops generalizing s with
  | nil => exact ⟨h, rfl, rfl⟩
  | cons op ops ih =>
    obtain ⟨hbooks, hevent, hdecision⟩ := ih (manage_books h op)
    obtain ⟨hevent', hdecision'⟩ := s.engine.step_pools op.val
    rw [manage_engine] at hevent hdecision
    exact ⟨hbooks, hevent.trans hevent', hdecision.trans hdecision'⟩

theorem react_books [RuleSort] (ops : List (FirewallOp.Management φ)) (h : s.Books)
    (hpools : s.engine.PoolsFree) : (s.react ops).Books ∧ (s.react ops).engine.PoolsFree := by
  have hlent : ({ s with engine := s.engine.lend } : Audit φ).Books :=
    ⟨h.inspected, h.passed, h.dropped, h.alerted, h.failed, h.total, h.alerts_le, h.shown⟩
  obtain ⟨hbooks, hevent, hdecision⟩ := foldl_manage ops hlent
  rw [react]
  refine ⟨⟨hbooks.inspected, hbooks.passed, hbooks.dropped, hbooks.alerted, hbooks.failed,
    hbooks.total, hbooks.alerts_le, hbooks.shown⟩, ?_, ?_⟩
  · show FixedPool.release _ = _
    rw [hevent]
    show FixedPool.release ⟨s.engine.eventPool.available - 1⟩ = _
    rw [hpools.event]
    rfl
  · show FixedPool.release _ = _
    rw [hdecision]
    show FixedPool.release ⟨s.engine.decisionPool.available - 1⟩ = _
    rw [hpools.decision]
    rfl

omit [FirewallFloat φ] in
/-- One more packet that the statistics have counted for what its user was told. -/
theorem note_counted (h : s.Books) (henabled : s.engine.config.enabled = true)
    {i : Inspection φ} {alert : Bool} (halert : i.decision.any (·.2.isAlert) = alert)
    (hstats : s.engine.stats.Counted i.verdict alert i.engine.stats)
    (hpassed : alert = true → i.verdict = true) :
    ({ s.note i with due := s.due ++ i.decision.toList } : Audit φ).Books := by
  subst halert
  have htotal := h.total
  have hle := h.alerts_le
  rw [note, if_pos henabled]
  refine ⟨?_, ?_, ?_, ?_, ?_, ?_, ?_, ?_⟩
  · exact hstats.inspected.trans (by rw [h.inspected, UInt64.ofNat_add]; rfl)
  · exact hstats.passed.trans (by rw [h.passed, ofNat_count])
  · exact hstats.dropped.trans (by rw [h.dropped, ofNat_count_not])
  · exact hstats.alerted.trans (by rw [h.alerted, ofNat_count])
  · exact hstats.failed.trans h.failed
  · show s.calls + 1 = s.passed + (if i.verdict then 1 else 0) +
      (s.refused + if i.verdict then 0 else 1)
    split <;> omega
  · show s.alerts + (if i.decision.any (·.2.isAlert) then 1 else 0) ≤
      s.passed + if i.verdict then 1 else 0
    -- An alert is one of the packets that pass.
    split
    · rw [if_pos (hpassed ‹_›)]
      exact Nat.succ_le_succ hle
    · exact hle.trans (Nat.le_add_right ..)
  · exact congrArg (· ++ i.decision.toList) h.shown

omit [FirewallFloat φ] in
theorem note_decided (h : s.Books) (henabled : s.engine.config.enabled = true)
    {i : Inspection φ} {evt : PacketEvent} {d : FirewallDecision φ}
    (hdecision : i.decision = some (evt, d)) (hverdict : i.verdict = d.shouldPass)
    (hstats : i.engine.stats = s.engine.stats.decided d.action) :
    ({ s.note i with due := s.due ++ [(evt, d)] } : Audit φ).Books := by
  have halert : i.decision.any (·.2.isAlert) = d.isAlert := by
    rw [hdecision]
    rfl
  have hcounted : s.engine.stats.Counted i.verdict d.isAlert i.engine.stats := by
    rw [hverdict, hstats]
    exact FirewallStats.decided_counted _ d
  have hbooks := note_counted h henabled halert hcounted fun hd => by
    rw [hverdict, FirewallDecision.shouldPass_of_alert hd]
  rwa [hdecision] at hbooks

omit [FirewallFloat φ] in
/-- A packet that was refused and not shown. -/
theorem note_malformed (h : s.Books) (henabled : s.engine.config.enabled = true)
    {i : Inspection φ} (hdecision : i.decision = none) (hverdict : i.verdict = false)
    (hstats : i.engine.stats = { s.engine.stats with
      packetsInspected := s.engine.stats.packetsInspected + 1
      packetsDropped := s.engine.stats.packetsDropped + 1 }) :
    ({ s.note i with due := s.due ++ [] } : Audit φ).Books := by
  have hcounted : s.engine.stats.Counted i.verdict false i.engine.stats := by
    rw [hverdict, hstats]
    exact ⟨rfl, (UInt64.add_zero _).symm, rfl, (UInt64.add_zero _).symm, rfl⟩
  have hbooks := note_counted h henabled (by rw [hdecision]; rfl) hcounted nofun
  rwa [hdecision] at hbooks

omit [FirewallFloat φ] in
/-- A packet that was looked at with the firewall off. -/
theorem note_off (h : s.Books) (hdisabled : s.engine.config.enabled = false)
    {i : Inspection φ} (hdecision : i.decision = none) (hstats : i.engine.stats = s.engine.stats) :
    ({ s.note i with due := s.due ++ [] } : Audit φ).Books := by
  rw [note, if_neg (by rw [hdisabled]; decide)]
  refine ⟨hstats ▸ h.inspected, hstats ▸ h.passed, hstats ▸ h.dropped, hstats ▸ h.alerted,
    hstats ▸ h.failed, h.total, h.alerts_le, ?_⟩
  show s.seen ++ i.decision.toList = s.due ++ []
  rw [hdecision, h.shown]
  rfl

/-- An inspection keeps the books, whatever the packet. -/
theorem inspected_books (h : s.Books) (hpools : s.engine.PoolsFree) (stampUs nowUs : UInt64)
    (p : Submission) : (s.inspected stampUs nowUs p).Books := by
  rw [inspected, FirewallEngine.decisionDue]
  cases henabled : s.engine.config.enabled with
  | false =>
    obtain ⟨hdecision, -, hstats⟩ := FirewallEngine.inspect_off (p := p) henabled
    rw [if_neg Bool.false_ne_true]
    exact note_off h henabled hdecision hstats
  | true =>
    rw [if_pos rfl]
    cases hevent : p.event stampUs with
    | none =>
      obtain ⟨hdecision, hverdict, hstats⟩ :=
        FirewallEngine.inspect_malformed henabled hpools hevent
      exact note_malformed h henabled hdecision hverdict hstats
    | some evt =>
      obtain ⟨hdecision, hverdict, hstats⟩ :=
        FirewallEngine.inspect_wellFormed henabled hpools hevent
      exact note_decided h henabled hdecision hverdict hstats

theorem inspected_pools (hpools : s.engine.PoolsFree) (stampUs nowUs : UInt64) (p : Submission) :
    (s.inspected stampUs nowUs p).engine.PoolsFree := by
  obtain ⟨hevents, hdecisions⟩ := s.engine.inspectSubmission_pools stampUs nowUs p
  have hengine : (s.inspected stampUs nowUs p).engine =
      (s.engine.inspectSubmission stampUs nowUs p).engine := by
    rw [inspected, note]
    split <;> rfl
  rw [hengine]
  exact ⟨hevents.trans hpools.event, hdecisions.trans hpools.decision⟩

/-- **Every call keeps the books, and leaves no object in use.** -/
theorem serve_books [RuleSort] (s : Audit φ) (c : FirewallCall φ)
    (h : s.Books ∧ s.engine.PoolsFree) :
    (s.serve c).Books ∧ (s.serve c).engine.PoolsFree := by
  obtain ⟨hbooks, hpools⟩ := h
  cases c with
  | manage op =>
    refine ⟨manage_books hbooks op, ?_⟩
    rw [serve, manage_engine]
    exact FirewallEngine.poolsFree_step s.engine op.val hpools
  | inspect p stampUs nowUs callback =>
    have hbooks' := inspected_books hbooks hpools stampUs nowUs p
    have hpools' := inspected_pools hpools stampUs nowUs p
    rw [serve]
    split
    · exact ⟨hbooks', hpools'⟩
    · exact react_books _ hbooks' hpools'

/-! ## Runs -/

/-- A new engine, of which nothing has been seen. -/
def start (config : FirewallConfig φ) (now : Nat) (loads : Bool) : Audit φ where
  engine := FirewallEngine.create config now loads

theorem start_books (config : FirewallConfig φ) (now : Nat) (loads : Bool) :
    (start config now loads).Books := by
  have hstats : (FirewallEngine.create config now loads).stats = {} := by
    rw [FirewallEngine.create]
    split
    · rw [FirewallEngine.enableAi]
      split <;> rfl
    · rfl
  refine ⟨?_, ?_, ?_, ?_, ?_, rfl, Nat.le_refl _, rfl⟩ <;>
    exact (congrArg _ hstats).trans rfl

/-- The accounts are complete: the books are right, every packet is passed or dropped,
alerts are passed, and no object is in use. -/
structure Complete (s : Audit φ) : Prop where
  books : s.Books
  total : s.engine.stats.packetsInspected =
    s.engine.stats.packetsPassed + s.engine.stats.packetsDropped
  /-- The counters have 64 bits. -/
  alerted_le : s.calls < 2 ^ 64 → s.engine.stats.packetsAlerted ≤ s.engine.stats.packetsPassed
  pools : s.engine.PoolsFree

omit [FirewallFloat φ] in
theorem Books.complete (h : s.Books) (hpools : s.engine.PoolsFree) : s.Complete := by
  refine ⟨h, ?_, fun hlt => ?_, hpools⟩
  · rw [h.inspected, h.passed, h.dropped, h.total, UInt64.ofNat_add]
  · have htotal := h.total
    have hle := h.alerts_le
    rw [h.alerted, h.passed, UInt64.le_iff_toNat_le, UInt64.toNat_ofNat', UInt64.toNat_ofNat',
      Nat.mod_eq_of_lt (by omega), Nat.mod_eq_of_lt (by omega)]
    exact hle

/-- **The accounts are complete after every run**, whatever the packets, the rules, the
answers of the model and the calls of the callbacks. -/
theorem accounting_complete [RuleSort] (config : FirewallConfig φ) (now : Nat) (loads : Bool)
    (calls : List (FirewallCall φ)) :
    (GuardedRun.run serve (start config now loads) calls).Complete := by
  obtain ⟨hbooks, hpools⟩ := GuardedRun.run_invariant serve_books
    ⟨start_books config now loads, FirewallEngine.poolsFree_create config now loads⟩ calls
  exact hbooks.complete hpools

end Audit
end NeuStack
