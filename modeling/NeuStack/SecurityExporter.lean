import NeuStack.FirewallRun

/-! # The security data set

`SecurityExporter::flush` appends a line on the window `SecurityMetrics` completed
last.  `tick` completes a window: it saves the counters of the current one in a
ring (`Ring`).  In the engine only its timer does so (`onTimer_windows`); packets
and inferences count in the current window (`Inspects.windows`).
-/
namespace NeuStack

/-! ## Snapshots -/

namespace SecurityMetrics

/-- `struct Snapshot`: the counters of the last window, and the totals from which the
rates and ratios are computed by division. -/
structure Snapshot where
  counters : Counters
  totalPackets : UInt64
  totalBytes : UInt64
  totalSyn : UInt64
  totalSynAck : UInt64
  totalRst : UInt64
  totalNewConn : UInt64
  windowSeconds : Nat
  deriving DecidableEq, Repr

/-- The sum of a counter over the current slot and the window. -/
def total (m : SecurityMetrics) (counter : Counters → UInt64) : UInt64 :=
  (m.window.take m.windowCount).foldl (fun n c => n + counter c) (counter m.current)

/-- The slot written last. -/
def latest (m : SecurityMetrics) : Counters :=
  m.window.getD ((m.windowIndex + windowSize - 1) % windowSize) {}

/-- `snapshot` -/
def snapshot (m : SecurityMetrics) : Snapshot where
  counters := if 0 < m.windowCount then m.latest else m.current
  totalPackets := m.total (·.packetsTotal)
  totalBytes := m.total (·.bytesTotal)
  totalSyn := m.total (·.synPackets)
  totalSynAck := m.total (·.synAckPackets)
  totalRst := m.total (·.rstPackets)
  totalNewConn := m.total (·.newConnections)
  windowSeconds := m.windowCount + 1

/-- What `tick` keeps of the past. -/
def windows (m : SecurityMetrics) : List Counters × Nat × Nat :=
  (m.window, m.windowIndex, m.windowCount)

/-- The ring after the windows `done` are completed. -/
structure Ring (m : SecurityMetrics) (done : List Counters) : Prop where
  length : m.window.length = windowSize
  index : m.windowIndex < windowSize
  count : m.windowCount = min done.length windowSize
  latest : ∀ c ∈ done.getLast?, m.latest = c

variable {m m' : SecurityMetrics} {done : List Counters}

theorem ring_empty : Ring {} [] where
  length := List.length_replicate
  index := by decide
  count := rfl
  latest := fun _ hc => nomatch hc

theorem Ring.congr (h : Ring m done) (heq : m'.windows = m.windows) : Ring m' done := by
  obtain ⟨hwindow, hrest⟩ := Prod.mk.inj heq
  obtain ⟨hindex, hcount⟩ := Prod.mk.inj hrest
  refine ⟨hwindow ▸ h.length, hindex ▸ h.index, hcount ▸ h.count, fun c hc => ?_⟩
  rw [SecurityMetrics.latest, hwindow, hindex]
  exact h.latest c hc

/-- The slot behind the index that moved on is the one just written. -/
theorem latest_tick (hlength : m.window.length = windowSize) (hindex : m.windowIndex < windowSize) :
    m.tick.latest = m.current := by
  have hback : ((m.windowIndex + 1) % windowSize + windowSize - 1) % windowSize = m.windowIndex := by
    rw [show windowSize = 10 from rfl] at hindex ⊢
    omega
  rw [latest, show m.tick.windowIndex = (m.windowIndex + 1) % windowSize from rfl, hback,
    show m.tick.window = m.window.set m.windowIndex m.current from rfl, List.getD_eq_getElem?_getD,
    List.getElem?_set_self (hlength ▸ hindex), Option.getD_some]

theorem Ring.tick (h : Ring m done) : Ring m.tick (done ++ [m.current]) where
  length := List.length_set.trans h.length
  index := Nat.mod_lt _ (by decide)
  count := by
    show min (m.windowCount + 1) windowSize = _
    rw [h.count, List.length_append, List.length_singleton]
    omega
  latest := by
    intro c hc
    rw [List.getLast?_concat] at hc
    exact (latest_tick h.length h.index).trans (Option.mem_some.mp hc)

/-- A snapshot shows the window completed last. -/
theorem Ring.snapshot (h : Ring m done) {c : Counters} (hc : c ∈ done.getLast?) :
    m.snapshot.counters = c := by
  have hpos : 0 < m.windowCount := by
    rw [h.count]
    have : done.length ≠ 0 := by
      rintro hnil
      rw [List.length_eq_zero_iff.mp hnil] at hc
      cases hc
    have : 0 < windowSize := by decide
    omega
  exact (if_pos hpos).trans (h.latest c hc)

end SecurityMetrics

/-! ## The exporter -/

/-- A line of the file.  `window`, the number of windows completed by then, is not
written; it tells the windows apart. -/
structure SecurityRow where
  timestampMs : Nat
  snapshot : SecurityMetrics.Snapshot
  label : Int
  window : Nat
  deriving DecidableEq, Repr

/-- `class SecurityExporter`, with the lines it appended to the file. -/
structure SecurityExporter where
  isOpen : Bool
  rows : List SecurityRow := []
  rowsWritten : UInt64 := 0

namespace SecurityExporter

/-- `flush(label = 0)` -/
def flush (x : SecurityExporter) (metrics : SecurityMetrics) (window nowMs : Nat)
    (label : Int := 0) : SecurityExporter :=
  if !x.isOpen then x else { x with
    rows := x.rows ++ [⟨nowMs, metrics.snapshot, label, window⟩]
    rowsWritten := x.rowsWritten + 1 }

theorem flush_closed {x : SecurityExporter} (h : x.isOpen = false) (metrics : SecurityMetrics)
    (window nowMs : Nat) (label : Int) : x.flush metrics window nowMs label = x := by
  rw [flush, h]
  rfl

theorem flush_open {x : SecurityExporter} (h : x.isOpen = true) (metrics : SecurityMetrics)
    (window nowMs : Nat) (label : Int) :
    (x.flush metrics window nowMs label).rows =
      x.rows ++ [⟨nowMs, metrics.snapshot, label, window⟩] := by
  rw [flush, h]
  rfl

theorem flush_isOpen (x : SecurityExporter) (metrics : SecurityMetrics) (window nowMs : Nat)
    (label : Int) : (x.flush metrics window nowMs label).isOpen = x.isOpen := by
  rw [flush]
  split <;> rfl

end SecurityExporter

/-! ## Windows of the engine -/

namespace FirewallAI
variable {φ : Type} [FirewallFloat φ]

omit [FirewallFloat φ] in
theorem countAnomaly_windows (ai : FirewallAI φ) (anomalyMs : UInt64) :
    (ai.countAnomaly anomalyMs).metrics.windows = ai.metrics.windows := by
  rw [countAnomaly]
  split <;> rfl

theorem recordResult_windows (ai : FirewallAI φ) (score : φ) (isAnomaly : Bool)
    (anomalyMs : UInt64) :
    (ai.recordResult score isAnomaly anomalyMs).metrics.windows = ai.metrics.windows := by
  cases isAnomaly with
  | true => exact countAnomaly_windows _ anomalyMs
  | false => rfl

omit [FirewallFloat φ] in
theorem escalate_metrics (ai : FirewallAI φ) (isAnomaly : Bool) (currentMs : UInt64) :
    (ai.escalate isAnomaly currentMs).metrics = ai.metrics := by
  rw [escalate]
  dsimp only
  split <;> split <;> rfl

/-- An inference completes no window. -/
theorem runInference_windows (ai : FirewallAI φ) (inf : Inference φ) :
    (ai.runInference inf).metrics.windows = ai.metrics.windows := by
  rw [runInference]
  split
  · rfl
  split
  · rfl
  split
  · rfl
  · dsimp only
    split
    · rw [escalate_metrics, recordResult_windows]
    · exact recordResult_windows ..

end FirewallAI

namespace FirewallEngine
variable {φ : Type}

/-- The past windows of the detector. -/
def windows (e : FirewallEngine φ) : Option (List SecurityMetrics.Counters × Nat × Nat) :=
  e.ai.map (·.metrics.windows)

/-- The condition under which `on_timer` calls `tick`. -/
def tickDue (e : FirewallEngine φ) (now : Nat) : Bool :=
  e.ai.isSome && 1000 ≤ (now - e.lastTickTime) / 1000000

theorem tickDue_of_isSome {e : FirewallEngine φ} (hai : e.ai.isSome = true) (now : Nat) :
    e.tickDue now = decide (1000 ≤ (now - e.lastTickTime) / 1000000) := by
  rw [tickDue, hai, Bool.true_and]

theorem windows_of_some (e : FirewallEngine φ) {ai : FirewallAI φ} (hai : e.ai = some ai) :
    e.windows = some ai.metrics.windows := by
  rw [windows, hai]
  rfl

theorem windows_map (e : FirewallEngine φ) {f : FirewallAI φ → FirewallAI φ}
    (hf : ∀ ai, (f ai).metrics.windows = ai.metrics.windows) :
    ({ e with ai := e.ai.map f } : FirewallEngine φ).windows = e.windows := by
  show (e.ai.map f).map (fun ai => ai.metrics.windows) = e.ai.map fun ai => ai.metrics.windows
  rw [Option.map_map]
  exact congrArg (e.ai.map ·) (funext hf)

variable [FirewallFloat φ] {e : FirewallEngine φ} {nowUs : UInt64}

theorem judge_windows (e : FirewallEngine φ) (evt : PacketEvent) (nowUs : UInt64) :
    (e.judge evt nowUs).engine.windows = e.windows ∧
      (e.judge evt nowUs).engine.lastTickTime = e.lastTickTime := by
  have hcount := windows_map e (f := fun ai => ai.recordPacket evt) fun _ => rfl
  rw [judge]
  cases e.decisionPool.acquire with
  | none => exact ⟨hcount, rfl⟩
  | some pool =>
    simp only [evaluate_engine]
    exact ⟨hcount, rfl⟩

/-- No packet completes a window. -/
theorem Inspects.windows {i : Inspection φ} (h : Inspects e nowUs i) :
    i.engine.windows = e.windows ∧ i.engine.lastTickTime = e.lastTickTime := by
  cases h with
  | off | failed | malformed => exact ⟨rfl, rfl⟩
  | observed hai hpool evt =>
    cases evt with
    | none => exact ⟨rfl, rfl⟩
    | some evt =>
      refine ⟨?_, rfl⟩
      show some _ = e.ai.map _
      rw [hai]
      rfl
  | judged hpool evt => exact judge_windows { e with eventPool := _ } evt nowUs

omit [FirewallFloat φ] in
theorem timerTick_windows (e : FirewallEngine φ) (now : Nat) (hai : e.ai.isSome = true) :
    (e.timerTick now).windows =
        (if e.tickDue now then e.ai.map (·.metrics.tick.windows) else e.windows) ∧
      (e.timerTick now).lastTickTime = if e.tickDue now then now else e.lastTickTime := by
  rw [timerTick, tickDue_of_isSome hai]
  by_cases hdue : 1000 ≤ (now - e.lastTickTime) / 1000000
  · rw [if_pos hdue, if_pos (decide_eq_true hdue), if_pos (decide_eq_true hdue)]
    exact ⟨Option.map_map .., rfl⟩
  · rw [if_neg hdue, if_neg (mt of_decide_eq_true hdue), if_neg (mt of_decide_eq_true hdue)]
    exact ⟨rfl, rfl⟩

theorem timerInference_windows (e : FirewallEngine φ) (now : Nat) (inf : Inference φ) :
    (e.timerInference now inf).windows = e.windows ∧
      (e.timerInference now inf).lastTickTime = e.lastTickTime := by
  rw [timerInference]
  cases hai : e.ai with
  | none => exact ⟨rfl, rfl⟩
  | some ai =>
    dsimp only
    split
    · refine ⟨?_, rfl⟩
      rw [windows, windows, hai]
      exact congrArg some (ai.runInference_windows inf)
    · exact ⟨rfl, rfl⟩

/-- The timer completes a window when a second has passed on its clock. -/
theorem onTimer_windows (e : FirewallEngine φ) (now : Nat) (inf : Inference φ) :
    (e.onTimer now inf).windows =
        (if e.tickDue now then e.ai.map (·.metrics.tick.windows) else e.windows) ∧
      (e.onTimer now inf).lastTickTime = if e.tickDue now then now else e.lastTickTime := by
  rw [onTimer]
  cases hai : e.ai.isNone with
  | true =>
    have hdue : e.tickDue now = false := by rw [tickDue, Option.isNone_iff_eq_none.mp hai]; rfl
    rw [hdue]
    exact ⟨rfl, rfl⟩
  | false =>
    obtain ⟨hwindows, htime⟩ := e.timerTick_windows now (Option.isNone_eq_false_iff.mp hai)
    obtain ⟨hwindows', htime'⟩ := (e.timerTick now).timerInference_windows now inf
    exact ⟨hwindows'.trans hwindows, htime'.trans htime⟩

end FirewallEngine

end NeuStack
