import NeuStack.PacketInspection
import NeuStack.PeriodReports
import NeuStack.SecurityExporter

/-! # The event loop and the security data set

Of an iteration of `NeuStack::run` the parts that the security data depend on: the
firewall sees the packets; every 100 ms its timer runs, and every tenth time the
exporter writes a line with the configured label; every second the timer runs and
the exporter writes a line with its default label, 0.  Windows are completed by the
firewall's timer, on a clock of its own.

The loop is that of a stack with a firewall and a directory for its data
(`start`).  Which windows an iteration completes, and which lines it writes, is
known beforehand from its clocks (`events`, `journal_step`); the data set stays
sound as long as these come in time (`sound_iff`).
-/
namespace NeuStack
open PeriodReports

/-- `struct StackConfig`, as far as the collection of security data goes by it. -/
structure StackConfig (φ : Type) where
  firewallShadowMode : Bool := true
  securityModelPath : String := ""
  securityThreshold : φ
  securityLabel : Int := 0

/-- The firewall `initialize` creates; whether the model can be loaded is asked twice. -/
def StackConfig.firewall {φ : Type} [FirewallFloat φ] (config : StackConfig φ) (now : Nat)
    (loads loads' : Bool) : FirewallEngine φ :=
  let aiEnabled : Bool := config.securityModelPath ≠ ""
  let e := FirewallEngine.create
    { shadowMode := config.firewallShadowMode
      aiEnabled
      aiModelPath := config.securityModelPath
      aiThreshold := FirewallFloat.zero } now loads
  let e := if aiEnabled then
      (e.enableAi config.securityModelPath config.securityThreshold loads').1
    else e
  match e.ai with
  | some _ => e
  | none => { e with ai := some (FirewallAI.create
      { anomalyThreshold := FirewallFloat.zero, shadowMode := config.firewallShadowMode } false) }

/-- What `NeuStack::run` keeps; times are in nanoseconds.  `completed` are the windows
completed so far. -/
structure EventLoop (φ : Type) where
  config : StackConfig φ
  firewall : FirewallEngine φ
  securityExporter : SecurityExporter
  securityTickCount : UInt32 := 0
  lastTimer : Nat
  lastFwTimer : Nat
  completed : List SecurityMetrics.Counters := []

/-- A packet, and what the clock shows while it is inspected. -/
structure ReceivedPacket where
  mem : Memory
  len : Nat
  stampUs : UInt64
  nowUs : UInt64

/-- What a timer reads: the clock in `FirewallEngine::on_timer`, the model, and the clock
in `flush`. -/
structure TimerInput (φ : Type) where
  now : Nat
  inf : Inference φ
  flushMs : Nat

/-- What one iteration reads. -/
structure LoopInput (φ : Type) where
  packets : List ReceivedPacket
  now : Nat
  timer : TimerInput φ
  fwTimer : TimerInput φ

namespace EventLoop
variable {φ : Type} [FirewallFloat φ]

/-! ## One iteration -/

/-- The packets of the iteration; what becomes of them behind the firewall does not matter
here. -/
def receive (s : EventLoop φ) (packets : List ReceivedPacket) : EventLoop φ :=
  { s with
    firewall := packets.foldl
      (fun e p => (e.inspect p.mem p.len p.stampUs p.nowUs).value.engine) s.firewall }

/-- The window `on_timer` completes, if it does. -/
def completing (e : FirewallEngine φ) (now : Nat) : List SecurityMetrics.Counters :=
  if e.tickDue now then (e.ai.map (·.metrics.current)).toList else []

/-- `firewall->on_timer()` -/
def firewallTimer (s : EventLoop φ) (t : TimerInput φ) : EventLoop φ :=
  { s with
    firewall := s.firewall.onTimer t.now t.inf
    completed := s.completed ++ completing s.firewall t.now }

/-- `security_exporter->flush(label = 0)`; the exporter reads the detector's metrics. -/
def flush (s : EventLoop φ) (flushMs : Nat) (label : Int := 0) : EventLoop φ :=
  match s.firewall.ai with
  | none => s
  | some ai => { s with
      securityExporter := s.securityExporter.flush ai.metrics s.completed.length flushMs label }

/-- The tenth 100 ms have passed. -/
def countTick (s : EventLoop φ) (flushMs : Nat) : EventLoop φ :=
  if 10 ≤ s.securityTickCount + 1 then
    ({ s with securityTickCount := 0 } : EventLoop φ).flush flushMs s.config.securityLabel
  else { s with securityTickCount := s.securityTickCount + 1 }

def timerDue (s : EventLoop φ) (now : Nat) : Bool := 100000000 ≤ now - s.lastTimer

def fwTimerDue (s : EventLoop φ) (now : Nat) : Bool := 1000000000 ≤ now - s.lastFwTimer

/-- The timer of 100 ms. -/
def timer (s : EventLoop φ) (x : LoopInput φ) : EventLoop φ :=
  if s.timerDue x.now then
    { (s.firewallTimer x.timer).countTick x.timer.flushMs with lastTimer := x.now }
  else s

/-- The timer of one second. -/
def fwTimer (s : EventLoop φ) (x : LoopInput φ) : EventLoop φ :=
  if s.fwTimerDue x.now then
    { (s.firewallTimer x.fwTimer).flush x.fwTimer.flushMs with lastFwTimer := x.now }
  else s

/-- An iteration of `run`. -/
def step (s : EventLoop φ) (x : LoopInput φ) : EventLoop φ :=
  ((s.receive x.packets).timer x).fwTimer x

/-- The loop before its first iteration. -/
def start (config : StackConfig φ) (created : Nat) (loads loads' isOpen : Bool)
    (lastTimer lastFwTimer : Nat) : EventLoop φ where
  config
  firewall := config.firewall created loads loads'
  securityExporter := { isOpen }
  lastTimer
  lastFwTimer

/-! ## What comes of an iteration -/

/-- A line, if the file is open. -/
def reports (s : EventLoop φ) (label : Int) : List (PeriodReports.Event Int) :=
  if s.securityExporter.isOpen then [.report label] else []

/-- What the timer of 100 ms does. -/
def timerEvents (s : EventLoop φ) (x : LoopInput φ) : List (PeriodReports.Event Int) :=
  if s.timerDue x.now then
    (if s.firewall.tickDue x.timer.now then [.close] else []) ++
      if 10 ≤ s.securityTickCount + 1 then s.reports s.config.securityLabel else []
  else []

/-- The last tick before the timer of one second. -/
def lastTick (s : EventLoop φ) (x : LoopInput φ) : Nat :=
  if s.timerDue x.now && s.firewall.tickDue x.timer.now then x.timer.now
  else s.firewall.lastTickTime

/-- What the timer of one second does. -/
def fwTimerEvents (s : EventLoop φ) (x : LoopInput φ) : List (PeriodReports.Event Int) :=
  if s.fwTimerDue x.now then
    (if 1000 ≤ (x.fwTimer.now - s.lastTick x) / 1000000 then [.close] else []) ++ s.reports 0
  else []

/-- The windows completed and the lines written in an iteration, by the clocks. -/
def events (s : EventLoop φ) (x : LoopInput φ) : List (PeriodReports.Event Int) :=
  s.timerEvents x ++ s.fwTimerEvents x

/-- The windows and the lines so far. -/
def journal (s : EventLoop φ) : Journal Int where
  closed := s.completed.length
  reports := s.securityExporter.rows.map fun row => (row.window, row.label)

variable {s : EventLoop φ} {x : LoopInput φ}

/-! ### The firewall -/

omit [FirewallFloat φ] in
theorem isSome_of_windows {e e' : FirewallEngine φ} (h : e'.windows = e.windows)
    (hai : e.ai.isSome = true) : e'.ai.isSome = true := by
  have hsome := congrArg Option.isSome h
  rwa [FirewallEngine.windows, FirewallEngine.windows, Option.isSome_map, Option.isSome_map, hai]
    at hsome

/-- Packets complete no window. -/
theorem receive_windows (s : EventLoop φ) (packets : List ReceivedPacket) :
    (s.receive packets).firewall.windows = s.firewall.windows ∧
      (s.receive packets).firewall.lastTickTime = s.firewall.lastTickTime := by
  rw [receive]
  dsimp only
  generalize s.firewall = e
  induction packets generalizing e with
  | nil => exact ⟨rfl, rfl⟩
  | cons p packets ih =>
    obtain ⟨hwindows, htime⟩ := (e.inspect_inspects p.mem p.len p.stampUs p.nowUs).windows
    obtain ⟨hwindows', htime'⟩ := ih (e.inspect p.mem p.len p.stampUs p.nowUs).value.engine
    exact ⟨hwindows'.trans hwindows, htime'.trans htime⟩

theorem isSome_receive (hai : s.firewall.ai.isSome = true) (packets : List ReceivedPacket) :
    (s.receive packets).firewall.ai.isSome = true :=
  isSome_of_windows (s.receive_windows packets).1 hai

theorem isSome_firewallTimer (hai : s.firewall.ai.isSome = true) (t : TimerInput φ) :
    (s.firewallTimer t).firewall.ai.isSome = true := by
  have hsome := congrArg Option.isSome (s.firewall.onTimer_windows t.now t.inf).1
  rw [FirewallEngine.windows, Option.isSome_map] at hsome
  refine hsome.trans ?_
  split
  · rw [Option.isSome_map, hai]
  · rw [FirewallEngine.windows, Option.isSome_map, hai]

theorem firewallTimer_journal (hai : s.firewall.ai.isSome = true) (t : TimerInput φ) :
    (s.firewallTimer t).journal = GuardedRun.run Journal.step s.journal
      (if s.firewall.tickDue t.now then [.close] else []) := by
  obtain ⟨ai, hsome⟩ := Option.isSome_iff_exists.mp hai
  rw [journal, firewallTimer, completing, hsome]
  cases s.firewall.tickDue t.now with
  | false => rw [if_neg Bool.false_ne_true, if_neg Bool.false_ne_true, List.append_nil]; rfl
  | true =>
    rw [if_pos rfl, if_pos rfl, List.length_append]
    rfl

/-! ### The exporter -/

omit [FirewallFloat φ] in
theorem flush_of_some {ai : FirewallAI φ} (hai : s.firewall.ai = some ai) (flushMs : Nat)
    (label : Int) : s.flush flushMs label = { s with
      securityExporter := s.securityExporter.flush ai.metrics s.completed.length flushMs label } := by
  rw [flush, hai]

omit [FirewallFloat φ] in
theorem flush_journal (hai : s.firewall.ai.isSome = true) (flushMs : Nat) (label : Int) :
    (s.flush flushMs label).journal =
      GuardedRun.run Journal.step s.journal (s.reports label) := by
  obtain ⟨ai, hsome⟩ := Option.isSome_iff_exists.mp hai
  rw [flush_of_some hsome, journal, reports]
  dsimp only
  cases hopen : s.securityExporter.isOpen with
  | false => rw [SecurityExporter.flush_closed hopen]; rfl
  | true =>
    rw [SecurityExporter.flush_open hopen, List.map_append]
    rfl

/-- What no step of the loop changes. -/
def fixed (s : EventLoop φ) : StackConfig φ × Bool := (s.config, s.securityExporter.isOpen)

omit [FirewallFloat φ] in
theorem flush_fixed (s : EventLoop φ) (flushMs : Nat) (label : Int) :
    (s.flush flushMs label).fixed = s.fixed := by
  rw [flush]
  split
  · rfl
  · exact Prod.ext rfl (SecurityExporter.flush_isOpen ..)

omit [FirewallFloat φ] in
theorem flush_clocks (s : EventLoop φ) (flushMs : Nat) (label : Int) :
    (s.flush flushMs label).firewall = s.firewall ∧
      (s.flush flushMs label).lastFwTimer = s.lastFwTimer := by
  rw [flush]
  split <;> exact ⟨rfl, rfl⟩

omit [FirewallFloat φ] in
theorem reports_congr {s' : EventLoop φ} (h : s'.fixed = s.fixed) (label : Int) :
    s'.reports label = s.reports label := by
  rw [reports, (Prod.mk.inj h).2, reports]

/-! ### The timers -/

omit [FirewallFloat φ] in
theorem countTick_journal (hai : s.firewall.ai.isSome = true) (flushMs : Nat) :
    (s.countTick flushMs).journal = GuardedRun.run Journal.step s.journal
      (if 10 ≤ s.securityTickCount + 1 then s.reports s.config.securityLabel else []) := by
  rw [countTick]
  split
  · exact flush_journal (s := { s with securityTickCount := 0 }) hai _ _
  · rfl

omit [FirewallFloat φ] in
theorem countTick_frame (s : EventLoop φ) (flushMs : Nat) :
    (s.countTick flushMs).fixed = s.fixed ∧ (s.countTick flushMs).firewall = s.firewall ∧
      (s.countTick flushMs).lastFwTimer = s.lastFwTimer := by
  rw [countTick]
  split
  · exact ⟨flush_fixed _ _ _, flush_clocks _ _ _⟩
  · exact ⟨rfl, rfl, rfl⟩

theorem timer_journal (hai : s.firewall.ai.isSome = true) (x : LoopInput φ) :
    (s.timer x).journal = GuardedRun.run Journal.step s.journal (s.timerEvents x) := by
  rw [timer, timerEvents]
  split
  · refine (countTick_journal (isSome_firewallTimer hai x.timer) x.timer.flushMs).trans ?_
    rw [firewallTimer_journal hai, GuardedRun.run_append]
    rfl
  · rfl

theorem timer_frame (hai : s.firewall.ai.isSome = true) (x : LoopInput φ) :
    (s.timer x).fixed = s.fixed ∧ (s.timer x).lastFwTimer = s.lastFwTimer ∧
      (s.timer x).firewall.ai.isSome = true ∧
      (s.timer x).firewall.lastTickTime = s.lastTick x := by
  rw [timer, lastTick]
  cases s.timerDue x.now with
  | false => exact ⟨rfl, rfl, hai, rfl⟩
  | true =>
    obtain ⟨hfixed, hfirewall, hlast⟩ := (s.firewallTimer x.timer).countTick_frame x.timer.flushMs
    rw [if_pos rfl, Bool.true_and]
    refine ⟨hfixed, hlast, ?_, ?_⟩
    · exact (congrArg (·.ai.isSome) hfirewall).trans (isSome_firewallTimer hai x.timer)
    · exact (congrArg (·.lastTickTime) hfirewall).trans
        (s.firewall.onTimer_windows x.timer.now x.timer.inf).2

theorem fwTimer_journal (hai : s.firewall.ai.isSome = true) (x : LoopInput φ) :
    (s.fwTimer x).journal = GuardedRun.run Journal.step s.journal
      (if s.fwTimerDue x.now then
        (if s.firewall.tickDue x.fwTimer.now then [.close] else []) ++ s.reports 0
      else []) := by
  rw [fwTimer]
  split
  · refine (flush_journal (isSome_firewallTimer hai x.fwTimer) _ 0).trans ?_
    rw [firewallTimer_journal hai, GuardedRun.run_append]
    rfl
  · rfl

theorem fwTimer_frame (hai : s.firewall.ai.isSome = true) (x : LoopInput φ) :
    (s.fwTimer x).fixed = s.fixed ∧ (s.fwTimer x).firewall.ai.isSome = true := by
  rw [fwTimer]
  split
  · refine ⟨flush_fixed _ _ _, ?_⟩
    rw [show EventLoop.firewall _ = (EventLoop.flush _ _ _).firewall from rfl, (flush_clocks ..).1]
    exact isSome_firewallTimer hai x.fwTimer
  · exact ⟨rfl, hai⟩

/-- The packets of an iteration do not change what it will write. -/
theorem receive_events (hai : s.firewall.ai.isSome = true) (packets : List ReceivedPacket)
    (x : LoopInput φ) : (s.receive packets).timerEvents x = s.timerEvents x ∧
      (s.receive packets).lastTick x = s.lastTick x := by
  have htick (now : Nat) : (s.receive packets).firewall.tickDue now = s.firewall.tickDue now := by
    rw [FirewallEngine.tickDue_of_isSome (isSome_receive hai packets), (s.receive_windows packets).2,
      FirewallEngine.tickDue_of_isSome hai]
  constructor
  · rw [timerEvents, htick]
    rfl
  · rw [lastTick, htick, (s.receive_windows packets).2]
    rfl

/-- **An iteration writes what its clocks tell.** -/
theorem journal_step (hai : s.firewall.ai.isSome = true) (x : LoopInput φ) :
    (s.step x).journal = GuardedRun.run Journal.step s.journal (s.events x) := by
  obtain ⟨htimer, hlast⟩ := receive_events hai x.packets x
  have hreceived : (s.receive x.packets).firewall.ai.isSome = true := isSome_receive hai x.packets
  obtain ⟨hfixed, hfw, htimed, htick⟩ := timer_frame hreceived x
  rw [step, fwTimer_journal htimed, timer_journal hreceived, htimer, events,
    GuardedRun.run_append, FirewallEngine.tickDue_of_isSome htimed, htick, hlast,
    reports_congr hfixed, fwTimerDue, hfw, fwTimerEvents, fwTimerDue]
  simp only [decide_eq_true_eq]
  rfl

theorem step_frame (hai : s.firewall.ai.isSome = true) (x : LoopInput φ) :
    (s.step x).fixed = s.fixed ∧ (s.step x).firewall.ai.isSome = true := by
  obtain ⟨hfixed, -, htimed, -⟩ := timer_frame (isSome_receive hai x.packets) x
  obtain ⟨hfixed', hnext⟩ := fwTimer_frame htimed x
  exact ⟨hfixed'.trans hfixed, hnext⟩

/-! ## Sound data -/

/-- Every line carries the configured label, and every completed window has one line; the
last one may still wait for its own. -/
structure OneRowPerWindow (s : EventLoop φ) : Prop where
  label : ∀ row ∈ s.securityExporter.rows, row.label = s.config.securityLabel
  once : ∀ n, 0 < n → n < s.completed.length →
    s.securityExporter.rows.countP (·.window = n) = 1
  last : 0 < s.completed.length →
    s.securityExporter.rows.countP (·.window = s.completed.length) ≤ 1

/-- All that the clocks of the iteration set off comes in time: no window is completed
before the last one has its line, no line is written on a window that has one, and none
with another label. -/
def InTime (s : EventLoop φ) (x : LoopInput φ) : Prop :=
  GuardedRun.Meets Journal.step (Journal.Due (· = s.config.securityLabel)) s.journal (s.events x)

omit [FirewallFloat φ] in
theorem journal_on (s : EventLoop φ) (n : Nat) :
    s.journal.on n = s.securityExporter.rows.countP (·.window = n) :=
  List.countP_map

omit [FirewallFloat φ] in
theorem oneRowPerWindow_iff :
    s.OneRowPerWindow ↔ s.journal.Complete (· = s.config.securityLabel) := by
  constructor
  · rintro ⟨hlabel, honce, hlast⟩
    refine ⟨List.forall_mem_map.mpr hlabel, fun n hpos hn => ?_, fun hpos => ?_⟩
    · exact (s.journal_on n).trans (honce n hpos hn)
    · exact (s.journal_on _).trans_le (hlast hpos)
  · rintro ⟨hlabel, honce, hlast⟩
    refine ⟨List.forall_mem_map.mp hlabel, fun n hpos hn => ?_, fun hpos => ?_⟩
    · exact (s.journal_on n).symm.trans (honce n hpos hn)
    · exact (s.journal_on _).symm.trans_le (hlast hpos)

/-- There is a detector, and no line is on a window to come. -/
structure Collecting (s : EventLoop φ) : Prop where
  ai : s.firewall.ai.isSome = true
  dated : s.journal.Dated

theorem Collecting.step (h : s.Collecting) (x : LoopInput φ) : (s.step x).Collecting where
  ai := (step_frame h.ai x).2
  dated := journal_step h.ai x ▸ h.dated.run _

/-- A detector that was just installed has seen nothing. -/
theorem enableAi_metrics (e : FirewallEngine φ) (modelPath : String) (threshold : φ)
    (loads : Bool) {ai : FirewallAI φ} (hai : (e.enableAi modelPath threshold loads).1.ai = some ai) :
    ai.metrics = {} := by
  rw [FirewallEngine.enableAi] at hai
  split at hai
  · cases hai
    rfl
  · cases hai

theorem create_metrics (config : FirewallConfig φ) (now : Nat) (loads : Bool) {ai : FirewallAI φ}
    (hai : (FirewallEngine.create config now loads).ai = some ai) : ai.metrics = {} := by
  rw [FirewallEngine.create] at hai
  split at hai
  · exact enableAi_metrics _ _ _ _ hai
  · cases hai

theorem firewall_metrics (config : StackConfig φ) (created : Nat) (loads loads' : Bool) :
    ∃ ai, (config.firewall created loads loads').ai = some ai ∧ ai.metrics = {} := by
  rw [StackConfig.firewall]
  split
  · next ai hai =>
    refine ⟨ai, hai, ?_⟩
    split at hai
    · exact enableAi_metrics _ _ _ _ hai
    · exact create_metrics _ _ _ hai
  · exact ⟨_, rfl, rfl⟩

theorem collecting_start (config : StackConfig φ) (created : Nat) (loads loads' isOpen : Bool)
    (lastTimer lastFwTimer : Nat) :
    (start config created loads loads' isOpen lastTimer lastFwTimer).Collecting where
  ai := by
    obtain ⟨ai, hai, -⟩ := firewall_metrics config created loads loads'
    exact Option.isSome_iff_exists.mpr ⟨ai, hai⟩
  dated := Journal.dated_empty

theorem oneRowPerWindow_start (config : StackConfig φ) (created : Nat)
    (loads loads' isOpen : Bool) (lastTimer lastFwTimer : Nat) :
    (start config created loads loads' isOpen lastTimer lastFwTimer).OneRowPerWindow :=
  oneRowPerWindow_iff.mpr Journal.complete_empty

/-- An iteration keeps the data sound exactly if all comes in time. -/
theorem oneRowPerWindow_step_iff (hc : s.Collecting) (h : s.OneRowPerWindow) (x : LoopInput φ) :
    (s.step x).OneRowPerWindow ↔ s.InTime x := by
  have hconfig : (s.step x).config = s.config := (Prod.mk.inj (step_frame hc.ai x).1).1
  rw [oneRowPerWindow_iff, hconfig, journal_step hc.ai]
  exact Journal.complete_run_iff hc.dated (oneRowPerWindow_iff.mp h) _

/-- **The data set has one correctly labelled line for each window as long as every
iteration is in time.** -/
theorem sound_iff (config : StackConfig φ) (created : Nat) (loads loads' isOpen : Bool)
    (lastTimer lastFwTimer : Nat) (xs : List (LoopInput φ)) :
    (∀ ys, ys <+: xs → (GuardedRun.run step
        (start config created loads loads' isOpen lastTimer lastFwTimer) ys).OneRowPerWindow) ↔
      GuardedRun.Meets step InTime
        (start config created loads loads' isOpen lastTimer lastFwTimer) xs := by
  have hc := collecting_start config created loads loads' isOpen lastTimer lastFwTimer
  constructor
  · exact GuardedRun.meets_of_always (P := OneRowPerWindow) (Q := Collecting)
      (fun s x hs => hs.step x) (fun s x hs hrow => (oneRowPerWindow_step_iff hs hrow x).mp) hc
  · intro hmeets ys hys
    refine (hmeets.always (P := fun s => s.Collecting ∧ s.OneRowPerWindow) ?_
      ⟨hc, oneRowPerWindow_start ..⟩ ys hys).2
    exact fun s x _ hs hok => ⟨hs.1.step x, (oneRowPerWindow_step_iff hs.1 hs.2 x).mpr hok⟩

/-- A second without packets, in a stack that collects anomalous traffic. -/
def quietSecond : LoopInput Unit where
  packets := []
  now := 1000000000
  timer := ⟨1000000000, ⟨none, 0, 0⟩, 0⟩
  fwTimer := ⟨1000000000, ⟨none, 0, 0⟩, 0⟩

/-- The line written after a second is labelled as normal. -/
theorem mislabelled : ¬ ∀ ys, ys <+: [quietSecond] → (GuardedRun.run step
    (start { securityThreshold := (), securityLabel := 1 } 0 false false true 0 0)
      ys).OneRowPerWindow := by
  intro h
  have hlabel := (h [quietSecond] (List.prefix_refl _)).label
  revert hlabel
  decide +kernel

/-! ## What the lines say -/

/-- The detector's ring holds the completed windows, and a line has the counters of the
window it is on. -/
structure Faithful (s : EventLoop φ) : Prop where
  ring : ∃ ai, s.firewall.ai = some ai ∧ ai.metrics.Ring s.completed
  rows : ∀ row ∈ s.securityExporter.rows, 0 < row.window →
    s.completed[row.window - 1]? = some row.snapshot.counters

omit [FirewallFloat φ] in
theorem ring_of_windows {e : FirewallEngine φ} {done : List SecurityMetrics.Counters}
    {m : SecurityMetrics} (hring : m.Ring done) (h : e.windows = some m.windows) :
    ∃ ai, e.ai = some ai ∧ ai.metrics.Ring done := by
  obtain ⟨ai, hai, hwindows⟩ := Option.map_eq_some_iff.mp h
  exact ⟨ai, hai, hring.congr hwindows⟩

theorem Faithful.receive (h : s.Faithful) (packets : List ReceivedPacket) :
    (s.receive packets).Faithful where
  ring := by
    obtain ⟨ai, hai, hring⟩ := h.ring
    exact ring_of_windows hring
      ((s.receive_windows packets).1.trans (s.firewall.windows_of_some hai))
  rows := h.rows

theorem Faithful.firewallTimer (h : s.Faithful) (t : TimerInput φ) :
    (s.firewallTimer t).Faithful where
  ring := by
    obtain ⟨ai, hai, hring⟩ := h.ring
    have hwindows := (s.firewall.onTimer_windows t.now t.inf).1
    rw [EventLoop.firewallTimer, completing]
    cases hdue : s.firewall.tickDue t.now with
    | false =>
      rw [hdue, if_neg Bool.false_ne_true, s.firewall.windows_of_some hai] at hwindows
      rw [if_neg Bool.false_ne_true, List.append_nil]
      exact ring_of_windows hring hwindows
    | true =>
      rw [hdue, if_pos rfl, hai] at hwindows
      rw [if_pos rfl, hai]
      exact ring_of_windows hring.tick hwindows
  rows := by
    intro row hrow hpos
    have hget := h.rows row hrow hpos
    obtain ⟨hlt, -⟩ := List.getElem?_eq_some_iff.mp hget
    exact (List.getElem?_append_left hlt).trans hget

omit [FirewallFloat φ] in
theorem Faithful.flush (h : s.Faithful) (flushMs : Nat) (label : Int) :
    (s.flush flushMs label).Faithful := by
  obtain ⟨ai, hai, hring⟩ := h.ring
  rw [flush_of_some hai]
  refine ⟨⟨ai, hai, hring⟩, fun row hrow hpos => ?_⟩
  cases hopen : s.securityExporter.isOpen with
  | false =>
    rw [SecurityExporter.flush_closed hopen] at hrow
    exact h.rows row hrow hpos
  | true =>
    rw [SecurityExporter.flush_open hopen] at hrow
    rcases List.mem_append.mp hrow with hold | hnew
    · exact h.rows row hold hpos
    · rw [List.mem_singleton.mp hnew] at hpos ⊢
      have hlast : s.completed ≠ [] := List.ne_nil_of_length_pos hpos
      have hget := List.getLast?_eq_some_getLast hlast
      rw [hring.snapshot hget, ← List.getLast?_eq_getElem?, hget]

omit [FirewallFloat φ] in
theorem Faithful.countTick (h : s.Faithful) (flushMs : Nat) : (s.countTick flushMs).Faithful := by
  rw [EventLoop.countTick]
  split
  · exact Faithful.flush (s := { s with securityTickCount := 0 }) ⟨h.ring, h.rows⟩ _ _
  · exact ⟨h.ring, h.rows⟩

theorem Faithful.timer (h : s.Faithful) (x : LoopInput φ) : (s.timer x).Faithful := by
  rw [EventLoop.timer]
  split
  · have hnext := (h.firewallTimer x.timer).countTick x.timer.flushMs
    exact ⟨hnext.ring, hnext.rows⟩
  · exact h

theorem Faithful.fwTimer (h : s.Faithful) (x : LoopInput φ) : (s.fwTimer x).Faithful := by
  rw [EventLoop.fwTimer]
  split
  · have hnext := (h.firewallTimer x.fwTimer).flush x.fwTimer.flushMs 0
    exact ⟨hnext.ring, hnext.rows⟩
  · exact h

/-- **In every run a line shows the window it counts for.** -/
theorem faithful_run (config : StackConfig φ) (created : Nat) (loads loads' isOpen : Bool)
    (lastTimer lastFwTimer : Nat) (xs : List (LoopInput φ)) : (GuardedRun.run step
      (start config created loads loads' isOpen lastTimer lastFwTimer) xs).Faithful := by
  refine GuardedRun.run_invariant (fun s x hs => ((hs.receive x.packets).timer x).fwTimer x)
    ⟨?_, fun _ hrow => nomatch hrow⟩ xs
  obtain ⟨ai, hai, hmetrics⟩ := firewall_metrics config created loads loads'
  exact ⟨ai, hai, hmetrics ▸ SecurityMetrics.ring_empty⟩

end EventLoop

end NeuStack
