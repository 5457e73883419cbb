import NeuStack.InstalledControllers
import NeuStack.NetworkAgent

/-! # The layer above and the agent's decisions

The part of `TCPLayer` that the AI build adds: `process_ai_actions` hands each action to
the agent, and what the agent decides to the controllers of all connections.  A tick is an
entry into the manager and the processing of the actions that have come in; the other
entries are the manager's own.

`Consistent` is what the switching is for: CUBIC under attack, Orca otherwise.  It is lost
where a connection is opened under attack, since `create_tcb` knows nothing of the agent
(`consistent_iff`).
-/
namespace NeuStack

/-- The floating-point part of `TCPOrca`, with `set_alpha`, which is given a clamped
value. -/
class OrcaAlpha (φ : Type) (ι : outParam Type) extends OrcaFloat φ where
  setAlpha : φ → ι → φ

inductive AIAction (ι : Type) where
  | none
  | cwndAdjust (alpha : ι)
  | anomalyAlert (score : ι)
  | bwPrediction (predictedBw : UInt32)

/-- The floating-point part of an Orca whose `alpha` is 0. -/
instance : OrcaAlpha Unit ℚ where
  modulate _ cwnd := cwnd
  ack _ _ _ := ()
  setAlpha _ _ := ()

variable {φ ι : Type} [OrcaAlpha φ ι] [AgentFloat ι]

/-- `TCPOrca::set_alpha` -/
def TCPOrca.setAlpha (alpha : ι) (c : TCPOrca φ) : TCPOrca φ :=
  let one : ι := AgentFloat.ofNat 1
  let alpha := NetworkAgent.clamp alpha (AgentFloat.neg one) one
  { c with cubic := { c.cubic with float := OrcaAlpha.setAlpha c.cubic.float alpha } }

namespace TCB

/-- `orca->set_alpha(alpha)`, where the controller is a `TCPOrca`. -/
def adjustCwnd (alpha : ι) (t : TCB (Controller φ)) : TCB (Controller φ) :=
  match t.congestionControl with
  | some (.other (.orca c)) => { t with congestionControl := some (.other (.orca (c.setAlpha alpha))) }
  | _ => t

omit [AgentFloat ι] in
/-- A `TCPCubic` in place of a `TCPOrca`. -/
def switchToCubic (t : TCB (Controller φ)) : TCB (Controller φ) :=
  match t.congestionControl with
  | some (.other (.orca _)) =>
    { t with congestionControl := some (.other (.cubic (.create t.options.mss.toUInt32))) }
  | _ => t

omit [AgentFloat ι] in
/-- A `TCPOrca` in place of a `TCPCubic`. -/
def switchToOrca (t : TCB (Controller φ)) : TCB (Controller φ) :=
  match t.congestionControl with
  | some (.other (.cubic _)) =>
    { t with congestionControl := some (.other (.orca (.create t.options.mss.toUInt32))) }
  | _ => t

end TCB

/-- `for (auto& [tuple, tcb_ptr] : _tcp_mgr._connections)` -/
def TCPConnectionManager.forConnections {σ : Type} (f : TCB σ → TCB σ)
    (m : TCPConnectionManager σ) : TCPConnectionManager σ :=
  m.connections.foldl (fun m e => m.modify e.2 f) m

/-! ## The layer -/

/-- The AI part of `TCPLayer`. -/
structure AILayer (φ ι : Type) where
  tcpMgr : TCPConnectionManager (Controller φ)
  agent : NetworkAgent ι
  lastAgentState : AgentState := .normal

namespace AILayer

/-- `apply_cwnd_adjust` -/
def applyCwndAdjust (l : AILayer φ ι) : AILayer φ ι :=
  { l with tcpMgr := l.tcpMgr.forConnections (TCB.adjustCwnd l.agent.effectiveAlpha) }

/-- `apply_state_change` -/
def applyStateChange (l : AILayer φ ι) : AILayer φ ι :=
  let current := l.agent.state
  if current = l.lastAgentState then l
  else
    let prev := l.lastAgentState
    let l := { l with lastAgentState := current }
    if current = .underAttack then
      { l with tcpMgr := l.tcpMgr.forConnections TCB.switchToCubic }
    else if prev = .underAttack then
      { l with tcpMgr := l.tcpMgr.forConnections TCB.switchToOrca }
    else l

/-- One round of `process_ai_actions`. -/
def processAiAction (l : AILayer φ ι) : AIAction ι → AILayer φ ι
  | .cwndAdjust alpha => applyCwndAdjust { l with agent := l.agent.onCwndAdjust alpha }
  | .anomalyAlert score => applyStateChange { l with agent := l.agent.onAnomaly score }
  | .bwPrediction bw => applyStateChange { l with agent := l.agent.onBwPrediction bw }
  | .none => l

/-- `process_ai_actions`; `actions` is what `try_pop` finds until the queue is empty. -/
def processAiActions (actions : List (AIAction ι)) (l : AILayer φ ι) : AILayer φ ι :=
  actions.foldl processAiAction l

/-- What can happen to the layer.  `on_timer` is an entry, the manager's tick, and the
processing of the actions. -/
inductive LayerInput (φ ι : Type) where
  | entry (x : Input (Controller φ))
  | actions (as : List (AIAction ι))

def step (l : AILayer φ ι) : LayerInput φ ι → AILayer φ ι
  | .entry x => { l with tcpMgr := l.tcpMgr.step x }
  | .actions as => l.processAiActions as

/-- `TCPLayer(ip_layer, local_ip)`; the threshold is `DEFAULT_ANOMALY_THRESHOLD`. -/
def init (localIp : UInt32) : AILayer φ ι where
  tcpMgr := .init localIp
  agent := .create (AgentFloat.ofScientific 1 2)

end AILayer

/-! ## A sweep over the connections -/

namespace TCPConnectionManager
variable {σ : Type} {m : TCPConnectionManager σ} {f : TCB σ → TCB σ}

theorem modify_eq (m : TCPConnectionManager σ) (p : Ptr) (f : TCB σ → TCB σ) :
    m.modify p f = { m with heap := Function.update m.heap p ((m.heap p).map f) } := by
  cases hp : m.heap p with
  | none =>
    rw [modify, on_of_freed hp, Option.map_none, ← hp, Function.update_eq_self]
  | some t => rw [modify_of_heap hp, Option.map_some]; rfl

theorem foldl_modify_heap (f : TCB σ → TCB σ) {l : List (TCPTuple × Ptr)}
    (hnodup : (l.map (·.2)).Nodup) (m : TCPConnectionManager σ) :
    ∃ heap, l.foldl (fun m e => m.modify e.2 f) m = { m with heap } ∧
      ∀ p, heap p = if p ∈ l.map (·.2) then (m.heap p).map f else m.heap p := by
  induction l generalizing m with
  | nil => exact ⟨m.heap, rfl, fun p => (if_neg List.not_mem_nil).symm⟩
  | cons e l ih =>
    rw [List.map_cons, List.nodup_cons] at hnodup
    obtain ⟨heap, heq, hheap⟩ := ih hnodup.2 (m.modify e.2 f)
    refine ⟨heap, ?_, fun p => ?_⟩
    · rw [List.foldl_cons, heq, modify_eq]
    · rw [hheap, modify_eq, List.map_cons]
      rcases eq_or_ne p e.2 with rfl | hne
      · rw [if_neg hnodup.1, if_pos (List.mem_cons_self ..)]
        exact Function.update_self ..
      · dsimp only
        rw [Function.update_of_ne hne]
        exact if_congr (by rw [List.mem_cons, or_iff_right hne]) rfl rfl

/-- Each connection is changed once, and nothing else is. -/
theorem forConnections_heap (h : m.WellFormed) (f : TCB σ → TCB σ) :
    ∃ heap, m.forConnections f = { m with heap } ∧
      ∀ p, heap p = if p ∈ m.connections.map (·.2) then (m.heap p).map f else m.heap p := by
  refine foldl_modify_heap f (h.keys_nodup.of_map.map_on fun e he e' he' heq => ?_) m
  obtain ⟨t, ht, hk, -⟩ := h.connection e.1 e.2 he
  obtain ⟨t', ht', hk', -⟩ := h.connection e'.1 e'.2 he'
  rw [heq, ht'] at ht
  rw [← Option.some.inj ht] at hk
  exact Prod.ext (hk.symm.trans hk') heq

/-- A change of controllers keeps a manager well-formed. -/
theorem WellFormed.recontrol (h : m.WellFormed) {heap : Ptr → Option (TCB σ)}
    (hthere : ∀ p t, m.heap p = some t → ∃ cc, heap p = some { t with congestionControl := cc })
    (hback : ∀ p u, heap p = some u →
      ∃ t cc, m.heap p = some t ∧ u = { t with congestionControl := cc }) :
    WellFormed { m with heap } where
  keys_nodup := h.keys_nodup
  ports_nodup := h.ports_nodup
  connection k p he := by
    obtain ⟨t, ht, hk⟩ := h.connection k p he
    obtain ⟨cc, hcc⟩ := hthere p t ht
    exact ⟨_, hcc, hk⟩
  listener port p he := by
    obtain ⟨t, ht, hport⟩ := h.listener port p he
    obtain ⟨cc, hcc⟩ := hthere p t ht
    exact ⟨_, hcc, hport⟩
  owned p u hu := by
    obtain ⟨t, cc, ht, rfl⟩ := hback p u hu
    exact h.owned p t ht
  disjoint := h.disjoint
  fresh p u hu := by
    obtain ⟨t, cc, ht, rfl⟩ := hback p u hu
    exact h.fresh p t ht
  shape p u hu := by
    obtain ⟨t, cc, ht, rfl⟩ := hback p u hu
    exact (h.shape p t ht).congr rfl rfl rfl rfl rfl rfl rfl rfl rfl (fun _ => rfl)
  unacked p u hu := by
    obtain ⟨t, cc, ht, rfl⟩ := hback p u hu
    exact h.unacked p t ht
  limit := h.limit
  localIp := h.localIp

theorem WellFormed.forConnections (h : m.WellFormed)
    (hf : ∀ t, ∃ cc, f t = { t with congestionControl := cc }) : (m.forConnections f).WellFormed := by
  obtain ⟨heap, heq, hheap⟩ := forConnections_heap h f
  rw [heq]
  refine h.recontrol (fun p t ht => ?_) (fun p u hu => ?_)
  · rw [hheap, ht, Option.map_some]
    split
    · obtain ⟨cc, hcc⟩ := hf t
      exact ⟨cc, by rw [hcc]⟩
    · exact ⟨t.congestionControl, rfl⟩
  · rw [hheap] at hu
    split at hu
    · obtain ⟨t, ht, rfl⟩ := Option.map_eq_some_iff.mp hu
      obtain ⟨cc, hcc⟩ := hf t
      exact ⟨t, cc, ht, hcc⟩
    · exact ⟨u, u.congestionControl, hu, rfl⟩

/-- A connection has what the sweep made of it. -/
theorem forConnections_connection (h : m.WellFormed) {k : TCPTuple} {p : Ptr} {u : TCB σ}
    (he : (k, p) ∈ m.connections) (hu : (m.forConnections f).heap p = some u) :
    ∃ t, m.heap p = some t ∧ u = f t := by
  obtain ⟨heap, heq, hheap⟩ := forConnections_heap h f
  rw [heq] at hu
  replace hu : heap p = some u := hu
  rw [hheap, if_pos (List.mem_map_of_mem he)] at hu
  obtain ⟨t, ht, rfl⟩ := Option.map_eq_some_iff.mp hu
  exact ⟨t, ht, rfl⟩

/-- A listener is spared. -/
theorem forConnections_listener (h : m.WellFormed) {port : UInt16} {p : Ptr}
    (he : (port, p) ∈ m.listeners) : (m.forConnections f).heap p = m.heap p := by
  obtain ⟨heap, heq, hheap⟩ := forConnections_heap h f
  rw [heq]
  refine (hheap p).trans (if_neg fun hmem => ?_)
  obtain ⟨e, hconn, rfl⟩ := List.mem_map.mp hmem
  exact h.disjoint e.1 port e.2 hconn he

theorem forConnections_tables (h : m.WellFormed) (f : TCB σ → TCB σ) :
    (m.forConnections f).connections = m.connections ∧
      (m.forConnections f).listeners = m.listeners := by
  obtain ⟨heap, heq, -⟩ := forConnections_heap h f
  rw [heq]
  exact ⟨rfl, rfl⟩

end TCPConnectionManager

/-! ## What the sweeps do to the kinds -/

namespace TCB
variable (t : TCB (Controller φ))

theorem adjustCwnd_control (alpha : ι) :
    ∃ cc, t.adjustCwnd alpha = { t with congestionControl := cc } := by
  rw [adjustCwnd]
  split
  · exact ⟨_, rfl⟩
  · exact ⟨t.congestionControl, rfl⟩

omit [AgentFloat ι] in
theorem switchToCubic_control : ∃ cc, t.switchToCubic = { t with congestionControl := cc } := by
  rw [switchToCubic]
  split
  · exact ⟨_, rfl⟩
  · exact ⟨t.congestionControl, rfl⟩

omit [AgentFloat ι] in
theorem switchToOrca_control : ∃ cc, t.switchToOrca = { t with congestionControl := cc } := by
  rw [switchToOrca]
  split
  · exact ⟨_, rfl⟩
  · exact ⟨t.congestionControl, rfl⟩

theorem adjustCwnd_kind (alpha : ι) : (t.adjustCwnd alpha).kind = t.kind := by
  rw [adjustCwnd]
  split
  · rename_i c hc
    rw [kind, kind, hc]
    rfl
  · rfl

omit [AgentFloat ι] in
theorem switchToCubic_kind (h : t.kind ≠ none) : t.switchToCubic.kind = some .cubic := by
  rw [switchToCubic]
  split
  · rfl
  · rename_i hc
    rw [kind] at h ⊢
    rcases hcc : t.congestionControl with _ | r | c | c
    · exact absurd (by rw [hcc]; rfl) h
    · exact absurd (by rw [hcc]; rfl) h
    · rfl
    · exact absurd hcc (hc c)

omit [AgentFloat ι] in
theorem switchToOrca_kind (h : t.kind ≠ none) : t.switchToOrca.kind = some .orca := by
  rw [switchToOrca]
  split
  · rfl
  · rename_i hc
    rw [kind] at h ⊢
    rcases hcc : t.congestionControl with _ | r | c | c
    · exact absurd (by rw [hcc]; rfl) h
    · exact absurd (by rw [hcc]; rfl) h
    · exact absurd hcc (hc c)
    · rfl

end TCB

/-- The controller a state of the agent calls for. -/
def AgentState.controller : AgentState → ControllerKind
  | .underAttack => .cubic
  | _ => .orca

theorem AgentState.controller_congr {s s' : AgentState}
    (h : s = .underAttack ↔ s' = .underAttack) : s.controller = s'.controller := by
  cases s <;> cases s' <;> first | rfl | simp at h

namespace TCPConnectionManager
variable {m : TCPConnectionManager (Controller φ)} {f : TCB (Controller φ) → TCB (Controller φ)}

/-- All connections of the table have a controller of kind `kind`. -/
def AllRun (m : TCPConnectionManager (Controller φ)) (kind : ControllerKind) : Prop :=
  ∀ k p t, (k, p) ∈ m.connections → m.heap p = some t → t.kind = some kind

omit [OrcaAlpha φ ι] [AgentFloat ι] in
/-- A sweep that leaves every connection a controller. -/
theorem Installed.forConnections (hi : m.Installed) (h : m.WellFormed)
    (hf : ∀ t, t.kind ≠ none → (f t).kind ≠ none) : (m.forConnections f).Installed := by
  obtain ⟨hconn, hlist⟩ := forConnections_tables h f
  constructor
  · intro k p u he hu
    rw [hconn] at he
    obtain ⟨t, ht, rfl⟩ := forConnections_connection h he hu
    exact hf t (hi.connection k p t he ht)
  · intro port p u he hu
    rw [hlist] at he
    rw [forConnections_listener h he] at hu
    exact hi.listener port p u he hu

omit [OrcaAlpha φ ι] [AgentFloat ι] in
theorem AllRun.forConnections (h : m.WellFormed) {kind : ControllerKind}
    (hf : ∀ k p t, (k, p) ∈ m.connections → m.heap p = some t → (f t).kind = some kind) :
    (m.forConnections f).AllRun kind := by
  intro k p u he hu
  rw [(forConnections_tables h f).1] at he
  obtain ⟨t, ht, rfl⟩ := forConnections_connection h he hu
  exact hf k p t he ht

end TCPConnectionManager

namespace AILayer
variable {l : AILayer φ ι}

/-- **CUBIC under attack, Orca otherwise.** -/
def Consistent (l : AILayer φ ι) : Prop := l.tcpMgr.AllRun l.agent.state.controller

/-- The layer remembers whether it has switched. -/
structure Sound (l : AILayer φ ι) : Prop where
  wellFormed : l.tcpMgr.WellFormed
  installed : l.tcpMgr.Installed
  last : l.lastAgentState = .underAttack ↔ l.agent.state = .underAttack

omit [OrcaAlpha φ ι] in
theorem sound_init (localIp : UInt32) : (init localIp : AILayer φ ι).Sound where
  wellFormed := .init localIp
  installed := .init localIp
  last := Iff.rfl

theorem Sound.applyCwndAdjust (h : l.Sound) :
    l.applyCwndAdjust.Sound ∧ (l.Consistent → l.applyCwndAdjust.Consistent) := by
  refine ⟨⟨h.wellFormed.forConnections (TCB.adjustCwnd_control · _),
    h.installed.forConnections h.wellFormed fun t ht => ?_, h.last⟩, fun hc => ?_⟩
  · rw [TCB.adjustCwnd_kind]
    exact ht
  · refine TCPConnectionManager.AllRun.forConnections h.wellFormed fun k p t he ht => ?_
    rw [TCB.adjustCwnd_kind]
    exact hc k p t he ht

omit [AgentFloat ι] in
/-- The switch: what the connections ran before was right for the state remembered. -/
theorem applyStateChange_sound (hwf : l.tcpMgr.WellFormed) (hi : l.tcpMgr.Installed) :
    l.applyStateChange.Sound ∧ (l.tcpMgr.AllRun l.lastAgentState.controller →
      l.applyStateChange.Consistent) := by
  have horca : ∀ t : TCB (Controller φ), t.kind ≠ none → t.switchToOrca.kind ≠ none :=
    fun t ht => by rw [t.switchToOrca_kind ht]; exact Option.some_ne_none _
  have hcubic : ∀ t : TCB (Controller φ), t.kind ≠ none → t.switchToCubic.kind ≠ none :=
    fun t ht => by rw [t.switchToCubic_kind ht]; exact Option.some_ne_none _
  rw [applyStateChange]
  dsimp only
  split
  · rename_i hsame
    refine ⟨⟨hwf, hi, by rw [hsame]⟩, fun hall => ?_⟩
    rw [Consistent, hsame]
    exact hall
  split
  · rename_i hattack
    refine ⟨⟨hwf.forConnections TCB.switchToCubic_control, hi.forConnections hwf hcubic, Iff.rfl⟩,
      fun _ => ?_⟩
    rw [Consistent, hattack]
    exact .forConnections hwf fun k p t he ht => t.switchToCubic_kind (hi.connection k p t he ht)
  split
  · rename_i hattack hprev
    refine ⟨⟨hwf.forConnections TCB.switchToOrca_control, hi.forConnections hwf horca, Iff.rfl⟩,
      fun _ => ?_⟩
    rw [Consistent, AgentState.controller_congr (iff_of_false hattack
      (fun h => AgentState.noConfusion h : ¬ AgentState.normal = .underAttack))]
    exact .forConnections hwf fun k p t he ht => t.switchToOrca_kind (hi.connection k p t he ht)
  · rename_i hattack hprev
    refine ⟨⟨hwf, hi, Iff.rfl⟩, fun hall => ?_⟩
    rw [Consistent, AgentState.controller_congr (iff_of_false hattack hprev)]
    exact hall

/-- One action keeps the layer sound, and consistent if it is. -/
theorem Sound.processAiAction (h : l.Sound) (a : AIAction ι) :
    (l.processAiAction a).Sound ∧ (l.Consistent → (l.processAiAction a).Consistent) := by
  have hall : l.Consistent → l.tcpMgr.AllRun l.lastAgentState.controller := fun hc => by
    rw [AgentState.controller_congr h.last]
    exact hc
  cases a with
  | none => exact ⟨h, id⟩
  | cwndAdjust alpha =>
    have hattack := NetworkAgent.onCwndAdjust_attack (a := l.agent) alpha
    obtain ⟨hsound, hkeep⟩ := Sound.applyCwndAdjust
      (l := { l with agent := l.agent.onCwndAdjust alpha })
      ⟨h.wellFormed, h.installed, h.last.trans hattack.symm⟩
    refine ⟨hsound, fun hc => hkeep ?_⟩
    rw [Consistent, AgentState.controller_congr hattack]
    exact hc
  | anomalyAlert score =>
    have hchange := applyStateChange_sound (l := { l with agent := l.agent.onAnomaly score })
      h.wellFormed h.installed
    exact ⟨hchange.1, fun hc => hchange.2 (hall hc)⟩
  | bwPrediction bw =>
    have hchange := applyStateChange_sound (l := { l with agent := l.agent.onBwPrediction bw })
      h.wellFormed h.installed
    exact ⟨hchange.1, fun hc => hchange.2 (hall hc)⟩

theorem Sound.processAiActions (h : l.Sound) (as : List (AIAction ι)) :
    (l.processAiActions as).Sound ∧ (l.Consistent → (l.processAiActions as).Consistent) := by
  induction as generalizing l with
  | nil => exact ⟨h, id⟩
  | cons a as ih =>
    obtain ⟨hsound, hkeep⟩ := h.processAiAction a
    obtain ⟨hsound', hkeep'⟩ := ih hsound
    exact ⟨hsound', hkeep' ∘ hkeep⟩

theorem Sound.step (h : l.Sound) (x : LayerInput φ ι) : (l.step x).Sound := by
  cases x with
  | entry x =>
    exact ⟨h.wellFormed.step x,
      (TCPConnectionManager.kinds_step h.wellFormed h.installed x).1, h.last⟩
  | actions as => exact (h.processAiActions as).1

/-! ## Runs -/

/-- The step leaves no connection in the table that it has opened under attack. -/
def OpensNone (l : AILayer φ ι) : LayerInput φ ι → Prop
  | .entry x => l.agent.state = .underAttack → ∀ k p, (k, p) ∈ (l.tcpMgr.step x).connections →
      ∃ k', (k', p) ∈ l.tcpMgr.connections
  | .actions _ => True

/-- What an entry leaves in the table was there before or runs Orca. -/
theorem Sound.consistent_step (h : l.Sound) (hc : l.Consistent) (x : LayerInput φ ι) :
    (l.step x).Consistent ↔ l.OpensNone x := by
  cases x with
  | actions as => exact iff_of_true ((h.processAiActions as).2 hc) trivial
  | entry x =>
    obtain ⟨hinst, hsince⟩ := TCPConnectionManager.kinds_step h.wellFormed h.installed x
    have hwf := h.wellFormed.step x
    constructor
    · intro hnext hattack k p he
      obtain ⟨u, hu, -⟩ := hwf.connection k p he
      have hkind : u.kind = some .cubic := by
        rw [hnext k p u he hu]
        exact congrArg (some ·.controller) hattack
      rcases Nat.lt_or_ge p l.tcpMgr.nextAddr with hlt | hge
      · obtain ⟨t, ht, hsame⟩ := hsince.old p u hlt hu
        rcases h.wellFormed.owned p t ht with hconn | hlist
        · exact ⟨_, hconn⟩
        · rw [hsame, h.installed.listener _ p t hlist ht] at hkind
          cases hkind
      · rcases hsince.new p u hge hu with hnew | hnew <;> rw [hnew] at hkind <;> cases hkind
    · intro hopens k p u he hu
      have hold : ∀ k', (k', p) ∈ l.tcpMgr.connections →
          u.kind = some l.agent.state.controller := by
        intro k' he'
        obtain ⟨t, ht, -⟩ := h.wellFormed.connection k' p he'
        obtain ⟨t', ht', hsame⟩ := hsince.old p u (h.wellFormed.fresh p t ht) hu
        rw [hsame]
        exact hc k' p t' he' ht'
      by_cases hattack : l.agent.state = .underAttack
      · obtain ⟨k', he'⟩ := hopens hattack k p he
        exact hold k' he'
      · rcases Nat.lt_or_ge p l.tcpMgr.nextAddr with hlt | hge
        · obtain ⟨t, ht, hsame⟩ := hsince.old p u hlt hu
          rcases h.wellFormed.owned p t ht with hconn | hlist
          · exact hold _ hconn
          · exact absurd (hsame.trans (h.installed.listener _ p t hlist ht))
              (hinst.connection k p u he hu)
        · rcases hsince.new p u hge hu with hnew | hnew
          · exact absurd hnew (hinst.connection k p u he hu)
          · rw [hnew]
            exact congrArg some (AgentState.controller_congr (iff_of_false
              (fun h => AgentState.noConfusion h : ¬ AgentState.normal = .underAttack) hattack))

/-- **CUBIC under attack, Orca otherwise**, in all states of a run if and only if no
entry made under attack leaves a connection in the table that it has opened. -/
theorem consistent_iff (localIp : UInt32) (xs : List (LayerInput φ ι)) :
    (∀ ys, ys <+: xs → (GuardedRun.run AILayer.step (init localIp) ys).Consistent) ↔
      GuardedRun.Meets AILayer.step OpensNone (init localIp) xs := by
  constructor
  · exact GuardedRun.meets_of_always (Q := Sound) (fun _ x h => h.step x)
      (fun _ x h hc hnext => (h.consistent_step hc x).mp hnext) (sound_init localIp)
  · intro hmeets ys hys
    refine (hmeets.always (P := fun l => l.Sound ∧ l.Consistent) ?_
      ⟨sound_init localIp, fun k p t he => absurd he List.not_mem_nil⟩ ys hys).2
    rintro l x - ⟨h, hc⟩ hopens
    exact ⟨h.step x, (h.consistent_step hc x).mpr hopens⟩

/-! ### A connection opened under attack -/

/-- An anomaly is reported, and the application connects to port 80 of 10.0.0.2. -/
def connectUnderAttack : List (LayerInput Unit ℚ) :=
  [.actions [.anomalyAlert 1],
    .entry ⟨.silent 0 0, .call (.connect 0x0a000002 80 5000 none)⟩]

/-- The new connection runs Orca. -/
theorem connectUnderAttack_runs_orca :
    ¬ ∀ (xs ys : List (LayerInput Unit ℚ)), ys <+: xs →
      (GuardedRun.run AILayer.step (init 0x0a000001) ys).Consistent := by
  intro hclaim
  have hcons := hclaim connectUnderAttack
  have hsound := (sound_init 0x0a000001 : (init 0x0a000001 : AILayer Unit ℚ).Sound).step
    (.actions [.anomalyAlert 1])
  have hopens := (hsound.consistent_step (hcons [_] ⟨[_], rfl⟩)
    (.entry ⟨.silent 0 0, .call (.connect 0x0a000002 80 5000 none)⟩)).mp (hcons _ List.prefix_rfl)
  obtain ⟨k, he⟩ := hopens rfl ⟨0x0a000001, 0x0a000002, 5000, 80⟩ 0 (List.mem_singleton.mpr rfl)
  exact absurd he List.not_mem_nil

end AILayer

end NeuStack
