import NeuStack.NonzeroDivisors

/-! # Runs with checked divisors

The engine is built in one of two ways: without the AI part, where every connection has a
`TCPCubic`, and with it, where the layer above exchanges `TCPOrca` and `TCPCubic` while the
connections run.  In both, every entry into every reachable state goes through
(`no_zero_divisor`), whatever the sizes of the buffers: TIME_WAIT, whose buffers have no
capacity at all, is one of the states the run may be in.
-/
namespace NeuStack
open Checked

namespace TCPConnectionManager
variable {σ : Type} [ICongestionControl σ] [CheckedControl σ]

/-- A run from a manager in order ends in one. -/
theorem NonzeroDivisors.run {m : TCPConnectionManager σ} (h : m.NonzeroDivisors)
    {xs : List (Input σ)} (hxs : ∀ x ∈ xs, x.PositiveMss) :
    Divides (xs.foldlM step? m) (GuardedRun.run step m xs) :=
  Goes.foldlM (fun _ x hx hm => hm.step_divides (hxs x hx)) h

end TCPConnectionManager

namespace AILayer
variable {φ ι : Type} [OrcaAlpha φ ι] [AgentFloat ι]

/-- A step of the layer, with its divisors checked: the agent divides by neither the window
nor the MSS. -/
def step? (l : AILayer φ ι) : LayerInput φ ι → Option (AILayer φ ι)
  | .entry x => (l.tcpMgr.step? x).map fun tcpMgr => { l with tcpMgr }
  | .actions as => some (l.processAiActions as)

/-- **The options of the application have a positive MSS.** -/
def LayerInput.PositiveMss : LayerInput φ ι → Prop
  | .entry x => x.PositiveMss
  | .actions _ => True

end AILayer

/-! ## The exchange of controllers -/

section Exchange
variable {φ ι : Type} [OrcaAlpha φ ι] [AgentFloat ι] {t : TCB (Controller φ)}

omit [AgentFloat ι] in
/-- A TCB whose controller is replaced by one whose CUBIC is open. -/
theorem TCB.NonzeroDivisors.replace (h : t.NonzeroDivisors) {c : Controller φ} (hc : c.Open) :
    ({ t with congestionControl := some (.other c) } : TCB (Controller φ)).NonzeroDivisors := by
  refine ⟨h.mss, fun cc he => ?_⟩
  rw [← Option.some.inj he]
  exact hc

theorem TCB.NonzeroDivisors.adjustCwnd (h : t.NonzeroDivisors) (alpha : ι) :
    (t.adjustCwnd alpha).NonzeroDivisors := by
  rw [TCB.adjustCwnd]
  split
  · rename_i c hcc
    have hopen : c.cubic.Open := h.control _ hcc
    exact h.replace (hopen.setFloat _)
  · exact h

omit [AgentFloat ι] in
theorem TCB.NonzeroDivisors.switchToCubic (h : t.NonzeroDivisors) :
    t.switchToCubic.NonzeroDivisors := by
  rw [TCB.switchToCubic]
  split
  · exact h.replace (TCPCubic.open_create h.mss)
  · exact h

omit [AgentFloat ι] in
theorem TCB.NonzeroDivisors.switchToOrca (h : t.NonzeroDivisors) :
    t.switchToOrca.NonzeroDivisors := by
  rw [TCB.switchToOrca]
  split
  · exact h.replace (TCPCubic.open_create h.mss)
  · exact h

theorem TCPConnectionManager.NonzeroDivisors.forConnections {σ : Type} [ICongestionControl σ]
    [CheckedControl σ] {m : TCPConnectionManager σ} (h : m.NonzeroDivisors) {f : TCB σ → TCB σ}
    (hf : ∀ t, t.NonzeroDivisors → (f t).NonzeroDivisors) :
    (m.forConnections f).NonzeroDivisors :=
  List.foldlRecOn (motive := NonzeroDivisors) _ _ h fun _ hm _ _ => hm.modify hf

namespace AILayer
variable {l : AILayer φ ι}

/-- One action of the agent. -/
theorem processAiAction_divisors (h : l.tcpMgr.NonzeroDivisors) (a : AIAction ι) :
    (l.processAiAction a).tcpMgr.NonzeroDivisors := by
  have hchange : ∀ agent : NetworkAgent ι,
      (applyStateChange { l with agent }).tcpMgr.NonzeroDivisors := fun agent => by
    rw [applyStateChange]
    dsimp only
    split
    · exact h
    split
    · exact h.forConnections fun _ ht => ht.switchToCubic
    split
    · exact h.forConnections fun _ ht => ht.switchToOrca
    · exact h
  cases a with
  | none => exact h
  | cwndAdjust alpha => exact h.forConnections fun _ ht => ht.adjustCwnd _
  | anomalyAlert score => exact hchange _
  | bwPrediction bw => exact hchange _

theorem processAiActions_divisors (h : l.tcpMgr.NonzeroDivisors) (as : List (AIAction ι)) :
    (l.processAiActions as).tcpMgr.NonzeroDivisors :=
  List.foldlRecOn (motive := fun l : AILayer φ ι => l.tcpMgr.NonzeroDivisors) _ _ h
    fun _ hl a _ => processAiAction_divisors hl a

theorem step_divides (h : l.tcpMgr.NonzeroDivisors) {x : LayerInput φ ι} (hx : x.PositiveMss) :
    Goes (fun l => l.tcpMgr.NonzeroDivisors) (l.step? x) (l.step x) := by
  cases x with
  | entry x => exact (h.step_divides hx).map id
  | actions as => exact .some (processAiActions_divisors h as)

theorem run_divides (h : l.tcpMgr.NonzeroDivisors) {xs : List (LayerInput φ ι)}
    (hxs : ∀ x ∈ xs, x.PositiveMss) :
    Goes (fun l => l.tcpMgr.NonzeroDivisors) (xs.foldlM step? l) (GuardedRun.run step l xs) :=
  Goes.foldlM (fun _ x hx hl => step_divides hl (hxs x hx)) h

end AILayer
end Exchange

/-! ## The engine -/

/-- **No division by zero in the engine.**  In every state that a run leads to whose options
have a positive MSS, every entry with such options goes through with its divisors checked,
and does what it does unchecked: with a `TCPCubic` for every connection, and with the
controllers of the AI part and the actions of the agent. -/
theorem no_zero_divisor {ψ φ ι : Type} [CubicFloat ψ] [OrcaAlpha φ ι] [AgentFloat ι]
    (localIp : UInt32) :
    (∀ (xs : List (Input (TCPCubic ψ))) (x : Input (TCPCubic ψ)),
      (∀ y ∈ xs ++ [x], y.PositiveMss) →
        let m := GuardedRun.run TCPConnectionManager.step (.init localIp) xs
        m.step? x = some (m.step x)) ∧
    (∀ (xs : List (AILayer.LayerInput φ ι)) (x : AILayer.LayerInput φ ι),
      (∀ y ∈ xs ++ [x], y.PositiveMss) →
        let l := GuardedRun.run AILayer.step (.init localIp) xs
        l.step? x = some (l.step x)) := by
  constructor
  · intro xs x hmss
    have hstart : (TCPConnectionManager.init localIp :
        TCPConnectionManager (TCPCubic ψ)).NonzeroDivisors := .init localIp
    have hreached := hstart.run fun y hy => hmss y (List.mem_append_left _ hy)
    have hx := hmss x (List.mem_append_right _ (List.mem_singleton.mpr rfl))
    exact (hreached.holds.step_divides hx).eq
  · intro xs x hmss
    have hstart : (AILayer.init localIp : AILayer φ ι).tcpMgr.NonzeroDivisors := .init localIp
    have hreached := AILayer.run_divides hstart fun y hy => hmss y (List.mem_append_left _ hy)
    have hx := hmss x (List.mem_append_right _ (List.mem_singleton.mpr rfl))
    exact (AILayer.step_divides hreached.holds hx).eq

/-- An input of the application's, which answers no callback. -/
theorem Input.positiveMss_silent {σ : Type} (now : Nat) (isn : BitVec 32) {op : Op}
    (hop : ∀ a, op = .call a → a.PositiveMss) :
    (⟨.silent now isn, op⟩ : Input σ).PositiveMss :=
  ⟨fun _ _ _ ha => absurd ha List.not_mem_nil, hop⟩

/-- With segments of one byte and no buffers, a connection is opened and closed, up to
TIME_WAIT. -/
def bufferlessClose (σ : Type) : List (Input σ) :=
  let entry (op : Op) : Input σ := ⟨.silent 0 0, op⟩
  let segment (seqNum ackNum : BitVec 32) (flags : UInt8) : Op :=
    .segment ⟨0x0a000002, 0x0a000001, 80, 5000, seqNum, ackNum, flags, 1000, []⟩
  [entry (.call (.setDefaultOptions { mss := 1, sendBufferSize := 0, recvBufferSize := 0 })),
    entry (.call (.connect 0x0a000002 80 5000 none)),
    entry (segment 0 1 (TCPFlags.syn ||| TCPFlags.ack)),
    entry (.call (.send 0 [1])),
    entry (.call (.close 0)),
    entry (segment 1 2 (TCPFlags.fin ||| TCPFlags.ack))]

theorem bufferlessClose_positiveMss {σ : Type} : ∀ x ∈ bufferlessClose σ, x.PositiveMss := by
  simp only [bufferlessClose, List.forall_mem_cons]
  refine ⟨?_, ?_, ?_, ?_, ?_, ?_, fun _ h => absurd h List.not_mem_nil⟩ <;>
    refine Input.positiveMss_silent _ _ ?_ <;> rintro a ⟨⟩
  · exact (by decide : (0 : UInt16) < 1)
  all_goals exact trivial

/-- It is in TIME_WAIT, where the application sends once more; and in the AI build an
anomaly is reported there, which exchanges the controller. -/
theorem no_zero_divisor_timeWait :
    (let m : TCPConnectionManager (TCPCubic Unit) :=
      GuardedRun.run TCPConnectionManager.step (.init 0x0a000001) (bufferlessClose _)
    let x : Input (TCPCubic Unit) := ⟨.silent 1 0, .call (.send 0 [1])⟩
    (m.heap 0).map (·.state) = some .timeWait ∧ m.step? x = some (m.step x)) ∧
    (let l : AILayer Unit ℚ :=
      GuardedRun.run AILayer.step (.init 0x0a000001) ((bufferlessClose _).map .entry)
    let x : AILayer.LayerInput Unit ℚ := .actions [.anomalyAlert 1]
    (l.tcpMgr.heap 0).map (·.state) = some .timeWait ∧ l.step? x = some (l.step x)) := by
  have hengine := no_zero_divisor (ψ := Unit) (φ := Unit) (ι := ℚ) 0x0a000001
  refine ⟨⟨by decide +kernel, hengine.1 _ _ fun y hy => ?_⟩,
    ⟨by decide +kernel, hengine.2 _ _ fun y hy => ?_⟩⟩
  · rcases List.mem_append.mp hy with hy | hy
    · exact bufferlessClose_positiveMss y hy
    · rw [List.mem_singleton.mp hy]
      exact Input.positiveMss_silent _ _ fun a ha => by cases ha; exact trivial
  · rcases List.mem_append.mp hy with hy | hy
    · obtain ⟨x, hx, rfl⟩ := List.mem_map.mp hy
      exact bufferlessClose_positiveMss x hx
    · rw [List.mem_singleton.mp hy]
      exact trivial

end NeuStack
