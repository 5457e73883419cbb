import NeuStack.PacketInspection

/-! # The whitelist

`RuleEngine` gives the whitelist the highest priority, and its verdict for an
address on it is to pass.  `FirewallEngine::evaluate` asks the detector about
everything the rule engine passes, so an alarm overrides the whitelist as well.

`whitelist_iff` says that this is the only way: in any run, every packet from a
listed address passes plainly if and only if the detector is not alarmed when one
is inspected.
-/
namespace NeuStack
namespace FirewallEngine
variable {φ : Type} [FirewallFloat φ]

/-- `inspect` let the packet pass, by a decision to pass and not to warn. -/
def PlainPass (i : Inspection φ) : Prop :=
  i.verdict = true ∧ ∃ evt d, i.decision = some (evt, d) ∧ d.action = .pass

/-- The call inspects a packet from a listed address with the firewall on. -/
def Whitelisted (e : FirewallEngine φ) : FirewallOp φ → Prop
  | .inspect mem len stampUs _ => e.config.enabled = true ∧
      ∃ evt, (parsePacket mem len stampUs).value = some evt ∧ evt.srcIp ∈ e.ruleEngine.whitelistIps
  | .inspectPacket mem pkt stampUs _ => e.config.enabled = true ∧
      (fillEventFromIpv4 mem pkt stampUs).value.srcIp ∈ e.ruleEngine.whitelistIps
  | _ => False

/-- The packet of the call passes plainly. -/
def Passes (e : FirewallEngine φ) : FirewallOp φ → Prop
  | .inspect mem len stampUs nowUs => PlainPass (e.inspect mem len stampUs nowUs).value
  | .inspectPacket mem pkt stampUs nowUs => PlainPass (e.inspectPacket mem pkt stampUs nowUs).value
  | _ => True

variable {e : FirewallEngine φ} {evt : PacketEvent} {nowUs : UInt64}

/-- The tail of `inspect` on a packet from a listed address. -/
theorem judge_whitelisted {pool : FixedPool} (hpool : e.decisionPool.acquire = some pool)
    (hlisted : evt.srcIp ∈ e.ruleEngine.whitelistIps) :
    PlainPass (e.judge evt nowUs) ↔ ¬ e.Alarmed := by
  have hverdict : e.ruleVerdict evt nowUs = ⟨.pass, .ruleWhitelist, 0, FirewallFloat.zero, 0, 0⟩ :=
    RuleEngine.evaluate_whitelisted hlisted
  constructor
  · rintro ⟨-, evt', d, hdecision, hpass⟩ ⟨ai, hai, hloaded, hcached⟩
    rw [judge_alarmed hpool hai hloaded hcached (by rw [hverdict]; rfl)] at hdecision
    cases hdecision
    cases hshadow : ai.config.shadowMode <;> simp [hshadow] at hpass
  · intro hquiet
    obtain ⟨hdecision, hpassed⟩ := @judge_quiet φ _ e evt nowUs pool hpool hquiet
    rw [hverdict] at hdecision hpassed
    exact ⟨hpassed, _, _, hdecision, rfl⟩

/-- **One packet from a listed address passes plainly exactly if the detector is not
alarmed.** -/
theorem passes_iff (hpools : e.PoolsFree) {op : FirewallOp φ} (h : e.Whitelisted op) :
    e.Passes op ↔ ¬ e.Alarmed := by
  have hevent : e.eventPool.acquire = some ⟨4095⟩ := by rw [hpools.event]; rfl
  have hdecision : e.decisionPool.acquire = some ⟨4095⟩ := by rw [hpools.decision]; rfl
  cases op with
  | inspect mem len stampUs nowUs =>
    obtain ⟨henabled, evt, hparse, hlisted⟩ := h
    rw [Passes, inspect_enabled henabled hevent, hparse]
    exact @judge_whitelisted φ _ { e with eventPool := ⟨4095⟩ } _ _ _ hdecision hlisted
  | inspectPacket mem pkt stampUs nowUs =>
    obtain ⟨henabled, hlisted⟩ := h
    rw [Passes, inspectPacket_enabled henabled hevent]
    exact @judge_whitelisted φ _ { e with eventPool := ⟨4095⟩ } _ _ _ hdecision hlisted
  | _ => exact h.elim

/-- **Every run: listed addresses pass as long as the detector is silent about them,
and no longer.** -/
theorem whitelist_iff [RuleSort] (config : FirewallConfig φ) (now : Nat) (loads : Bool)
    (ops : List (FirewallOp φ)) :
    GuardedRun.Meets step (fun e op => e.Whitelisted op → e.Passes op)
        (create config now loads) ops ↔
      GuardedRun.Meets step (fun e op => e.Whitelisted op → ¬ e.Alarmed)
        (create config now loads) ops := by
  refine GuardedRun.meets_congr poolsFree_step ?_ (poolsFree_create config now loads) ops
  intro e op hpools
  exact forall_congr' fun h => passes_iff hpools h

/-- Two packets from 10.0.0.2, which is listed; an anomaly; a third packet. -/
def overridden : List (FirewallOp Unit) :=
  [.rules (.addWhitelistIp 0x0200000A), .enableAi "model" () true,
    .inspect (synDatagram 6 0xCE) 40 1 1, .inspect (synDatagram 6 0xCE) 40 2 2,
    .onTimer 1000000000 ⟨some ((), true), 1000, 1000⟩, .inspect (synDatagram 6 0xCE) 40 3 3]

/-- The third packet is dropped. -/
theorem overridden_drops : ¬ GuardedRun.Meets step (fun e op => e.Whitelisted op → e.Passes op)
    (create { shadowMode := false, aiThreshold := () } 0 true) overridden := by
  rintro ⟨-, -, -, -, -, hlast, -⟩
  have hpass := hlast ⟨by decide +kernel, _, rfl, by decide +kernel⟩
  exact absurd hpass.1 (by decide +kernel)

end FirewallEngine

end NeuStack
