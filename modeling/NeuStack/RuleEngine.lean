import NeuStack.PacketEvent
import NeuStack.RateLimiter
import Mathlib.Data.List.Sort

/-! # The rule engine

`RuleEngine` decides on a packet by the two address lists, the rate limiter and
the rules in the order of their priority.
-/
namespace NeuStack

/-! ## Decisions -/

namespace FirewallDecision

/-- `FirewallDecision::Action` -/
inductive Action
  | pass | drop | alert | log
  deriving DecidableEq, Repr

/-- `FirewallDecision::Reason` -/
inductive Reason
  | none | ruleWhitelist | ruleBlacklist | rulePort | rateLimit | aiAnomaly | malformed
  deriving DecidableEq, Repr

end FirewallDecision

/-- `struct FirewallDecision`. -/
structure FirewallDecision (φ : Type) where
  action : FirewallDecision.Action
  reason : FirewallDecision.Reason
  ruleId : UInt16
  score : φ
  rateCurrent : UInt32
  rateLimit : UInt32
  deriving DecidableEq, Repr

namespace FirewallDecision
variable {φ : Type}

/-- `pass()` -/
def pass [FirewallFloat φ] : FirewallDecision φ := ⟨.pass, .none, 0, FirewallFloat.zero, 0, 0⟩

/-- `should_pass()` -/
def shouldPass (d : FirewallDecision φ) : Bool :=
  d.action = .pass ∨ d.action = .alert ∨ d.action = .log

/-- `should_drop()` -/
def shouldDrop (d : FirewallDecision φ) : Bool := d.action = .drop

/-- `is_alert()` -/
def isAlert (d : FirewallDecision φ) : Bool := d.action = .alert

end FirewallDecision

/-! ## Rules -/

/-- `struct Rule`. -/
structure Rule where
  srcIp : UInt32
  srcMask : UInt32
  dstIp : UInt32
  dstMask : UInt32
  srcPort : UInt16
  dstPort : UInt16
  protocol : UInt8
  id : UInt16
  priority : UInt16
  action : FirewallDecision.Action
  reason : FirewallDecision.Reason
  enabled : Bool
  deriving DecidableEq, Repr

/-- `matches` of a packet's fields; zero in a rule stands for any value. -/
def Rule.matches (r : Rule) (evt : PacketEvent) : Bool :=
  if !r.enabled then false
  else if r.srcIp ≠ 0 ∧ evt.srcIp &&& r.srcMask ≠ r.srcIp &&& r.srcMask then false
  else if r.dstIp ≠ 0 ∧ evt.dstIp &&& r.dstMask ≠ r.dstIp &&& r.dstMask then false
  else if r.srcPort ≠ 0 ∧ evt.srcPort ≠ r.srcPort then false
  else if r.dstPort ≠ 0 ∧ evt.dstPort ≠ r.dstPort then false
  else if r.protocol ≠ 0 ∧ evt.protocol ≠ r.protocol then false
  else true

/-- `std::sort` by priority; it need not keep the order of equal rules. -/
class RuleSort where
  sort : List Rule → List Rule
  perm : ∀ rules, (sort rules).Perm rules
  sorted : ∀ rules, (sort rules).Pairwise fun a b => a.priority ≤ b.priority

/-- A sort that keeps their order is one. -/
instance : RuleSort where
  sort rules := rules.mergeSort fun a b => a.priority ≤ b.priority
  perm rules := List.mergeSort_perm rules _
  sorted rules := by
    refine (List.pairwise_mergeSort ?_ ?_ rules).imp of_decide_eq_true
    · exact fun a b c hab hbc =>
        decide_eq_true (UInt16.le_trans (of_decide_eq_true hab) (of_decide_eq_true hbc))
    · intro a b
      rw [Bool.or_eq_true, decide_eq_true_iff, decide_eq_true_iff]
      exact UInt16.le_total _ _

/-! ## The engine -/

namespace RuleEngine

def maxRules : Nat := 1024

/-- `RuleEngine::Stats` -/
structure Stats where
  whitelistHits : UInt64 := 0
  blacklistHits : UInt64 := 0
  rateLimitDrops : UInt64 := 0
  ruleMatches : UInt64 := 0
  defaultPasses : UInt64 := 0
  deriving DecidableEq, Repr

end RuleEngine

/-- `class RuleEngine`. -/
structure RuleEngine (φ : Type) where
  rules : List Rule := []
  whitelistIps : List UInt32 := []
  blacklistIps : List UInt32 := []
  rateLimiter : RateLimiter φ := {}
  stats : RuleEngine.Stats := {}

namespace RuleEngine
variable {φ : Type}

/-- `add_rule` -/
def addRule [RuleSort] (e : RuleEngine φ) (rule : Rule) : RuleEngine φ × Bool :=
  if maxRules ≤ e.rules.length then (e, false)
  else ({ e with rules := RuleSort.sort (e.rules ++ [rule]) }, true)

/-- `remove_rule` -/
def removeRule (e : RuleEngine φ) (id : UInt16) : RuleEngine φ × Bool :=
  let kept := e.rules.filter (·.id ≠ id)
  if kept.length = e.rules.length then (e, false) else ({ e with rules := kept }, true)

/-- The loop of `set_rule_enabled`: the first rule of the id only. -/
def enableFirst (id : UInt16) (enabled : Bool) : List Rule → List Rule
  | [] => []
  | r :: rules =>
    if r.id = id then { r with enabled } :: rules else r :: enableFirst id enabled rules

/-- `set_rule_enabled` -/
def setRuleEnabled (e : RuleEngine φ) (id : UInt16) (enabled : Bool) : RuleEngine φ × Bool :=
  ({ e with rules := enableFirst id enabled e.rules }, e.rules.any (·.id = id))

/-- The operations on the rules, the lists and the rate limiter. -/
inductive Op
  | addRule (rule : Rule)
  | removeRule (id : UInt16)
  | setRuleEnabled (id : UInt16) (enabled : Bool)
  | clearRules
  | addWhitelistIp (ip : UInt32)
  | removeWhitelistIp (ip : UInt32)
  | clearWhitelist
  | addBlacklistIp (ip : UInt32)
  | removeBlacklistIp (ip : UInt32)
  | clearBlacklist
  | limiterCheck (ip : UInt32) (nowUs : UInt64)
  | limiterReset (ip : UInt32)
  | limiterClear
  | limiterSetEnabled (enabled : Bool)
  | limiterSetRate (pps burst : UInt32)
  | resetStats

def apply [FirewallFloat φ] [RuleSort] (e : RuleEngine φ) : Op → RuleEngine φ
  | .addRule rule => (e.addRule rule).1
  | .removeRule id => (e.removeRule id).1
  | .setRuleEnabled id enabled => (e.setRuleEnabled id enabled).1
  | .clearRules => { e with rules := [] }
  | .addWhitelistIp ip => { e with whitelistIps := e.whitelistIps.insert ip }
  | .removeWhitelistIp ip => { e with whitelistIps := e.whitelistIps.filter (· ≠ ip) }
  | .clearWhitelist => { e with whitelistIps := [] }
  | .addBlacklistIp ip => { e with blacklistIps := e.blacklistIps.insert ip }
  | .removeBlacklistIp ip => { e with blacklistIps := e.blacklistIps.filter (· ≠ ip) }
  | .clearBlacklist => { e with blacklistIps := [] }
  | .limiterCheck ip nowUs => { e with rateLimiter := (e.rateLimiter.check ip nowUs).1 }
  | .limiterReset ip => { e with rateLimiter := e.rateLimiter.reset ip }
  | .limiterClear => { e with rateLimiter := e.rateLimiter.clear }
  | .limiterSetEnabled enabled => { e with rateLimiter := e.rateLimiter.setEnabled enabled }
  | .limiterSetRate pps burst => { e with rateLimiter := e.rateLimiter.setRate pps burst }
  | .resetStats => { e with stats := {} }

variable [FirewallFloat φ]

/-- The last two stages of `evaluate`: the first rule that matches, or pass. -/
def evaluateRules (e : RuleEngine φ) (evt : PacketEvent) : RuleEngine φ × FirewallDecision φ :=
  match e.rules.find? (·.matches evt) with
  | some rule =>
    ({ e with stats := { e.stats with ruleMatches := e.stats.ruleMatches + 1 } },
      ⟨rule.action, rule.reason, rule.id, FirewallFloat.zero, 0, 0⟩)
  | none =>
    ({ e with stats := { e.stats with defaultPasses := e.stats.defaultPasses + 1 } },
      FirewallDecision.pass)

/-- `evaluate` -/
def evaluate (e : RuleEngine φ) (evt : PacketEvent) (nowUs : UInt64) :
    RuleEngine φ × FirewallDecision φ :=
  if evt.srcIp ∈ e.whitelistIps then
    ({ e with stats := { e.stats with whitelistHits := e.stats.whitelistHits + 1 } },
      ⟨.pass, .ruleWhitelist, 0, FirewallFloat.zero, 0, 0⟩)
  else if evt.srcIp ∈ e.blacklistIps then
    ({ e with stats := { e.stats with blacklistHits := e.stats.blacklistHits + 1 } },
      ⟨.drop, .ruleBlacklist, 0, FirewallFloat.zero, 0, 0⟩)
  else if e.rateLimiter.config.enabled then
    let (limiter, result) := e.rateLimiter.check evt.srcIp nowUs
    let e := { e with rateLimiter := limiter }
    if !result.allowed then
      ({ e with stats := { e.stats with rateLimitDrops := e.stats.rateLimitDrops + 1 } },
        ⟨.drop, .rateLimit, 0, FirewallFloat.zero, result.currentPps, result.limitPps⟩)
    else e.evaluateRules evt
  else e.evaluateRules evt

/-! ## What the verdicts are -/

variable {e : RuleEngine φ} {evt : PacketEvent} {nowUs : UInt64}

/-- The verdict for an address on the whitelist, whatever else is configured. -/
theorem evaluate_whitelisted (h : evt.srcIp ∈ e.whitelistIps) :
    (e.evaluate evt nowUs).2 = ⟨.pass, .ruleWhitelist, 0, FirewallFloat.zero, 0, 0⟩ := by
  rw [evaluate, if_pos h]

end RuleEngine

end NeuStack
