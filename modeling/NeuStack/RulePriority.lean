import NeuStack.RuleEngine
import NeuStack.GuardedRun

/-! # Rules by priority

What the documentation of `RuleEngine` says of `evaluate` (`Prescribes`), and that it is
what `evaluate` does.  The loop takes the first rule that matches; as the rules are kept
sorted by all the operations (`serve_ordered`), no other rule that matches comes before it
by priority (`find?_minimal`).
-/
namespace NeuStack

/-- The first match in a sorted list precedes every other. -/
theorem find?_minimal {α : Type} {r : α → α → Prop} (hrefl : ∀ a, r a a) {p : α → Bool}
    {l : List α} (h : l.Pairwise r) {a : α} (hfind : l.find? p = some a) :
    ∀ b ∈ l, p b = true → r a b := by
  obtain ⟨-, before, after, rfl, hbefore⟩ := List.find?_eq_some_iff_append.mp hfind
  intro b hb hmatch
  rcases List.mem_append.mp hb with hb | hb
  · have hmiss := hbefore b hb
    rw [hmatch] at hmiss
    cases hmiss
  · rcases List.mem_cons.mp hb with rfl | hb
    · exact hrefl b
    · exact (List.pairwise_cons.mp (List.pairwise_append.mp h).2.1).1 b hb

/-- An enabled rule whose fields accept the packet; zero accepts any value. -/
structure Rule.Applies (r : Rule) (evt : PacketEvent) : Prop where
  enabled : r.enabled = true
  srcIp : r.srcIp = 0 ∨ evt.srcIp &&& r.srcMask = r.srcIp &&& r.srcMask
  dstIp : r.dstIp = 0 ∨ evt.dstIp &&& r.dstMask = r.dstIp &&& r.dstMask
  srcPort : r.srcPort = 0 ∨ evt.srcPort = r.srcPort
  dstPort : r.dstPort = 0 ∨ evt.dstPort = r.dstPort
  protocol : r.protocol = 0 ∨ evt.protocol = r.protocol

theorem Rule.matches_iff (r : Rule) (evt : PacketEvent) :
    r.matches evt = true ↔ r.Applies evt := by
  unfold Rule.matches
  constructor
  · intro h
    -- each branch that gives up contradicts `h`
    split at h
    · cases h
    rename_i henabled
    repeat
      split at h
      · cases h
    rename_i hsrc hdst hsport hdport hproto
    have hfield : ∀ {p q : Prop}, ¬ (¬ p ∧ ¬ q) → p ∨ q := fun hn =>
      Classical.byContradiction fun hor => hn (not_or.mp hor)
    refine ⟨?_, hfield hsrc, hfield hdst, hfield hsport, hfield hdport, hfield hproto⟩
    rwa [Bool.not_eq_true', Bool.not_eq_false] at henabled
  · rintro ⟨henabled, hsrc, hdst, hsport, hdport, hproto⟩
    have hfield : ∀ {p q : Prop}, p ∨ q → ¬ (¬ p ∧ ¬ q) := fun hor hn => hor.elim hn.1 hn.2
    rw [if_neg (by rw [henabled]; decide), if_neg (hfield hsrc), if_neg (hfield hdst),
      if_neg (hfield hsport), if_neg (hfield hdport), if_neg (hfield hproto)]

namespace RuleEngine
variable {φ : Type}

/-! ## The rules stay sorted -/

/-- The rules are sorted by priority, and there are not too many. -/
structure Ordered (e : RuleEngine φ) : Prop where
  sorted : e.rules.Pairwise fun a b => a.priority ≤ b.priority
  length_le : e.rules.length ≤ maxRules

theorem addRule_ordered [RuleSort] {e : RuleEngine φ} (h : e.Ordered) (rule : Rule) :
    (e.addRule rule).1.Ordered := by
  rw [addRule]
  split
  · exact h
  · refine ⟨RuleSort.sorted _, ?_⟩
    rw [(RuleSort.perm _).length_eq, List.length_append, List.length_singleton]
    omega

theorem removeRule_ordered {e : RuleEngine φ} (h : e.Ordered) (id : UInt16) :
    (e.removeRule id).1.Ordered := by
  unfold removeRule
  dsimp only
  split
  · exact h
  · exact ⟨h.sorted.filter _, (List.length_filter_le ..).trans h.length_le⟩

/-- Enabling a rule does not change the priorities. -/
theorem map_enableFirst (id : UInt16) (enabled : Bool) (rules : List Rule) :
    (enableFirst id enabled rules).map Rule.priority = rules.map Rule.priority := by
  induction rules with
  | nil => rfl
  | cons r rules ih =>
    rw [enableFirst]
    split
    · rfl
    · rw [List.map_cons, List.map_cons, ih]

theorem setRuleEnabled_ordered {e : RuleEngine φ} (h : e.Ordered) (id : UInt16) (enabled : Bool) :
    (e.setRuleEnabled id enabled).1.Ordered := by
  have hmap := map_enableFirst id enabled e.rules
  constructor
  · have hsorted := List.pairwise_map.mpr h.sorted
    rw [← hmap] at hsorted
    exact List.pairwise_map.mp hsorted
  · have hlen := congrArg List.length hmap
    rw [List.length_map, List.length_map] at hlen
    exact hlen.trans_le h.length_le

variable [FirewallFloat φ]

/-- The operations keep the order. -/
theorem apply_ordered [RuleSort] {e : RuleEngine φ} (h : e.Ordered) (op : Op) :
    (e.apply op).Ordered := by
  cases op with
  | addRule rule => exact addRule_ordered h rule
  | removeRule id => exact removeRule_ordered h id
  | setRuleEnabled id enabled => exact setRuleEnabled_ordered h id enabled
  | clearRules => exact ⟨List.Pairwise.nil, Nat.zero_le _⟩
  | addWhitelistIp | removeWhitelistIp | clearWhitelist | addBlacklistIp | removeBlacklistIp
  | clearBlacklist | limiterCheck | limiterReset | limiterClear | limiterSetEnabled
  | limiterSetRate | resetStats => exact ⟨h.sorted, h.length_le⟩

/-! ## What `evaluate` should do -/

/-- What decides on a packet. -/
inductive Stage
  | whitelist | blacklist | rateLimit | rule | default
  deriving DecidableEq, Repr

/-- One more decision of the stage. -/
def Stats.count (s : Stats) : Stage → Stats
  | .whitelist => { s with whitelistHits := s.whitelistHits + 1 }
  | .blacklist => { s with blacklistHits := s.blacklistHits + 1 }
  | .rateLimit => { s with rateLimitDrops := s.rateLimitDrops + 1 }
  | .rule => { s with ruleMatches := s.ruleMatches + 1 }
  | .default => { s with defaultPasses := s.defaultPasses + 1 }

/-- The packet gets to the rate limiter: its source is on neither list. -/
def Unlisted (e : RuleEngine φ) (evt : PacketEvent) : Prop :=
  evt.srcIp ∉ e.whitelistIps ∧ evt.srcIp ∉ e.blacklistIps

/-- The rate limiter is on, and has no token for the packet. -/
def Denied (e : RuleEngine φ) (evt : PacketEvent) (nowUs : UInt64) : Prop :=
  e.rateLimiter.config.enabled = true ∧
    (e.rateLimiter.check evt.srcIp nowUs).2.allowed = false

/-- The documented order: the whitelist, the blacklist, the rate limiter, the rules by
priority, and to pass.  Of several rules with the least priority any may decide. -/
inductive Prescribes (e : RuleEngine φ) (evt : PacketEvent) (nowUs : UInt64) :
    Stage → FirewallDecision.Action → Prop
  | whitelist (hlisted : evt.srcIp ∈ e.whitelistIps) : Prescribes e evt nowUs .whitelist .pass
  | blacklist (hwhite : evt.srcIp ∉ e.whitelistIps) (hlisted : evt.srcIp ∈ e.blacklistIps) :
      Prescribes e evt nowUs .blacklist .drop
  | rateLimit (hunlisted : e.Unlisted evt) (hdenied : e.Denied evt nowUs) :
      Prescribes e evt nowUs .rateLimit .drop
  | rule (hunlisted : e.Unlisted evt) (hallowed : ¬ e.Denied evt nowUs) (rule : Rule)
      (hmem : rule ∈ e.rules) (happlies : rule.Applies evt)
      (hleast : ∀ other ∈ e.rules, other.Applies evt → rule.priority ≤ other.priority) :
      Prescribes e evt nowUs .rule rule.action
  | default (hunlisted : e.Unlisted evt) (hallowed : ¬ e.Denied evt nowUs)
      (hnone : ∀ rule ∈ e.rules, ¬ rule.Applies evt) : Prescribes e evt nowUs .default .pass

/-- `evaluate` follows the order, counts the decision under the one stage that made it, and
asks the rate limiter about unlisted packets only. -/
structure Evaluates (e : RuleEngine φ) (evt : PacketEvent) (nowUs : UInt64) : Prop where
  verdict : ∃ stage, e.Prescribes evt nowUs stage (e.evaluate evt nowUs).2.action ∧
    (e.evaluate evt nowUs).1.stats = e.stats.count stage
  limiter_listed : ¬ e.Unlisted evt →
    (e.evaluate evt nowUs).1.rateLimiter = e.rateLimiter
  limiter_unlisted : e.Unlisted evt →
    (e.evaluate evt nowUs).1.rateLimiter = (e.rateLimiter.check evt.srcIp nowUs).1
  rules : (e.evaluate evt nowUs).1.rules = e.rules
  lists : (e.evaluate evt nowUs).1.whitelistIps = e.whitelistIps ∧
    (e.evaluate evt nowUs).1.blacklistIps = e.blacklistIps

/-! ## What it does -/

variable {e : RuleEngine φ} {evt : PacketEvent} {nowUs : UInt64}

/-- The last two stages, for an engine that agrees with `e` on the rules and the
statistics. -/
theorem evaluateRules_prescribed (h : e.Ordered) (hunlisted : e.Unlisted evt)
    (hallowed : ¬ e.Denied evt nowUs) {e' : RuleEngine φ} (hrules : e'.rules = e.rules)
    (hstats : e'.stats = e.stats) :
    ∃ stage, e.Prescribes evt nowUs stage (e'.evaluateRules evt).2.action ∧
      (e'.evaluateRules evt).1.stats = e.stats.count stage := by
  rw [evaluateRules, hrules]
  cases hfind : e.rules.find? (·.matches evt) with
  | none =>
    refine ⟨.default, .default hunlisted hallowed fun rule hmem happlies => ?_, ?_⟩
    · exact List.find?_eq_none.mp hfind rule hmem ((rule.matches_iff evt).mpr happlies)
    · rw [← hstats]
      rfl
  | some rule =>
    have hmatch := List.find?_some hfind
    have hleast := find?_minimal (fun a : Rule => UInt16.le_refl a.priority) h.sorted hfind
    refine ⟨.rule, .rule hunlisted hallowed rule (List.mem_of_find?_eq_some hfind)
      ((rule.matches_iff evt).mp hmatch) fun other hmem happlies => ?_, ?_⟩
    · exact hleast other hmem ((other.matches_iff evt).mpr happlies)
    · rw [← hstats]
      rfl

/-- Nothing but the statistics changes. -/
theorem evaluateRules_frame (e : RuleEngine φ) (evt : PacketEvent) :
    (e.evaluateRules evt).1.rateLimiter = e.rateLimiter ∧
      (e.evaluateRules evt).1.rules = e.rules ∧
      (e.evaluateRules evt).1.whitelistIps = e.whitelistIps ∧
      (e.evaluateRules evt).1.blacklistIps = e.blacklistIps := by
  rw [evaluateRules]
  split <;> exact ⟨rfl, rfl, rfl, rfl⟩

/-- A limiter that is off is not changed by a check. -/
theorem check_disabled {r : RateLimiter φ} (h : r.config.enabled = false)
    (ip : UInt32) : (r.check ip nowUs).1 = r := by
  rw [RateLimiter.check, h]
  rfl

/-- The engine after the rate limiter has been asked. -/
def checked (e : RuleEngine φ) (evt : PacketEvent) (nowUs : UInt64) : RuleEngine φ :=
  { e with rateLimiter := (e.rateLimiter.check evt.srcIp nowUs).1 }

theorem evaluate_denied (hunlisted : e.Unlisted evt) (hdenied : e.Denied evt nowUs) :
    (e.evaluate evt nowUs).1 =
        { e.checked evt nowUs with stats := e.stats.count .rateLimit } ∧
      (e.evaluate evt nowUs).2.action = .drop := by
  obtain ⟨hwhite, hblack⟩ := hunlisted
  obtain ⟨henabled, hresult⟩ := hdenied
  rw [evaluate, if_neg hwhite, if_neg hblack, if_pos henabled]
  dsimp only
  rw [hresult]
  exact ⟨rfl, rfl⟩

/-- An unlisted packet that is not denied gets to the rules. -/
theorem evaluate_allowed (hunlisted : e.Unlisted evt) (hallowed : ¬ e.Denied evt nowUs) :
    e.evaluate evt nowUs = (e.checked evt nowUs).evaluateRules evt := by
  obtain ⟨hwhite, hblack⟩ := hunlisted
  rw [evaluate, if_neg hwhite, if_neg hblack]
  cases henabled : e.rateLimiter.config.enabled with
  | true =>
    have hresult : (e.rateLimiter.check evt.srcIp nowUs).2.allowed = true := by
      refine Bool.not_eq_false _ ▸ fun hresult => hallowed ⟨henabled, hresult⟩
    rw [if_pos rfl]
    dsimp only
    rw [hresult]
    rfl
  | false =>
    rw [if_neg Bool.false_ne_true, checked, check_disabled henabled]

/-- **`evaluate` follows the documented order wherever the rules are sorted.** -/
theorem evaluate_evaluates (h : e.Ordered) (evt : PacketEvent) (nowUs : UInt64) :
    e.Evaluates evt nowUs := by
  by_cases hwhite : evt.srcIp ∈ e.whitelistIps
  · have hlisted : ¬ e.Unlisted evt := fun hunlisted => hunlisted.1 hwhite
    refine ⟨⟨.whitelist, ?_, ?_⟩, ?_, fun h => absurd h hlisted, ?_, ?_⟩ <;>
      rw [evaluate, if_pos hwhite]
    · exact .whitelist hwhite
    · rfl
    · exact fun _ => rfl
    · exact ⟨rfl, rfl⟩
  by_cases hblack : evt.srcIp ∈ e.blacklistIps
  · have hlisted : ¬ e.Unlisted evt := fun hunlisted => hunlisted.2 hblack
    refine ⟨⟨.blacklist, ?_, ?_⟩, ?_, fun h => absurd h hlisted, ?_, ?_⟩ <;>
      rw [evaluate, if_neg hwhite, if_pos hblack]
    · exact .blacklist hwhite hblack
    · rfl
    · exact fun _ => rfl
    · exact ⟨rfl, rfl⟩
  have hunlisted : e.Unlisted evt := ⟨hwhite, hblack⟩
  by_cases hdenied : e.Denied evt nowUs
  · obtain ⟨hengine, haction⟩ := evaluate_denied hunlisted hdenied
    refine ⟨⟨.rateLimit, ?_, ?_⟩, fun h => absurd hunlisted h, fun _ => ?_, ?_, ?_⟩
    · rw [haction]
      exact .rateLimit hunlisted hdenied
    all_goals rw [hengine]
    · rfl
    · rfl
    · exact ⟨rfl, rfl⟩
  · have heval := evaluate_allowed hunlisted hdenied
    obtain ⟨hlimiter, hrules, hwhites, hblacks⟩ := (e.checked evt nowUs).evaluateRules_frame evt
    refine ⟨?_, fun h => absurd hunlisted h, fun _ => ?_, ?_, ?_⟩ <;> rw [heval]
    · exact evaluateRules_prescribed h hunlisted hdenied rfl rfl
    · exact hlimiter
    · exact hrules
    · exact ⟨hwhites, hblacks⟩

/-! ## Runs -/

/-- The calls on a rule engine. -/
inductive Call
  | manage (op : Op)
  | evaluate (evt : PacketEvent) (nowUs : UInt64)

/-- One call. -/
def serve [RuleSort] (e : RuleEngine φ) : Call → RuleEngine φ
  | .manage op => e.apply op
  | .evaluate evt nowUs => (e.evaluate evt nowUs).1

theorem serve_ordered [RuleSort] (e : RuleEngine φ) (c : Call) (h : e.Ordered) :
    (e.serve c).Ordered := by
  cases c with
  | manage op => exact apply_ordered h op
  | evaluate evt nowUs =>
    have hrules := (evaluate_evaluates h evt nowUs).rules
    exact ⟨by rw [serve, hrules]; exact h.sorted, by rw [serve, hrules]; exact h.length_le⟩

/-- **The documented order, after any calls and for every packet**: the rules are sorted and
at most `MAX_RULES`, and `evaluate` decides as documented. -/
theorem evaluates_by_priority [RuleSort] (calls : List Call) (evt : PacketEvent)
    (nowUs : UInt64) :
    (GuardedRun.run serve ({} : RuleEngine φ) calls).Ordered ∧
      (GuardedRun.run serve ({} : RuleEngine φ) calls).Evaluates evt nowUs := by
  have hordered : (GuardedRun.run serve ({} : RuleEngine φ) calls).Ordered :=
    GuardedRun.run_invariant serve_ordered ⟨List.Pairwise.nil, Nat.zero_le _⟩ calls
  exact ⟨hordered, evaluate_evaluates hordered evt nowUs⟩

end RuleEngine
end NeuStack
