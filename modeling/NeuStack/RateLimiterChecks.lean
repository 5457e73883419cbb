import NeuStack.GuardedRun
import NeuStack.PacketInspection
import NeuStack.RateLimiter
import NeuStack.TokenBucket

/-! # What the rate limiter admits

The checks of one address are those of a token bucket (`TokenBucket.Log`), as long as its
bucket is kept: the list of the buckets, whatever is done to it, does not touch what they
hold (`level`), and the checks of other addresses only evict.  What the code computes in
`uint64_t` is never more than what the rate gives, so the limiter never admits more; it is
less whenever a fraction of a token is cut off or the product wraps around.
-/
namespace NeuStack
namespace RateLimiter
variable {φ : Type} [FirewallFloat φ]

/-! ## Runs -/

/-- A call. -/
inductive Op where
  | check (ip : UInt32) (nowUs : UInt64)
  | reset (ip : UInt32)
  | clear
  | setEnabled (enabled : Bool)
  | setRate (pps burst : UInt32)
  deriving DecidableEq

def step (r : RateLimiter φ) : Op → RateLimiter φ
  | .check ip nowUs => (r.check ip nowUs).1
  | .reset ip => r.reset ip
  | .clear => r.clear
  | .setEnabled enabled => r.setEnabled enabled
  | .setRate pps burst => r.setRate pps burst

/-- What a check decided. -/
structure Decision where
  ip : UInt32
  timeUs : UInt64
  allowed : Bool
  deriving DecidableEq

def decision (r : RateLimiter φ) : Op → List Decision
  | .check ip nowUs => [⟨ip, nowUs, (r.check ip nowUs).2.allowed⟩]
  | _ => []

/-- What the checks of a run decided. -/
def decisions (r : RateLimiter φ) : List Op → List Decision
  | [] => []
  | x :: xs => r.decision x ++ decisions (r.step x) xs

/-! ## What a bucket holds -/

omit [FirewallFloat φ] in
theorem find_modify (r : RateLimiter φ) (k : UInt32) (f : Bucket φ → Bucket φ) (ip : UInt32) :
    (r.modify k f).find ip = if ip = k then (r.find ip).map f else r.find ip :=
  Table.lookup_modify ..

omit [FirewallFloat φ] in
theorem find_erase (r : RateLimiter φ) (k ip : UInt32) :
    (r.erase k).find ip = if ip = k then none else r.find ip := Table.lookup_erase ..

/-- The tokens of a bucket, without its links. -/
def Bucket.level (b : Bucket φ) : TokenBucket.Level Nat := ⟨b.tokens.toNat, b.lastUpdateUs.toNat⟩

def level (r : RateLimiter φ) (ip : UInt32) : Option (TokenBucket.Level Nat) :=
  (r.find ip).map Bucket.level

omit [FirewallFloat φ] in
theorem level_modify {r r' : RateLimiter φ} {ip : UInt32} (h : r'.level ip = r.level ip)
    (k : UInt32) {f : Bucket φ → Bucket φ} (hf : ∀ b, (f b).level = b.level) :
    (r'.modify k f).level ip = r.level ip := by
  rw [← h, level, find_modify, level]
  split
  · rw [Option.map_map]
    exact congrArg (fun g => (r'.find ip).map g) (funext hf)
  · rfl

omit [FirewallFloat φ] in
theorem level_lruRemove (r : RateLimiter φ) (b : Bucket φ) (ip : UInt32) :
    (r.lruRemove b).level ip = r.level ip := by
  unfold lruRemove
  refine level_modify ?_ _ fun _ => rfl
  split
  · refine level_modify ?_ _ fun _ => rfl
    split
    · exact level_modify rfl _ fun _ => rfl
    · rfl
  · split
    · exact level_modify (f := fun x => { x with lruNext := b.lruNext }) rfl _ fun _ => rfl
    · rfl

omit [FirewallFloat φ] in
theorem level_lruPushBack (r : RateLimiter φ) (k ip : UInt32) :
    (r.lruPushBack k).level ip = r.level ip := by
  have hnew : (r.modify k fun x => { x with lruPrev := r.lruTail, lruNext := none }).level ip =
      r.level ip := level_modify rfl _ fun _ => rfl
  unfold lruPushBack
  dsimp only
  split
  · exact level_modify (f := fun x => { x with lruNext := some k }) hnew _ fun _ => rfl
  · exact hnew

omit [FirewallFloat φ] in
theorem level_lruMoveToTail (r : RateLimiter φ) (b : Bucket φ) (ip : UInt32) :
    (r.lruMoveToTail b).level ip = r.level ip := by
  rw [lruMoveToTail]
  split
  · rfl
  · rw [level_lruPushBack, level_lruRemove]

omit [FirewallFloat φ] in
theorem level_erase (r : RateLimiter φ) (k ip : UInt32) :
    (r.erase k).level ip = r.level ip ∨ (r.erase k).level ip = none := by
  rw [level, find_erase]
  split
  · exact Or.inr rfl
  · exact Or.inl rfl

omit [FirewallFloat φ] in
/-- Evicting leaves a bucket as it is, or takes it away. -/
theorem level_evictHeads (r : RateLimiter φ) (n : Nat) (ip : UInt32) :
    (r.evictHeads n).level ip = r.level ip ∨ (r.evictHeads n).level ip = none := by
  induction n generalizing r with
  | zero => exact Or.inl rfl
  | succ n ih =>
    rw [evictHeads]
    split
    · exact Or.inl rfl
    · rename_i victim _
      rcases ih ((r.lruRemove victim).erase victim.ip) with hsame | hnone
      · rw [hsame]
        exact (level_erase _ _ _).imp_left fun h => h.trans (level_lruRemove ..)
      · exact Or.inr hnone

omit [FirewallFloat φ] in
theorem level_evictLru (r : RateLimiter φ) (ip : UInt32) :
    r.evictLru.level ip = r.level ip ∨ r.evictLru.level ip = none := by
  rw [evictLru]
  exact level_evictHeads ..

omit [FirewallFloat φ] in
theorem level_eq_none {r : RateLimiter φ} {ip : UInt32} : r.level ip = none ↔ r.find ip = none :=
  Option.map_eq_none_iff

omit [FirewallFloat φ] in
/-- A new bucket at the end of the list. -/
theorem find_append (r : RateLimiter φ) (k ip : UInt32) (b : Bucket φ) :
    ({ r with buckets := r.buckets ++ [(k, b)] } : RateLimiter φ).find ip =
      (r.find ip).or (if ip = k then some b else none) := by
  show (r.buckets ++ [(k, b)]).lookup ip = _
  rw [List.lookup_append, find]
  congr 1
  rw [List.lookup_cons]
  by_cases hip : ip = k
  · rw [if_pos hip, beq_iff_eq.mpr hip]
  · rw [if_neg hip, beq_eq_false_iff_ne.mpr hip]
    rfl

/-- What an address has before its check: its bucket, or a full one. -/
def levelBefore (r : RateLimiter φ) (ip : UInt32) (nowUs : UInt64) : TokenBucket.Level Nat :=
  (r.level ip).getD ⟨r.config.burstSize.toNat, nowUs.toNat⟩

omit [FirewallFloat φ] in
/-- Room is made for a new bucket. -/
def roomy (r : RateLimiter φ) : RateLimiter φ :=
  if maxTrackedIps ≤ r.buckets.length then r.evictLru else r

omit [FirewallFloat φ] in
theorem level_roomy (r : RateLimiter φ) (ip : UInt32) :
    r.roomy.level ip = r.level ip ∨ r.roomy.level ip = none := by
  rw [roomy]
  split
  · exact level_evictLru r ip
  · exact Or.inl rfl

omit [FirewallFloat φ] in
/-- The bucket of `b.ip` is new. -/
def insert (r : RateLimiter φ) (b : Bucket φ) : RateLimiter φ :=
  ({ r with buckets := r.buckets ++ [(b.ip, b)] } : RateLimiter φ).lruPushBack b.ip

omit [FirewallFloat φ] in
theorem level_insert (r : RateLimiter φ) (b : Bucket φ) (ip : UInt32) :
    (r.insert b).level ip = (r.level ip).or (if ip = b.ip then some b.level else none) := by
  rw [insert, level_lruPushBack, level, find_append, level]
  cases r.find ip with
  | some b' => rfl
  | none => split <;> rfl

/-- A full bucket. -/
def newBucket (r : RateLimiter φ) (ip : UInt32) (nowUs : UInt64) : Bucket φ where
  tokens := r.config.burstSize
  lastUpdateUs := nowUs
  ewmaPps := FirewallFloat.zero
  ip := ip

omit [FirewallFloat φ] in
theorem config_lruRemove (r : RateLimiter φ) (b : Bucket φ) :
    (r.lruRemove b).config = r.config := by
  unfold lruRemove
  cases b.lruNext <;> cases b.lruPrev <;> rfl

omit [FirewallFloat φ] in
theorem config_lruPushBack (r : RateLimiter φ) (ip : UInt32) :
    (r.lruPushBack ip).config = r.config := by
  unfold lruPushBack
  cases r.lruTail <;> rfl

omit [FirewallFloat φ] in
theorem config_lruMoveToTail (r : RateLimiter φ) (b : Bucket φ) :
    (r.lruMoveToTail b).config = r.config := by
  unfold lruMoveToTail
  split
  · rfl
  · rw [config_lruPushBack, config_lruRemove]

omit [FirewallFloat φ] in
theorem config_evictHeads (r : RateLimiter φ) (n : Nat) : (r.evictHeads n).config = r.config := by
  induction n generalizing r with
  | zero => rfl
  | succ n ih =>
    rw [evictHeads]
    split
    · rfl
    · exact (ih _).trans (config_lruRemove ..)

omit [FirewallFloat φ] in
theorem config_roomy (r : RateLimiter φ) : r.roomy.config = r.config := by
  rw [roomy]
  split
  · exact config_evictHeads ..
  · rfl

theorem getOrCreateBucket_some {r : RateLimiter φ} {ip : UInt32} {b : Bucket φ}
    (h : r.find ip = some b) (nowUs : UInt64) : r.getOrCreateBucket ip nowUs = (r, b) := by
  rw [getOrCreateBucket, h]

theorem getOrCreateBucket_none {r : RateLimiter φ} {ip : UInt32} (h : r.find ip = none)
    (nowUs : UInt64) : r.getOrCreateBucket ip nowUs =
      (r.roomy.insert (r.roomy.newBucket ip nowUs),
        ((r.roomy.insert (r.roomy.newBucket ip nowUs)).find ip).getD
          (r.roomy.newBucket ip nowUs)) := by
  rw [getOrCreateBucket, h]
  rfl

theorem getOrCreateBucket_config (r : RateLimiter φ) (ip : UInt32) (nowUs : UInt64) :
    (r.getOrCreateBucket ip nowUs).1.config = r.config := by
  cases hfind : r.find ip with
  | some b => rw [getOrCreateBucket_some hfind]
  | none =>
    rw [getOrCreateBucket_none hfind]
    exact (config_lruPushBack ..).trans (config_roomy r)

/-- The bucket that is checked. -/
theorem getOrCreateBucket_self (r : RateLimiter φ) (ip : UInt32) (nowUs : UInt64) :
    (r.getOrCreateBucket ip nowUs).1.find ip = some (r.getOrCreateBucket ip nowUs).2 ∧
      (r.getOrCreateBucket ip nowUs).2.level = r.levelBefore ip nowUs := by
  cases hfind : r.find ip with
  | some b =>
    rw [getOrCreateBucket_some hfind, levelBefore, level, hfind]
    exact ⟨rfl, rfl⟩
  | none =>
    have hroomy : r.roomy.level ip = none :=
      (level_roomy r ip).elim (fun h => h.trans (level_eq_none.mpr hfind)) id
    have hlevel := level_insert r.roomy (r.roomy.newBucket ip nowUs) ip
    rw [hroomy, Option.none_or, if_pos (show ip = (r.roomy.newBucket ip nowUs).ip from rfl)] at hlevel
    obtain ⟨b, hb, hbl⟩ := Option.map_eq_some_iff.mp hlevel
    rw [getOrCreateBucket_none hfind, hb, levelBefore, level_eq_none.mpr hfind]
    refine ⟨rfl, hbl.trans ?_⟩
    rw [Bucket.level, newBucket, config_roomy]
    rfl

/-- Another address keeps its bucket, or loses it. -/
theorem getOrCreateBucket_other (r : RateLimiter φ) {ip ip' : UInt32} (hne : ip' ≠ ip)
    (nowUs : UInt64) : (r.getOrCreateBucket ip nowUs).1.level ip' = r.level ip' ∨
      (r.getOrCreateBucket ip nowUs).1.level ip' = none := by
  cases hfind : r.find ip with
  | some b =>
    rw [getOrCreateBucket_some hfind]
    exact Or.inl rfl
  | none =>
    rw [getOrCreateBucket_none hfind, level_insert,
      if_neg (show ¬ ip' = (r.roomy.newBucket ip nowUs).ip from hne), Option.or_none]
    exact level_roomy r ip'

/-! ## One check -/

/-- The tokens that are added after `elapsedUs` microseconds, in `uint64_t` arithmetic. -/
def tokensToAdd (c : Config) (elapsedUs : Nat) : Nat :=
  elapsedUs * c.packetsPerSecond.toNat % 2 ^ 64 / 1000000

theorem toNat_refill (c : Config) (b : Bucket φ) {nowUs : UInt64} (h : b.lastUpdateUs ≤ nowUs) :
    (refill c b nowUs).level = ⟨min (b.tokens.toNat +
      tokensToAdd c (nowUs.toNat - b.lastUpdateUs.toNat)) c.burstSize.toNat, nowUs.toNat⟩ := by
  have htokens := b.tokens.toNat_lt
  have hburst := c.burstSize.toNat_lt
  have hadd : ((nowUs - b.lastUpdateUs) * c.packetsPerSecond.toUInt64 / 1000000).toNat =
      tokensToAdd c (nowUs.toNat - b.lastUpdateUs.toNat) := by
    rw [UInt64.toNat_div, UInt64.toNat_mul, UInt64.toNat_sub_of_le _ _ h, UInt32.toNat_toUInt64]
    rfl
  have hsmall : tokensToAdd c (nowUs.toNat - b.lastUpdateUs.toNat) < 2 ^ 63 := by
    rw [tokensToAdd]
    omega
  have hmin (x y : UInt64) : (min x y).toNat = min x.toNat y.toNat := by
    show (if x ≤ y then x else y).toNat = _
    simp only [Nat.min_def, UInt64.le_iff_toNat_le]
    split <;> rfl
  have hsum : (min (b.tokens.toUInt64 +
      (nowUs - b.lastUpdateUs) * c.packetsPerSecond.toUInt64 / 1000000)
        c.burstSize.toUInt64).toNat = min (b.tokens.toNat +
      tokensToAdd c (nowUs.toNat - b.lastUpdateUs.toNat)) c.burstSize.toNat := by
    rw [hmin, UInt64.toNat_add, hadd, UInt32.toNat_toUInt64, UInt32.toNat_toUInt64,
      Nat.mod_eq_of_lt (by omega)]
  have htruncate : (min (b.tokens.toUInt64 +
      (nowUs - b.lastUpdateUs) * c.packetsPerSecond.toUInt64 / 1000000)
        c.burstSize.toUInt64).toUInt32.toNat = min (b.tokens.toNat +
      tokensToAdd c (nowUs.toNat - b.lastUpdateUs.toNat)) c.burstSize.toNat := by
    rw [UInt64.toNat_toUInt32, hsum, Nat.mod_eq_of_lt (by omega)]
  exact congrArg (fun n => (⟨n, nowUs.toNat⟩ : TokenBucket.Level Nat)) htruncate

/-- What a check finds in the bucket. -/
def found (r : RateLimiter φ) (ip : UInt32) (nowUs : UInt64) : Nat :=
  min ((r.levelBefore ip nowUs).tokens +
    tokensToAdd r.config (nowUs.toNat - (r.levelBefore ip nowUs).last)) r.config.burstSize.toNat

omit [FirewallFloat φ] in
theorem found_none {r : RateLimiter φ} {ip : UInt32} (h : r.level ip = none) (nowUs : UInt64) :
    r.found ip nowUs = r.config.burstSize.toNat := by
  rw [found, levelBefore, h, Option.getD_none, Nat.sub_self, tokensToAdd, Nat.zero_mul,
    Nat.zero_mod, Nat.zero_div, Nat.add_zero, Nat.min_self]

omit [FirewallFloat φ] in
theorem found_some {r : RateLimiter φ} {ip : UInt32} {l : TokenBucket.Level Nat}
    (h : r.level ip = some l) (nowUs : UInt64) : r.found ip nowUs =
      min (l.tokens + tokensToAdd r.config (nowUs.toNat - l.last)) r.config.burstSize.toNat := by
  rw [found, levelBefore, h, Option.getD_some]

/-- The rest of `check`, with the bucket refilled. -/
def settle (r : RateLimiter φ) (ip : UInt32) (b : Bucket φ) : RateLimiter φ × Result :=
  let r := (r.modify ip fun _ => b).lruMoveToTail b
  let currentPps := FirewallFloat.toUInt32 b.ewmaPps
  if 0 < b.tokens then
    (r.modify ip fun x => { x with tokens := x.tokens - 1 },
      ⟨true, currentPps, r.config.packetsPerSecond, b.tokens - 1⟩)
  else (r, ⟨false, currentPps, r.config.packetsPerSecond, 0⟩)

/-- The limiter with the bucket in it, and the bucket refilled. -/
theorem check_eq {r : RateLimiter φ} (henabled : r.config.enabled = true) (ip : UInt32)
    (nowUs : UInt64) : r.check ip nowUs =
      (r.getOrCreateBucket ip nowUs).1.settle ip
        (refill (r.getOrCreateBucket ip nowUs).1.config (r.getOrCreateBucket ip nowUs).2 nowUs) := by
  rw [check, henabled, settle]
  simp only [Bool.not_true, Bool.false_eq_true, if_false, config_lruMoveToTail]

theorem settle_self {r : RateLimiter φ} {ip : UInt32} {old : Bucket φ} (h : r.find ip = some old)
    (b : Bucket φ) :
    (r.settle ip b).1.level ip =
        some (TokenBucket.takeOne b.level.tokens b.level.last) ∧
      (r.settle ip b).2.allowed = decide (0 < b.level.tokens) := by
  have hfind : ∃ b', ((r.modify ip fun _ => b).lruMoveToTail b).find ip = some b' ∧
      b'.level = b.level := by
    have hlevel : (r.modify ip fun _ => b).level ip = some b.level := by
      rw [level, find_modify, if_pos rfl, h]
      rfl
    exact Option.map_eq_some_iff.mp ((level_lruMoveToTail ..).trans hlevel)
  obtain ⟨b', hb', hlevel⟩ := hfind
  have hpos : 0 < b.tokens ↔ 0 < b.level.tokens := UInt32.lt_iff_toNat_lt
  rw [settle]
  split
  · rename_i htokens
    refine ⟨?_, (decide_eq_true (hpos.mp htokens)).symm⟩
    rw [level, find_modify, if_pos rfl, hb']
    have htokens' : b'.tokens = b.tokens := UInt32.toNat_inj.mp (congrArg (·.tokens) hlevel)
    have hone : (1 : UInt32) ≤ b.tokens := UInt32.le_iff_toNat_le.mpr (hpos.mp htokens)
    rw [Option.map_some, Option.map_some, TokenBucket.takeOne, ← hlevel]
    simp only [Bucket.level]
    rw [htokens', UInt32.toNat_sub_of_le _ _ hone]
    rfl
  · rename_i htokens
    have hzero : b.level.tokens = 0 := Nat.eq_zero_of_not_pos fun hp => htokens (hpos.mpr hp)
    refine ⟨?_, (decide_eq_false fun hp => htokens (hpos.mpr hp)).symm⟩
    rw [level, hb', Option.map_some, hlevel, TokenBucket.takeOne, hzero]
    exact congrArg (fun n => some (⟨n, b.level.last⟩ : TokenBucket.Level Nat)) hzero

theorem settle_config (r : RateLimiter φ) (ip : UInt32) (b : Bucket φ) :
    (r.settle ip b).1.config = r.config := by
  rw [settle]
  split <;> exact config_lruMoveToTail ..

theorem settle_other (r : RateLimiter φ) {ip ip' : UInt32} (hne : ip' ≠ ip) (b : Bucket φ) :
    (r.settle ip b).1.level ip' = r.level ip' := by
  have hother (r : RateLimiter φ) (f : Bucket φ → Bucket φ) :
      (r.modify ip f).level ip' = r.level ip' := by
    rw [level, find_modify, if_neg hne]
    rfl
  rw [settle]
  split
  · rw [hother, level_lruMoveToTail, hother]
  · rw [level_lruMoveToTail, hother]

/-- **What a check does to its bucket**, if time does not run backwards. -/
theorem check_self {r : RateLimiter φ} (henabled : r.config.enabled = true) {ip : UInt32}
    {nowUs : UInt64} (hnow : (r.levelBefore ip nowUs).last ≤ nowUs.toNat) :
    (r.check ip nowUs).1.level ip = some (TokenBucket.takeOne (r.found ip nowUs) nowUs.toNat) ∧
      (r.check ip nowUs).2.allowed = decide (0 < r.found ip nowUs) := by
  obtain ⟨hfind, hlevel⟩ := getOrCreateBucket_self r ip nowUs
  have hlast : (r.getOrCreateBucket ip nowUs).2.lastUpdateUs ≤ nowUs := by
    rw [← hlevel] at hnow
    exact UInt64.le_iff_toNat_le.mpr hnow
  have hrefill := toNat_refill (r.getOrCreateBucket ip nowUs).1.config _ hlast
  have hfound : min ((r.getOrCreateBucket ip nowUs).2.tokens.toNat +
      tokensToAdd (r.getOrCreateBucket ip nowUs).1.config
        (nowUs.toNat - (r.getOrCreateBucket ip nowUs).2.lastUpdateUs.toNat))
      (r.getOrCreateBucket ip nowUs).1.config.burstSize.toNat = r.found ip nowUs := by
    rw [found, ← hlevel, getOrCreateBucket_config]
    rfl
  rw [hfound] at hrefill
  have hsettle := settle_self hfind (refill (r.getOrCreateBucket ip nowUs).1.config
    (r.getOrCreateBucket ip nowUs).2 nowUs)
  rw [hrefill] at hsettle
  rw [check_eq henabled]
  exact hsettle

/-- Other addresses keep their buckets, or lose them. -/
theorem check_other {r : RateLimiter φ} (henabled : r.config.enabled = true) {ip ip' : UInt32}
    (hne : ip' ≠ ip) (nowUs : UInt64) : (r.check ip nowUs).1.level ip' = r.level ip' ∨
      (r.check ip nowUs).1.level ip' = none := by
  rw [check_eq henabled, settle_other _ hne]
  exact getOrCreateBucket_other r hne nowUs

/-! ## A run -/

/-- A call that leaves the configuration alone. -/
def Op.Plain : Op → Prop
  | .check _ _ | .reset _ | .clear => True
  | .setEnabled _ | .setRate _ _ => False

/-- The bucket of `ip` is neither evicted nor reset. -/
def Keeps (ip : UInt32) (r : RateLimiter φ) (x : Op) : Prop :=
  (r.find ip).isSome = true → ((r.step x).find ip).isSome = true

theorem step_config {r : RateLimiter φ} {x : Op} (hx : x.Plain) : (r.step x).config = r.config := by
  cases x with
  | check ip nowUs =>
    show (r.check ip nowUs).1.config = _
    cases henabled : r.config.enabled with
    | true =>
      rw [check_eq henabled, settle_config]
      exact getOrCreateBucket_config r ip nowUs
    | false => rw [check, henabled]; rfl
  | reset ip =>
    show (r.reset ip).config = _
    rw [reset]
    split
    · exact config_lruRemove ..
    · rfl
  | clear => rfl
  | setEnabled enabled => exact hx.elim
  | setRate pps burst => exact hx.elim

/-- A call that is not a check of `ip` leaves its bucket, or takes it away. -/
theorem step_other {r : RateLimiter φ} (henabled : r.config.enabled = true) {ip : UInt32} {x : Op}
    (hx : x.Plain) (hne : ∀ nowUs, x ≠ .check ip nowUs) :
    (r.step x).level ip = r.level ip ∨ (r.step x).level ip = none := by
  cases x with
  | check ip' nowUs =>
    exact check_other henabled (fun heq => hne nowUs (by rw [heq])) nowUs
  | reset ip' =>
    show (r.reset ip').level ip = _ ∨ (r.reset ip').level ip = _
    rw [reset]
    split
    · exact (level_erase ..).imp_left fun h => h.trans (level_lruRemove ..)
    · exact Or.inl rfl
  | clear => exact Or.inr rfl
  | setEnabled enabled => exact hx.elim
  | setRate pps burst => exact hx.elim

theorem step_kept {r : RateLimiter φ} (henabled : r.config.enabled = true) {ip : UInt32} {x : Op}
    (hx : x.Plain) (hkept : Keeps ip r x) (hne : ∀ nowUs, x ≠ .check ip nowUs) :
    (r.step x).level ip = r.level ip := by
  refine (step_other henabled hx hne).elim id fun hnone => ?_
  cases hfind : r.find ip with
  | none => rw [hnone, level_eq_none.mpr hfind]
  | some b =>
    have hsome := hkept (by rw [hfind]; rfl)
    rw [level_eq_none.mp hnone] at hsome
    cases hsome

/-- The checks of one address. -/
def checksOf (ip : UInt32) (ds : List Decision) : List TokenBucket.Check :=
  ds.filterMap fun d => if d.ip = ip then some ⟨d.timeUs.toNat, d.allowed⟩ else none

/-- What a check of `ip` adds to a bucket is granted by `Gains`. -/
def Grants (Gains : TokenBucket.Level Nat → Nat → Nat → Prop) (ip : UInt32) (r : RateLimiter φ)
    (x : Op) : Prop :=
  ∀ nowUs l, x = .check ip nowUs → r.level ip = some l → l.last ≤ nowUs.toNat →
    Gains l nowUs.toNat (tokensToAdd r.config (nowUs.toNat - l.last))

/-- **The checks of an address are those of a token bucket.** -/
theorem log_checksOf {Gains : TokenBucket.Level Nat → Nat → Nat → Prop} {ip : UInt32}
    {r : RateLimiter φ} (henabled : r.config.enabled = true) {xs : List Op}
    (hxs : GuardedRun.Meets step (fun r x => x.Plain ∧ Keeps ip r x ∧ Grants Gains ip r x) r xs)
    (hsorted : (decisions r xs).Pairwise fun d d' => d.timeUs ≤ d'.timeUs)
    (hlast : ∀ l, r.level ip = some l → ∀ d ∈ decisions r xs, l.last ≤ d.timeUs.toNat) :
    TokenBucket.Log r.config.burstSize.toNat Gains (r.level ip) (checksOf ip (decisions r xs)) := by
  induction xs generalizing r with
  | nil => exact .nil _
  | cons x xs ih =>
    obtain ⟨⟨hplain, hkeeps, hgrants⟩, hrest⟩ := hxs
    have hconfig : (r.step x).config = r.config := step_config hplain
    have henabled' : (r.step x).config.enabled = true := by rw [hconfig, henabled]
    rw [decisions, List.pairwise_append] at hsorted
    rw [decisions, checksOf, List.filterMap_append]
    have htail := ih henabled' hrest hsorted.2.1
    rw [hconfig] at htail
    by_cases hcheck : ∃ nowUs, x = .check ip nowUs
    · obtain ⟨nowUs, rfl⟩ := hcheck
      have hnow : (r.levelBefore ip nowUs).last ≤ nowUs.toNat := by
        rw [levelBefore]
        cases hlevel : r.level ip with
        | none => exact Nat.le_refl _
        | some l =>
          exact hlast l hlevel ⟨ip, nowUs, _⟩
            (List.mem_append_left _ (List.mem_singleton_self _))
      obtain ⟨hself, hallowed⟩ := check_self henabled hnow
      have htail := htail fun l hl d hd => by
        rw [show (r.step (.check ip nowUs)).level ip = _ from hself] at hl
        cases hl
        exact UInt64.le_iff_toNat_le.mp
          (hsorted.2.2 _ (List.mem_singleton_self _) d hd)
      rw [show (r.step (.check ip nowUs)).level ip = _ from hself] at htail
      have hfirst : (r.decision (.check ip nowUs)).filterMap
          (fun d => if d.ip = ip then some (⟨d.timeUs.toNat, d.allowed⟩ : TokenBucket.Check)
            else none) = [⟨nowUs.toNat, decide (0 < r.found ip nowUs)⟩] := by
        rw [decision, List.filterMap_cons, if_pos rfl, hallowed]
        rfl
      rw [hfirst, List.singleton_append]
      cases hlevel : r.level ip with
      | none =>
        rw [found_none hlevel] at htail ⊢
        exact .first htail
      | some l =>
        rw [found_some hlevel] at htail ⊢
        rw [levelBefore, hlevel] at hnow
        exact .next hnow (hgrants nowUs l rfl hlevel hnow) htail
    · have hne : ∀ nowUs, x ≠ .check ip nowUs := fun nowUs heq => hcheck ⟨nowUs, heq⟩
      have hlevel := step_kept henabled hplain hkeeps hne
      rw [hlevel] at htail
      have hfirst : (r.decision x).filterMap
          (fun d => if d.ip = ip then some (⟨d.timeUs.toNat, d.allowed⟩ : TokenBucket.Check)
            else none) = [] := by
        cases x with
        | check ip' nowUs =>
          rw [decision, List.filterMap_cons, if_neg fun heq => hne nowUs (by rw [← heq])]
          rfl
        | reset | clear | setEnabled | setRate => rfl
      rw [hfirst, List.nil_append]
      exact htail fun l hl d hd => hlast l hl d (List.mem_append_right _ hd)

/-! ## No more than the rate -/

omit [FirewallFloat φ] in
/-- Rounding down and wrapping around only lose tokens. -/
theorem tokensToAdd_le (c : Config) (elapsedUs : Nat) :
    tokensToAdd c elapsedUs * 1000000 ≤ c.packetsPerSecond.toNat * elapsedUs := by
  rw [tokensToAdd, Nat.mul_comm c.packetsPerSecond.toNat]
  exact (Nat.div_mul_le_self _ _).trans (Nat.mod_le _ _)

theorem countP_checksOf (ip : UInt32) (ds : List Decision) (s t : UInt64) :
    TokenBucket.admitted s.toNat t.toNat (checksOf ip ds) =
      ds.countP fun d => d.ip = ip ∧ d.allowed = true ∧ s ≤ d.timeUs ∧ d.timeUs ≤ t := by
  rw [TokenBucket.admitted, checksOf, List.countP_filterMap]
  refine List.countP_congr fun d _ => ?_
  by_cases hip : d.ip = ip
  · rw [if_pos hip]
    simp only [Option.map_some, Option.getD_some, decide_eq_true_eq, hip, true_and,
      UInt64.le_iff_toNat_le]
  · rw [if_neg hip]
    simp only [Option.map_none, Option.getD_none, Bool.false_eq_true, decide_eq_true_eq, hip,
      false_and]

/-- **The limiter admits no more than the burst and the rate** of an address, in any window
and whatever other addresses do. -/
theorem admitted_le (r : RateLimiter φ) (henabled : r.config.enabled = true) (ip : UInt32)
    (hip : r.find ip = none) (xs : List Op)
    (hxs : GuardedRun.Meets step (fun r x => x.Plain ∧ Keeps ip r x) r xs)
    (hsorted : (decisions r xs).Pairwise fun d d' => d.timeUs ≤ d'.timeUs) (s t : UInt64) :
    ((decisions r xs).countP fun d =>
        d.ip = ip ∧ d.allowed = true ∧ s ≤ d.timeUs ∧ d.timeUs ≤ t) ≤
      r.config.burstSize.toNat +
        r.config.packetsPerSecond.toNat * (t.toNat - s.toNat) / 1000000 := by
  have hgrants : GuardedRun.Meets step (fun r' x => x.Plain ∧ Keeps ip r' x ∧
      Grants (TokenBucket.AtMost 1000000 r.config.packetsPerSecond.toNat) ip r' x) r xs := by
    refine GuardedRun.Meets.imp (P := fun r' => r'.config = r.config) ?_ rfl hxs
    rintro r' x hconfig ⟨hplain, hkeeps⟩
    refine ⟨(step_config hplain).trans hconfig, hplain, hkeeps, fun nowUs l _ _ _ => ?_⟩
    have hle := tokensToAdd_le r'.config (nowUs.toNat - l.last)
    rwa [hconfig] at hle ⊢
  have hlog := log_checksOf henabled hgrants hsorted fun l hl => by
    rw [level_eq_none.mpr hip] at hl
    cases hl
  rw [← countP_checksOf]
  exact hlog.admits_at_most (by decide) s.toNat t.toNat

/-! ## No less than the ideal bucket -/

/-- The time since the last check of `ip` is worth a whole number of tokens, and the product
does not wrap around; or it fills the bucket anyway. -/
def Accrues (ip : UInt32) (r : RateLimiter φ) (x : Op) : Prop :=
  ∀ nowUs b, x = .check ip nowUs → r.find ip = some b →
    let due := (nowUs.toNat - b.lastUpdateUs.toNat) * r.config.packetsPerSecond.toNat
    (due < 2 ^ 64 ∧ 1000000 ∣ due) ∨
      r.config.burstSize.toNat ≤ b.tokens.toNat + due % 2 ^ 64 / 1000000

/-- **A sender that conforms is not starved**, as long as no check cuts off a fraction of a
token. -/
theorem conforming (r : RateLimiter φ) (henabled : r.config.enabled = true) (ip : UInt32)
    (hip : r.find ip = none) (xs : List Op)
    (hxs : GuardedRun.Meets step (fun r x => x.Plain ∧ Keeps ip r x ∧ Accrues ip r x) r xs)
    (hsorted : (decisions r xs).Pairwise fun d d' => d.timeUs ≤ d'.timeUs) :
    TokenBucket.Conforming 1000000 r.config.packetsPerSecond.toNat r.config.burstSize.toNat none
      (checksOf ip (decisions r xs)) := by
  have hgrants : GuardedRun.Meets step (fun r' x => x.Plain ∧ Keeps ip r' x ∧
      Grants (TokenBucket.Exactly 1000000 r.config.packetsPerSecond.toNat
        r.config.burstSize.toNat) ip r' x) r xs := by
    refine GuardedRun.Meets.imp (P := fun r' => r'.config = r.config) ?_ rfl hxs
    rintro r' x hconfig ⟨hplain, hkeeps, haccrues⟩
    refine ⟨(step_config hplain).trans hconfig, hplain, hkeeps, fun nowUs l hx hl _ => ?_⟩
    obtain ⟨b, hb, rfl⟩ := Option.map_eq_some_iff.mp hl
    have hle := tokensToAdd_le r'.config (nowUs.toNat - b.lastUpdateUs.toNat)
    have haccrues := haccrues nowUs b hx hb
    rw [hconfig] at hle haccrues ⊢
    refine ⟨hle, haccrues.imp ?_ id⟩
    show _ → _ * (nowUs.toNat - b.lastUpdateUs.toNat) ≤
      tokensToAdd _ (nowUs.toNat - b.lastUpdateUs.toNat) * _
    rintro ⟨hsmall, hdvd⟩
    rw [tokensToAdd, Nat.mod_eq_of_lt hsmall, Nat.div_mul_cancel hdvd]
    exact Nat.le_of_eq (Nat.mul_comm _ _)
  have hlog := log_checksOf henabled hgrants hsorted fun l hl => by
    rw [level_eq_none.mpr hip] at hl
    cases hl
  rw [level_eq_none.mpr hip] at hlog
  exact hlog.pays (by decide)

/-! ## A thousand packets a second -/

/-- One token at most, and one more every millisecond. -/
def slow : RateLimiter Unit where
  config := { packetsPerSecond := 1000, burstSize := 1, enabled := true }

/-- Checks a millisecond apart, and one too early. -/
def spaced : List Op := [.check 7 0, .check 7 1000, .check 8 1000, .check 7 1000]

theorem admitted_spaced :
    (slow.config.enabled = true ∧ slow.find 7 = none ∧
      GuardedRun.Meets step (fun r x => x.Plain ∧ Keeps 7 r x) slow spaced ∧
      (decisions slow spaced).Pairwise fun d d' => d.timeUs ≤ d'.timeUs) ∧
    ((decisions slow spaced).countP fun d =>
        d.ip = 7 ∧ d.allowed = true ∧ 0 ≤ d.timeUs ∧ d.timeUs ≤ 1000) ≤
      slow.config.burstSize.toNat +
        slow.config.packetsPerSecond.toNat * ((1000 : UInt64).toNat - (0 : UInt64).toNat) /
          1000000 := by
  have hmeets : GuardedRun.Meets step (fun r x => x.Plain ∧ Keeps 7 r x) slow spaced :=
    ⟨⟨trivial, fun _ => rfl⟩, ⟨trivial, fun _ => rfl⟩, ⟨trivial, fun _ => rfl⟩,
      ⟨trivial, fun _ => rfl⟩, trivial⟩
  have hsorted : (decisions slow spaced).Pairwise fun d d' => d.timeUs ≤ d'.timeUs := by decide
  exact ⟨⟨rfl, rfl, hmeets, hsorted⟩, admitted_le slow rfl 7 rfl spaced hmeets hsorted 0 1000⟩

theorem conforming_spaced :
    (slow.config.enabled = true ∧ slow.find 7 = none ∧
      GuardedRun.Meets step (fun r x => x.Plain ∧ Keeps 7 r x ∧ Accrues 7 r x) slow spaced ∧
      (decisions slow spaced).Pairwise fun d d' => d.timeUs ≤ d'.timeUs) ∧
    TokenBucket.Conforming 1000000 slow.config.packetsPerSecond.toNat
      slow.config.burstSize.toNat none (checksOf 7 (decisions slow spaced)) := by
  have hmeets : GuardedRun.Meets step (fun r x => x.Plain ∧ Keeps 7 r x ∧ Accrues 7 r x)
      slow spaced := by
    refine ⟨⟨trivial, fun _ => rfl, ?_⟩, ⟨trivial, fun _ => rfl, ?_⟩, ⟨trivial, fun _ => rfl, nofun⟩,
      ⟨trivial, fun _ => rfl, ?_⟩, trivial⟩
    · rintro nowUs b ⟨⟩ hb
      cases hb
    · rintro nowUs b ⟨⟩ hb
      cases hb
      exact Or.inl (by decide)
    · rintro nowUs b ⟨⟩ hb
      cases hb
      exact Or.inl (by decide)
  have hsorted : (decisions slow spaced).Pairwise fun d d' => d.timeUs ≤ d'.timeUs := by decide
  exact ⟨⟨rfl, rfl, hmeets, hsorted⟩, conforming slow rfl 7 rfl spaced hmeets hsorted⟩

/-- Checks half a millisecond apart. -/
def hurried : List Op := [.check 7 0, .check 7 500, .check 7 1000]

/-- **Checks that come too early cost the token they are early for.** -/
theorem hurried_starves :
    (slow.config.enabled = true ∧ slow.find 7 = none ∧
      GuardedRun.Meets step (fun r x => x.Plain ∧ Keeps 7 r x) slow hurried ∧
      (decisions slow hurried).Pairwise fun d d' => d.timeUs ≤ d'.timeUs) ∧
    ¬ TokenBucket.Conforming 1000000 slow.config.packetsPerSecond.toNat
      slow.config.burstSize.toNat none (checksOf 7 (decisions slow hurried)) := by
  refine ⟨⟨rfl, rfl, ⟨⟨trivial, fun _ => rfl⟩, ⟨trivial, fun _ => rfl⟩, ⟨trivial, fun _ => rfl⟩,
    trivial⟩, by decide⟩, fun h => ?_⟩
  have hchecks : checksOf 7 (decisions slow hurried) =
      [⟨0, true⟩, ⟨500, false⟩, ⟨1000, false⟩] := by decide
  rw [hchecks, show slow.config.packetsPerSecond.toNat = 1000 from rfl,
    show slow.config.burstSize.toNat = 1 from rfl] at h
  obtain ⟨-, -, hlast, -⟩ := h
  simp only [TokenBucket.foundIdeal, TokenBucket.refillIdeal] at hlast
  norm_num at hlast

end RateLimiter
end NeuStack
