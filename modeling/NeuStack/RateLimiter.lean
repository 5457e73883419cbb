import NeuStack.Table

/-! # The rate limiter

`RateLimiter`: a token bucket for each source address, with a list of the buckets
from the least to the most recently checked.

A bucket is found under its address, so the pointers of the list are addresses
too.  The packet rate it estimates is a floating-point number; `FirewallFloat`
is what the code does with those.
-/
namespace NeuStack

/-- The floating-point operations of the firewall: zero, the moving average of the
packet rate after `elapsedUs` microseconds, its conversion to `uint32_t`, and the
comparison of anomaly scores. -/
class FirewallFloat (φ : Type) where
  zero : φ
  average : φ → (elapsedUs : UInt64) → φ
  toUInt32 : φ → UInt32
  less : φ → φ → Bool

namespace RateLimiter

def maxTrackedIps : Nat := 65536

/-- `RateLimiter::Config` -/
structure Config where
  packetsPerSecond : UInt32 := 1000
  burstSize : UInt32 := 100
  enabled : Bool := false
  deriving DecidableEq, Repr

/-- `RateLimiter::Bucket` -/
structure Bucket (φ : Type) where
  tokens : UInt32
  lastUpdateUs : UInt64
  ewmaPps : φ
  ip : UInt32
  lruPrev : Option UInt32 := none
  lruNext : Option UInt32 := none

/-- `RateLimiter::Result` -/
structure Result where
  allowed : Bool
  currentPps : UInt32
  limitPps : UInt32
  tokensLeft : UInt32
  deriving DecidableEq, Repr

end RateLimiter

/-- `class RateLimiter`. -/
structure RateLimiter (φ : Type) where
  config : RateLimiter.Config := {}
  buckets : List (UInt32 × RateLimiter.Bucket φ) := []
  lruHead : Option UInt32 := none
  lruTail : Option UInt32 := none

namespace RateLimiter
variable {φ : Type} [FirewallFloat φ]

def find (r : RateLimiter φ) (ip : UInt32) : Option (Bucket φ) := r.buckets.lookup ip

/-- Write through a pointer to the bucket of `ip`. -/
def modify (r : RateLimiter φ) (ip : UInt32) (f : Bucket φ → Bucket φ) : RateLimiter φ :=
  { r with buckets := r.buckets.map fun e => if e.1 = ip then (e.1, f e.2) else e }

def erase (r : RateLimiter φ) (ip : UInt32) : RateLimiter φ :=
  { r with buckets := r.buckets.filter (·.1 ≠ ip) }

/-! ## The list -/

/-- `lru_remove` -/
def lruRemove (r : RateLimiter φ) (b : Bucket φ) : RateLimiter φ :=
  let r := match b.lruPrev with
    | some p => r.modify p fun x => { x with lruNext := b.lruNext }
    | none => { r with lruHead := b.lruNext }
  let r := match b.lruNext with
    | some q => r.modify q fun x => { x with lruPrev := b.lruPrev }
    | none => { r with lruTail := b.lruPrev }
  r.modify b.ip fun x => { x with lruPrev := none, lruNext := none }

/-- `lru_push_back` -/
def lruPushBack (r : RateLimiter φ) (ip : UInt32) : RateLimiter φ :=
  let r' := r.modify ip fun x => { x with lruPrev := r.lruTail, lruNext := none }
  let r' := match r.lruTail with
    | some t => r'.modify t fun x => { x with lruNext := some ip }
    | none => { r' with lruHead := some ip }
  { r' with lruTail := some ip }

/-- `lru_move_to_tail` -/
def lruMoveToTail (r : RateLimiter φ) (b : Bucket φ) : RateLimiter φ :=
  if r.lruTail = some b.ip then r else (r.lruRemove b).lruPushBack b.ip

/-! ## Buckets -/

/-- The loop of `evict_lru`, which ends when the list does. -/
def evictHeads (r : RateLimiter φ) : Nat → RateLimiter φ
  | 0 => r
  | n + 1 =>
    match r.lruHead.bind r.find with
    | none => r
    | some victim => ((r.lruRemove victim).erase victim.ip).evictHeads n

/-- `evict_lru` -/
def evictLru (r : RateLimiter φ) : RateLimiter φ :=
  let toRemove := r.buckets.length / 4
  r.evictHeads (if toRemove = 0 then 1 else toRemove)

/-- `get_or_create_bucket` -/
def getOrCreateBucket (r : RateLimiter φ) (ip : UInt32) (nowUs : UInt64) :
    RateLimiter φ × Bucket φ :=
  match r.find ip with
  | some b => (r, b)
  | none =>
    let r := if maxTrackedIps ≤ r.buckets.length then r.evictLru else r
    let b : Bucket φ := {
      tokens := r.config.burstSize
      lastUpdateUs := nowUs
      ewmaPps := FirewallFloat.zero
      ip }
    let r := ({ r with buckets := r.buckets ++ [(ip, b)] }).lruPushBack ip
    (r, (r.find ip).getD b)

/-- The bucket after the time since its last check, in `uint64_t` arithmetic. -/
def refill (c : Config) (b : Bucket φ) (nowUs : UInt64) : Bucket φ :=
  let elapsedUs := nowUs - b.lastUpdateUs
  let tokensToAdd := elapsedUs * c.packetsPerSecond.toUInt64 / 1000000
  { b with
    tokens := (min (b.tokens.toUInt64 + tokensToAdd) c.burstSize.toUInt64).toUInt32
    lastUpdateUs := nowUs
    ewmaPps := if 0 < elapsedUs then FirewallFloat.average b.ewmaPps elapsedUs else b.ewmaPps }

/-- `check` -/
def check (r : RateLimiter φ) (ip : UInt32) (nowUs : UInt64) : RateLimiter φ × Result :=
  if !r.config.enabled then
    (r, ⟨true, 0, r.config.packetsPerSecond, r.config.burstSize⟩)
  else
    let (r, old) := r.getOrCreateBucket ip nowUs
    let b := refill r.config old nowUs
    let r := (r.modify ip fun _ => b).lruMoveToTail b
    let currentPps := FirewallFloat.toUInt32 b.ewmaPps
    if 0 < b.tokens then
      (r.modify ip fun x => { x with tokens := x.tokens - 1 },
        ⟨true, currentPps, r.config.packetsPerSecond, b.tokens - 1⟩)
    else (r, ⟨false, currentPps, r.config.packetsPerSecond, 0⟩)

/-- `reset` -/
def reset (r : RateLimiter φ) (ip : UInt32) : RateLimiter φ :=
  match r.find ip with
  | some b => (r.lruRemove b).erase ip
  | none => r

/-- `clear` -/
def clear (r : RateLimiter φ) : RateLimiter φ :=
  { r with buckets := [], lruHead := none, lruTail := none }

def setEnabled (r : RateLimiter φ) (enabled : Bool) : RateLimiter φ :=
  { r with config := { r.config with enabled } }

def setRate (r : RateLimiter φ) (pps burst : UInt32) : RateLimiter φ :=
  { r with config := { r.config with packetsPerSecond := pps, burstSize := burst } }

end RateLimiter

end NeuStack
