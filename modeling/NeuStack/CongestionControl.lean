import Mathlib.Algebra.Group.Nat.Defs
import Mathlib.Logic.Basic

/-! # Congestion controllers

The connection code talks to its controller through `ICongestionControl`
(`tcp_tcb.hpp`) and, by `dynamic_cast`, to `TCPReno`.  So a controller is either
a `TCPReno`, embedded in full, or an object of some other class that implements
the interface (`CongestionControl`); `create_tcb` installs one of the second
kind.

`TCPCubic` and `TCPOrca` are the two classes it installs.  Their integer part
is embedded; what they compute in floating point is an oracle (`CubicFloat`,
`OrcaFloat`).  `KeepsWindowOpen` is what a connection needs of its controller
in order not to stall: a window that never closes.  Both classes have it.
-/
namespace NeuStack

/-- `class ICongestionControl`, with `create` for the construction in
`create_tcb`.  `now` is the clock `on_ack` may read. -/
class ICongestionControl (σ : Type) where
  create : (mss : UInt16) → σ
  onAck : σ → (bytesAcked rttUs : UInt32) → (now : Nat) → σ
  onLoss : σ → (bytesLost : UInt32) → σ
  cwnd : σ → UInt32
  ssthresh : σ → UInt32

/-! ## Reno -/

/-- `class TCPReno`. -/
structure TCPReno where
  mss : UInt32
  cwnd : UInt32
  ssthresh : UInt32
  inFastRecovery : Bool
  deriving DecidableEq, Repr

namespace TCPReno

def onAck (r : TCPReno) : TCPReno :=
  if r.inFastRecovery then { r with cwnd := r.ssthresh, inFastRecovery := false }
  else
    let cwnd := if r.cwnd < r.ssthresh then r.cwnd + r.mss
      else r.cwnd + r.mss * r.mss / r.cwnd
    { r with cwnd := min cwnd (65535 * 16) }

def onLoss (r : TCPReno) : TCPReno :=
  let ssthresh := max (r.cwnd / 2) (2 * r.mss)
  { r with ssthresh, cwnd := ssthresh + 3 * r.mss, inFastRecovery := true }

def onTimeout (r : TCPReno) : TCPReno :=
  { r with ssthresh := max (r.cwnd / 2) (2 * r.mss), cwnd := r.mss, inFastRecovery := false }

def onDupAck (r : TCPReno) : TCPReno :=
  if r.inFastRecovery then { r with cwnd := r.cwnd + r.mss } else r

end TCPReno

/-! ## The controller of a connection -/

/-- The controller a TCB owns, told apart as `dynamic_cast<TCPReno *>` does. -/
inductive CongestionControl (σ : Type) where
  | reno (r : TCPReno)
  | other (c : σ)

namespace CongestionControl
variable {σ : Type} [ICongestionControl σ]

def onAck (cc : CongestionControl σ) (bytesAcked rttUs : UInt32) (now : Nat) :
    CongestionControl σ :=
  match cc with
  | reno r => reno r.onAck
  | other c => other (ICongestionControl.onAck c bytesAcked rttUs now)

def onLoss (cc : CongestionControl σ) (bytesLost : UInt32) : CongestionControl σ :=
  match cc with
  | reno r => reno r.onLoss
  | other c => other (ICongestionControl.onLoss c bytesLost)

def cwnd (cc : CongestionControl σ) : UInt32 :=
  match cc with
  | reno r => r.cwnd
  | other c => ICongestionControl.cwnd c

def ssthresh (cc : CongestionControl σ) : UInt32 :=
  match cc with
  | reno r => r.ssthresh
  | other c => ICongestionControl.ssthresh c

omit [ICongestionControl σ] in
/-- `reno->on_timeout()`, where the controller is a `TCPReno`. -/
def renoTimeout (cc : CongestionControl σ) : CongestionControl σ :=
  match cc with
  | reno r => reno r.onTimeout
  | other c => other c

omit [ICongestionControl σ] in
/-- `reno && reno->in_fast_recovery()`. -/
def inFastRecovery (cc : CongestionControl σ) : Bool :=
  match cc with
  | reno r => r.inFastRecovery
  | other _ => false

omit [ICongestionControl σ] in
/-- `reno->on_dup_ack()`, where the controller is a `TCPReno`. -/
def renoDupAck (cc : CongestionControl σ) : CongestionControl σ :=
  match cc with
  | reno r => reno r.onDupAck
  | other c => other c

end CongestionControl

/-! ## CUBIC and Orca -/

/-- The floating-point part of `TCPCubic`: `_w_max`, `_k`, `_epoch_start`,
`_w_tcp` and `_last_rtt_us` are its state; `target` is the window it asks for,
already converted to `uint32_t`, and `scale` is `static_cast<uint32_t>(x * BETA)`. -/
class CubicFloat (φ : Type) where
  init : φ
  sample : φ → (rttUs : UInt32) → φ
  target : φ → (cwnd mss : UInt32) → (now : Nat) → UInt32 × φ
  loss : φ → (cwnd : UInt32) → φ
  scale : UInt32 → UInt32
  scale_le : ∀ x, scale x ≤ x

/-- `class TCPCubic`. -/
structure TCPCubic (φ : Type) where
  mss : UInt32
  cwnd : UInt32
  ssthresh : UInt32
  inSlowStart : Bool
  float : φ

namespace TCPCubic
variable {φ : Type} [CubicFloat φ]

/-- `TCPCubic(mss)`: the initial window is ten times the MSS as given, the MSS
kept is at least 536. -/
def create (mss : UInt32) : TCPCubic φ where
  mss := if mss < 536 then 536 else mss
  cwnd := 10 * mss
  ssthresh := 65535
  inSlowStart := true
  float := CubicFloat.init

def onAck (c : TCPCubic φ) (bytesAcked rttUs : UInt32) (now : Nat) : TCPCubic φ :=
  let float := CubicFloat.sample c.float rttUs
  if c.inSlowStart && c.cwnd < c.ssthresh then
    { c with float, cwnd := c.cwnd + bytesAcked }
  else
    let (target, float) := CubicFloat.target float c.cwnd c.mss now
    let cwnd := if c.cwnd < target then
        c.cwnd + max ((target - c.cwnd) * c.mss / c.cwnd) 1
      else c.cwnd
    { c with float, inSlowStart := false, cwnd := min cwnd (65535 * 16) }

def onLoss (c : TCPCubic φ) (_bytesLost : UInt32) : TCPCubic φ :=
  let ssthresh := max (CubicFloat.scale φ c.cwnd) (2 * c.mss)
  { c with
    float := CubicFloat.loss c.float c.cwnd, ssthresh, cwnd := ssthresh, inSlowStart := false }

instance : ICongestionControl (TCPCubic φ) where
  create mss := create mss.toUInt32
  onAck := onAck
  onLoss := onLoss
  cwnd := TCPCubic.cwnd
  ssthresh := TCPCubic.ssthresh

end TCPCubic

/-- The floating-point part of a connection that stays in slow start, where only
`scale` is asked for. -/
instance : CubicFloat Unit where
  init := ()
  sample _ _ := ()
  target _ cwnd _ _ := (cwnd, ())
  loss _ _ := ()
  scale x := UInt32.ofNat (x.toNat * 7 / 10)
  scale_le x := by
    have hlt : x.toNat * 7 / 10 < 2 ^ 32 := by
      have := x.toNat_lt
      omega
    rw [UInt32.le_iff_toNat_le, UInt32.toNat_ofNat_of_lt' hlt]
    omega

/-- The floating-point part of `TCPOrca`: `modulate` is
`static_cast<uint32_t>(cwnd_cubic * 2^alpha)`, `ack` the update of `alpha`. -/
class OrcaFloat (φ : Type) extends CubicFloat φ where
  modulate : φ → UInt32 → UInt32
  ack : φ → (bytesAcked rttUs : UInt32) → φ

/-- `class TCPOrca`: CUBIC's window, scaled and clamped.  The controller's own
floating-point state is kept with the inner controller's. -/
structure TCPOrca (φ : Type) where
  cubic : TCPCubic φ
  mss : UInt32

namespace TCPOrca
variable {φ : Type} [OrcaFloat φ]

def create (mss : UInt32) : TCPOrca φ := ⟨TCPCubic.create mss, mss⟩

def onAck (c : TCPOrca φ) (bytesAcked rttUs : UInt32) (now : Nat) : TCPOrca φ :=
  let cubic := c.cubic.onAck bytesAcked rttUs now
  { c with cubic := { cubic with float := OrcaFloat.ack cubic.float bytesAcked rttUs } }

def onLoss (c : TCPOrca φ) (bytesLost : UInt32) : TCPOrca φ :=
  { c with cubic := c.cubic.onLoss bytesLost }

/-- `std::clamp(cwnd_orca, MIN_CWND_MSS * _mss, MAX_CWND)`. -/
def cwnd (c : TCPOrca φ) : UInt32 :=
  let cwnd := OrcaFloat.modulate c.cubic.float c.cubic.cwnd
  if cwnd < 2 * c.mss then 2 * c.mss else if 65535 * 16 < cwnd then 65535 * 16 else cwnd

instance : ICongestionControl (TCPOrca φ) where
  create mss := create mss.toUInt32
  onAck := onAck
  onLoss := onLoss
  cwnd := cwnd
  ssthresh c := c.cubic.ssthresh

end TCPOrca

/-! ## Controllers whose window never closes -/

/-- **A controller that keeps its window open.**  `Ok` holds of the controller
created for a positive MSS and is kept by every acknowledgement of fewer than
`2^31` bytes and every loss, and the window of a controller that has it is
positive. -/
class KeepsWindowOpen (σ : Type) [ICongestionControl σ] where
  Ok : σ → Prop
  create_ok : ∀ mss : UInt16, 0 < mss → Ok (ICongestionControl.create mss)
  onAck_ok : ∀ c bytesAcked rttUs now, Ok c → bytesAcked.toNat < 2 ^ 31 →
    Ok (ICongestionControl.onAck c bytesAcked rttUs now)
  onLoss_ok : ∀ c bytesLost, Ok c → Ok (ICongestionControl.onLoss c bytesLost)
  cwnd_pos : ∀ c, Ok c → 0 < (ICongestionControl.cwnd c).toNat

theorem toNat_max (a b : UInt32) : (max a b).toNat = max a.toNat b.toNat := by
  show (if a ≤ b then b else a).toNat = _
  simp only [Nat.max_def, UInt32.le_iff_toNat_le]
  split <;> rfl

theorem toNat_min (a b : UInt32) : (min a b).toNat = min a.toNat b.toNat := by
  show (if a ≤ b then a else b).toNat = _
  simp only [Nat.min_def, UInt32.le_iff_toNat_le]
  split <;> rfl

namespace TCPCubic
variable {φ : Type} [CubicFloat φ]

/-- The window is at least ten bytes and far from wrapping; slow start is only
ever left. -/
structure Open (c : TCPCubic φ) : Prop where
  cwnd_ge : 10 ≤ c.cwnd.toNat
  cwnd_le : c.cwnd.toNat < 2 ^ 31 + 65535
  mss_ge : 536 ≤ c.mss.toNat
  mss_le : c.mss.toNat ≤ 65535
  slowStart : c.inSlowStart = true → c.ssthresh = 65535

theorem open_create {mss : UInt16} (h : 0 < mss) : Open (create mss.toUInt32 : TCPCubic φ) := by
  have hlt := mss.toNat_lt
  have hpos : 0 < mss.toNat := UInt16.lt_iff_toNat_lt.mp h
  have hcwnd : ((10 : UInt32) * mss.toUInt32).toNat = 10 * mss.toNat := by
    rw [UInt32.toNat_mul, UInt16.toNat_toUInt32, show (10 : UInt32).toNat = 10 from rfl,
      Nat.mod_eq_of_lt (by omega)]
  refine ⟨?_, ?_, ?_, ?_, fun _ => rfl⟩
  · show 10 ≤ ((10 : UInt32) * mss.toUInt32).toNat
    omega
  · show ((10 : UInt32) * mss.toUInt32).toNat < _
    omega
  all_goals
    simp only [create]
    split
    · decide
    · rename_i hge
      rw [UInt32.lt_iff_toNat_lt, UInt16.toNat_toUInt32] at hge
      rw [UInt16.toNat_toUInt32]
      have : (536 : UInt32).toNat = 536 := rfl
      omega

theorem Open.onAck {c : TCPCubic φ} (h : c.Open) {bytesAcked rttUs : UInt32} {now : Nat}
    (hb : bytesAcked.toNat < 2 ^ 31) : (c.onAck bytesAcked rttUs now).Open := by
  have hge := h.cwnd_ge
  have hle := h.cwnd_le
  unfold TCPCubic.onAck
  dsimp only
  split
  · rename_i hslow
    rw [Bool.and_eq_true, decide_eq_true_eq] at hslow
    have hlt := UInt32.lt_iff_toNat_lt.mp hslow.2
    rw [h.slowStart hslow.1, show (65535 : UInt32).toNat = 65535 from rfl] at hlt
    have hadd : (c.cwnd + bytesAcked).toNat = c.cwnd.toNat + bytesAcked.toNat := by
      rw [UInt32.toNat_add, Nat.mod_eq_of_lt (by omega)]
    exact ⟨by simp only [hadd]; omega, by simp only [hadd]; omega, h.mss_ge, h.mss_le, h.slowStart⟩
  · generalize hgrown : (if c.cwnd < _ then _ else c.cwnd : UInt32) = grown
    have hgrown10 : 10 ≤ grown.toNat := by
      rw [← hgrown]
      split
      · generalize ((_ : UInt32) - c.cwnd) * c.mss = product
        have hquot : (max (product / c.cwnd) 1).toNat ≤ 429496729 := by
          have hdiv : (product / c.cwnd).toNat ≤ 429496729 := by
            rw [UInt32.toNat_div]
            have hp := product.toNat_lt
            calc product.toNat / c.cwnd.toNat ≤ product.toNat / 10 :=
                  Nat.div_le_div_left hge (by decide)
              _ ≤ 429496729 := by omega
          rw [toNat_max, show (1 : UInt32).toNat = 1 from rfl]
          omega
        rw [UInt32.toNat_add, Nat.mod_eq_of_lt (by omega)]
        omega
      · exact hge
    have hmin : (min grown (65535 * 16)).toNat = min grown.toNat 1048560 := by
      rw [toNat_min]
      rfl
    refine ⟨?_, ?_, h.mss_ge, h.mss_le, fun hf => absurd hf (by simp)⟩
    · show 10 ≤ (min grown (65535 * 16)).toNat
      omega
    · show (min grown (65535 * 16)).toNat < _
      omega

theorem Open.onLoss {c : TCPCubic φ} (h : c.Open) (bytesLost : UInt32) :
    (c.onLoss bytesLost).Open := by
  have hge := h.cwnd_ge
  have hle := h.cwnd_le
  have hmss := h.mss_ge
  have hmss' := h.mss_le
  have hscale := UInt32.le_iff_toNat_le.mp (CubicFloat.scale_le (φ := φ) c.cwnd)
  have htwo : ((2 : UInt32) * c.mss).toNat = 2 * c.mss.toNat := by
    rw [UInt32.toNat_mul, show (2 : UInt32).toNat = 2 from rfl, Nat.mod_eq_of_lt (by omega)]
  have hmax : (max (CubicFloat.scale φ c.cwnd) (2 * c.mss)).toNat
      = max (CubicFloat.scale φ c.cwnd).toNat (2 * c.mss.toNat) := by
    rw [toNat_max, htwo]
  refine ⟨?_, ?_, hmss, hmss', fun hf => absurd hf (by simp [TCPCubic.onLoss])⟩
  · show 10 ≤ (max (CubicFloat.scale φ c.cwnd) (2 * c.mss)).toNat
    omega
  · show (max (CubicFloat.scale φ c.cwnd) (2 * c.mss)).toNat < _
    omega

instance : KeepsWindowOpen (TCPCubic φ) where
  Ok := Open
  create_ok _ h := open_create h
  onAck_ok _ _ _ _ h hb := h.onAck hb
  onLoss_ok _ _ h := h.onLoss _
  cwnd_pos _ h := Nat.lt_of_lt_of_le (by decide) h.cwnd_ge

end TCPCubic

/-- Orca's clamp keeps its window at two segments or more whatever the scaling does. -/
instance {φ : Type} [OrcaFloat φ] : KeepsWindowOpen (TCPOrca φ) where
  Ok c := 0 < c.mss.toNat ∧ c.mss.toNat ≤ 65535
  create_ok mss h := by
    have hlt := mss.toNat_lt
    have hpos : 0 < mss.toNat := UInt16.lt_iff_toNat_lt.mp h
    exact ⟨hpos, by show mss.toNat ≤ _; omega⟩
  onAck_ok _ _ _ _ h _ := h
  onLoss_ok _ _ h := h
  cwnd_pos c h := by
    have htwo : ((2 : UInt32) * c.mss).toNat = 2 * c.mss.toNat := by
      rw [UInt32.toNat_mul, show (2 : UInt32).toNat = 2 from rfl, Nat.mod_eq_of_lt (by omega)]
    show 0 < c.cwnd.toNat
    unfold TCPOrca.cwnd
    dsimp only
    split
    · omega
    · rename_i hge
      split
      · decide
      · rw [UInt32.lt_iff_toNat_lt] at hge
        omega

end NeuStack
