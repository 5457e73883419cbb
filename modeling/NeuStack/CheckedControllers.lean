import NeuStack.CheckedSteps
import NeuStack.AIActions

/-! # Checked divisions of the buffer and of the controllers

`StreamBuffer::write` and `consume` take a remainder by the capacity, `on_ack` of the
congestion controllers divides by the window.  Here each is given once more with its
divisor checked.  The other operations of the buffer that take a remainder, `read`,
`commit_write` and `peek_at`, are called nowhere.

Writing never stops: what is written has found room.  Consuming needs a byte in the buffer
(`consume?_eq`), since the source takes the remainder even where it removes nothing.
Acknowledging needs a window (`CheckedControl`); CUBIC's is never below ten bytes, and
Orca's divisions are those of its CUBIC.
-/
namespace NeuStack
open Checked

/-! ## The buffer -/

namespace StreamBuffer

/-- `write`, with its remainder checked. -/
def write? (b : StreamBuffer) (data : List UInt8) : Option (Nat × StreamBuffer) :=
  if min data.length b.available = 0 then some (0, b)
  else do
    let _ ← divisor? b.capacity
    some (b.write data)

/-- `consume`, with its remainder checked. -/
def consume? (b : StreamBuffer) (len : Nat) : Option (Nat × StreamBuffer) := do
  let _ ← divisor? b.capacity
  some (b.consume len)

theorem write?_eq (b : StreamBuffer) (data : List UInt8) : b.write? data = some (b.write data) := by
  rw [write?]
  split
  · rename_i hzero
    exact congrArg some (show b.write data = (0, b) from dif_pos hzero).symm
  · rename_i hpos
    have hcap : b.capacity ≠ 0 := by
      rw [available] at hpos
      omega
    rw [divisor?_eq hcap]
    rfl

theorem consume?_eq {b : StreamBuffer} (h : b.empty = false) (len : Nat) :
    b.consume? len = some (b.consume len) := by
  have hcap : b.capacity ≠ 0 := by
    have hsize := b.size_le
    rw [empty, beq_eq_false_iff_ne] at h
    rw [capacity]
    omega
  rw [consume?, divisor?_eq hcap]
  rfl

/-- A buffer of capacity 0, as TIME_WAIT leaves it, must not be consumed from at all. -/
example : (ofCapacity 0).consume? 0 = none := rfl

end StreamBuffer

/-! ## The controllers -/

/-- `TCPReno::on_ack`, with its division checked. -/
def TCPReno.onAck? (r : TCPReno) : Option TCPReno :=
  if r.inFastRecovery then some { r with cwnd := r.ssthresh, inFastRecovery := false }
  else do
    let cwnd ← (if r.cwnd < r.ssthresh then some (r.cwnd + r.mss)
      else do
        let divisor ← divisor? r.cwnd
        some (r.cwnd + r.mss * r.mss / divisor))
    some { r with cwnd := min cwnd (65535 * 16) }

/-- `TCPCubic::on_ack`, with its division checked. -/
def TCPCubic.onAck? {φ : Type} [CubicFloat φ] (c : TCPCubic φ) (bytesAcked rttUs : UInt32)
    (now : Nat) : Option (TCPCubic φ) :=
  let float := CubicFloat.sample c.float rttUs
  if c.inSlowStart && c.cwnd < c.ssthresh then
    some { c with float, cwnd := c.cwnd + bytesAcked }
  else do
    let (target, float) := CubicFloat.target float c.cwnd c.mss now
    let cwnd ← (if c.cwnd < target then do
        let divisor ← divisor? c.cwnd
        some (c.cwnd + max ((target - c.cwnd) * c.mss / divisor) 1)
      else some c.cwnd)
    some { c with float, inSlowStart := false, cwnd := min cwnd (65535 * 16) }

/-- `TCPOrca::on_ack`, with its divisions checked: that of the inner controller, and the
ratio of the bytes in flight to the inner window in `compute_alpha`. -/
def TCPOrca.onAck? {φ : Type} [OrcaFloat φ] (c : TCPOrca φ) (bytesAcked rttUs : UInt32)
    (now : Nat) : Option (TCPOrca φ) := do
  let cubic ← c.cubic.onAck? bytesAcked rttUs now
  let _ ← (if 0 < cubic.cwnd then divisor? cubic.cwnd else some 0)
  some { c with cubic := { cubic with float := OrcaFloat.ack cubic.float bytesAcked rttUs } }

/-- **A controller whose divisions are checked.**  `Ok` holds of the controller created for
a positive MSS, is kept as `KeepsWindowOpen.Ok` is, and lets `on_ack` go through. -/
class CheckedControl (σ : Type) [ICongestionControl σ] where
  onAck? : σ → (bytesAcked rttUs : UInt32) → (now : Nat) → Option σ
  Ok : σ → Prop
  create_ok : ∀ mss : UInt16, 0 < mss → Ok (ICongestionControl.create mss)
  onAck_goes : ∀ c bytesAcked rttUs now, Ok c → bytesAcked.toNat < 2 ^ 31 →
    Goes Ok (onAck? c bytesAcked rttUs now) (ICongestionControl.onAck c bytesAcked rttUs now)
  onLoss_ok : ∀ c bytesLost, Ok c → Ok (ICongestionControl.onLoss c bytesLost)

namespace TCPCubic
variable {φ : Type} [CubicFloat φ] {c : TCPCubic φ}

omit [CubicFloat φ] in
theorem Open.cwnd_ne (h : c.Open) : c.cwnd ≠ 0 := by
  have hge := h.cwnd_ge
  rintro hzero
  rw [hzero] at hge
  exact absurd hge (by decide)

theorem Open.onAck_goes (h : c.Open) {bytesAcked rttUs : UInt32} {now : Nat}
    (hb : bytesAcked.toNat < 2 ^ 31) :
    Goes Open (c.onAck? bytesAcked rttUs now) (c.onAck bytesAcked rttUs now) := by
  refine ⟨?_, h.onAck hb⟩
  rw [onAck?, TCPCubic.onAck]
  split
  · rfl
  · rw [divisor?_eq h.cwnd_ne]
    generalize CubicFloat.target (φ := φ) _ _ _ _ = asked
    dsimp only
    split <;> rfl

instance : CheckedControl (TCPCubic φ) where
  onAck? := onAck?
  Ok := Open
  create_ok _ h := open_create h
  onAck_goes _ _ _ _ h hb := h.onAck_goes hb
  onLoss_ok _ _ h := h.onLoss _

omit [CubicFloat φ] in
/-- The floating-point part has nothing to do with the window. -/
theorem Open.setFloat (h : c.Open) (float : φ) : Open { c with float } :=
  ⟨h.cwnd_ge, h.cwnd_le, h.mss_ge, h.mss_le, h.slowStart⟩

end TCPCubic

namespace TCPOrca
variable {φ : Type} [OrcaFloat φ] {c : TCPOrca φ}

theorem onAck_goes (h : c.cubic.Open) {bytesAcked rttUs : UInt32} {now : Nat}
    (hb : bytesAcked.toNat < 2 ^ 31) :
    Goes (fun c => c.cubic.Open) (c.onAck? bytesAcked rttUs now)
      (c.onAck bytesAcked rttUs now) := by
  rw [onAck?]
  refine (h.onAck_goes hb).bind fun hopen => ?_
  -- the inner window is open, so the ratio is formed
  have hpos : 0 < (c.cubic.onAck bytesAcked rttUs now).cwnd := by
    rw [UInt32.lt_iff_toNat_lt]
    exact Nat.lt_of_lt_of_le (by decide) hopen.cwnd_ge
  rw [if_pos hpos]
  exact .divide hopen.cwnd_ne (.some (hopen.setFloat _))

instance : CheckedControl (TCPOrca φ) where
  onAck? := onAck?
  Ok c := c.cubic.Open
  create_ok _ h := TCPCubic.open_create h
  onAck_goes _ _ _ _ h hb := onAck_goes h hb
  onLoss_ok _ bytesLost h := h.onLoss bytesLost

end TCPOrca

/-- `on_ack` of the one or the other. -/
def Controller.onAck? {φ : Type} [OrcaFloat φ] (bytesAcked rttUs : UInt32) (now : Nat) :
    Controller φ → Option (Controller φ)
  | .cubic c => (c.onAck? bytesAcked rttUs now).map .cubic
  | .orca c => (c.onAck? bytesAcked rttUs now).map .orca

/-- The CUBIC in a controller is open. -/
def Controller.Open {φ : Type} : Controller φ → Prop
  | .cubic c => c.Open
  | .orca c => c.cubic.Open

instance {φ : Type} [OrcaFloat φ] : CheckedControl (Controller φ) where
  onAck? c bytesAcked rttUs now := c.onAck? bytesAcked rttUs now
  Ok := Controller.Open
  create_ok _ h := TCPCubic.open_create h
  onAck_goes c _ _ _ h hb := by
    cases c with
    | cubic c => exact (TCPCubic.Open.onAck_goes h hb).map id
    | orca c => exact (TCPOrca.onAck_goes h hb).map id
  onLoss_ok c bytesLost h := by
    cases c with
    | cubic c => exact TCPCubic.Open.onLoss h bytesLost
    | orca c => exact TCPCubic.Open.onLoss h bytesLost

/-- `congestion_control->on_ack`. -/
def CongestionControl.onAck? {σ : Type} [ICongestionControl σ] [CheckedControl σ]
    (cc : CongestionControl σ) (bytesAcked rttUs : UInt32) (now : Nat) :
    Option (CongestionControl σ) :=
  match cc with
  | .reno r => r.onAck?.map .reno
  | .other c => (CheckedControl.onAck? c bytesAcked rttUs now).map .other

/-- What the connection code installs: a controller that is not a `TCPReno` and is in order. -/
def CongestionControl.Installed {σ : Type} [ICongestionControl σ] [CheckedControl σ] :
    CongestionControl σ → Prop
  | .reno _ => False
  | .other c => CheckedControl.Ok c

namespace CongestionControl
variable {σ : Type} [ICongestionControl σ] [CheckedControl σ] {cc : CongestionControl σ}

theorem Installed.onAck_goes (h : cc.Installed) {bytesAcked rttUs : UInt32} {now : Nat}
    (hb : bytesAcked.toNat < 2 ^ 31) :
    Goes Installed (cc.onAck? bytesAcked rttUs now) (cc.onAck bytesAcked rttUs now) := by
  cases cc with
  | reno r => exact h.elim
  | other c => exact (CheckedControl.onAck_goes c _ _ _ h hb).map id

theorem Installed.onLoss (h : cc.Installed) (bytesLost : UInt32) :
    (cc.onLoss bytesLost).Installed := by
  cases cc with
  | reno r => exact h.elim
  | other c => exact CheckedControl.onLoss_ok c _ h

/-- What is done to a `TCPReno` alone. -/
theorem Installed.reno (h : cc.Installed) {f : CongestionControl σ → CongestionControl σ}
    (hf : f = renoDupAck ∨ f = renoTimeout) : (f cc).Installed := by
  cases cc with
  | reno r => exact h.elim
  | other c => rcases hf with rfl | rfl <;> exact h

end CongestionControl
end NeuStack
