import NeuStack.GuardedRun
import NeuStack.Timeouts

/-! # The window of CUBIC

The 32-bit bookkeeping of `TCPCubic` over runs of `on_ack`, `on_loss` and `on_timeout`, where
the window that CUBIC aims at is whatever the oracle says (`CubicFloat.target`).

Slow start cannot go far beyond its threshold, and outside of it the window is capped; so the
window and the threshold stay small (`Bounded`).  What can wrap is the product that an
acknowledgement outside slow start divides by the window, and nothing else (`kept_iff`).
-/
namespace NeuStack

/-- The oracle of `CubicFloat`, with the new epoch of `on_timeout`, and 0.7 for `BETA`. -/
class CubicBeta (φ : Type) extends CubicFloat φ where
  timeout : φ → φ
  scale_eq : ∀ x, (scale x).toNat = 7 * x.toNat / 10

namespace TCPCubic

/-- A call, with the time at which `on_ack` reads the clock. -/
inductive Call where
  | ack (bytesAcked rttUs : UInt32) (now : Nat)
  | loss (bytesLost : UInt32)
  | timeout

/-- `bytes_acked` is at most `2 ^ 20`. -/
def Call.Small : Call → Prop
  | .ack bytesAcked _ _ => bytesAcked.toNat ≤ 2 ^ 20
  | _ => True

variable {φ : Type} [CubicBeta φ]

/-- A new controller, with an oracle. -/
def start (mss : UInt32) (float : φ) : TCPCubic φ :=
  { (create mss : TCPCubic φ) with float }

def step (c : TCPCubic φ) : Call → TCPCubic φ
  | .ack bytesAcked rttUs now => c.onAck bytesAcked rttUs now
  | .loss bytesLost => c.onLoss bytesLost
  | .timeout => c.onTimeout CubicBeta.timeout

/-- Whether an acknowledgement takes the branch of slow start. -/
def SlowStarts (c : TCPCubic φ) : Prop := c.inSlowStart = true ∧ c.cwnd < c.ssthresh

/-- What the oracle aims at when an acknowledgement comes. -/
def target (c : TCPCubic φ) (rttUs : UInt32) (now : Nat) : UInt32 :=
  (CubicFloat.target (CubicFloat.sample c.float rttUs) c.cwnd c.mss now).1

/-- **The condition**: outside slow start, the way to the target times the MSS is below
`2 ^ 32`. -/
def Near (c : TCPCubic φ) : Call → Prop
  | .ack _ rttUs now => ¬ c.SlowStarts → c.cwnd < c.target rttUs now →
    ((c.target rttUs now).toNat - c.cwnd.toNat) * c.mss.toNat < 2 ^ 32
  | _ => True

/-- What `on_ack` adds outside slow start, in whole numbers. -/
def growth (c : TCPCubic φ) (target : UInt32) : Nat :=
  max 1 ((target.toNat - c.cwnd.toNat) * c.mss.toNat / c.cwnd.toNat)

/-- No expression of a call wraps, and nothing is divided by zero. -/
def Exact (c : TCPCubic φ) : Call → Prop
  | .ack bytesAcked rttUs now =>
    (c.SlowStarts → c.cwnd.toNat + bytesAcked.toNat < 2 ^ 32) ∧
    (¬ c.SlowStarts → c.cwnd < c.target rttUs now →
      c.cwnd.toNat ≠ 0 ∧
      ((c.target rttUs now).toNat - c.cwnd.toNat) * c.mss.toNat < 2 ^ 32 ∧
      c.cwnd.toNat + c.growth (c.target rttUs now) < 2 ^ 32)
  | .loss _ | .timeout => 2 * c.mss.toNat < 2 ^ 32

/-- What a call does to the window and the threshold. -/
def Moves (c c' : TCPCubic φ) : Call → Prop
  | .ack bytesAcked rttUs now =>
    (c.cwnd.toNat ≤ c'.cwnd.toNat ∨ c'.cwnd.toNat = 16 * 65535 ∧ 16 * 65535 < c.cwnd.toNat) ∧
    (c.SlowStarts → c'.cwnd.toNat = c.cwnd.toNat + bytesAcked.toNat) ∧
    (¬ c.SlowStarts → c.cwnd < c.target rttUs now →
      c'.cwnd.toNat = min (c.cwnd.toNat + c.growth (c.target rttUs now)) (16 * 65535)) ∧
    c'.ssthresh = c.ssthresh
  | .loss _ | .timeout => c.mss.toNat ≤ c'.cwnd.toNat ∧ 2 * c.mss.toNat ≤ c'.ssthresh.toNat

/-- A call keeps the books. -/
structure Kept (c : TCPCubic φ) (x : Call) : Prop where
  exact : c.Exact x
  moves : c.Moves (c.step x) x
  mss_le : c.mss.toNat ≤ (c.step x).cwnd.toNat

/-! ## The bounds -/

/-- The window is at least an MSS, and neither it nor the threshold is large. -/
structure Bounded (c : TCPCubic φ) : Prop where
  mss_ge : 536 ≤ c.mss.toNat
  mss_le : c.mss.toNat ≤ 65535
  cwnd_ge : c.mss.toNat ≤ c.cwnd.toNat
  cwnd_le : c.cwnd.toNat ≤ 2 ^ 22
  ssthresh_le : c.ssthresh.toNat ≤ 3 * 2 ^ 20

variable {c : TCPCubic φ}

theorem bounded_start {mss : UInt32} (hmin : 536 ≤ mss.toNat) (hmax : mss.toNat ≤ 65535)
    (float : φ) : (start mss float).Bounded := by
  have hmss : (start mss float).mss = mss := by
    refine if_neg fun hlt => ?_
    exact absurd hmin (Nat.not_le.mpr (UInt32.lt_iff_toNat_lt.mp hlt))
  have hcwnd : (start mss float).cwnd.toNat = 10 * mss.toNat := by
    show ((10 : UInt32) * mss).toNat = _
    rw [UInt32.toNat_mul, show (10 : UInt32).toNat = 10 from rfl, Nat.mod_eq_of_lt (by omega)]
  refine ⟨?_, ?_, ?_, ?_, ?_⟩
  · rw [hmss]
    exact hmin
  · rw [hmss]
    exact hmax
  · rw [hmss]
    omega
  · omega
  · show (65535 : UInt32).toNat ≤ _
    decide

/-- The threshold that a loss or a timeout sets. -/
theorem toNat_halved (h : c.Bounded) :
    (max (CubicFloat.scale φ c.cwnd) (2 * c.mss)).toNat =
      max (7 * c.cwnd.toNat / 10) (2 * c.mss.toNat) := by
  rw [toNat_max, CubicBeta.scale_eq, toNat_two_mul h.mss_le]

/-! ## Acknowledgements -/

theorem onAck_slow (hs : c.SlowStarts) (bytesAcked rttUs : UInt32) (now : Nat) :
    c.onAck bytesAcked rttUs now =
      { c with float := CubicFloat.sample c.float rttUs, cwnd := c.cwnd + bytesAcked } := by
  rw [onAck]
  exact if_pos (Bool.and_eq_true_iff.mpr ⟨hs.1, decide_eq_true hs.2⟩)

/-- The window after an acknowledgement outside slow start. -/
theorem cwnd_onAck (hs : ¬ c.SlowStarts) (bytesAcked rttUs : UInt32) (now : Nat) :
    (c.onAck bytesAcked rttUs now).cwnd =
      min (if c.cwnd < c.target rttUs now then
        c.cwnd + max ((c.target rttUs now - c.cwnd) * c.mss / c.cwnd) 1 else c.cwnd)
        (65535 * 16) ∧
    (c.onAck bytesAcked rttUs now).ssthresh = c.ssthresh ∧
    (c.onAck bytesAcked rttUs now).mss = c.mss := by
  have hbranch : ¬ (c.inSlowStart && decide (c.cwnd < c.ssthresh)) = true := fun hslow =>
    hs ⟨(Bool.and_eq_true_iff.mp hslow).1, of_decide_eq_true (Bool.and_eq_true_iff.mp hslow).2⟩
  rw [onAck]
  dsimp only
  rw [if_neg hbranch]
  exact ⟨rfl, rfl, rfl⟩

omit [CubicBeta φ] in
/-- Below `2 ^ 32`, the growth is what it should be. -/
theorem toNat_growth (h : c.Bounded) {target : UInt32} (hlt : c.cwnd < target)
    (hnear : (target.toNat - c.cwnd.toNat) * c.mss.toNat < 2 ^ 32) :
    (max ((target - c.cwnd) * c.mss / c.cwnd) 1).toNat = c.growth target ∧
      c.growth target ≤ 2 ^ 23 := by
  have hle := UInt32.le_iff_toNat_le.mpr (Nat.le_of_lt (UInt32.lt_iff_toNat_lt.mp hlt))
  have hpos : 536 ≤ c.cwnd.toNat := Nat.le_trans h.mss_ge h.cwnd_ge
  constructor
  · rw [toNat_max, UInt32.toNat_div, UInt32.toNat_mul, UInt32.toNat_sub_of_le _ _ hle,
      Nat.mod_eq_of_lt hnear, growth, Nat.max_comm]
    rfl
  · have hquot : (target.toNat - c.cwnd.toNat) * c.mss.toNat / c.cwnd.toNat ≤ 2 ^ 32 / 536 :=
      Nat.le_trans (Nat.div_le_div_right (Nat.le_of_lt hnear))
        (Nat.div_le_div_left hpos (by decide))
    rw [growth]
    omega

/-- An acknowledgement in slow start. -/
theorem Bounded.slow (h : c.Bounded) (hs : c.SlowStarts) {bytesAcked rttUs : UInt32} {now : Nat}
    (hsmall : bytesAcked.toNat ≤ 2 ^ 20) :
    (c.step (.ack bytesAcked rttUs now)).Bounded ∧ c.Kept (.ack bytesAcked rttUs now) := by
  have hcwnd := UInt32.lt_iff_toNat_lt.mp hs.2
  have hle := h.ssthresh_le
  have hge := h.cwnd_ge
  have hfits : c.cwnd.toNat + bytesAcked.toNat < 2 ^ 32 := by omega
  have hadd : (c.cwnd + bytesAcked).toNat = c.cwnd.toNat + bytesAcked.toNat := by
    rw [UInt32.toNat_add, Nat.mod_eq_of_lt hfits]
  have hstep : c.step (.ack bytesAcked rttUs now) =
      { c with float := CubicFloat.sample c.float rttUs, cwnd := c.cwnd + bytesAcked } :=
    onAck_slow hs bytesAcked rttUs now
  constructor
  · rw [hstep]
    refine ⟨h.mss_ge, h.mss_le, ?_, ?_, h.ssthresh_le⟩
    · show c.mss.toNat ≤ (c.cwnd + bytesAcked).toNat
      omega
    · show (c.cwnd + bytesAcked).toNat ≤ _
      omega
  · refine ⟨⟨fun _ => hfits, fun hns => absurd hs hns⟩, ?_, ?_⟩
    · rw [hstep]
      refine ⟨Or.inl ?_, fun _ => hadd, fun hns => absurd hs hns, rfl⟩
      show _ ≤ (c.cwnd + bytesAcked).toNat
      omega
    · rw [hstep]
      show _ ≤ (c.cwnd + bytesAcked).toNat
      omega

/-- An acknowledgement outside slow start. -/
theorem Bounded.avoiding (h : c.Bounded) (hs : ¬ c.SlowStarts) {bytesAcked rttUs : UInt32}
    {now : Nat} (hnear : c.Near (.ack bytesAcked rttUs now)) :
    (c.step (.ack bytesAcked rttUs now)).Bounded ∧ c.Kept (.ack bytesAcked rttUs now) := by
  obtain ⟨hcwnd, hssthresh, hmss⟩ := cwnd_onAck hs bytesAcked rttUs now
  have hge := h.cwnd_ge
  have hmin := h.mss_ge
  have hmax := h.mss_le
  have hle := h.cwnd_le
  have hcap : (65535 * 16 : UInt32).toNat = 16 * 65535 := rfl
  have hgrown (hlt : c.cwnd < c.target rttUs now) :
      c.cwnd.toNat + c.growth (c.target rttUs now) < 2 ^ 32 ∧
      (c.onAck bytesAcked rttUs now).cwnd.toNat =
        min (c.cwnd.toNat + c.growth (c.target rttUs now)) (16 * 65535) := by
    obtain ⟨hgrowth, hsmall⟩ := toNat_growth h hlt (hnear hs hlt)
    have hfits : c.cwnd.toNat + c.growth (c.target rttUs now) < 2 ^ 32 := by omega
    refine ⟨hfits, ?_⟩
    rw [hcwnd, if_pos hlt, toNat_min, UInt32.toNat_add, hgrowth, Nat.mod_eq_of_lt hfits, hcap]
  have hstill (hlt : ¬ c.cwnd < c.target rttUs now) :
      (c.onAck bytesAcked rttUs now).cwnd.toNat = min c.cwnd.toNat (16 * 65535) := by
    rw [hcwnd, if_neg hlt, toNat_min, hcap]
  -- The window rises, or is cut to the cap, which is above every MSS.
  have hrises : c.cwnd.toNat ≤ (c.onAck bytesAcked rttUs now).cwnd.toNat ∨
      (c.onAck bytesAcked rttUs now).cwnd.toNat = 16 * 65535 ∧ 16 * 65535 < c.cwnd.toNat := by
    by_cases hlt : c.cwnd < c.target rttUs now
    · have hnew := (hgrown hlt).2
      omega
    · have hnew := hstill hlt
      omega
  have hcapped : (c.onAck bytesAcked rttUs now).cwnd.toNat ≤ 16 * 65535 := by
    rw [hcwnd, toNat_min, hcap]
    exact Nat.min_le_right ..
  constructor
  · refine ⟨?_, ?_, ?_, ?_, ?_⟩
    · rw [step, hmss]
      exact hmin
    · rw [step, hmss]
      exact hmax
    · rw [step, hmss]
      omega
    · rw [step]
      omega
    · rw [step, hssthresh]
      exact h.ssthresh_le
  · refine ⟨⟨fun hslow => absurd hslow hs, fun _ hlt => ?_⟩, ?_, ?_⟩
    · exact ⟨by omega, hnear hs hlt, (hgrown hlt).1⟩
    · exact ⟨hrises, fun hslow => absurd hslow hs, fun _ hlt => (hgrown hlt).2, hssthresh⟩
    · rw [step]
      omega

/-! ## Losses and timeouts -/

theorem Bounded.loss (h : c.Bounded) (bytesLost : UInt32) :
    (c.step (.loss bytesLost)).Bounded ∧ c.Kept (.loss bytesLost) := by
  have hhalved := toNat_halved h
  have hmax := h.mss_le
  have hle := h.cwnd_le
  have hcwnd : (c.step (.loss bytesLost)).cwnd.toNat =
      max (7 * c.cwnd.toNat / 10) (2 * c.mss.toNat) := hhalved
  have hssthresh : (c.step (.loss bytesLost)).ssthresh.toNat =
      max (7 * c.cwnd.toNat / 10) (2 * c.mss.toNat) := hhalved
  have hmss : (c.step (.loss bytesLost)).mss = c.mss := rfl
  refine ⟨⟨h.mss_ge, hmax, ?_, ?_, ?_⟩, ⟨?_, ⟨?_, ?_⟩, ?_⟩⟩
  · rw [hcwnd, hmss]
    omega
  · rw [hcwnd]
    omega
  · rw [hssthresh]
    omega
  · show 2 * c.mss.toNat < 2 ^ 32
    omega
  · rw [hcwnd]
    omega
  · rw [hssthresh]
    exact Nat.le_max_right ..
  · rw [hcwnd]
    omega

theorem Bounded.timeout (h : c.Bounded) : (c.step .timeout).Bounded ∧ c.Kept .timeout := by
  have hhalved := toNat_halved h
  have hmax := h.mss_le
  have hle := h.cwnd_le
  have hge := h.cwnd_ge
  have hcwnd : (c.step .timeout).cwnd = c.mss := rfl
  have hssthresh : (c.step .timeout).ssthresh.toNat =
      max (7 * c.cwnd.toNat / 10) (2 * c.mss.toNat) := hhalved
  refine ⟨⟨h.mss_ge, h.mss_le, ?_, ?_, ?_⟩, ⟨?_, ⟨?_, ?_⟩, ?_⟩⟩
  · exact Nat.le_refl _
  · rw [hcwnd]
    omega
  · rw [hssthresh]
    omega
  · show 2 * c.mss.toNat < 2 ^ 32
    omega
  · exact Nat.le_refl _
  · rw [hssthresh]
    exact Nat.le_max_right ..
  · exact Nat.le_refl _

/-! ## Runs -/

/-- **One call** that meets the condition. -/
theorem Bounded.step (h : c.Bounded) {x : Call} (hsmall : x.Small) (hnear : c.Near x) :
    (c.step x).Bounded ∧ c.Kept x := by
  cases x with
  | ack bytesAcked rttUs now =>
    by_cases hs : c.SlowStarts
    · exact h.slow hs hsmall
    · exact h.avoiding hs hnear
  | loss bytesLost => exact h.loss bytesLost
  | timeout => exact h.timeout

theorem Kept.near {x : Call} (h : c.Kept x) : c.Near x := by
  cases x with
  | ack bytesAcked rttUs now => exact fun hs hlt => (h.exact.2 hs hlt).2.1
  | loss | timeout => trivial

theorem Bounded.kept {xs : List Call} (h : c.Bounded) (hxs : ∀ x ∈ xs, x.Small)
    (hnear : GuardedRun.Meets TCPCubic.step Near c xs) :
    GuardedRun.Meets TCPCubic.step Kept c xs := by
  induction xs generalizing c with
  | nil => exact trivial
  | cons x xs ih =>
    obtain ⟨hx, hrest⟩ := List.forall_mem_cons.mp hxs
    obtain ⟨hnext, hkept⟩ := h.step hx hnear.1
    exact ⟨hkept, ih hnext hrest hnear.2⟩

/-- **The books of CUBIC are kept** in a run just if every acknowledgement outside slow start
is near its target. -/
theorem kept_iff {mss : UInt32} (hmin : 536 ≤ mss.toNat) (hmax : mss.toNat ≤ 65535)
    (float : φ) (xs : List Call) (hxs : ∀ x ∈ xs, x.Small) :
    GuardedRun.Meets step Kept (start mss float) xs ↔
      GuardedRun.Meets step Near (start mss float) xs := by
  constructor
  · exact GuardedRun.Meets.imp (P := fun _ => True) (fun _ _ _ h => ⟨trivial, h.near⟩) trivial
  · exact (bounded_start hmin hmax float).kept hxs

/-- An oracle: the targets to come. -/
structure Targets where
  list : List UInt32

instance : CubicBeta Targets where
  init := ⟨[]⟩
  sample f _ := f
  target f _ _ _ := (f.list.headD 0, ⟨f.list.tail⟩)
  loss f _ := f
  timeout f := f
  scale x := UInt32.ofNat (7 * x.toNat / 10)
  scale_le x := by
    have hlt := x.toNat_lt
    rw [UInt32.le_iff_toNat_le, UInt32.toNat_ofNat_of_lt' (show _ < 2 ^ 32 by omega)]
    omega
  scale_eq x := by
    have hlt := x.toNat_lt
    exact UInt32.toNat_ofNat_of_lt' (show _ < 2 ^ 32 by omega)

theorem kept_iff_nearTarget :
    GuardedRun.Meets step Kept (start 1460 (Targets.mk [100000]))
      [.ack 1460 20000 0, .loss 1460, .ack 1460 20000 1, .timeout] := by
  refine (kept_iff (by decide) (by decide) _ _ ?_).mpr ⟨?_, trivial, ?_, trivial, trivial⟩
  · simp [Call.Small]
  · intro hslow
    exact absurd ⟨rfl, by decide⟩ hslow
  · intro _ _
    decide

/-- The way to the target times the MSS wraps, and 149717 is added for 569968. -/
theorem farTarget_wraps :
    ¬ GuardedRun.Meets step Kept (start 1460 (Targets.mk [4000000]))
        [.loss 1460, .ack 1460 20000 0] ∧
      (GuardedRun.run step (start 1460 (Targets.mk [4000000])) [.loss 1460]).growth 4000000 =
        569968 ∧
      (GuardedRun.run step (start 1460 (Targets.mk [4000000]))
        [.loss 1460, .ack 1460 20000 0]).cwnd = 10220 + 149717 := by
  refine ⟨fun hkept => ?_, by decide, by decide⟩
  have hslow : ¬ ((start 1460 (Targets.mk [4000000])).step (.loss 1460)).SlowStarts :=
    fun hslow => Bool.noConfusion hslow.1
  exact absurd (hkept.2.1.near hslow (by decide)) (by decide)

end TCPCubic
end NeuStack
