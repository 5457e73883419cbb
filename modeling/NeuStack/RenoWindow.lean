import NeuStack.CongestionControl
import NeuStack.GuardedRun

/-! # The window of Reno

`TCPReno` from its constructor through any calls.  Whatever happens, the controller is
`Steady`: outside fast recovery its window is at least one segment and far from overflow,
and in fast recovery it is `ssthresh` that is at least two.  What is not bounded is the
window in fast recovery, which grows with every duplicate and can wrap around
(`reno_iff`).
-/
namespace NeuStack
namespace TCPReno

/-- `TCPReno(mss)` -/
def create (mss : UInt32) : TCPReno :=
  let mss := if mss < 536 then 536 else mss
  { mss, cwnd := mss, ssthresh := 65535, inFastRecovery := false }

/-- A call, with the arguments that it ignores. -/
inductive Call where
  | onAck (bytesAcked rttUs : UInt32)
  | onLoss (bytesLost : UInt32)
  | onTimeout
  | onDupAck
  deriving DecidableEq

def Call.isLoss : Call → Bool
  | .onLoss _ | .onTimeout => true
  | _ => false

def step (r : TCPReno) : Call → TCPReno
  | .onAck _ _ => r.onAck
  | .onLoss _ => r.onLoss
  | .onTimeout => r.onTimeout
  | .onDupAck => r.onDupAck

/-! ## Every state -/

/-- What holds of the controller in every state. -/
structure Steady (mss : UInt32) (r : TCPReno) : Prop where
  mss_eq : r.mss = mss
  low : 536 ≤ mss.toNat
  high : mss.toNat ≤ 65535
  threshold : r.ssthresh.toNat < 2 ^ 31
  inflated : r.inFastRecovery = false → mss.toNat ≤ r.cwnd.toNat ∧ r.cwnd.toNat < 2 ^ 31
  recovers : r.inFastRecovery = true → 2 * mss.toNat ≤ r.ssthresh.toNat

variable {mss : UInt32} {r : TCPReno}

theorem Steady.create (h : mss ≤ 65535) : Steady (create mss).mss (create mss) := by
  have hmss : mss.toNat ≤ 65535 := UInt32.le_iff_toNat_le.mp h
  have hclamped : 536 ≤ (if mss < 536 then 536 else mss).toNat ∧
      (if mss < 536 then 536 else mss).toNat ≤ 65535 := by
    split
    · exact ⟨Nat.le_refl _, by decide⟩
    · rename_i hlow
      rw [UInt32.lt_iff_toNat_lt] at hlow
      exact ⟨Nat.not_lt.mp hlow, hmss⟩
  refine ⟨rfl, hclamped.1, hclamped.2, (by decide : (65535 : UInt32).toNat < 2 ^ 31),
    fun _ => ⟨Nat.le_refl _, Nat.lt_of_le_of_lt hclamped.2 (by decide)⟩, nofun⟩

/-- Two segments. -/
theorem Steady.toNat_two (h : Steady mss r) : (2 * r.mss).toNat = 2 * mss.toNat := by
  have hhigh := h.high
  rw [h.mss_eq, UInt32.toNat_mul, show (2 : UInt32).toNat = 2 from rfl,
    Nat.mod_eq_of_lt (by omega)]

/-- The threshold that a loss sets. -/
theorem Steady.toNat_threshold (h : Steady mss r) :
    (max (r.cwnd / 2) (2 * r.mss)).toNat = max (r.cwnd.toNat / 2) (2 * mss.toNat) := by
  rw [toNat_max, UInt32.toNat_div, h.toNat_two]
  rfl

theorem Steady.onLoss (h : Steady mss r) : Steady mss r.onLoss := by
  have hhigh := h.high
  have hcwnd := r.cwnd.toNat_lt
  have hthreshold := h.toNat_threshold
  refine ⟨h.mss_eq, h.low, h.high, ?_, nofun, fun _ => ?_⟩
  · show (max (r.cwnd / 2) (2 * r.mss)).toNat < _
    omega
  · show _ ≤ (max (r.cwnd / 2) (2 * r.mss)).toNat
    omega

theorem Steady.onTimeout (h : Steady mss r) : Steady mss r.onTimeout := by
  have hhigh := h.high
  have hcwnd := r.cwnd.toNat_lt
  have hthreshold := h.toNat_threshold
  refine ⟨h.mss_eq, h.low, h.high, ?_, fun _ => ?_, nofun⟩
  · show (max (r.cwnd / 2) (2 * r.mss)).toNat < _
    omega
  · show _ ≤ r.mss.toNat ∧ r.mss.toNat < _
    rw [h.mss_eq]
    omega

theorem Steady.onDupAck (h : Steady mss r) : Steady mss r.onDupAck := by
  rw [TCPReno.onDupAck]
  split
  · rename_i hrecovery
    exact ⟨h.mss_eq, h.low, h.high, h.threshold, fun hf => absurd hf (by rw [hrecovery]; nofun),
      h.recovers⟩
  · exact h

/-- What congestion avoidance adds is at most one segment. -/
theorem Steady.toNat_increase (h : Steady mss r) (hcwnd : mss.toNat ≤ r.cwnd.toNat) :
    (r.mss * r.mss / r.cwnd).toNat ≤ mss.toNat := by
  have hsquare : mss.toNat * mss.toNat ≤ 65535 * 65535 := Nat.mul_le_mul h.high h.high
  rw [UInt32.toNat_div, h.mss_eq, UInt32.toNat_mul, Nat.mod_eq_of_lt (by omega)]
  refine Nat.div_le_of_le_mul ?_
  exact Nat.mul_le_mul_right _ hcwnd

/-- The window after an acknowledgement outside fast recovery. -/
theorem Steady.toNat_onAck (h : Steady mss r) (hrecovery : r.inFastRecovery = false) :
    ∃ increase : Nat, r.onAck.cwnd.toNat = min (r.cwnd.toNat + increase) (65535 * 16) := by
  have hhigh := h.high
  obtain ⟨hlow, hcwnd⟩ := h.inflated hrecovery
  have hgrown (increase : UInt32) (hincrease : increase.toNat ≤ mss.toNat) :
      (min (r.cwnd + increase) (65535 * 16)).toNat =
        min (r.cwnd.toNat + increase.toNat) (65535 * 16) := by
    rw [toNat_min, UInt32.toNat_add, Nat.mod_eq_of_lt (by omega)]
    rfl
  rw [TCPReno.onAck, hrecovery, if_neg Bool.false_ne_true]
  dsimp only
  split
  · exact ⟨_, hgrown r.mss (Nat.le_of_eq (congrArg UInt32.toNat h.mss_eq))⟩
  · exact ⟨_, hgrown _ (h.toNat_increase hlow)⟩

theorem onAck_recovery (hrecovery : r.inFastRecovery = true) :
    r.onAck = { r with cwnd := r.ssthresh, inFastRecovery := false } := by
  rw [onAck, if_pos hrecovery]

theorem onAck_other (hrecovery : r.inFastRecovery = false) :
    r.onAck = { r with cwnd := r.onAck.cwnd } := by
  rw [onAck, hrecovery, if_neg Bool.false_ne_true]

theorem Steady.onAck (h : Steady mss r) : Steady mss r.onAck := by
  have hthreshold := h.threshold
  cases hrecovery : r.inFastRecovery with
  | true =>
    have htwice := h.recovers hrecovery
    rw [onAck_recovery hrecovery]
    refine ⟨h.mss_eq, h.low, h.high, h.threshold, fun _ => ?_, nofun⟩
    show _ ≤ r.ssthresh.toNat ∧ r.ssthresh.toNat < _
    omega
  | false =>
    have hhigh := h.high
    obtain ⟨hlow, hcwnd⟩ := h.inflated hrecovery
    obtain ⟨increase, hgrown⟩ := h.toNat_onAck hrecovery
    rw [onAck_other hrecovery]
    refine ⟨h.mss_eq, h.low, h.high, h.threshold, fun _ => ?_, h.recovers⟩
    show _ ≤ r.onAck.cwnd.toNat ∧ r.onAck.cwnd.toNat < _
    omega

theorem Steady.step (h : Steady mss r) (x : Call) : Steady mss (r.step x) := by
  cases x with
  | onAck bytesAcked rttUs => exact h.onAck
  | onLoss bytesLost => exact h.onLoss
  | onTimeout => exact h.onTimeout
  | onDupAck => exact h.onDupAck

/-! ## What a call does -/

/-- An acknowledgement does not divide by zero, and outside slow start it lowers the
window only when it ends fast recovery or meets the cap. -/
def Obeys (r : TCPReno) : Call → Prop
  | .onAck _ _ =>
    (r.inFastRecovery = false → r.ssthresh ≤ r.cwnd → r.cwnd ≠ 0) ∧
    (r.ssthresh ≤ r.cwnd ∨ r.inFastRecovery = true →
      r.cwnd ≤ r.onAck.cwnd ∨ (r.inFastRecovery = true ∧ r.onAck.cwnd = r.ssthresh) ∨
        r.onAck.cwnd = 65535 * 16)
  | _ => True

theorem Steady.obeys (h : Steady mss r) (x : Call) : Obeys r x := by
  cases x with
  | onAck bytesAcked rttUs =>
    refine ⟨fun hrecovery _ hzero => ?_, fun _ => ?_⟩
    · have hlow := h.low
      have hcwnd := (h.inflated hrecovery).1
      rw [hzero, show (0 : UInt32).toNat = 0 from rfl] at hcwnd
      omega
    · cases hrecovery : r.inFastRecovery with
      | true =>
        rw [onAck_recovery hrecovery]
        exact Or.inr (Or.inl ⟨rfl, rfl⟩)
      | false =>
        obtain ⟨increase, hgrown⟩ := h.toNat_onAck hrecovery
        rcases Nat.le_total (r.cwnd.toNat + increase) (65535 * 16) with hle | hge
        · rw [Nat.min_eq_left hle] at hgrown
          refine Or.inl (UInt32.le_iff_toNat_le.mpr ?_)
          omega
        · rw [Nat.min_eq_right hge] at hgrown
          exact Or.inr (Or.inr (UInt32.toNat_inj.mp hgrown))
  | onLoss | onTimeout | onDupAck => exact trivial

/-- A duplicate in fast recovery has room to inflate the window. -/
def Roomy (r : TCPReno) (x : Call) : Prop :=
  x = .onDupAck → r.inFastRecovery = true → r.cwnd.toNat + r.mss.toNat < 2 ^ 32

/-- The window is at least a segment. -/
def Open (mss : UInt32) (r : TCPReno) : Prop := mss ≤ r.cwnd

/-- A call keeps the window open exactly if it has room. -/
theorem Steady.roomy_iff (h : Steady mss r) (hopen : Open mss r) (x : Call) :
    Roomy r x ↔ Open mss (r.step x) ∧ Obeys r x := by
  have hlow := h.low
  have hhigh := h.high
  rw [Open, UInt32.le_iff_toNat_le] at hopen ⊢
  have hother (hx : x ≠ .onDupAck) (hstep : mss.toNat ≤ (r.step x).cwnd.toNat) :
      Roomy r x ↔ mss.toNat ≤ (r.step x).cwnd.toNat ∧ Obeys r x :=
    ⟨fun _ => ⟨hstep, h.obeys x⟩, fun _ heq => absurd heq hx⟩
  cases x with
  | onAck bytesAcked rttUs =>
    refine hother nofun (h.onAck.inflated ?_).1
    cases hrecovery : r.inFastRecovery with
    | true => rw [onAck_recovery hrecovery]
    | false =>
      rw [onAck_other hrecovery]
      exact hrecovery
  | onLoss bytesLost =>
    refine hother nofun ?_
    have hthreshold := h.toNat_threshold
    have hcwnd := r.cwnd.toNat_lt
    have hthree : (3 * r.mss).toNat = 3 * mss.toNat := by
      rw [h.mss_eq, UInt32.toNat_mul, show (3 : UInt32).toNat = 3 from rfl,
        Nat.mod_eq_of_lt (by omega)]
    show _ ≤ (max (r.cwnd / 2) (2 * r.mss) + 3 * r.mss).toNat
    rw [UInt32.toNat_add, hthreshold, hthree, Nat.mod_eq_of_lt (by omega)]
    omega
  | onTimeout =>
    refine hother nofun ?_
    exact Nat.le_of_eq (congrArg UInt32.toNat h.mss_eq.symm)
  | onDupAck =>
    cases hrecovery : r.inFastRecovery with
    | true =>
      have hcwnd : (r.step .onDupAck).cwnd = r.cwnd + r.mss := by
        show r.onDupAck.cwnd = _
        rw [TCPReno.onDupAck, if_pos hrecovery]
      rw [hcwnd, UInt32.toNat_add, h.mss_eq]
      have hlt := r.cwnd.toNat_lt
      constructor
      · intro hroom
        have hroom := hroom rfl hrecovery
        rw [h.mss_eq] at hroom
        rw [Nat.mod_eq_of_lt hroom]
        exact ⟨Nat.le_add_left _ _, trivial⟩
      · rintro ⟨hle, -⟩ - -
        rw [h.mss_eq]
        omega
    | false =>
      have hcwnd : (r.step .onDupAck).cwnd = r.cwnd := by
        show r.onDupAck.cwnd = _
        rw [TCPReno.onDupAck, hrecovery, if_neg Bool.false_ne_true]
      rw [hcwnd]
      exact ⟨fun _ => ⟨hopen, trivial⟩, fun _ _ htrue => absurd htrue (by rw [hrecovery]; nofun)⟩

/-! ## Runs -/

/-- After a loss the threshold is at least two segments. -/
theorem threshold_run (h : Steady mss r) {xs : List Call}
    (hr : 2 * mss.toNat ≤ r.ssthresh.toNat ∨ xs.any Call.isLoss = true) :
    2 * mss.toNat ≤ (GuardedRun.run step r xs).ssthresh.toNat := by
  induction xs generalizing r with
  | nil => exact hr.resolve_right Bool.false_ne_true
  | cons x xs ih =>
    refine ih (h.step x) ?_
    have hthreshold := h.toNat_threshold
    cases x with
    | onAck bytesAcked rttUs =>
      refine hr.imp_left fun hr => ?_
      show _ ≤ r.onAck.ssthresh.toNat
      cases hrecovery : r.inFastRecovery with
      | true =>
        rw [onAck_recovery hrecovery]
        exact hr
      | false =>
        rw [onAck_other hrecovery]
        exact hr
    | onLoss bytesLost =>
      refine Or.inl ?_
      show _ ≤ (max (r.cwnd / 2) (2 * r.mss)).toNat
      omega
    | onTimeout =>
      refine Or.inl ?_
      show _ ≤ (max (r.cwnd / 2) (2 * r.mss)).toNat
      omega
    | onDupAck =>
      refine hr.imp_left fun hr => ?_
      show _ ≤ r.onDupAck.ssthresh.toNat
      rw [TCPReno.onDupAck]
      split <;> exact hr

/-- **Reno keeps its bounds exactly as long as no duplicate wraps the window around.** -/
theorem reno_iff (mss : UInt32) (hmss : mss ≤ 65535) (xs : List Call) :
    ((∀ ys, ys <+: xs →
        (create mss).mss ≤ (GuardedRun.run step (create mss) ys).cwnd ∧
        (ys.any Call.isLoss = true →
          2 * (create mss).mss.toNat ≤ (GuardedRun.run step (create mss) ys).ssthresh.toNat)) ∧
      GuardedRun.Meets step Obeys (create mss) xs) ↔
    GuardedRun.Meets step Roomy (create mss) xs := by
  have hcreate := Steady.create hmss
  have hopen : Open (create mss).mss (create mss) := UInt32.le_refl _
  have hrun := GuardedRun.always_and_meets_iff (P := Open (create mss).mss)
    (Q := Steady (create mss).mss) (fun _ x h => h.step x)
    (fun _ x h hopen => h.roomy_iff hopen x) hcreate hopen xs
  rw [← hrun]
  refine and_congr_left' (forall₂_congr fun ys _ => ?_)
  exact and_iff_left fun hloss => threshold_run hcreate (Or.inr hloss)

theorem reno_default : (1460 : UInt32) ≤ 65535 ∧
    (((∀ ys, ys <+: [.onLoss 1460, .onDupAck, .onAck 1460 20000] →
        (create 1460).mss ≤ (GuardedRun.run step (create 1460) ys).cwnd ∧
        (ys.any Call.isLoss = true →
          2 * (create 1460).mss.toNat ≤
            (GuardedRun.run step (create 1460) ys).ssthresh.toNat)) ∧
      GuardedRun.Meets step Obeys (create 1460) [.onLoss 1460, .onDupAck, .onAck 1460 20000]) ↔
    GuardedRun.Meets step Roomy (create 1460) [.onLoss 1460, .onDupAck, .onAck 1460 20000]) :=
  ⟨by decide, reno_iff 1460 (by decide) _⟩

/-- The window after duplicates in fast recovery. -/
theorem cwnd_dupAcks (hrecovery : r.inFastRecovery = true) (n : Nat) :
    (GuardedRun.run step r (List.replicate n .onDupAck)).cwnd =
      r.cwnd + UInt32.ofNat n * r.mss := by
  induction n generalizing r with
  | zero =>
    show r.cwnd = r.cwnd + 0 * r.mss
    rw [UInt32.zero_mul, UInt32.add_zero]
  | succ n ih =>
    have hstep : r.step .onDupAck = { r with cwnd := r.cwnd + r.mss } := if_pos hrecovery
    rw [List.replicate_succ, GuardedRun.run_cons, hstep,
      ih (r := { r with cwnd := r.cwnd + r.mss }) hrecovery, UInt32.ofNat_add,
      UInt32.add_mul, show UInt32.ofNat 1 = 1 from rfl, UInt32.one_mul, UInt32.add_assoc,
      UInt32.add_comm r.mss]

/-- **A long enough run of duplicates leaves a window below one segment.** -/
theorem dupAcks_wrap : ¬ ∀ ys, ys <+: (.onLoss 0 :: List.replicate 65533 .onDupAck) →
    (create 65535).mss ≤ (GuardedRun.run step (create 65535) ys).cwnd := by
  intro h
  have hrun := h _ (List.prefix_refl _)
  rw [GuardedRun.run_cons, cwnd_dupAcks rfl] at hrun
  exact absurd hrun (by decide)

end TCPReno
end NeuStack
