import NeuStack.GuardedRun
import NeuStack.Retransmission

/-! # The RTT estimator

`update_rtt` over any samples, with the backing off of `check_retransmit` in between.
`epoch` are the samples since `srtt_us` was last 0, and the estimate is `Bounded` by them:
smoothing takes weighted means, which rounding down leaves between the least and the
greatest of what they are taken of.
-/
namespace NeuStack

/-- The largest sample for which nothing overflows. -/
def maxSample : Nat := 2 ^ 29 - 1

namespace TCBRtt

/-- `|srtt_us - rtt_us|` -/
def delta (r : TCBRtt) (rttUs : UInt32) : UInt32 :=
  if rttUs < r.srttUs then r.srttUs - rttUs else rttUs - r.srttUs

/-- What `check_retransmit` does to the estimate. -/
def backOff (r : TCBRtt) : TCBRtt :=
  { r with rtoUs := min (r.rtoUs * 2) 60000000, rttMeasuring := false }

/-- What `update_rtt` computes has the value it has without overflow. -/
structure Exact (established : Bool) (rttUs : UInt32) (r : TCBRtt) : Prop where
  delta : (r.delta rttUs).toNat =
    if rttUs < r.srttUs then r.srttUs.toNat - rttUs.toNat else rttUs.toNat - r.srttUs.toNat
  rttvar : r.srttUs ≠ 0 → (3 * r.rttvarUs).toNat = 3 * r.rttvarUs.toNat ∧
    (3 * r.rttvarUs + r.delta rttUs).toNat = 3 * r.rttvarUs.toNat + (r.delta rttUs).toNat
  srtt : r.srttUs ≠ 0 → (7 * r.srttUs).toNat = 7 * r.srttUs.toNat ∧
    (7 * r.srttUs + rttUs).toNat = 7 * r.srttUs.toNat + rttUs.toNat
  rto : let r' := r.updateRtt established rttUs
    (4 * r'.rttvarUs).toNat = 4 * r'.rttvarUs.toNat ∧
    (r'.srttUs + max 100000 (4 * r'.rttvarUs)).toNat =
      r'.srttUs.toNat + max 100000 (4 * r'.rttvarUs.toNat)

end TCBRtt

/-- What happens to the estimate. -/
inductive RttEvent where
  | sample (established : Bool) (rttUs : UInt32)
  | backOff
  deriving DecidableEq

/-- A sample is small enough. -/
def RttEvent.Small : RttEvent → Prop
  | .sample _ rttUs => rttUs.toNat ≤ maxSample
  | .backOff => True

/-- The estimate, and the samples since `srtt_us` was 0. -/
structure RttEstimator where
  rtt : TCBRtt
  epoch : List UInt32 := []

namespace RttEstimator

def step (s : RttEstimator) : RttEvent → RttEstimator
  | .sample established rttUs =>
    { rtt := s.rtt.updateRtt established rttUs
      epoch := if s.rtt.srttUs = 0 then [rttUs] else s.epoch ++ [rttUs] }
  | .backOff => { s with rtt := s.rtt.backOff }

/-- **The bounds of the estimate**, by the samples it comes from. -/
structure Bounded (s : RttEstimator) : Prop where
  srtt_ge : ∃ x ∈ s.epoch, x ≤ s.rtt.srttUs
  srtt_le : ∃ x ∈ s.epoch, s.rtt.srttUs ≤ x
  rttvar_le : ∃ x ∈ s.epoch, s.rtt.rttvarUs ≤ x
  rto_range : 200000 ≤ s.rtt.rtoUs.toNat ∧ s.rtt.rtoUs.toNat ≤ 60000000
  rto_ge : min 60000000 (s.rtt.srttUs.toNat + 100000) ≤ s.rtt.rtoUs.toNat

/-- A sample that is small enough is taken without overflow. -/
def Obeys (s : RttEstimator) : RttEvent → Prop
  | .sample established rttUs => s.rtt.Exact established rttUs
  | .backOff => True

/-- The samples so far are small enough, and there are some unless the estimate is 0. -/
structure Fed (s : RttEstimator) : Prop where
  small : ∀ x ∈ s.epoch, x.toNat ≤ maxSample
  bounded : s.epoch ≠ [] → s.Bounded
  started : s.rtt.srttUs ≠ 0 → s.epoch ≠ []

/-! ## Weighted means -/

/-- Rounded down, a mean is between the numbers it is taken of. -/
theorem mean_bounds (k a b : Nat) :
    min a b ≤ (k * a + b) / (k + 1) ∧ (k * a + b) / (k + 1) ≤ max a b := by
  have hlow : k * min a b ≤ k * a := Nat.mul_le_mul_left k (Nat.min_le_left a b)
  have hhigh : k * a ≤ k * max a b := Nat.mul_le_mul_left k (Nat.le_max_left a b)
  have hpos : 0 < k + 1 := Nat.succ_pos k
  constructor
  · rw [Nat.le_div_iff_mul_le hpos, Nat.mul_succ, Nat.mul_comm]
    omega
  · refine Nat.div_le_of_le_mul ?_
    rw [Nat.succ_mul]
    omega

variable {s : RttEstimator} {rttUs : UInt32}

theorem toNat_delta (r : TCBRtt) (rttUs : UInt32) : (r.delta rttUs).toNat =
    if rttUs < r.srttUs then r.srttUs.toNat - rttUs.toNat else rttUs.toNat - r.srttUs.toNat := by
  rw [TCBRtt.delta]
  split
  · rename_i hlt
    exact UInt32.toNat_sub_of_le _ _ (UInt32.le_of_lt hlt)
  · rename_i hge
    exact UInt32.toNat_sub_of_le _ _ (UInt32.not_lt.mp hge)

theorem delta_le (r : TCBRtt) (rttUs : UInt32) :
    (r.delta rttUs).toNat ≤ max r.srttUs.toNat rttUs.toNat := by
  rw [toNat_delta]
  split <;> omega

/-- `k * a + b` does not overflow. -/
theorem toNat_weigh {k a b : UInt32} (h : k.toNat * a.toNat + b.toNat < 2 ^ 32) :
    (k * a).toNat = k.toNat * a.toNat ∧ (k * a + b).toNat = k.toNat * a.toNat + b.toNat := by
  have hmul : (k * a).toNat = k.toNat * a.toNat := by
    rw [UInt32.toNat_mul, Nat.mod_eq_of_lt (by omega)]
  refine ⟨hmul, ?_⟩
  rw [UInt32.toNat_add, hmul, Nat.mod_eq_of_lt h]

/-- The two parts of the estimate, while nothing overflows. -/
theorem smoothed {r : TCBRtt} (hzero : r.srttUs ≠ 0) (hsrtt : r.srttUs.toNat ≤ maxSample)
    (hrttvar : r.rttvarUs.toNat ≤ maxSample) (hrtt : rttUs.toNat ≤ maxSample)
    (established : Bool) :
    (r.updateRtt established rttUs).srttUs.toNat = (7 * r.srttUs.toNat + rttUs.toNat) / 8 ∧
      (r.updateRtt established rttUs).rttvarUs.toNat =
        (3 * r.rttvarUs.toNat + (r.delta rttUs).toNat) / 4 := by
  have hdelta := delta_le r rttUs
  rw [maxSample] at hsrtt hrttvar hrtt
  have hseven := toNat_weigh (k := 7) (a := r.srttUs) (b := rttUs) (by
    rw [show (7 : UInt32).toNat = 7 from rfl]
    omega)
  have hthree := toNat_weigh (k := 3) (a := r.rttvarUs) (b := r.delta rttUs) (by
    rw [show (3 : UInt32).toNat = 3 from rfl]
    omega)
  have hvalues : (r.updateRtt established rttUs).srttUs = (7 * r.srttUs + rttUs) / 8 ∧
      (r.updateRtt established rttUs).rttvarUs = (3 * r.rttvarUs + r.delta rttUs) / 4 := by
    rw [TCBRtt.updateRtt]
    simp only [hzero, if_false]
    exact ⟨trivial, rfl⟩
  rw [hvalues.1, hvalues.2, UInt32.toNat_div, UInt32.toNat_div, hseven.2, hthree.2]
  exact ⟨rfl, rfl⟩

theorem first {r : TCBRtt} (hzero : r.srttUs = 0) (established : Bool) (rttUs : UInt32) :
    (r.updateRtt established rttUs).srttUs = rttUs ∧
      (r.updateRtt established rttUs).rttvarUs = rttUs / 2 := by
  rw [TCBRtt.updateRtt]
  simp only [hzero, if_true]
  exact ⟨trivial, trivial⟩

/-- The timeout of an estimate that is small enough. -/
theorem timeout {r : TCBRtt} (established : Bool)
    (hsrtt : (r.updateRtt established rttUs).srttUs.toNat ≤ maxSample)
    (hrttvar : (r.updateRtt established rttUs).rttvarUs.toNat ≤ maxSample) :
    let r' := r.updateRtt established rttUs
    ((4 * r'.rttvarUs).toNat = 4 * r'.rttvarUs.toNat ∧
      (r'.srttUs + max 100000 (4 * r'.rttvarUs)).toNat =
        r'.srttUs.toNat + max 100000 (4 * r'.rttvarUs.toNat)) ∧
    (200000 ≤ r'.rtoUs.toNat ∧ r'.rtoUs.toNat ≤ 60000000) ∧
    min 60000000 (r'.srttUs.toNat + 100000) ≤ r'.rtoUs.toNat := by
  intro r'
  have hsrtt : r'.srttUs.toNat ≤ 2 ^ 29 - 1 := hsrtt
  have hrttvar : r'.rttvarUs.toNat ≤ 2 ^ 29 - 1 := hrttvar
  have hfour : (4 * r'.rttvarUs).toNat = 4 * r'.rttvarUs.toNat := by
    rw [UInt32.toNat_mul, show (4 : UInt32).toNat = 4 from rfl, Nat.mod_eq_of_lt (by omega)]
  have hsum : (r'.srttUs + max 100000 (4 * r'.rttvarUs)).toNat =
      r'.srttUs.toNat + max 100000 (4 * r'.rttvarUs.toNat) := by
    rw [UInt32.toNat_add, toNat_max, hfour, show (100000 : UInt32).toNat = 100000 from rfl,
      Nat.mod_eq_of_lt (by omega)]
  generalize hrto : r'.srttUs + max 100000 (4 * r'.rttvarUs) = rto at hsum
  have hclamp : r'.rtoUs =
      if rto < 200000 then 200000 else if 60000000 < rto then 60000000 else rto := by
    rw [← hrto]
    rfl
  refine ⟨⟨hfour, hsum⟩, ?_⟩
  rw [hclamp]
  simp only [UInt32.lt_iff_toNat_lt, show (200000 : UInt32).toNat = 200000 from rfl,
    show (60000000 : UInt32).toNat = 60000000 from rfl]
  split
  · rw [show (200000 : UInt32).toNat = 200000 from rfl]
    omega
  · split
    · rw [show (60000000 : UInt32).toNat = 60000000 from rfl]
      omega
    · omega

/-! ## One event -/

/-- A mean of numbers that members of the epoch bound is bounded by the epoch with `b`. -/
theorem mean_mem (epoch : List UInt32) {a mean b : UInt32} {k : Nat}
    (hmean : mean.toNat = (k * a.toNat + b.toNat) / (k + 1)) :
    ((∃ x ∈ epoch, x ≤ a) → ∃ x ∈ epoch ++ [b], x ≤ mean) ∧
      ((∃ x ∈ epoch, a ≤ x) → ∃ x ∈ epoch ++ [b], mean ≤ x) := by
  obtain ⟨hlow, hhigh⟩ := mean_bounds k a.toNat b.toNat
  rw [← hmean] at hlow hhigh
  simp only [UInt32.le_iff_toNat_le]
  constructor
  · rintro ⟨x, hx, hle⟩
    rcases Nat.le_total a.toNat b.toNat with hab | hba
    · exact ⟨x, List.mem_append_left _ hx, by omega⟩
    · exact ⟨b, List.mem_append_right _ (List.mem_singleton_self b), by omega⟩
  · rintro ⟨x, hx, hle⟩
    rcases Nat.le_total a.toNat b.toNat with hab | hba
    · exact ⟨b, List.mem_append_right _ (List.mem_singleton_self b), by omega⟩
    · exact ⟨x, List.mem_append_left _ hx, by omega⟩

/-- What a member of the epoch bounds is small enough. -/
theorem Fed.le_of_mem (h : s.Fed) {a : UInt32} (ha : ∃ x ∈ s.epoch, a ≤ x) :
    a.toNat ≤ maxSample := by
  obtain ⟨x, hx, hle⟩ := ha
  exact Nat.le_trans (UInt32.le_iff_toNat_le.mp hle) (h.small x hx)

/-- The first sample. -/
theorem fed_first (hzero : s.rtt.srttUs = 0) (hrtt : rttUs.toNat ≤ maxSample)
    (established : Bool) :
    (s.step (.sample established rttUs)).Fed ∧ s.rtt.Exact established rttUs := by
  obtain ⟨hsrtt, hrttvar⟩ := first hzero established rttUs
  have hhalf : (rttUs / 2).toNat ≤ rttUs.toNat := by
    rw [UInt32.toNat_div]
    exact Nat.div_le_self _ _
  obtain ⟨hexact, hrange, hge⟩ := timeout (r := s.rtt) established
    (by rw [hsrtt]; exact hrtt) (by rw [hrttvar]; exact Nat.le_trans hhalf hrtt)
  have hepoch : (s.step (.sample established rttUs)).epoch = [rttUs] := if_pos hzero
  have hself : rttUs ∈ (s.step (.sample established rttUs)).epoch := by
    rw [hepoch]
    exact List.mem_singleton_self _
  refine ⟨⟨fun x hx => ?_, fun _ => ⟨⟨rttUs, hself, ?_⟩, ⟨rttUs, hself, ?_⟩, ⟨rttUs, hself, ?_⟩,
    hrange, hge⟩, fun _ => ?_⟩, ?_⟩
  · rw [hepoch] at hx
    rw [List.mem_singleton.mp hx]
    exact hrtt
  · exact UInt32.le_of_eq hsrtt.symm
  · exact UInt32.le_of_eq hsrtt
  · exact UInt32.le_iff_toNat_le.mpr (hrttvar ▸ hhalf)
  · rw [hepoch]
    exact List.cons_ne_nil _ _
  · exact ⟨toNat_delta _ _, fun hne => absurd hzero hne, fun hne => absurd hzero hne, hexact⟩

/-- A sample after the first. -/
theorem Fed.next (h : s.Fed) (hzero : s.rtt.srttUs ≠ 0) (hrtt : rttUs.toNat ≤ maxSample)
    (established : Bool) :
    (s.step (.sample established rttUs)).Fed ∧ s.rtt.Exact established rttUs := by
  have hbounded := h.bounded (h.started hzero)
  have hsrtt := h.le_of_mem hbounded.srtt_le
  have hrttvar := h.le_of_mem hbounded.rttvar_le
  have hdelta := delta_le s.rtt rttUs
  obtain ⟨hsrtt', hrttvar'⟩ := smoothed hzero hsrtt hrttvar hrtt established
  have hepoch : (s.step (.sample established rttUs)).epoch = s.epoch ++ [rttUs] := if_neg hzero
  have hmean := mean_mem s.epoch hsrtt'
  -- the deviation is a mean of the last one and of a distance between two samples
  have hdeviation : ∃ x ∈ s.epoch ++ [rttUs],
      (s.rtt.updateRtt established rttUs).rttvarUs ≤ x := by
    obtain ⟨-, hhigh⟩ := mean_bounds 3 s.rtt.rttvarUs.toNat (s.rtt.delta rttUs).toNat
    rw [← hrttvar'] at hhigh
    have hmax : (s.rtt.updateRtt established rttUs).rttvarUs.toNat ≤
        max (max s.rtt.rttvarUs.toNat s.rtt.srttUs.toNat) rttUs.toNat := by omega
    obtain ⟨x, hx, hlex⟩ := hbounded.rttvar_le
    obtain ⟨y, hy, hley⟩ := hbounded.srtt_le
    simp only [UInt32.le_iff_toNat_le] at hlex hley ⊢
    rcases Nat.le_total (max s.rtt.rttvarUs.toNat s.rtt.srttUs.toNat) rttUs.toNat with hle | hle
    · exact ⟨rttUs, List.mem_append_right _ (List.mem_singleton_self _), by omega⟩
    · rcases Nat.le_total s.rtt.rttvarUs.toNat s.rtt.srttUs.toNat with hle' | hle'
      · exact ⟨y, List.mem_append_left _ hy, by omega⟩
      · exact ⟨x, List.mem_append_left _ hx, by omega⟩
  have hsmall : ∀ x ∈ s.epoch ++ [rttUs], x.toNat ≤ maxSample := fun x hx =>
    (List.mem_append.mp hx).elim (h.small x) fun hx => List.mem_singleton.mp hx ▸ hrtt
  have hsmall' {a : UInt32} (ha : ∃ x ∈ s.epoch ++ [rttUs], a ≤ x) : a.toNat ≤ maxSample := by
    obtain ⟨x, hx, hle⟩ := ha
    exact Nat.le_trans (UInt32.le_iff_toNat_le.mp hle) (hsmall x hx)
  have hle := hmean.2 hbounded.srtt_le
  obtain ⟨hexact, hrange, hge⟩ := timeout established (hsmall' hle) (hsmall' hdeviation)
  refine ⟨⟨hepoch ▸ hsmall, fun _ => ⟨hepoch ▸ hmean.1 hbounded.srtt_ge, hepoch ▸ hle,
    hepoch ▸ hdeviation, hrange, hge⟩, fun _ => ?_⟩, ?_⟩
  · rw [hepoch]
    exact List.append_ne_nil_of_right_ne_nil _ (List.cons_ne_nil _ _)
  · rw [maxSample] at hsrtt hrttvar hrtt
    refine ⟨toNat_delta _ _, fun _ => toNat_weigh ?_, fun _ => toNat_weigh ?_, hexact⟩
    · rw [show (3 : UInt32).toNat = 3 from rfl]
      omega
    · rw [show (7 : UInt32).toNat = 7 from rfl]
      omega

/-- Backing off stays in the range, and the timeout grows. -/
theorem Fed.backOff (h : s.Fed) : (s.step .backOff).Fed := by
  refine ⟨h.small, fun hne => ?_, h.started⟩
  have hbounded := h.bounded hne
  obtain ⟨hlow, hhigh⟩ := hbounded.rto_range
  have hge := hbounded.rto_ge
  have hrto : (s.step .backOff).rtt.rtoUs.toNat = min (2 * s.rtt.rtoUs.toNat) 60000000 :=
    (doubles_iff _).mpr (Or.inl (by omega))
  refine ⟨hbounded.srtt_ge, hbounded.srtt_le, hbounded.rttvar_le, ?_, ?_⟩
  · rw [hrto]
    omega
  · rw [hrto]
    show min 60000000 (s.rtt.srttUs.toNat + 100000) ≤ _
    omega

end RttEstimator

/-! ## Runs -/

namespace RttEstimator
variable {s : RttEstimator}

theorem Fed.step (h : s.Fed) {x : RttEvent} (hx : x.Small) : (s.step x).Fed ∧ s.Obeys x := by
  cases x with
  | sample established rttUs =>
    by_cases hzero : s.rtt.srttUs = 0
    · exact fed_first hzero hx established
    · exact h.next hzero hx established
  | backOff => exact ⟨h.backOff, trivial⟩

/-- **The estimate is bounded by its samples, and nothing overflows**, for any samples
up to `maxSample` from the first one on. -/
theorem bounded_run (r : TCBRtt) (hr : r.srttUs = 0) (xs : List RttEvent)
    (hxs : ∀ x ∈ xs, x.Small) :
    (∀ ys, ys <+: xs → (GuardedRun.run step ⟨r, []⟩ ys).epoch ≠ [] →
      (GuardedRun.run step ⟨r, []⟩ ys).Bounded) ∧
    GuardedRun.Meets step Obeys ⟨r, []⟩ xs := by
  have hstart : Fed ⟨r, []⟩ := ⟨nofun, fun hne => absurd rfl hne, fun hne => absurd hr hne⟩
  have hsmall : GuardedRun.Meets step (fun _ x => x.Small) ⟨r, []⟩ xs :=
    GuardedRun.meets_of_forall (fun x hx _ => hxs x hx) _
  have hfed := hsmall.always (P := Fed) (fun _ _ _ h hx => (h.step hx).1) hstart
  exact ⟨fun ys hys => (hfed ys hys).bounded,
    GuardedRun.Meets.imp (P := Fed) (fun _ _ h hx => h.step hx) hstart hsmall⟩

def sampled : List RttEvent := [.sample true 20000, .backOff, .sample true 300000]

theorem sampled_bounded : (({} : TCBRtt).srttUs = 0 ∧ ∀ x ∈ sampled, x.Small) ∧
    (∀ ys, ys <+: sampled → (GuardedRun.run step ⟨{}, []⟩ ys).epoch ≠ [] →
      (GuardedRun.run step ⟨{}, []⟩ ys).Bounded) ∧
    GuardedRun.Meets step Obeys ⟨{}, []⟩ sampled := by
  have hsmall : ∀ x ∈ sampled, x.Small := by
    intro x hx
    simp only [sampled, List.mem_cons, List.not_mem_nil, or_false] at hx
    rcases hx with rfl | rfl | rfl
    · exact (by decide : (20000 : UInt32).toNat ≤ maxSample)
    · exact trivial
    · exact (by decide : (300000 : UInt32).toNat ≤ maxSample)
  exact ⟨⟨rfl, hsmall⟩, bounded_run {} rfl sampled hsmall⟩

end RttEstimator
end NeuStack
