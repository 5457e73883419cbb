import NeuStack.CumulativeHistogram
import NeuStack.Percentiles
import NeuStack.PrometheusExport
import Mathlib.Data.Rat.Floor

/-! # Do the percentiles agree?

The three percentiles of `Percentiles`, in exact arithmetic.  All interpolate in a bucket of
a rank: `estimate_percentile` takes the bucket that starts at or before the rank,
`percentile_from_histogram` the one that ends at or behind it, and `Snapshot::percentile`
cuts the fraction of the rank off first (`estimate_eq`, `fromHistogram_eq`,
`percentile_eq`).

So they agree, and behave as percentiles, for the quantiles whose rank is whole and is not
the count of a bucket with an empty one behind it (`percentilesAgree_iff`).
-/
namespace NeuStack
open CumulativeHistogram (Reaches Passes)

/-- The rational numbers, exact; printed by their whole part. -/
def Floating.rational : Floating ℚ where
  ofNat n := n
  ofScientific m k := m / 10 ^ k
  add := (· + ·)
  sub := (· - ·)
  mul := (· * ·)
  div := (· / ·)
  lt a b := a < b
  le a b := a ≤ b
  isNan _ := false
  isInf _ := false
  isWhole v := v == ⌊v⌋
  fabs v := |v|
  print0f v := signedDecimal ⌊v⌋
  print6g v := SixDigits.print ⌊v⌋
  print0f_number v _ _ := isNumber_signedDecimal ⌊v⌋
  print6g_number v _ _ := SixDigits.isNumber_print ⌊v⌋

/-- `static_cast<uint64_t>` -/
def truncate (v : ℚ) : UInt64 := UInt64.ofNat ⌊v⌋₊

namespace Histogram.Snapshot

/-- What `Histogram::snapshot` returns, with `count` the last of the cumulative counts. -/
structure Regular (snap : Snapshot ℚ) : Prop where
  nonempty : snap.boundaries ≠ []
  increasing : snap.boundaries.Pairwise (· < ·)
  sized : snap.bucketCounts.length = snap.boundaries.length + 1
  cumulative : snap.bucketCounts.Pairwise (· ≤ ·)
  counted : snap.bucketCounts.getLastD 0 = snap.count

/-- What the three functions return for a quantile, with checked indices. -/
def estimates (snap : Snapshot ℚ) (q : ℚ) : List (Option ℚ) :=
  [JsonExporter.estimateIndexed Floating.rational snap q,
    TelemetryAPI.percentileFromHistogram Floating.rational snap q,
    snap.percentile Floating.rational truncate q]

/-- The observation ranked `m` is in the bucket `i`, and the value `v`, too. -/
structure InBucket (snap : Snapshot ℚ) (m : Nat) (v : ℚ) (i : Nat) : Prop where
  ranked : ∃ n, snap.bucketCounts[i]? = some n ∧ m ≤ n.toNat
  above : ∀ k < i, ∀ n, snap.bucketCounts[k]? = some n → n.toNat < m
  le_bound : ∀ b, snap.boundaries[i]? = some b → v ≤ b
  bound_le : ∀ k < i, ∀ b, snap.boundaries[k]? = some b → b ≤ v

/-- **The percentiles agree** on a quantile, within the arrays and in the bucket of the
observation of that rank; and they do not fall. -/
structure PercentilesAgree (snap : Snapshot ℚ) (q : ℚ) : Prop where
  agree : ∃ v, (∀ e ∈ snap.estimates q, e = some v) ∧
    (snap.count ≠ 0 → ∃ i, snap.InBucket ⌈q * snap.count.toNat⌉₊ v i)
  rising : ∀ p p' : ℚ, 0 < p → p ≤ p' → p' < 1 → ∀ (k : Nat) (v v' : ℚ),
    (snap.estimates p)[k]? = some (some v) → (snap.estimates p')[k]? = some (some v') → v ≤ v'

end Histogram.Snapshot

namespace Histogram.Snapshot.Regular
variable {snap : Snapshot ℚ} (h : snap.Regular)

/-- The counts and boundaries by themselves. -/
def histogram : CumulativeHistogram ℚ where
  size := snap.boundaries.length
  size_pos := List.length_pos_iff.mpr h.nonempty
  bound i := snap.boundaries.getD i 0
  count i := (snap.bucketCounts.getD i 0).toNat
  bound_lt {i j} hij hj := by
    rw [List.getD_eq_getElem?_getD, List.getD_eq_getElem?_getD, List.getElem?_eq_getElem hj,
      List.getElem?_eq_getElem (hij.trans hj)]
    exact List.pairwise_iff_getElem.mp h.increasing _ _ (hij.trans hj) hj hij
  count_le {i j} hij hj := by
    have hlt : j < snap.bucketCounts.length := by
      rw [h.sized]
      exact Nat.lt_succ_of_le hj
    rcases Nat.lt_or_eq_of_le hij with hless | rfl
    · rw [List.getD_eq_getElem?_getD, List.getD_eq_getElem?_getD, List.getElem?_eq_getElem hlt,
        List.getElem?_eq_getElem (hless.trans hlt)]
      exact UInt64.le_iff_toNat_le.mp
        (List.pairwise_iff_getElem.mp h.cumulative _ _ (hless.trans hlt) hlt hless)
    · exact Nat.le_refl _

theorem size_eq : h.histogram.size = snap.boundaries.length := rfl

theorem getElem?_bound {i : Nat} (hi : i < h.histogram.size) :
    snap.boundaries[i]? = some (h.histogram.bound i) := by
  show _ = some (snap.boundaries.getD i 0)
  rw [List.getD_eq_getElem?_getD, List.getElem?_eq_getElem hi]
  rfl

theorem getElem?_bucketCounts {i : Nat} (hi : i ≤ h.histogram.size) :
    ∃ n, snap.bucketCounts[i]? = some n ∧ n.toNat = h.histogram.count i := by
  have hlt : i < snap.bucketCounts.length := by
    rw [h.sized]
    exact Nat.lt_succ_of_le hi
  refine ⟨_, List.getElem?_eq_getElem hlt, ?_⟩
  show _ = (snap.bucketCounts.getD i 0).toNat
  rw [List.getD_eq_getElem?_getD, List.getElem?_eq_getElem hlt]
  rfl

theorem total_eq : h.histogram.total = snap.count.toNat := by
  rw [← h.counted]
  show (snap.bucketCounts.getD snap.boundaries.length 0).toNat = _
  rw [List.getD_eq_getElem?_getD, List.getLastD_eq_getLast?, List.getLast?_eq_getElem?, h.sized,
    Nat.add_sub_cancel]

theorem getElem?_counts {i : Nat} (hi : i ≤ h.histogram.size) :
    (snap.counts Floating.rational)[i]? = some (h.histogram.count i : ℚ) := by
  obtain ⟨n, hn, hcount⟩ := h.getElem?_bucketCounts hi
  rw [counts, List.getElem?_map, hn, ← hcount]
  rfl

theorem lower_eq {i : Nat} (hi : i ≤ h.histogram.size) :
    snap.lower Floating.rational i = some (h.histogram.lower i) := by
  cases i with
  | zero => exact congrArg some Nat.cast_zero
  | succ i => exact h.getElem?_bound hi

theorem prev_eq {i : Nat} (hi : i ≤ h.histogram.size) :
    snap.prev Floating.rational i = some (h.histogram.prev i : ℚ) := by
  cases i with
  | zero => rfl
  | succ i => exact h.getElem?_counts (Nat.le_of_succ_le hi)

theorem upper_eq {i : Nat} (hi : i ≤ h.histogram.size) (empty : ℚ) :
    snap.upper Floating.rational empty i = h.histogram.upper i := by
  have hpos := h.histogram.size_pos
  rw [upper, CumulativeHistogram.upper]
  rcases Nat.lt_or_eq_of_le hi with hlt | rfl
  · rw [h.getElem?_bound hlt, if_pos hlt]
  · have hnone : snap.boundaries[h.histogram.size]? = none :=
      List.getElem?_eq_none (Nat.le_refl _)
    rw [hnone, if_neg (Nat.lt_irrefl _), List.getLast?_eq_getElem?, ← h.size_eq,
      h.getElem?_bound (by omega)]
    exact congrArg _ Nat.cast_ofNat

/-! ## The buckets found -/

omit h in
/-- Where a search stops that a later element would stop. -/
theorem findIdx_of_getElem? {α : Type} {l : List α} {p : α → Bool} {n : Nat} {g : Nat → α}
    (hget : ∀ k ≤ n, l[k]? = some (g k)) (hp : p (g n)) :
    l.findIdx p ≤ n ∧ p (g (l.findIdx p)) ∧ ∀ k < l.findIdx p, ¬ p (g k) := by
  have hn : n < l.length := (List.getElem?_eq_some_iff.mp (hget n (Nat.le_refl n))).1
  have hval {k : Nat} (hk : k ≤ n) (hlt : k < l.length) : l[k] = g k :=
    (List.getElem?_eq_some_iff.mp (hget k hk)).2
  have hle : l.findIdx p ≤ n := by
    by_contra hlt
    have hfails := List.not_of_lt_findIdx (Nat.lt_of_not_le hlt)
    rw [hval (Nat.le_refl n) hn, hp] at hfails
    exact Bool.noConfusion hfails
  refine ⟨hle, ?_, fun k hk => ?_⟩
  · rw [← hval hle (Nat.lt_of_le_of_lt hle hn)]
    exact List.findIdx_getElem
  · rw [← hval (hk.le.trans hle) (hk.trans_le (hle.trans hn.le))]
    exact Bool.eq_false_iff.mp (List.not_of_lt_findIdx hk)

variable {q : ℚ}

theorem rank_pos (hcount : snap.count ≠ 0) (h0 : 0 < q) : 0 < q * snap.count.toNat :=
  mul_pos h0 (Nat.cast_pos.mpr (UInt64.pos_iff_ne_zero.mpr hcount))

theorem rank_lt (hcount : snap.count ≠ 0) (h1 : q < 1) :
    q * snap.count.toNat < h.histogram.total := by
  rw [h.total_eq]
  exact mul_lt_of_lt_one_left (Nat.cast_pos.mpr (UInt64.pos_iff_ne_zero.mpr hcount)) h1

/-- **The bucket of `estimate_percentile`** starts at or before the rank. -/
theorem passes_rankIndex (hcount : snap.count ≠ 0) (h0 : 0 < q) (h1 : q < 1) :
    h.histogram.Passes (JsonExporter.rankIndex Floating.rational snap q)
      (q * snap.count.toNat) := by
  have hlast : Floating.rational.lt (q * snap.count.toNat) (h.histogram.count h.histogram.size) =
      true := decide_eq_true (h.rank_lt hcount h1)
  obtain ⟨hle, hlt, hbefore⟩ := findIdx_of_getElem? (fun k hk => h.getElem?_counts hk) hlast
  refine ⟨hle, ?_, of_decide_eq_true hlt⟩
  rw [CumulativeHistogram.prev]
  split
  · exact Nat.cast_zero.trans_le (rank_pos hcount h0).le
  · exact not_lt.mp fun hrank => hbefore _ (Nat.pred_lt ‹_›) (decide_eq_true hrank)

/-- The first bucket that ends at or behind a rank. -/
theorem reaches_findIdx {x : ℚ} (h0 : 0 < x) (h1 : x ≤ h.histogram.total) :
    h.histogram.Reaches ((snap.counts Floating.rational).findIdx fun curr =>
      Floating.rational.le x curr) x := by
  have hlast : Floating.rational.le x (h.histogram.count h.histogram.size) = true :=
    decide_eq_true h1
  obtain ⟨hle, hcurr, hbefore⟩ := findIdx_of_getElem? (fun k hk => h.getElem?_counts hk) hlast
  refine ⟨hle, ?_, of_decide_eq_true hcurr⟩
  rw [CumulativeHistogram.prev]
  split
  · exact Nat.cast_zero.trans_lt h0
  · exact not_le.mp fun hrank => hbefore _ (Nat.pred_lt ‹_›) (decide_eq_true hrank)

/-! ## The values -/

/-- `lower + fraction * (upper - lower)` -/
theorem interpolation_eq (i : Nat) (x : ℚ) :
    Floating.rational.add (h.histogram.lower i)
        (Floating.rational.mul
          (Floating.rational.div (Floating.rational.sub x (h.histogram.prev i))
            (Floating.rational.sub (h.histogram.count i) (h.histogram.prev i)))
          (Floating.rational.sub (h.histogram.upper i) (h.histogram.lower i))) =
      h.histogram.line i x := rfl

omit h in
theorem mul_ofNat (q : ℚ) (n : Nat) :
    Floating.rational.mul q (Floating.rational.ofNat n) = q * n := rfl

theorem estimate_eq (hcount : snap.count ≠ 0) (h0 : 0 < q) (h1 : q < 1) :
    ∃ i, h.histogram.Passes i (q * snap.count.toNat) ∧
      JsonExporter.estimateIndexed Floating.rational snap q =
        some (h.histogram.line i (q * snap.count.toNat)) := by
  have hpass := h.passes_rankIndex hcount h0 h1
  refine ⟨_, hpass, ?_⟩
  have hle := hpass.le_size
  have hwidth := CumulativeHistogram.sub_pos_of_prev_lt (K := ℚ) hpass.prev_lt_count
  rw [JsonExporter.estimateIndexed, if_neg hcount]
  generalize JsonExporter.rankIndex Floating.rational snap q = i at hle hwidth ⊢
  have hne : ¬ Floating.rational.le
      (Floating.rational.sub (h.histogram.count i) (h.histogram.prev i))
      (Floating.rational.ofNat 0) = true := fun hnone =>
    absurd (of_decide_eq_true hnone) (not_le.mpr (Nat.cast_zero.trans_lt hwidth))
  simp only [h.lower_eq hle, h.prev_eq hle, h.getElem?_counts hle, h.upper_eq hle,
    Option.bind_eq_bind, Option.bind_some, if_neg hne]
  exact congrArg some (h.interpolation_eq _ _)

theorem fromHistogram_eq (hcount : snap.count ≠ 0) (h0 : 0 < q) (h1 : q < 1) :
    ∃ i, h.histogram.Reaches i (q * snap.count.toNat) ∧
      TelemetryAPI.percentileFromHistogram Floating.rational snap q =
        some (h.histogram.line i (q * snap.count.toNat)) := by
  have hreach := h.reaches_findIdx (rank_pos hcount h0) (h.rank_lt hcount h1).le
  refine ⟨_, hreach, ?_⟩
  have hle := hreach.le_size
  have hlt : (h.histogram.prev _ : ℚ) < h.histogram.count _ :=
    Nat.cast_lt.mpr hreach.prev_lt_count
  rw [TelemetryAPI.percentileFromHistogram, if_neg hcount]
  dsimp only
  rw [mul_ofNat]
  generalize ((snap.counts Floating.rational).findIdx fun curr =>
    Floating.rational.le (q * snap.count.toNat) curr) = i at hle hlt ⊢
  have hne : ¬ (Floating.rational.le (h.histogram.count i) (h.histogram.prev i) = true ∧
      Floating.rational.le (h.histogram.prev i) (h.histogram.count i) = true) := fun hboth =>
    absurd (of_decide_eq_true hboth.1) (not_le.mpr hlt)
  simp only [h.lower_eq hle, h.prev_eq hle, h.getElem?_counts hle, h.upper_eq hle,
    Option.bind_eq_bind, Option.bind_some, if_neg hne]
  exact congrArg some (h.interpolation_eq _ _)

omit h in
/-- The rank that `Snapshot::percentile` looks for. -/
theorem truncate_rank (hcount : snap.count ≠ 0) (h0 : 0 < q) (h1 : q < 1) :
    (if truncate (q * snap.count.toNat) = 0 then 1 else truncate (q * snap.count.toNat)).toNat =
      max 1 ⌊q * snap.count.toNat⌋₊ := by
  have hlt : ⌊q * (snap.count.toNat : ℚ)⌋₊ < 2 ^ 64 := by
    have hrank : ⌊q * (snap.count.toNat : ℚ)⌋₊ < snap.count.toNat := by
      rw [Nat.floor_lt (rank_pos hcount h0).le]
      exact mul_lt_of_lt_one_left (Nat.cast_pos.mpr (UInt64.pos_iff_ne_zero.mpr hcount)) h1
    exact hrank.trans snap.count.toNat_lt
  have htoNat : (truncate (q * snap.count.toNat)).toNat = ⌊q * (snap.count.toNat : ℚ)⌋₊ :=
    UInt64.toNat_ofNat_of_lt' hlt
  split
  · rename_i hzero
    rw [hzero] at htoNat
    rw [← htoNat]
    rfl
  · rename_i hzero
    have hpos : truncate (q * snap.count.toNat) ≠ 0 := hzero
    rw [htoNat, max_eq_right]
    rw [← htoNat]
    exact UInt64.pos_iff_ne_zero.mpr hpos

/-- The same search, in whole numbers. -/
theorem findIdx_bucketCounts (t : UInt64) :
    snap.bucketCounts.findIdx (fun n => decide (t ≤ n)) =
      (snap.counts Floating.rational).findIdx fun curr =>
        Floating.rational.le (t.toNat : ℚ) curr := by
  rw [counts, List.findIdx_map]
  congr 1
  funext n
  refine Bool.decide_congr ?_
  exact UInt64.le_iff_toNat_le.trans Nat.cast_le.symm

/-- The value in the first bucket, which begins at zero. -/
theorem line_first {target curr : UInt64} (hcurr : curr.toNat = h.histogram.count 0) :
    h.histogram.bound 0 * target.toNat / curr.toNat = h.histogram.line 0 (target.toNat : ℚ) := by
  have hprev : (h.histogram.prev 0 : ℚ) = 0 := Nat.cast_zero
  have hlower : h.histogram.lower 0 = 0 := rfl
  rw [CumulativeHistogram.line, hprev, hlower, CumulativeHistogram.upper_of_lt
    h.histogram.size_pos, hcurr, sub_zero, sub_zero, sub_zero, zero_add, mul_comm,
    div_mul_eq_mul_div]

/-- The value in a later one: both differences of `percentile` are in order. -/
theorem line_later {i : Nat} {target curr prev : UInt64} (hi : i ≠ 0)
    (hcurr : curr.toNat = h.histogram.count i) (hprev : prev.toNat = h.histogram.prev i)
    (hlt : prev.toNat < curr.toNat) (hrank : prev.toNat < target.toNat) :
    curr - prev ≠ 0 ∧
      h.histogram.bound (i - 1) + (h.histogram.upper i - h.histogram.bound (i - 1)) *
        ((target - prev).toNat / (curr - prev).toNat) =
          h.histogram.line i (target.toNat : ℚ) := by
  have hwidth : (curr - prev).toNat = curr.toNat - prev.toNat :=
    UInt64.toNat_sub_of_le _ _ (UInt64.le_iff_toNat_le.mpr hlt.le)
  have hpast : (target - prev).toNat = target.toNat - prev.toNat :=
    UInt64.toNat_sub_of_le _ _ (UInt64.le_iff_toNat_le.mpr hrank.le)
  have hlower : h.histogram.lower i = h.histogram.bound (i - 1) := if_neg hi
  refine ⟨fun hnone => ?_, ?_⟩
  · rw [hnone] at hwidth
    exact absurd hwidth.symm (Nat.sub_pos_of_lt hlt).ne'
  · rw [CumulativeHistogram.line, hwidth, hpast, Nat.cast_sub hlt.le, Nat.cast_sub hrank.le,
      hlower, ← hprev, ← hcurr, mul_comm]

theorem percentile_eq (hcount : snap.count ≠ 0) (h0 : 0 < q) (h1 : q < 1) :
    ∃ k, h.histogram.Reaches k ((max 1 ⌊q * snap.count.toNat⌋₊ : Nat) : ℚ) ∧
      snap.percentile Floating.rational truncate q =
        some (h.histogram.line k ((max 1 ⌊q * snap.count.toNat⌋₊ : Nat) : ℚ)) := by
  have hpos : 0 < snap.count.toNat := UInt64.pos_iff_ne_zero.mpr hcount
  have htarget := truncate_rank hcount h0 h1
  have hone : 1 ≤ max 1 ⌊q * (snap.count.toNat : ℚ)⌋₊ := Nat.le_max_left ..
  have htotal : max 1 ⌊q * (snap.count.toNat : ℚ)⌋₊ ≤ h.histogram.total :=
    max_le (h.total_eq ▸ hpos) (Nat.floor_le_of_le (h.rank_lt hcount h1).le)
  rw [percentile, if_neg hcount]
  dsimp only
  rw [mul_ofNat]
  generalize (if truncate (q * snap.count.toNat) = 0 then 1
    else truncate (q * snap.count.toNat)) = target at htarget ⊢
  rw [← htarget] at hone htotal ⊢
  have hreach : h.histogram.Reaches _ (target.toNat : ℚ) :=
    h.reaches_findIdx (Nat.cast_pos.mpr hone) (Nat.cast_le.mpr htotal)
  refine ⟨_, hreach, ?_⟩
  rw [findIdx_bucketCounts]
  generalize ((snap.counts Floating.rational).findIdx fun curr =>
    Floating.rational.le (target.toNat : ℚ) curr) = i at hreach ⊢
  have hne := hreach.prev_lt_count
  obtain ⟨curr, hcurr, hcurrCount⟩ := h.getElem?_bucketCounts hreach.le_size
  rw [hcurr]
  dsimp only
  rcases Nat.eq_zero_or_pos i with rfl | hi
  · have hfilled : curr ≠ 0 := UInt64.pos_iff_ne_zero.mp (by
      rw [UInt64.lt_iff_toNat_lt, hcurrCount]
      exact hne)
    rw [if_pos rfl, if_neg hfilled, h.getElem?_bound h.histogram.size_pos]
    exact congrArg some (h.line_first hcurrCount)
  · have hsize := hreach.le_size
    obtain ⟨prev, hprev, hprevCount⟩ := h.getElem?_bucketCounts (i := i - 1) (by omega)
    have hbelow : prev.toNat = h.histogram.prev i := by
      rw [hprevCount]
      exact (if_neg hi.ne').symm
    have hlt : prev.toNat < curr.toNat := by
      rw [hcurrCount, hbelow]
      exact hne
    have hrank : prev.toNat < target.toNat := by
      have hstart := hreach.prev_lt
      rw [← hbelow] at hstart
      exact Nat.cast_lt.mp hstart
    obtain ⟨hfilled, hline⟩ := h.line_later hi.ne' hcurrCount hbelow hlt hrank
    have hlast : snap.boundaries.getLast? = some (h.histogram.bound (h.histogram.size - 1)) := by
      rw [List.getLast?_eq_getElem?, ← h.size_eq, h.getElem?_bound (by omega)]
    rw [if_neg hi.ne', hprev]
    simp only [Option.bind_eq_bind, Option.bind_some, if_neg hfilled,
      h.getElem?_bound (i := i - 1) (by omega), hlast, h.upper_eq hsize]
    exact congrArg some hline

/-! ## The agreement -/

theorem estimates_eq (hcount : snap.count ≠ 0) (h0 : 0 < q) (h1 : q < 1) :
    ∃ i j k, h.histogram.Passes i (q * snap.count.toNat) ∧
      h.histogram.Reaches j (q * snap.count.toNat) ∧
      h.histogram.Reaches k ((max 1 ⌊q * snap.count.toNat⌋₊ : Nat) : ℚ) ∧
      snap.estimates q =
        [some (h.histogram.line i (q * snap.count.toNat)),
          some (h.histogram.line j (q * snap.count.toNat)),
          some (h.histogram.line k ((max 1 ⌊q * snap.count.toNat⌋₊ : Nat) : ℚ))] := by
  obtain ⟨i, hi, hA⟩ := h.estimate_eq hcount h0 h1
  obtain ⟨j, hj, hB⟩ := h.fromHistogram_eq hcount h0 h1
  obtain ⟨k, hk, hC⟩ := h.percentile_eq hcount h0 h1
  exact ⟨i, j, k, hi, hj, hk, by rw [estimates, hA, hB, hC]⟩

omit h in
theorem estimates_of_count (hcount : snap.count = 0) (q : ℚ) :
    snap.estimates q = [some 0, some 0, some 0] := by
  rw [estimates, JsonExporter.estimateIndexed, TelemetryAPI.percentileFromHistogram, percentile,
    if_pos hcount, if_pos hcount, if_pos hcount]
  rfl

/-- The bucket of a rank holds the observation and the value. -/
theorem inBucket (hr : h.histogram.Rising) {j : Nat} {x : ℚ} (hj : h.histogram.Reaches j x) :
    snap.InBucket ⌈x⌉₊ (h.histogram.line j x) j := by
  have hmem := CumulativeHistogram.line_mem hr hj.le_size hj.prev_lt_count hj.prev_lt.le
    hj.le_count
  have hbound {k : Nat} {b : ℚ} (hb : snap.boundaries[k]? = some b) :
      k < h.histogram.size ∧ h.histogram.bound k = b := by
    have hk : k < h.histogram.size := (List.getElem?_eq_some_iff.mp hb).1
    exact ⟨hk, Option.some.inj ((h.getElem?_bound hk).symm.trans hb)⟩
  constructor
  · obtain ⟨n, hn, hcount⟩ := h.getElem?_bucketCounts hj.le_size
    exact ⟨n, hn, hcount ▸ Nat.ceil_le.mpr hj.le_count⟩
  · intro k hk n hn
    obtain ⟨n', hn', hcount⟩ := h.getElem?_bucketCounts (hk.le.trans hj.le_size)
    obtain rfl : n' = n := Option.some.inj (hn'.symm.trans hn)
    rw [Nat.lt_ceil, hcount]
    exact (Nat.cast_le.mpr (CumulativeHistogram.count_le_prev hk hj.le_size)).trans_lt hj.prev_lt
  · intro b hb
    obtain ⟨hlt, rfl⟩ := hbound hb
    exact hmem.2.trans_eq (CumulativeHistogram.upper_of_lt hlt)
  · intro k hk b hb
    obtain ⟨hlt, rfl⟩ := hbound hb
    have hedge := CumulativeHistogram.upper_le_lower hk hj.le_size
    rw [CumulativeHistogram.upper_of_lt hlt] at hedge
    exact hedge.trans hmem.1

/-- Each of the estimates rises with the quantile. -/
theorem estimates_mono (hr : h.histogram.Rising) (hcount : snap.count ≠ 0) {p p' : ℚ}
    (h0 : 0 < p) (hle : p ≤ p') (h1 : p' < 1) {k : Nat} {v v' : ℚ}
    (hv : (snap.estimates p)[k]? = some (some v))
    (hv' : (snap.estimates p')[k]? = some (some v')) : v ≤ v' := by
  obtain ⟨i, j, l, hi, hj, hl, heq⟩ := h.estimates_eq hcount h0 (hle.trans_lt h1)
  obtain ⟨i', j', l', hi', hj', hl', heq'⟩ := h.estimates_eq hcount (h0.trans_le hle) h1
  have hrank : p * snap.count.toNat ≤ p' * snap.count.toNat :=
    mul_le_mul_of_nonneg_right hle (Nat.cast_nonneg _)
  have htarget : ((max 1 ⌊p * snap.count.toNat⌋₊ : Nat) : ℚ) ≤
      (max 1 ⌊p' * snap.count.toNat⌋₊ : Nat) :=
    Nat.cast_le.mpr (max_le_max_left 1 (Nat.floor_le_floor hrank))
  rw [heq] at hv
  rw [heq'] at hv'
  match k with
  | 0 =>
    obtain rfl := Option.some.inj (Option.some.inj hv)
    obtain rfl := Option.some.inj (Option.some.inj hv')
    exact CumulativeHistogram.passes_mono hr hi hi' hrank
  | 1 =>
    obtain rfl := Option.some.inj (Option.some.inj hv)
    obtain rfl := Option.some.inj (Option.some.inj hv')
    exact CumulativeHistogram.reaches_mono hr hj hj' hrank
  | 2 =>
    obtain rfl := Option.some.inj (Option.some.inj hv)
    obtain rfl := Option.some.inj (Option.some.inj hv')
    exact CumulativeHistogram.reaches_mono hr hl hl' htarget
  | _ + 3 => exact absurd hv nofun

/-- Where the second never falls, the buckets are the right way round. -/
theorem rising_of_estimates (hcount : snap.count ≠ 0)
    (hmono : ∀ p p' : ℚ, 0 < p → p ≤ p' → p' < 1 → ∀ v v' : ℚ,
      (snap.estimates p)[1]? = some (some v) → (snap.estimates p')[1]? = some (some v') →
      v ≤ v') : h.histogram.Rising := by
  refine CumulativeHistogram.rising_of_mono fun i x j y hx hy hxy hlt => ?_
  have hpos : (0 : ℚ) < snap.count.toNat :=
    Nat.cast_pos.mpr (UInt64.pos_iff_ne_zero.mpr hcount)
  rw [h.total_eq] at hlt
  have hstart : 0 < x := (Nat.cast_nonneg _).trans_lt hx.prev_lt
  have h0 : 0 < x / snap.count.toNat := div_pos hstart hpos
  have hle : x / snap.count.toNat ≤ y / snap.count.toNat :=
    div_le_div_of_nonneg_right hxy hpos.le
  have h1 : y / snap.count.toNat < 1 := (div_lt_one hpos).mpr hlt
  obtain ⟨i', hi', hvalue⟩ := h.fromHistogram_eq hcount h0 (hle.trans_lt h1)
  obtain ⟨j', hj', hvalue'⟩ := h.fromHistogram_eq hcount (h0.trans_le hle) h1
  rw [div_mul_cancel₀ _ hpos.ne'] at hi' hj' hvalue hvalue'
  obtain rfl := hi'.unique hx
  obtain rfl := hj'.unique hy
  exact hmono _ _ h0 hle h1 _ _ (congrArg some hvalue) (congrArg some hvalue')

end Histogram.Snapshot.Regular

/-! ## Snapshots of histograms -/

namespace Histogram

theorem pairwise_cumulate {c : UInt64} {l : List UInt64}
    (hfew : c.toNat + (l.map UInt64.toNat).sum < 2 ^ 64) :
    (c :: cumulate c l).Pairwise (· ≤ ·) := by
  induction l generalizing c with
  | nil => exact List.pairwise_singleton ..
  | cons n l ih =>
    rw [List.map_cons, List.sum_cons] at hfew
    have hsum : (c + n).toNat = c.toNat + n.toNat := by
      rw [UInt64.toNat_add]
      exact Nat.mod_eq_of_lt (by omega)
    have hrest := ih (c := c + n) (by omega)
    have hstep : c ≤ c + n := UInt64.le_iff_toNat_le.mpr (by omega)
    rw [cumulate]
    refine List.pairwise_cons.mpr ⟨fun m hm => ?_, hrest⟩
    rcases List.mem_cons.mp hm with rfl | hm
    · exact hstep
    · exact UInt64.le_trans hstep (List.rel_of_pairwise_cons hrest hm)

theorem sum_toNat_modify (l : List UInt64) (i : Nat) :
    ((l.modify i (· + 1)).map UInt64.toNat).sum ≤ (l.map UInt64.toNat).sum + 1 := by
  induction l generalizing i with
  | nil =>
    rw [List.modify_nil]
    exact Nat.le_succ _
  | cons n l ih =>
    cases i with
    | zero =>
      have hadd : (n + 1).toNat ≤ n.toNat + 1 := by
        rw [UInt64.toNat_add]
        exact Nat.mod_le ..
      rw [List.modify_zero_cons, List.map_cons, List.sum_cons, List.map_cons, List.sum_cons]
      omega
    | succ i =>
      have hrest := ih i
      rw [List.modify_succ_cons, List.map_cons, List.sum_cons, List.map_cons, List.sum_cons]
      omega

/-- What has been observed is in the buckets, at most `n` times. -/
structure Observed (h : Histogram Floating.rational) (n : Nat) : Prop where
  counted : h.buckets.sum = h.count
  few : (h.buckets.map UInt64.toNat).sum ≤ n

theorem Observed.create (metadata : MetricMeta) (boundaries : Boundaries Floating.rational) :
    (create metadata boundaries).Observed 0 := by
  have hnone (k : Nat) : (List.replicate k (0 : UInt64)).sum = 0 ∧
      ((List.replicate k (0 : UInt64)).map UInt64.toNat).sum = 0 := by
    induction k with
    | zero => exact ⟨rfl, rfl⟩
    | succ k ih =>
      rw [List.replicate_succ, List.map_cons, List.sum_cons, List.sum_cons, ih.1, ih.2]
      exact ⟨rfl, rfl⟩
  exact ⟨(hnone _).1, (hnone _).2.le⟩

theorem Observed.observe {h : Histogram Floating.rational} {n : Nat} (ho : h.Observed n)
    (value : ℚ) : (h.observe value).Observed (n + 1) where
  counted := by
    have hidx : h.boundaries.values.findIdx (Floating.rational.le value) < h.buckets.length := by
      rw [h.sized]
      exact Nat.lt_succ_of_le List.findIdx_le_length
    show (h.buckets.modify _ (· + 1)).sum = h.count + 1
    rw [sum_modify hidx, ho.counted]
  few := (sum_toNat_modify ..).trans (Nat.succ_le_succ ho.few)

theorem Observed.foldl {h : Histogram Floating.rational} {n : Nat} (ho : h.Observed n)
    (values : List ℚ) :
    (values.foldl (fun h value => h.observe value) h).Observed (n + values.length) := by
  induction values generalizing h n with
  | nil => exact ho
  | cons value values ih =>
    rw [List.length_cons, Nat.add_comm values.length, ← Nat.add_assoc]
    exact ih (ho.observe value)

theorem Observed.regular {h : Histogram Floating.rational} {n : Nat} (ho : h.Observed n)
    (hn : n < 2 ^ 64) : h.snapshot.Regular where
  nonempty := h.boundaries.nonempty
  increasing := h.boundaries.increasing.imp of_decide_eq_true
  sized := (length_cumulate 0 h.buckets).trans h.sized
  cumulative := (pairwise_cumulate (by
    rw [UInt64.toNat_zero, Nat.zero_add]
    exact ho.few.trans_lt hn)).of_cons
  counted := by
    show (cumulate 0 h.buckets).getLastD 0 = h.count
    rw [getLastD_cumulate, UInt64.zero_add, ho.counted]

/-- **Snapshots are regular**, after fewer than `2 ^ 64` observations. -/
theorem regular_snapshot (metadata : MetricMeta) (boundaries : Boundaries Floating.rational)
    (values : List ℚ) (hfew : values.length < 2 ^ 64) :
    (values.foldl (fun h value => h.observe value) (create metadata boundaries)).snapshot.Regular :=
  ((Observed.create metadata boundaries).foldl values).regular (by omega)

/-- The buckets up to 100, up to 500 and above it. -/
def twoBoundaries : Boundaries Floating.rational where
  values := [100, 500]
  nonempty := nofun
  few := by decide
  increasing := by decide +kernel

/-- The snapshot after some values. -/
def twoBoundariesSnapshot (values : List ℚ) : Snapshot ℚ :=
  (values.foldl (fun h value => h.observe value)
    (create ⟨[], [], []⟩ twoBoundaries)).snapshot

end Histogram

open Histogram.Snapshot.Regular in
/-- **When the percentiles agree.** -/
theorem Histogram.Snapshot.percentilesAgree_iff {snap : Histogram.Snapshot ℚ}
    (h : snap.Regular) {q : ℚ} (h0 : 0 < q) (h1 : q < 1) :
    snap.PercentilesAgree q ↔
      snap.count = 0 ∨ h.histogram.Sharp (q * snap.count.toNat) := by
  by_cases hcount : snap.count = 0
  · refine iff_of_true ⟨⟨0, ?_, fun hne => absurd hcount hne⟩, ?_⟩ (Or.inl hcount)
    · rw [estimates_of_count hcount]
      simp
    · intro p p' _ _ _ k v v' hv hv'
      rw [estimates_of_count hcount] at hv hv'
      obtain rfl := Option.some.inj (Option.some.inj (hv.symm.trans hv'))
      exact le_refl _
  · rw [or_iff_right hcount]
    obtain ⟨i, j, k, hi, hj, hk, heq⟩ := h.estimates_eq hcount h0 h1
    have hrank := rank_pos hcount h0
    have hfilled := CumulativeHistogram.passes_eq_reaches_iff hi hj
    constructor
    · intro hall
      obtain ⟨⟨v, hv, -⟩, hmono⟩ := hall
      have hr := h.rising_of_estimates hcount fun p p' hp hle hp' v v' =>
        hmono p p' hp hle hp' 1 v v'
      rw [heq] at hv
      have hA := hv _ List.mem_cons_self
      have hB := hv _ (List.mem_cons_of_mem _ List.mem_cons_self)
      have hC := hv _ (List.mem_cons_of_mem _ (List.mem_cons_of_mem _ List.mem_cons_self))
      exact ⟨hr, hfilled.mp (Option.some.inj (hA.trans hB.symm)),
        (CumulativeHistogram.whole_iff hr hrank hj hk).mp (Option.some.inj (hB.trans hC.symm))⟩
    · rintro ⟨hr, hfill, hwhole⟩
      have hA := hfilled.mpr hfill
      have hC := (CumulativeHistogram.whole_iff hr hrank hj hk).mpr hwhole
      refine ⟨⟨h.histogram.line j (q * snap.count.toNat), ?_, fun _ => ⟨j, h.inBucket hr hj⟩⟩,
        fun p p' hp hle hp' k v v' hv hv' => h.estimates_mono hr hcount hp hle hp' hv hv'⟩
      rw [heq, hA, ← hC]
      simp

namespace Histogram

theorem percentilesAgree_iff_median :
    (twoBoundariesSnapshot [50, 200]).PercentilesAgree (1 / 2) := by
  have hregular : (twoBoundariesSnapshot [50, 200]).Regular := regular_snapshot _ _ _ (by decide)
  refine (Snapshot.percentilesAgree_iff hregular (by norm_num) (by norm_num)).mpr (Or.inr ?_)
  have hrank : (1 / 2 : ℚ) * (twoBoundariesSnapshot [50, 200]).count.toNat = 1 := by
    decide +kernel
  have h0 : hregular.histogram.count 0 = 1 := rfl
  have h1 : hregular.histogram.count 1 = 2 := rfl
  rw [hrank]
  refine ⟨⟨fun _ => ?_, fun hlt => ?_⟩, fun k hk => ?_, Or.inl ⟨1, Nat.one_pos, Nat.cast_one.symm⟩⟩
  · show (0 : ℚ) ≤ 100
    norm_num
  · have hfull : hregular.histogram.total = hregular.histogram.count 1 := rfl
    exact absurd hlt (Nat.not_lt_of_le hfull.le)
  · match k, hk with
    | 0, _ =>
      rw [h1]
      norm_num
    | 1, _ =>
      rw [h1]
      norm_num

theorem median_disagrees :
    (twoBoundariesSnapshot [50, 600]).Regular ∧
      (twoBoundariesSnapshot [50, 600]).estimates (1 / 2) = [some 500, some 100, some 100] ∧
      ¬ (twoBoundariesSnapshot [50, 600]).PercentilesAgree (1 / 2) := by
  have hvalues : (twoBoundariesSnapshot [50, 600]).estimates (1 / 2) =
      [some 500, some 100, some 100] := by decide +kernel
  refine ⟨regular_snapshot _ _ _ (by decide), hvalues, fun hall => ?_⟩
  obtain ⟨⟨v, hv, -⟩, -⟩ := hall
  rw [hvalues] at hv
  have h500 := hv (some 500) (by simp)
  have h100 := hv (some 100) (by simp)
  exact absurd (h500.trans h100.symm) (by decide +kernel)

end Histogram
end NeuStack
