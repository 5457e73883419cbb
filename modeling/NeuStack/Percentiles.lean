import NeuStack.JsonExporter

/-! # Percentiles of a histogram

Three functions estimate a percentile from the cumulative counts of a snapshot:
`JsonExporter::estimate_percentile`, the `percentile_from_histogram` of the telemetry API,
and `Histogram::Snapshot::percentile`.  Each finds the bucket of a rank and interpolates in
it.

Here they are with their array accesses checked: the result is nothing where an index is
out of range.
-/
namespace NeuStack
variable {D : Type} (fl : Floating D)

namespace Histogram.Snapshot
variable (snap : Snapshot D)

/-- The counts as `double`. -/
def counts : List D := snap.bucketCounts.map fun n => fl.ofNat n.toNat

/-- `i == 0 ? 0.0 : boundaries[i - 1]` -/
def lower (i : Nat) : Option D := if i = 0 then some (fl.ofNat 0) else snap.boundaries[i - 1]?

/-- `i == 0 ? 0.0 : bucket_counts[i - 1]` -/
def prev (i : Nat) : Option D := if i = 0 then some (fl.ofNat 0) else (snap.counts fl)[i - 1]?

/-- `i < boundaries.size() ? boundaries[i] : boundaries.back() * 2.0`, or `empty` where there
are no boundaries. -/
def upper (empty : D) (i : Nat) : D :=
  match snap.boundaries[i]? with
  | some bound => bound
  | none =>
    match snap.boundaries.getLast? with
    | none => empty
    | some last => fl.mul last (fl.ofNat 2)

end Histogram.Snapshot

namespace JsonExporter

/-- Where the loop of `estimate_percentile` stops. -/
def rankIndex (snap : Histogram.Snapshot D) (q : D) : Nat :=
  (snap.counts fl).findIdx fun n => fl.lt (fl.mul q (fl.ofNat snap.count.toNat)) n

/-- `estimate_percentile`, with checked indices. -/
def estimateIndexed (snap : Histogram.Snapshot D) (q : D) : Option D :=
  if snap.count = 0 then some (fl.ofNat 0)
  else do
    let rank := fl.mul q (fl.ofNat snap.count.toNat)
    let i := rankIndex fl snap q
    let lower ← snap.lower fl i
    let prevCount ← snap.prev fl i
    let upper := snap.upper fl (fl.ofNat 0) i
    let curr ← (snap.counts fl)[i]?
    let currBucketCount := fl.sub curr prevCount
    if fl.le currBucketCount (fl.ofNat 0) then some lower
    else
      let fraction := fl.div (fl.sub rank prevCount) currBucketCount
      some (fl.add lower (fl.mul fraction (fl.sub upper lower)))

/-- **Within the arrays, the checks change nothing.** -/
theorem estimateIndexed_eq {snap : Histogram.Snapshot D} {q : D}
    (hsized : snap.bucketCounts.length = snap.boundaries.length + 1)
    (hindex : snap.count ≠ 0 → rankIndex fl snap q < snap.bucketCounts.length) :
    estimateIndexed fl snap q = some (estimatePercentile fl snap q) := by
  have hget (l : List D) {i : Nat} (hi : i < l.length) : l[i]? = some (l.getD i (fl.ofNat 0)) := by
    rw [List.getD_eq_getElem?_getD, List.getElem?_eq_getElem hi, Option.getD_some]
  rw [estimateIndexed]
  split
  · rename_i hcount
    exact congrArg some (if_pos hcount).symm
  · rename_i hcount
    have hi := hindex hcount
    have hcounts : (snap.counts fl).length = snap.bucketCounts.length := List.length_map ..
    have hlower : snap.lower fl (rankIndex fl snap q) =
        some (if 0 < rankIndex fl snap q then
          snap.boundaries.getD (rankIndex fl snap q - 1) (fl.ofNat 0) else fl.ofNat 0) := by
      rw [Histogram.Snapshot.lower]
      split
      · rename_i hzero
        rw [if_neg (Nat.not_lt_of_le (Nat.le_of_eq hzero))]
      · rename_i hzero
        rw [if_pos (Nat.pos_of_ne_zero hzero), hget _ (by omega)]
    have hprev : snap.prev fl (rankIndex fl snap q) =
        some (if 0 < rankIndex fl snap q then
          (snap.counts fl).getD (rankIndex fl snap q - 1) (fl.ofNat 0) else fl.ofNat 0) := by
      rw [Histogram.Snapshot.prev]
      split
      · rename_i hzero
        rw [if_neg (Nat.not_lt_of_le (Nat.le_of_eq hzero))]
      · rename_i hzero
        rw [if_pos (Nat.pos_of_ne_zero hzero), hget _ (by omega)]
    have hupper : snap.upper fl (fl.ofNat 0) (rankIndex fl snap q) =
        if rankIndex fl snap q < snap.boundaries.length then
          snap.boundaries.getD (rankIndex fl snap q) (fl.ofNat 0)
        else
          match snap.boundaries.getLast? with
          | none => fl.ofNat 0
          | some last => fl.mul last (fl.ofNat 2) := by
      rw [Histogram.Snapshot.upper]
      by_cases hlt : rankIndex fl snap q < snap.boundaries.length
      · rw [if_pos hlt, hget _ hlt]
      · rw [if_neg hlt, List.getElem?_eq_none (Nat.le_of_not_lt hlt)]
    rw [estimatePercentile, if_neg hcount]
    simp only [hlower, hprev, hupper, hget _ (hcounts.symm ▸ hi), Option.bind_eq_bind,
      Option.bind_some]
    exact (apply_ite some _ _ _).symm

end JsonExporter

namespace TelemetryAPI

/-- `percentile_from_histogram`, with checked indices. -/
def percentileFromHistogram (snap : Histogram.Snapshot D) (q : D) : Option D :=
  if snap.count = 0 then some (fl.ofNat 0)
  else
    let rank := fl.mul q (fl.ofNat snap.count.toNat)
    let i := (snap.counts fl).findIdx fun curr => fl.le rank curr
    match (snap.counts fl)[i]? with
    | none => some (snap.boundaries.getLastD (fl.ofNat 0))
    | some curr => do
      let prev ← snap.prev fl i
      let lower ← snap.lower fl i
      let upper := snap.upper fl (fl.ofNat 1) i
      if fl.le curr prev ∧ fl.le prev curr then some upper
      else
        let fraction := fl.div (fl.sub rank prev) (fl.sub curr prev)
        some (fl.add lower (fl.mul fraction (fl.sub upper lower)))

end TelemetryAPI

/-- `Snapshot::percentile`, with checked indices; `toUInt64` is the conversion that cuts the
fraction off. -/
def Histogram.Snapshot.percentile (toUInt64 : D → UInt64) (snap : Histogram.Snapshot D)
    (quantile : D) : Option D :=
  if snap.count = 0 then some (fl.ofNat 0)
  else
    let target := toUInt64 (fl.mul quantile (fl.ofNat snap.count.toNat))
    let target := if target = 0 then 1 else target
    let i := snap.bucketCounts.findIdx fun n => target ≤ n
    match snap.bucketCounts[i]? with
    | none => some (snap.boundaries.getLastD (fl.ofNat 0))
    | some curr =>
      if i = 0 then
        if curr = 0 then some (fl.ofNat 0)
        else do
          let bound ← snap.boundaries[0]?
          some (fl.div (fl.mul bound (fl.ofNat target.toNat)) (fl.ofNat curr.toNat))
      else do
        let prevCount ← snap.bucketCounts[i - 1]?
        let currCount := curr - prevCount
        if currCount = 0 then
          if i < snap.boundaries.length then snap.boundaries[i]? else snap.boundaries.getLast?
        else do
          let lower ← snap.boundaries[i - 1]?
          let last ← snap.boundaries.getLast?
          let upper := snap.upper fl last i
          let fraction := fl.div (fl.ofNat (target - prevCount).toNat) (fl.ofNat currCount.toNat)
          some (fl.add lower (fl.mul (fl.sub upper lower) fraction))

end NeuStack
