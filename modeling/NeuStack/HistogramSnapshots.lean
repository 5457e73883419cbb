import NeuStack.CounterReads
import NeuStack.Percentiles
import NeuStack.PrometheusExport

/-! # Histograms shared by threads

`Histogram::observe` adds to a bucket, then to the count, then to the sum; each is one atomic
step, and the sum takes a loop of them.  `Histogram::snapshot` reads the count, the sum and
the buckets, in this order.  A run is any sequence of steps of any number of calls of
`observe` and of one `snapshot`: a thread is whoever takes the steps of its call.

The counters have 64 bits, so that what a snapshot says is true of fewer than `2 ^ 64`
observations (`finished_consistent`); the calls in between are told apart by what was
complete when the snapshot began, and what had begun when it ended.
-/
namespace NeuStack

/-- What comparisons and products of `double` do: rounding is monotone, and a factor below
one makes a positive whole number smaller. -/
structure Floating.Ordered {D : Type} (fl : Floating D) : Prop where
  le_of_le_of_lt : ∀ a b c, fl.le a b = true → fl.lt b c = true → fl.le a c = true
  mul_lt : ∀ (q : D) (n : Nat), fl.lt q (fl.ofNat 1) = true → 0 < n → n < 2 ^ 64 →
    fl.lt (fl.mul q (fl.ofNat n)) (fl.ofNat n) = true
  lt_ofNat : ∀ (a : D) (n m : Nat), fl.lt a (fl.ofNat n) = true → n ≤ m → m < 2 ^ 64 →
    fl.lt a (fl.ofNat m) = true

variable {D : Type} {fl : Floating D}

/-- The bucket that `observe` counts a value in. -/
def Boundaries.bucket (b : Boundaries fl) (value : D) : Nat :=
  b.values.findIdx fun bound => fl.le value bound

/-- How many of the values are at most the boundary `i`; all are at most the last, `+Inf`. -/
def Boundaries.atMost (b : Boundaries fl) (i : Nat) (values : List D) : Nat :=
  match b.values[i]? with
  | some bound => values.countP fun value => fl.le value bound
  | none => values.length

/-! ## The steps -/

/-- How far a call of `observe` has come. -/
inductive ObservePhase (D : Type) where
  | begun
  | bucketed
  | counted
  | loaded (oldSum : D)
  | done

namespace ObservePhase

/-- The bucket has been incremented. -/
def added : ObservePhase D → Bool
  | begun => false
  | _ => true

/-- The count has been incremented, too. -/
def tallied : ObservePhase D → Bool
  | begun | bucketed => false
  | _ => true

def isDone : ObservePhase D → Bool
  | done => true
  | _ => false

end ObservePhase

structure ObserveCall (D : Type) where
  value : D
  phase : ObservePhase D := .begun

/-- How far the call of `snapshot` has come; `before` are the values whose calls were
complete when it began, and `during` those whose calls had begun when it ended. -/
inductive SnapshotPhase (D : Type) where
  | idle
  | started (before : List D)
  | counted (before : List D) (count : UInt64)
  | reading (before : List D) (count : UInt64) (sum : D) (bucketCounts : List UInt64)
  | finished (before during : List D) (snap : Histogram.Snapshot D)

/-- A histogram, and the calls on it. -/
structure SharedHistogram (fl : Floating D) where
  histogram : Histogram fl
  calls : List (ObserveCall D) := []
  snapshot : SnapshotPhase D := .idle

/-- A thread calls `observe`, the `i`-th of these calls takes its next step, or the
snapshot does.  A weak exchange may fail for no reason. -/
inductive HistogramStep (D : Type) where
  | call (value : D)
  | observe (i : Nat) (fails : Bool)
  | snapshot

/-- The next atomic step of a call of `observe`.  Values of `D` are compared as the bits
that they are stored as. -/
def ObserveCall.advance [DecidableEq D] (h : Histogram fl) (c : ObserveCall D) (fails : Bool) :
    Histogram fl × ObserveCall D :=
  match c.phase with
  | .begun =>
    ({ h with
        buckets := h.buckets.modify (h.boundaries.bucket c.value) (· + 1)
        sized := (List.length_modify ..).trans h.sized },
      { c with phase := .bucketed })
  | .bucketed => ({ h with count := h.count + 1 }, { c with phase := .counted })
  | .counted => (h, { c with phase := .loaded h.sum })
  | .loaded oldSum =>
    if h.sum = oldSum ∧ fails = false then
      ({ h with sum := fl.add oldSum c.value }, { c with phase := .done })
    else (h, { c with phase := .loaded h.sum })
  | .done => (h, c)

namespace SharedHistogram

/-- The next step of the snapshot. -/
def readNext (s : SharedHistogram fl) : SnapshotPhase D :=
  match s.snapshot with
  | .idle => .started ((s.calls.filter (·.phase.isDone)).map (·.value))
  | .started before => .counted before s.histogram.count
  | .counted before count => .reading before count s.histogram.sum []
  | .reading before count sum bucketCounts =>
    let cumulative := bucketCounts.getLastD 0 + s.histogram.buckets.getD bucketCounts.length 0
    let bucketCounts := bucketCounts ++ [cumulative]
    if bucketCounts.length < s.histogram.buckets.length then
      .reading before count sum bucketCounts
    else
      .finished before (s.calls.map (·.value))
        { boundaries := s.histogram.boundaries.values, bucketCounts, count, sum }
  | .finished before during snap => .finished before during snap

def step [DecidableEq D] (s : SharedHistogram fl) : HistogramStep D → SharedHistogram fl
  | .call value => { s with calls := s.calls ++ [{ value }] }
  | .observe i fails =>
    match s.calls[i]? with
    | none => s
    | some c =>
      { s with
        histogram := (c.advance s.histogram fails).1
        calls := s.calls.set i (c.advance s.histogram fails).2 }
  | .snapshot => { s with snapshot := s.readNext }

/-- A new histogram after a sequence of steps. -/
def ofSteps [DecidableEq D] (metadata : MetricMeta) (b : Boundaries fl)
    (steps : List (HistogramStep D)) : SharedHistogram fl :=
  GuardedRun.run step { histogram := .create metadata b } steps

end SharedHistogram

/-! ## The invariant -/

namespace SharedHistogram
open CounterReads (Reads inBox)
variable (b : Boundaries fl)

/-- How many values are in a bucket. -/
def first (values : List D) : Nat → Nat := inBox (fun _ => true) b.bucket values

/-- How many of the calls have incremented a bucket. -/
def now (calls : List (ObserveCall D)) : Nat → Nat :=
  inBox (fun c => c.phase.added) (fun c => b.bucket c.value) calls

/-- How many of the calls have incremented the count. -/
def tallied (calls : List (ObserveCall D)) : Nat := calls.countP fun c => c.phase.tallied

/-- What the snapshot has read so far is worth. -/
def Progress (calls : List (ObserveCall D)) : SnapshotPhase D → Prop
  | .idle => True
  | .started before =>
    (∀ j, first b before j ≤ now b calls j) ∧ before.length ≤ tallied calls
  | .counted before count =>
    ∃ c, count = UInt64.ofNat c ∧ before.length ≤ c ∧
      Reads (b.values.length + 1) (first b before) (now b calls) c []
  | .reading before count _ bucketCounts =>
    ∃ c ns, count = UInt64.ofNat c ∧ before.length ≤ c ∧
      bucketCounts = Histogram.cumulate 0 (ns.map UInt64.ofNat) ∧ ns.length < b.values.length + 1 ∧
      Reads (b.values.length + 1) (first b before) (now b calls) c ns
  | .finished before during snap =>
    ∃ c ns, snap.count = UInt64.ofNat c ∧ before.length ≤ c ∧ snap.boundaries = b.values ∧
      snap.bucketCounts = Histogram.cumulate 0 (ns.map UInt64.ofNat) ∧
      ns.length = b.values.length + 1 ∧
      Reads (b.values.length + 1) (first b before) (first b during) c ns

/-- **The invariant**: the counters count the calls that have come to them, and the
snapshot has read them while they grew. -/
structure Tallied (s : SharedHistogram fl) : Prop where
  same : s.histogram.boundaries = b
  buckets : ∀ j < b.values.length + 1,
    s.histogram.buckets.getD j 0 = UInt64.ofNat (now b s.calls j)
  count : s.histogram.count = UInt64.ofNat (tallied s.calls)
  progress : Progress b s.calls s.snapshot

variable {b} {calls calls' : List (ObserveCall D)} {s : SharedHistogram fl}

theorem bucket_lt (b : Boundaries fl) (value : D) : b.bucket value < b.values.length + 1 :=
  Nat.lt_succ_of_le List.findIdx_le_length

theorem tallied_le (b : Boundaries fl) (calls : List (ObserveCall D)) :
    tallied calls ≤ ((List.range (b.values.length + 1)).map (now b calls)).sum := by
  rw [now, CounterReads.sum_inBox]
  refine List.countP_mono_left fun c _ hc => ?_
  rw [Bool.and_eq_true, decide_eq_true_eq]
  refine ⟨?_, bucket_lt b c.value⟩
  cases hphase : c.phase <;> rw [hphase] at hc <;> first | rfl | cases hc

/-- The calls get on, and the snapshot stays where it is. -/
theorem Progress.grow {phase : SnapshotPhase D} (h : Progress b calls phase)
    (hnow : ∀ j, now b calls j ≤ now b calls' j) (htallied : tallied calls ≤ tallied calls') :
    Progress b calls' phase := by
  cases phase with
  | idle => exact trivial
  | started before =>
    exact ⟨fun j => Nat.le_trans (h.1 j) (hnow j), Nat.le_trans h.2 htallied⟩
  | counted before count =>
    obtain ⟨c, hcount, hbefore, hreads⟩ := h
    exact ⟨c, hcount, hbefore, hreads.grow hnow⟩
  | reading before count sum bucketCounts =>
    obtain ⟨c, ns, hcount, hbefore, hcounts, hlt, hreads⟩ := h
    exact ⟨c, ns, hcount, hbefore, hcounts, hlt, hreads.grow hnow⟩
  | finished before during snap => exact h

theorem cumulate_append (cumulative : UInt64) (l : List UInt64) (n : UInt64) :
    Histogram.cumulate cumulative (l ++ [n]) =
      Histogram.cumulate cumulative l ++
        [(Histogram.cumulate cumulative l).getLastD cumulative + n] := by
  induction l generalizing cumulative with
  | nil => rfl
  | cons m l ih => rw [List.cons_append, Histogram.cumulate, ih, Histogram.cumulate,
      List.cons_append, List.getLastD_cons]

/-- The completed calls have come everywhere. -/
theorem first_completed (calls : List (ObserveCall D)) :
    (∀ j, first b ((calls.filter (·.phase.isDone)).map (·.value)) j ≤ now b calls j) ∧
      ((calls.filter (·.phase.isDone)).map (·.value)).length ≤ tallied calls := by
  constructor
  · intro j
    rw [first, inBox, List.countP_map, List.countP_filter]
    refine List.countP_mono_left fun c _ hc => ?_
    simp only [Function.comp, Bool.true_and, Bool.and_eq_true] at hc ⊢
    refine ⟨?_, hc.1⟩
    cases hphase : c.phase <;> rw [hphase] at hc <;> first | rfl | cases hc.2
  · rw [List.length_map, ← List.countP_eq_length_filter]
    refine List.countP_mono_left fun c _ hc => ?_
    cases hphase : c.phase <;> rw [hphase] at hc <;> first | rfl | cases hc

theorem now_le_first (calls : List (ObserveCall D)) (j : Nat) :
    now b calls j ≤ first b (calls.map (·.value)) j := by
  rw [first, inBox, List.countP_map]
  refine List.countP_mono_left fun c _ hc => ?_
  simp only [Function.comp, Bool.true_and, Bool.and_eq_true] at hc ⊢
  exact hc.2

/-- **A step of the snapshot.** -/
theorem Tallied.readNext (h : s.Tallied b) : Progress b s.calls s.readNext := by
  have hprogress := h.progress
  rw [SharedHistogram.readNext]
  cases hphase : s.snapshot with
  | idle => exact first_completed s.calls
  | started before =>
    rw [hphase] at hprogress
    exact ⟨_, h.count, hprogress.2, Reads.start hprogress.1 (tallied_le b s.calls)⟩
  | counted before count =>
    rw [hphase] at hprogress
    obtain ⟨c, hcount, hbefore, hreads⟩ := hprogress
    exact ⟨c, [], hcount, hbefore, rfl, Nat.succ_pos _, hreads⟩
  | reading before count sum bucketCounts =>
    rw [hphase] at hprogress
    obtain ⟨c, ns, hcount, hbefore, hcounts, hlt, hreads⟩ := hprogress
    have hlength : bucketCounts.length = ns.length := by
      rw [hcounts, Histogram.length_cumulate, List.length_map]
    have hsized : s.histogram.buckets.length = b.values.length + 1 := h.same ▸ s.histogram.sized
    have hnext : bucketCounts ++
          [bucketCounts.getLastD 0 + s.histogram.buckets.getD bucketCounts.length 0] =
        Histogram.cumulate 0 ((ns ++ [now b s.calls ns.length]).map UInt64.ofNat) := by
      rw [List.map_append, List.map_singleton, cumulate_append, ← hcounts, hlength,
        h.buckets _ hlt]
    have hread := hreads.read hlt
    have hmore := hread.length
    rw [List.length_append, List.length_singleton] at hmore
    simp only [hnext, Histogram.length_cumulate, List.length_map, List.length_append,
      List.length_singleton, hsized]
    split
    · rename_i hlt'
      refine ⟨c, _, hcount, hbefore, rfl, ?_, hread⟩
      rw [List.length_append, List.length_singleton]
      exact hlt'
    · rename_i hend
      refine ⟨c, _, hcount, hbefore, congrArg (·.values) h.same, rfl, ?_,
        hread.grow (now_le_first s.calls)⟩
      rw [List.length_append, List.length_singleton]
      omega
  | finished before during snap =>
    rw [hphase] at hprogress
    exact hprogress

/-- The `i`-th call takes a step: the others stay as they are. -/
theorem tallied_set {i : Nat} {c c' : ObserveCall D} (hc : calls[i]? = some c)
    (hvalue : c'.value = c.value) (hadded : c.phase.added = true → c'.phase.added = true)
    (htallied : c.phase.tallied = true → c'.phase.tallied = true) :
    (∀ j, now b (calls.set i c') j = now b calls j +
        if (!c.phase.added && c'.phase.added) && b.bucket c.value == j then 1 else 0) ∧
      tallied (calls.set i c') = tallied calls +
        if !c.phase.tallied && c'.phase.tallied then 1 else 0 := by
  constructor
  · intro j
    have hset := CounterReads.countP_set_of_getElem?
      (p := fun c => c.phase.added && b.bucket c.value == j) c' hc
    rw [hvalue] at hset
    simp only [now, inBox]
    revert hset hadded
    cases c.phase.added <;> cases c'.phase.added <;> cases b.bucket c.value == j <;>
      simp
  · have hset := CounterReads.countP_set_of_getElem? (p := fun c => c.phase.tallied) c' hc
    rw [tallied, tallied]
    revert hset htallied
    cases c.phase.tallied <;> cases c'.phase.tallied <;> simp

/-- What one step of a call changes. -/
theorem advance_spec [DecidableEq D] (h : Histogram fl) (c : ObserveCall D) (fails : Bool) :
    (c.advance h fails).2.value = c.value ∧
      (c.advance h fails).1.boundaries = h.boundaries ∧
      (c.advance h fails).1.buckets =
        (if !c.phase.added && (c.advance h fails).2.phase.added then
          h.buckets.modify (h.boundaries.bucket c.value) (· + 1) else h.buckets) ∧
      (c.advance h fails).1.count =
        (if !c.phase.tallied && (c.advance h fails).2.phase.tallied then h.count + 1
          else h.count) ∧
      (c.phase.added = true → (c.advance h fails).2.phase.added = true) ∧
      (c.phase.tallied = true → (c.advance h fails).2.phase.tallied = true) := by
  obtain ⟨value, phase⟩ := c
  cases phase with
  | begun => exact ⟨rfl, rfl, rfl, rfl, nofun, nofun⟩
  | bucketed => exact ⟨rfl, rfl, rfl, rfl, fun _ => rfl, nofun⟩
  | counted => exact ⟨rfl, rfl, rfl, rfl, fun _ => rfl, fun _ => rfl⟩
  | loaded oldSum =>
    rw [ObserveCall.advance]
    dsimp only
    split <;> exact ⟨rfl, rfl, rfl, rfl, fun _ => rfl, fun _ => rfl⟩
  | done => exact ⟨rfl, rfl, rfl, rfl, fun _ => rfl, fun _ => rfl⟩

theorem getD_modify {l : List UInt64} {i j : Nat} (hj : j < l.length) :
    (l.modify i (· + 1)).getD j 0 = if i = j then l.getD j 0 + 1 else l.getD j 0 := by
  simp only [List.getD_eq_getElem?_getD, List.getElem?_modify, List.getElem?_eq_getElem hj]
  split <;> rfl

/-- **A step of a call.** -/
theorem Tallied.observe [DecidableEq D] (h : s.Tallied b) {i : Nat} {c : ObserveCall D}
    (hc : s.calls[i]? = some c) (fails : Bool) :
    Tallied b
      { s with
        histogram := (c.advance s.histogram fails).1
        calls := s.calls.set i (c.advance s.histogram fails).2 } := by
  obtain ⟨hvalue, hboundaries, hbuckets, hcount, hadded, htallied⟩ :=
    advance_spec s.histogram c fails
  obtain ⟨hnow, htally⟩ := tallied_set (b := b) hc hvalue hadded htallied
  refine ⟨hboundaries.trans h.same, fun j hj => ?_, ?_, ?_⟩
  · show (c.advance s.histogram fails).1.buckets.getD j 0 = _
    have hlt : j < s.histogram.buckets.length := by
      rw [s.histogram.sized, h.same]
      exact hj
    rw [hbuckets, hnow, h.same]
    cases !c.phase.added && (c.advance s.histogram fails).2.phase.added with
    | false => exact h.buckets j hj
    | true =>
      rw [if_pos rfl, getD_modify hlt, h.buckets j hj, Bool.true_and]
      by_cases hbucket : b.bucket c.value = j
      · rw [if_pos hbucket, if_pos (beq_iff_eq.mpr hbucket)]
        exact (UInt64.ofNat_add _ 1).symm
      · rw [if_neg hbucket, if_neg fun heq => hbucket (beq_iff_eq.mp heq)]
        rfl
  · show (c.advance s.histogram fails).1.count = _
    rw [hcount, htally, h.count]
    split
    · exact (UInt64.ofNat_add _ 1).symm
    · rfl
  · refine h.progress.grow (fun j => ?_) ?_
    · rw [hnow]
      exact Nat.le_add_right ..
    · rw [htally]
      exact Nat.le_add_right ..

/-- **One step of any thread.** -/
theorem Tallied.step [DecidableEq D] (h : s.Tallied b) (x : HistogramStep D) :
    (s.step x).Tallied b := by
  cases x with
  | call value =>
    have hnow (j : Nat) : now b (s.calls ++ [⟨value, .begun⟩]) j = now b s.calls j :=
      List.countP_append.trans (Nat.add_zero _)
    have htally : tallied (s.calls ++ [⟨value, .begun⟩]) = tallied s.calls :=
      List.countP_append.trans (Nat.add_zero _)
    refine ⟨h.same, fun j hj => ?_, ?_, ?_⟩
    · exact (h.buckets j hj).trans (congrArg _ (hnow j).symm)
    · exact h.count.trans (congrArg _ htally.symm)
    · exact h.progress.grow (fun j => Nat.le_of_eq (hnow j).symm) (Nat.le_of_eq htally.symm)
  | observe i fails =>
    rw [SharedHistogram.step]
    cases hc : s.calls[i]? with
    | none => exact h
    | some c => exact h.observe hc fails
  | snapshot => exact ⟨h.same, h.buckets, h.count, h.readNext⟩

/-- **After every interleaving.** -/
theorem tallied_ofSteps [DecidableEq D] (metadata : MetricMeta) (b : Boundaries fl)
    (steps : List (HistogramStep D)) : (ofSteps metadata b steps).Tallied b := by
  have hinit : Tallied b { histogram := .create metadata b } := by
    refine ⟨rfl, fun j hj => ?_, rfl, trivial⟩
    show (List.replicate _ (0 : UInt64)).getD j 0 = _
    rw [List.getD_eq_getElem?_getD, List.getElem?_replicate, if_pos hj]
    rfl
  exact GuardedRun.run_invariant (P := Tallied b) (fun _ x h => h.step x) hinit steps

/-! ## What a snapshot says -/

/-- The bucket of a value is at or below that of a boundary, if the value is. -/
theorem bucket_le_iff (hord : fl.Ordered) (b : Boundaries fl) {i : Nat} {bound : D}
    (hi : b.values[i]? = some bound) (value : D) :
    b.bucket value ≤ i ↔ fl.le value bound = true := by
  obtain ⟨hlt, hbound⟩ := List.getElem?_eq_some_iff.mp hi
  constructor
  · intro hle
    have hfound : b.bucket value < b.values.length := Nat.lt_of_le_of_lt hle hlt
    have hat : fl.le value b.values[b.bucket value] = true :=
      List.findIdx_getElem (p := fun bound => fl.le value bound) (w := hfound)
    rcases Nat.lt_or_eq_of_le hle with hless | heq
    · have hinc := List.pairwise_iff_getElem.mp b.increasing _ _ hfound hlt hless
      exact hbound ▸ hord.le_of_le_of_lt _ _ _ hat hinc
    · subst heq
      exact hbound ▸ hat
  · intro hle
    by_contra hgt
    have := List.not_of_lt_findIdx (Nat.lt_of_not_le hgt)
    rw [hbound, hle] at this
    cases this

/-- The values in the buckets up to `i` are those that are at most its boundary. -/
theorem sum_first (hord : fl.Ordered) (b : Boundaries fl) (values : List D) {i : Nat}
    (hi : i < b.values.length + 1) :
    ((List.range (i + 1)).map (first b values)).sum = b.atMost i values := by
  rw [first, CounterReads.sum_inBox, Boundaries.atMost]
  rcases Nat.lt_or_eq_of_le (Nat.le_of_lt_succ hi) with hlt | rfl
  · rw [List.getElem?_eq_getElem hlt]
    refine List.countP_congr fun value _ => ?_
    rw [Bool.true_and, decide_eq_true_eq, Nat.lt_succ_iff]
    exact bucket_le_iff hord b (List.getElem?_eq_getElem hlt) value
  · rw [List.getElem?_eq_none (Nat.le_refl _)]
    refine List.countP_eq_length.mpr fun value _ => ?_
    rw [Bool.true_and, decide_eq_true_eq]
    exact bucket_lt b value

theorem getElem?_cumulate (a : Nat) (ns : List Nat) (i : Nat) :
    (Histogram.cumulate (UInt64.ofNat a) (ns.map UInt64.ofNat))[i]? =
      if i < ns.length then some (UInt64.ofNat (a + (ns.take (i + 1)).sum)) else none := by
  induction ns generalizing a i with
  | nil => rfl
  | cons n ns ih =>
    rw [List.map_cons, Histogram.cumulate, ← UInt64.ofNat_add]
    cases i with
    | zero => simp
    | succ i =>
      rw [List.getElem?_cons_succ, ih, List.take_succ_cons, List.sum_cons, Nat.add_assoc]
      simp only [List.length_cons, Nat.add_lt_add_iff_right]

/-- **What a snapshot says**, of the values `before` whose calls were complete when it
began, and `during` whose calls had begun when it ended. -/
structure Consistent (b : Boundaries fl) (before during : List D)
    (snap : Histogram.Snapshot D) : Prop where
  boundaries : snap.boundaries = b.values
  sized : snap.bucketCounts.length = b.values.length + 1
  increasing : snap.bucketCounts.Pairwise (· ≤ ·)
  count_le : snap.count ≤ snap.bucketCounts.getLastD 0
  between : ∀ i n, snap.bucketCounts[i]? = some n →
    b.atMost i before ≤ n.toNat ∧ n.toNat ≤ b.atMost i during
  /-- No call was under way. -/
  quiet : during = before →
    (∀ i n, snap.bucketCounts[i]? = some n → n.toNat = b.atMost i during) ∧
      snap.bucketCounts.getLastD 0 = snap.count
  /-- The percentiles stay within the arrays. -/
  estimated : ∀ q, fl.lt q (fl.ofNat 1) = true →
    JsonExporter.estimateIndexed fl snap q = some (JsonExporter.estimatePercentile fl snap q)

/-- A rank below the last count is found among the counts. -/
theorem estimated_of_count_le (hord : fl.Ordered) {snap : Histogram.Snapshot D}
    (hsized : snap.bucketCounts.length = snap.boundaries.length + 1)
    (hle : snap.count ≤ snap.bucketCounts.getLastD 0) {q : D} (hq : fl.lt q (fl.ofNat 1) = true) :
    JsonExporter.estimateIndexed fl snap q = some (JsonExporter.estimatePercentile fl snap q) := by
  refine JsonExporter.estimateIndexed_eq fl hsized fun hne => ?_
  have hpos : 0 < snap.count.toNat :=
    Nat.pos_of_ne_zero fun hzero => hne (UInt64.toNat_inj.mp hzero)
  have hrank := hord.lt_ofNat _ _ _ (hord.mul_lt q _ hq hpos snap.count.toNat_lt)
    (UInt64.le_iff_toNat_le.mp hle) (UInt64.toNat_lt _)
  have hmem : snap.bucketCounts.getLastD 0 ∈ snap.bucketCounts := by
    rw [List.getLastD_eq_getLast?, List.getLast?_eq_getElem?,
      List.getElem?_eq_getElem (by omega : snap.bucketCounts.length - 1 < _)]
    exact List.getElem_mem _
  have hmem' : fl.ofNat (snap.bucketCounts.getLastD 0).toNat ∈ snap.counts fl :=
    List.mem_map.mpr ⟨_, hmem, rfl⟩
  have hfound : JsonExporter.rankIndex fl snap q < (snap.counts fl).length :=
    List.findIdx_lt_length_of_exists ⟨_, hmem', hrank⟩
  exact Nat.lt_of_lt_of_eq hfound (List.length_map ..)

/-- The read counts, as long as none of them has wrapped. -/
theorem Progress.consistent (hord : fl.Ordered) {before during : List D}
    {snap : Histogram.Snapshot D} (h : Progress b calls (.finished before during snap))
    (hfew : during.length < 2 ^ 64) : Consistent b before during snap := by
  obtain ⟨c, ns, hcount, hbefore, hboundaries, hcounts, hlength, hreads⟩ := h
  have hall : b.atMost b.values.length during = during.length := by
    rw [Boundaries.atMost, List.getElem?_eq_none (Nat.le_refl _)]
  have hsum {i : Nat} (hi : i < b.values.length + 1) :
      b.atMost i before ≤ (ns.take (i + 1)).sum ∧ (ns.take (i + 1)).sum ≤ b.atMost i during := by
    rw [← sum_first hord b _ hi, ← sum_first hord b _ hi]
    exact hreads.sum_take (by omega)
  have htotal : ns.sum ≤ during.length := by
    have := (hsum (Nat.lt_succ_self b.values.length)).2
    rwa [hall, List.take_of_length_le (Nat.le_of_eq hlength)] at this
  have hget (i : Nat) : snap.bucketCounts[i]? =
      if i < ns.length then some (UInt64.ofNat (ns.take (i + 1)).sum) else none := by
    rw [hcounts]
    exact (getElem?_cumulate 0 ns i).trans (by rw [Nat.zero_add])
  have hread {i : Nat} {n : UInt64} (hn : snap.bucketCounts[i]? = some n) :
      i < b.values.length + 1 ∧ n.toNat = (ns.take (i + 1)).sum := by
    rw [hget] at hn
    split at hn
    · rename_i hi
      cases hn
      have hle : (ns.take (i + 1)).sum ≤ ns.sum := (List.take_sublist _ _).sum_le_sum
        fun _ _ => Nat.zero_le _
      exact ⟨hlength ▸ hi, by rw [UInt64.toNat_ofNat', Nat.mod_eq_of_lt (by omega)]⟩
    · cases hn
  have hsized : snap.bucketCounts.length = b.values.length + 1 := by
    rw [hcounts, Histogram.length_cumulate, List.length_map, hlength]
  have hlast : snap.bucketCounts.getLastD 0 = UInt64.ofNat ns.sum := by
    rw [List.getLastD_eq_getLast?, List.getLast?_eq_getElem?, hget, hsized, hlength,
      if_pos (by omega), Option.getD_some, List.take_of_length_le (by omega)]
  have hcount_le : snap.count ≤ snap.bucketCounts.getLastD 0 := by
    have hc := hreads.total_read hlength
    rw [hlast, hcount, UInt64.le_iff_toNat_le, UInt64.toNat_ofNat', UInt64.toNat_ofNat',
      Nat.mod_eq_of_lt (by omega), Nat.mod_eq_of_lt (by omega)]
    exact hc
  refine ⟨hboundaries, hsized, ?_, hcount_le, ?_, ?_, ?_⟩
  · refine List.pairwise_iff_getElem.mpr fun i j hi hj hij => ?_
    have hleft := (hread (List.getElem?_eq_getElem hi)).2
    have hright := (hread (List.getElem?_eq_getElem hj)).2
    rw [UInt64.le_iff_toNat_le, hleft, hright]
    exact (List.take_sublist_take_left (by omega)).sum_le_sum fun _ _ => Nat.zero_le _
  · intro i n hn
    obtain ⟨hi, heq⟩ := hread hn
    rw [heq]
    exact hsum hi
  · rintro rfl
    refine ⟨fun i n hn => ?_, ?_⟩
    · obtain ⟨hi, heq⟩ := hread hn
      rw [heq]
      exact Nat.le_antisymm (hsum hi).2 (hsum hi).1
    · have hc := hreads.total_read hlength
      rw [hlast, hcount]
      exact congrArg UInt64.ofNat (by omega)
  · intro q hq
    exact estimated_of_count_le hord (hsized.trans (by rw [hboundaries])) hcount_le hq

/-- **A finished snapshot is consistent**, after every interleaving with fewer than `2 ^ 64`
observations. -/
theorem finished_consistent [DecidableEq D] (hord : fl.Ordered) (metadata : MetricMeta)
    (b : Boundaries fl) (steps : List (HistogramStep D)) {before during : List D}
    {snap : Histogram.Snapshot D}
    (hfinished : (ofSteps metadata b steps).snapshot = .finished before during snap)
    (hfew : during.length < 2 ^ 64) : Consistent b before during snap := by
  have hprogress := (tallied_ofSteps metadata b steps).progress
  rw [hfinished] at hprogress
  exact hprogress.consistent hord hfew

theorem ordered_whole : Floating.whole.Ordered where
  le_of_le_of_lt a b c hab hbc := decide_eq_true
    (Int.le_of_lt (Int.lt_of_le_of_lt (of_decide_eq_true hab) (of_decide_eq_true hbc)))
  mul_lt q n hq hn _ := by
    have hq : q < 1 := of_decide_eq_true hq
    refine decide_eq_true (?_ : q * (n : Int) < n)
    have := Int.mul_le_mul_of_nonneg_right (Int.le_of_lt_add_one hq : q ≤ 0) (Int.natCast_nonneg n)
    omega
  lt_ofNat a n m ha hnm _ := by
    have ha : a < (n : Int) := of_decide_eq_true ha
    exact decide_eq_true (by omega : a < (m : Int))

/-- Two observations under way while the snapshot is taken. -/
theorem finished_consistent_overlap :
    Consistent MetricsRegistry.sizes [] [500, 2000] ⟨[1000, 1000000], [1, 2, 2], 0, 0⟩ :=
  finished_consistent ordered_whole ⟨[], [], []⟩ MetricsRegistry.sizes
    [.call 500, .observe 0 false, .snapshot, .snapshot, .observe 0 false, .call 2000,
      .observe 1 false, .snapshot, .snapshot, .snapshot, .observe 0 true, .snapshot]
    rfl (by decide)

/-! ## Without interleaving -/

section Alone
variable [DecidableEq D]

/-- The call made last takes a step. -/
theorem step_last (h : Histogram fl) (calls : List (ObserveCall D)) (c : ObserveCall D)
    (phase : SnapshotPhase D) (fails : Bool) :
    step ⟨h, calls ++ [c], phase⟩ (.observe calls.length fails) =
      ⟨(c.advance h fails).1, calls ++ [(c.advance h fails).2], phase⟩ := by
  have hlast : (calls ++ [c])[calls.length]? = some c := by
    rw [List.getElem?_append_right (Nat.le_refl _), Nat.sub_self]
    rfl
  have hset (c' : ObserveCall D) : (calls ++ [c]).set calls.length c' = calls ++ [c'] := by
    rw [List.set_append_right _ _ (Nat.le_refl _), Nat.sub_self]
    rfl
  rw [step]
  simp only [hlast, hset]

/-- **A call of `observe` that nobody interrupts is `Histogram.observe`.** -/
theorem observe_alone (h : Histogram fl) (calls : List (ObserveCall D)) (phase : SnapshotPhase D)
    (value : D) :
    GuardedRun.run step ⟨h, calls, phase⟩
        (.call value :: List.replicate 4 (.observe calls.length false)) =
      ⟨h.observe value, calls ++ [⟨value, .done⟩], phase⟩ := by
  have hcall : step ⟨h, calls, phase⟩ (.call value) = ⟨h, calls ++ [⟨value, .begun⟩], phase⟩ := rfl
  simp only [List.replicate, GuardedRun.run_cons, GuardedRun.run_nil, hcall, step_last,
    ObserveCall.advance, and_self, if_true]
  rfl

omit [DecidableEq D] in
/-- One bucket more. -/
theorem readNext_reading {m : Nat} {before : List D} {count : UInt64} {sum : D}
    (hm : m < s.histogram.buckets.length)
    (hs : s.snapshot = .reading before count sum
      (Histogram.cumulate 0 (s.histogram.buckets.take m))) :
    s.readNext =
      if m + 1 < s.histogram.buckets.length then
        .reading before count sum (Histogram.cumulate 0 (s.histogram.buckets.take (m + 1)))
      else
        .finished before (s.calls.map (·.value))
          { boundaries := s.histogram.boundaries.values
            bucketCounts := Histogram.cumulate 0 (s.histogram.buckets.take (m + 1))
            count, sum } := by
  have hlength {i : Nat} (hi : i ≤ s.histogram.buckets.length) :
      (Histogram.cumulate 0 (s.histogram.buckets.take i)).length = i := by
    rw [Histogram.length_cumulate, List.length_take_of_le hi]
  have hnext : Histogram.cumulate 0 (s.histogram.buckets.take m) ++
        [(Histogram.cumulate 0 (s.histogram.buckets.take m)).getLastD 0 +
          s.histogram.buckets.getD m 0] =
      Histogram.cumulate 0 (s.histogram.buckets.take (m + 1)) := by
    rw [List.take_succ_eq_append_getElem hm, cumulate_append, List.getD_eq_getElem?_getD,
      List.getElem?_eq_getElem hm, Option.getD_some]
  rw [readNext, hs]
  simp only [hlength (Nat.le_of_lt hm), hnext, hlength hm]

/-- The rest of the buckets, read in a row. -/
theorem reading_alone {m k : Nat} {before : List D} {count : UInt64} {sum : D}
    (hm : m + (k + 1) = s.histogram.buckets.length)
    (hs : s.snapshot = .reading before count sum
      (Histogram.cumulate 0 (s.histogram.buckets.take m))) :
    (GuardedRun.run step s (List.replicate (k + 1) .snapshot)).snapshot =
      .finished before (s.calls.map (·.value))
        { boundaries := s.histogram.boundaries.values
          bucketCounts := Histogram.cumulate 0 s.histogram.buckets, count, sum } := by
  have hnext := readNext_reading (s := s) (m := m) (by omega) hs
  induction k generalizing m s with
  | zero =>
    rw [if_neg (by omega), List.take_of_length_le (by omega)] at hnext
    exact hnext
  | succ k ih =>
    rw [if_pos (by omega)] at hnext
    have hlater : m + 1 + (k + 1) = s.histogram.buckets.length := by omega
    exact ih (s := { s with snapshot := s.readNext }) hlater hnext
      (readNext_reading (s := { s with snapshot := s.readNext }) (by dsimp only; omega) hnext)

/-- **A snapshot that nobody interrupts is `Histogram.snapshot`.** -/
theorem snapshot_alone (hidle : s.snapshot = .idle) :
    (GuardedRun.run step s (List.replicate (s.histogram.boundaries.values.length + 4)
      .snapshot)).snapshot =
      .finished ((s.calls.filter (·.phase.isDone)).map (·.value)) (s.calls.map (·.value))
        s.histogram.snapshot := by
  have hthree : GuardedRun.run step s (List.replicate (s.histogram.boundaries.values.length + 4)
      .snapshot) =
      GuardedRun.run step
        { s with
          snapshot := .reading ((s.calls.filter (·.phase.isDone)).map (·.value))
            s.histogram.count s.histogram.sum [] }
        (List.replicate (s.histogram.boundaries.values.length + 1) .snapshot) := by
    obtain ⟨h, calls, phase⟩ := s
    cases hidle
    rfl
  have hsized : 0 + (s.histogram.boundaries.values.length + 1) = s.histogram.buckets.length := by
    rw [Nat.zero_add, s.histogram.sized]
  rw [hthree]
  exact reading_alone (m := 0) hsized rfl

end Alone

/-! ## Counters of 64 bits -/

/-- `k` observations of zero, one after another. -/
def zeros (k : Nat) : List (HistogramStep Int) :=
  (List.range k).flatMap fun i => .call 0 :: List.replicate 4 (.observe i false)

theorem run_zeros (h : Histogram Floating.whole) (k : Nat) :
    GuardedRun.run step ⟨h, [], .idle⟩ (zeros k) =
      ⟨(Histogram.observe 0)^[k] h, List.replicate k ⟨0, .done⟩, .idle⟩ := by
  induction k with
  | zero => rfl
  | succ k ih =>
    have hzeros : zeros (k + 1) = zeros k ++ (.call 0 :: List.replicate 4
        (.observe (List.replicate k (⟨0, .done⟩ : ObserveCall Int)).length false)) := by
      rw [zeros, List.range_succ, List.flatMap_append, List.length_replicate]
      rfl
    rw [hzeros, GuardedRun.run_append, ih, observe_alone, Function.iterate_succ_apply',
      List.replicate_succ']

theorem observe_zeros (metadata : MetricMeta) (k : Nat) :
    ((Histogram.observe 0)^[k] (.create metadata MetricsRegistry.sizes)).boundaries =
        MetricsRegistry.sizes ∧
      ((Histogram.observe 0)^[k] (.create metadata MetricsRegistry.sizes)).buckets =
        [UInt64.ofNat k, 0, 0] := by
  induction k with
  | zero => exact ⟨rfl, rfl⟩
  | succ k ih =>
    obtain ⟨hboundaries, hbuckets⟩ := ih
    rw [Function.iterate_succ_apply']
    refine ⟨hboundaries, ?_⟩
    show List.modify _ (List.findIdx _ (Histogram.boundaries _).values) (· + 1) = _
    rw [hboundaries, hbuckets]
    exact congrArg (· :: [0, 0]) (UInt64.ofNat_add k 1).symm

/-- The snapshot after `k` observations of zero. -/
theorem snapshot_zeros (metadata : MetricMeta) (k : Nat) :
    ∃ snap, (ofSteps metadata MetricsRegistry.sizes
        (zeros k ++ List.replicate 6 .snapshot)).snapshot =
          .finished (List.replicate k 0) (List.replicate k 0) snap ∧
      snap.bucketCounts[0]? = some (UInt64.ofNat k) := by
  obtain ⟨hboundaries, hbuckets⟩ := observe_zeros metadata k
  refine ⟨((Histogram.observe 0)^[k] (.create metadata MetricsRegistry.sizes)).snapshot, ?_, ?_⟩
  · rw [ofSteps, GuardedRun.run_append, run_zeros]
    have halone := snapshot_alone (s := ⟨(Histogram.observe 0)^[k]
      (.create metadata MetricsRegistry.sizes), List.replicate k ⟨0, .done⟩, .idle⟩) rfl
    rw [List.filter_replicate_of_pos rfl, List.map_replicate, hboundaries] at halone
    exact halone
  · show (Histogram.cumulate 0 _)[0]? = _
    rw [hbuckets, Histogram.cumulate, UInt64.zero_add]
    rfl

/-- `2 ^ 64` observations are none. -/
theorem wrapped_inconsistent :
    ¬ ∀ (metadata : MetricMeta) (b : Boundaries Floating.whole) (steps : List (HistogramStep Int))
      (before during : List Int) (snap : Histogram.Snapshot Int),
      (ofSteps metadata b steps).snapshot = .finished before during snap →
        Consistent b before during snap := by
  intro h
  obtain ⟨snap, hfinished, hfirst⟩ := snapshot_zeros ⟨[], [], []⟩ (2 ^ 64)
  have hlow := ((h _ _ _ _ _ _ hfinished).between 0 _ hfirst).1
  have hall (k : Nat) : MetricsRegistry.sizes.atMost 0 (List.replicate k 0) = k :=
    List.countP_replicate.trans (if_pos rfl)
  rw [hall] at hlow
  exact absurd hlow (by decide)

end SharedHistogram
end NeuStack
