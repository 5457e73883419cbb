import NeuStack.ByteStrings
import NeuStack.GuardedRun
import NeuStack.Json
import NeuStack.Table

/-! # The metrics registry

`metric_types.hpp` and `metrics_registry.hpp`.  A metric lives in the table of its kind
under its name, and `entries` lists the names in the order of their registration.

Floating-point numbers are a parameter: a type with the operations of `double` that the
telemetry uses and the formats that it prints with.
-/
namespace NeuStack

/-- `double`.  What `snprintf` prints of a finite number is a JSON number. -/
structure Floating (D : Type) where
  ofNat : Nat → D
  /-- The literal `m / 10 ^ k`. -/
  ofScientific : Nat → Nat → D
  add : D → D → D
  sub : D → D → D
  mul : D → D → D
  div : D → D → D
  lt : D → D → Bool
  le : D → D → Bool
  isNan : D → Bool
  isInf : D → Bool
  /-- `v == std::floor(v)` -/
  isWhole : D → Bool
  fabs : D → D
  /-- `"%.0f"` -/
  print0f : D → Bytes
  /-- `"%.6g"` -/
  print6g : D → Bytes
  print0f_number : ∀ v, isNan v = false → isInf v = false → Json.isNumber (print0f v) = true
  print6g_number : ∀ v, isNan v = false → isInf v = false → Json.isNumber (print6g v) = true

/-! ## Metrics -/

structure MetricMeta where
  name : Bytes
  help : Bytes
  unit : Bytes
  deriving DecidableEq

structure Counter where
  metadata : MetricMeta
  value : UInt64 := 0
  deriving DecidableEq

def Counter.increment (delta : UInt64) (c : Counter) : Counter :=
  { c with value := c.value + delta }

structure Gauge (D : Type) where
  metadata : MetricMeta
  value : D

def Gauge.set (value : D) (g : Gauge D) : Gauge D := { g with value }

variable {D : Type} (fl : Floating D)

/-- `MAX_BUCKETS` -/
def maxBuckets : Nat := 32

/-- The boundaries that the constructor of a histogram asserts. -/
structure Boundaries where
  values : List D
  nonempty : values ≠ []
  few : values.length + 1 ≤ maxBuckets
  increasing : values.Pairwise fun a b => fl.lt a b = true

structure Histogram where
  metadata : MetricMeta
  boundaries : Boundaries fl
  buckets : List UInt64
  count : UInt64
  sum : D
  /-- One bucket for each boundary, and the one above them. -/
  sized : buckets.length = boundaries.values.length + 1

namespace Histogram
variable {fl}

/-- A new histogram. -/
def create (metadata : MetricMeta) (boundaries : Boundaries fl) : Histogram fl :=
  { metadata, boundaries
    buckets := List.replicate (boundaries.values.length + 1) 0
    count := 0
    sum := fl.ofNat 0
    sized := List.length_replicate }

/-- `observe` -/
def observe (value : D) (h : Histogram fl) : Histogram fl :=
  let idx := h.boundaries.values.findIdx fun bound => fl.le value bound
  { h with
    buckets := h.buckets.modify idx (· + 1)
    count := h.count + 1
    sum := fl.add h.sum value
    sized := (List.length_modify ..).trans h.sized }

/-- `Snapshot`; the counts of the buckets are cumulative. -/
structure Snapshot (D : Type) where
  boundaries : List D
  bucketCounts : List UInt64
  count : UInt64
  sum : D

def cumulate (cumulative : UInt64) : List UInt64 → List UInt64
  | [] => []
  | n :: rest => (cumulative + n) :: cumulate (cumulative + n) rest

theorem length_cumulate (cumulative : UInt64) (l : List UInt64) :
    (cumulate cumulative l).length = l.length := by
  induction l generalizing cumulative with
  | nil => rfl
  | cons n l ih => rw [cumulate, List.length_cons, List.length_cons, ih]

/-- `snapshot` -/
def snapshot (h : Histogram fl) : Snapshot D :=
  { boundaries := h.boundaries.values
    bucketCounts := cumulate 0 h.buckets
    count := h.count
    sum := h.sum }

end Histogram

/-! ## The registry -/

inductive MetricKind where
  | counter | gauge | histogram | bridgeGauge
  deriving DecidableEq

structure MetricEntry where
  kind : MetricKind
  name : Bytes
  deriving DecidableEq

/-- `BridgeGauge`; `callback` is what the callback returns when it is called, and nothing
if it throws. -/
structure BridgeGauge (D : Type) where
  metadata : MetricMeta
  callback : Option D

structure MetricsRegistry where
  counters : List (Bytes × Counter) := []
  gauges : List (Bytes × Gauge D) := []
  histograms : List (Bytes × Histogram fl) := []
  bridges : List (Bytes × BridgeGauge D) := []
  order : List MetricEntry := []

namespace MetricsRegistry
variable {fl} (r : MetricsRegistry fl)

def findCounter (name : Bytes) : Option Counter := r.counters.lookup name

def findGauge (name : Bytes) : Option (Gauge D) := r.gauges.lookup name

def findHistogram (name : Bytes) : Option (Histogram fl) := r.histograms.lookup name

def findBridge (name : Bytes) : Option (BridgeGauge D) := r.bridges.lookup name

def entries : List MetricEntry := r.order

/-- `if (is_new) _order.push_back({kind, name})` -/
def note (isNew : Bool) (kind : MetricKind) (name : Bytes) : MetricsRegistry fl :=
  if isNew then { r with order := r.order ++ [⟨kind, name⟩] } else r

def counter (name help unit : Bytes) : MetricsRegistry fl :=
  note { r with counters := Table.assign name { metadata := ⟨name, help, unit⟩ } r.counters }
    (r.findCounter name).isNone .counter name

def gauge (name help unit : Bytes) : MetricsRegistry fl :=
  note
    { r with
      gauges := Table.assign name { metadata := ⟨name, help, unit⟩, value := fl.ofNat 0 } r.gauges }
    (r.findGauge name).isNone .gauge name

def histogram (name help : Bytes) (boundaries : Boundaries fl) (unit : Bytes) :
    MetricsRegistry fl :=
  note
    { r with
      histograms := Table.assign name (.create ⟨name, help, unit⟩ boundaries) r.histograms }
    (r.findHistogram name).isNone .histogram name

def bridgeGauge (name help : Bytes) (callback : Option D) (unit : Bytes) : MetricsRegistry fl :=
  note
    { r with bridges := Table.assign name { metadata := ⟨name, help, unit⟩, callback } r.bridges }
    (r.findBridge name).isNone .bridgeGauge name

def clear (_ : MetricsRegistry fl) : MetricsRegistry fl := {}

end MetricsRegistry

/-! ## Runs -/

/-- A registration, or an update of what is registered under a name. -/
inductive RegistryOp where
  | counter (name help unit : Bytes)
  | gauge (name help unit : Bytes)
  | histogram (name help : Bytes) (boundaries : Boundaries fl) (unit : Bytes)
  | bridgeGauge (name help : Bytes) (callback : Option D) (unit : Bytes)
  | increment (name : Bytes) (delta : UInt64)
  | set (name : Bytes) (value : D)
  | observe (name : Bytes) (value : D)
  | returns (name : Bytes) (result : Option D)
  | clear

namespace MetricsRegistry
variable {fl}

def step (r : MetricsRegistry fl) : RegistryOp fl → MetricsRegistry fl
  | .counter name help unit => r.counter name help unit
  | .gauge name help unit => r.gauge name help unit
  | .histogram name help boundaries unit => r.histogram name help boundaries unit
  | .bridgeGauge name help callback unit => r.bridgeGauge name help callback unit
  | .increment name delta => { r with counters := Table.modify name (·.increment delta) r.counters }
  | .set name value => { r with gauges := Table.modify name (·.set value) r.gauges }
  | .observe name value =>
    { r with histograms := Table.modify name (·.observe value) r.histograms }
  | .returns name result =>
    { r with bridges := Table.modify name (fun b => { b with callback := result }) r.bridges }
  | .clear => r.clear

/-- Whether there is a metric of a kind under a name. -/
def registered (r : MetricsRegistry fl) (e : MetricEntry) : Bool :=
  match e.kind with
  | .counter => (r.findCounter e.name).isSome
  | .gauge => (r.findGauge e.name).isSome
  | .histogram => (r.findHistogram e.name).isSome
  | .bridgeGauge => (r.findBridge e.name).isSome

/-- **The entries are the metrics**, each once. -/
structure Indexed (r : MetricsRegistry fl) : Prop where
  nodup : r.order.Nodup
  mem_iff : ∀ e, e ∈ r.order ↔ r.registered e = true

variable {r r' : MetricsRegistry fl}

theorem Indexed.init : ({} : MetricsRegistry fl).Indexed where
  nodup := List.nodup_nil
  mem_iff e := by
    obtain ⟨kind, name⟩ := e
    cases kind <;> exact ⟨nofun, nofun⟩

theorem Indexed.congr (h : r.Indexed) (horder : r'.order = r.order)
    (hregistered : ∀ e, r'.registered e = r.registered e) : r'.Indexed where
  nodup := by rw [horder]; exact h.nodup
  mem_iff e := by rw [horder, hregistered]; exact h.mem_iff e

theorem note_registered (isNew : Bool) (kind : MetricKind) (name : Bytes) (e : MetricEntry) :
    (r.note isNew kind name).registered e = r.registered e := by
  rw [note]
  split <;> rfl

/-- Whatever is registered has an entry, also what was not registered before. -/
theorem Indexed.registration (h : r.Indexed) {kind : MetricKind} {name : Bytes}
    (hregistered : ∀ e, r'.registered e = true ↔ e = ⟨kind, name⟩ ∨ r.registered e = true)
    (horder : r'.order = r.order) {isNew : Bool} (hnew : isNew = !r.registered ⟨kind, name⟩) :
    (r'.note isNew kind name).Indexed := by
  cases hold : r.registered ⟨kind, name⟩ with
  | true =>
    refine h.congr ?_ fun e => ?_
    · rw [note, hnew, hold]
      exact horder
    · rw [note_registered, Bool.eq_iff_iff, hregistered]
      exact ⟨fun he => he.elim (fun heq => heq ▸ hold) id, Or.inr⟩
  | false =>
    have hfresh : ⟨kind, name⟩ ∉ r.order := fun hmem =>
      absurd ((h.mem_iff _).mp hmem) (by rw [hold]; exact Bool.false_ne_true)
    have hentries : (r'.note isNew kind name).order = r.order ++ [⟨kind, name⟩] := by
      rw [note, hnew, hold, ← horder]
      rfl
    constructor
    · rw [hentries]
      exact List.nodup_append.mpr ⟨h.nodup, List.nodup_singleton _, fun a ha b hb => by
        rw [List.mem_singleton.mp hb]
        rintro rfl
        exact hfresh ha⟩
    · intro e
      rw [hentries, note_registered, hregistered, List.mem_append, List.mem_singleton, h.mem_iff]
      exact or_comm

theorem isNone_eq {α : Type} (x : Option α) : x.isNone = !x.isSome := by cases x <;> rfl

theorem isSome_assign {κ ν : Type} [BEq κ] [LawfulBEq κ] [DecidableEq κ] (k k' : κ) (v : ν)
    (l : List (κ × ν)) :
    ((Table.assign k v l).lookup k').isSome = true ↔ k' = k ∨ (l.lookup k').isSome = true := by
  rw [Table.lookup_assign]
  split
  · rename_i hk
    exact ⟨fun _ => Or.inl hk, fun _ => rfl⟩
  · rename_i hk
    exact ⟨Or.inr, fun h => h.resolve_left hk⟩

theorem isSome_modify {κ ν : Type} [BEq κ] [LawfulBEq κ] [DecidableEq κ] (k k' : κ) (f : ν → ν)
    (l : List (κ × ν)) : ((Table.modify k f l).lookup k').isSome = (l.lookup k').isSome := by
  rw [Table.lookup_modify]
  split
  · exact Option.isSome_map
  · rfl

/-- A metric of one kind leaves those of the other kinds, and those of other names. -/
theorem registered_iff {kind : MetricKind} {name : Bytes}
    (hname : ∀ name', r'.registered ⟨kind, name'⟩ = true ↔
      name' = name ∨ r.registered ⟨kind, name'⟩ = true)
    (hkind : ∀ kind' name', kind' ≠ kind →
      r'.registered ⟨kind', name'⟩ = r.registered ⟨kind', name'⟩) (e : MetricEntry) :
    r'.registered e = true ↔ e = ⟨kind, name⟩ ∨ r.registered e = true := by
  obtain ⟨kind', name'⟩ := e
  by_cases heq : kind' = kind
  · subst heq
    rw [hname, MetricEntry.mk.injEq, eq_self, true_and]
  · rw [hkind kind' name' heq, MetricEntry.mk.injEq]
    exact ⟨Or.inr, fun he => he.resolve_left fun heq' => heq heq'.1⟩

theorem Indexed.step (h : r.Indexed) (x : RegistryOp fl) : (r.step x).Indexed := by
  cases x with
  | counter | gauge | histogram | bridgeGauge =>
    refine h.registration (registered_iff ?_ ?_) ?_ ?_
    · exact fun name' => isSome_assign ..
    · intro kind' _ hkind
      cases kind' <;> first | rfl | exact absurd rfl hkind
    · rfl
    · exact isNone_eq _
  | increment name delta =>
    refine h.congr rfl fun ⟨kind, name'⟩ => ?_
    cases kind <;> first | rfl | exact isSome_modify name name' _ r.counters
  | set name value =>
    refine h.congr rfl fun ⟨kind, name'⟩ => ?_
    cases kind <;> first | rfl | exact isSome_modify name name' _ r.gauges
  | observe name value =>
    refine h.congr rfl fun ⟨kind, name'⟩ => ?_
    cases kind <;> first | rfl | exact isSome_modify name name' _ r.histograms
  | returns name result =>
    refine h.congr rfl fun ⟨kind, name'⟩ => ?_
    cases kind <;> first
      | rfl
      | exact isSome_modify name name' (fun b => { b with callback := result }) r.bridges
  | clear => exact .init

/-- The registry after a sequence of operations. -/
def ofOps (xs : List (RegistryOp fl)) : MetricsRegistry fl := GuardedRun.run step {} xs

/-- **In every run the entries are the metrics.** -/
theorem indexed_run (xs : List (RegistryOp fl)) : (ofOps xs).Indexed := by
  have hstep : ∀ (r : MetricsRegistry fl) (x : RegistryOp fl), r.Indexed → (r.step x).Indexed :=
    fun _ x h => h.step x
  exact GuardedRun.run_invariant hstep Indexed.init xs

end MetricsRegistry
end NeuStack
