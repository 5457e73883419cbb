import NeuStack.OwningMap
import NeuStack.PrometheusExport
import Mathlib.Data.List.Induction
import Mathlib.Data.List.Pairwise

/-! # References into the metrics registry

The registry of `metrics_registry.hpp` with its pointers: `counter`, `gauge` and `histogram`
put a new object under the name, destroy the one that was there, and return a reference to
the new one.  An object is known by its number, which no later object of the kind gets.

Seen by its values the registry is the `MetricsRegistry` that the exporters read
(`values_step`).  A reference stays valid if and only if no later registration has its kind
and name (`referencesValid_iff`).
-/
namespace NeuStack

/-- An object that a reference can denote. -/
inductive Metric {D : Type} (fl : Floating D) where
  | counter (c : Counter)
  | gauge (g : Gauge D)
  | histogram (h : Histogram fl)

variable {D : Type} (fl : Floating D)

/-- `MetricsRegistry`, with its maps of owning pointers. -/
structure RegistryStore where
  counters : OwningMap Bytes Counter := {}
  gauges : OwningMap Bytes (Gauge D) := {}
  histograms : OwningMap Bytes (Histogram fl) := {}
  bridges : List (Bytes × BridgeGauge D) := []
  order : List MetricEntry := []

namespace RegistryStore
variable {fl} (r : RegistryStore fl)

/-- The registry by its values, as the exporters read it. -/
def values : MetricsRegistry fl where
  counters := r.counters.values
  gauges := r.gauges.values
  histograms := r.histograms.values
  bridges := r.bridges
  order := r.order

/-- `if (is_new) _order.push_back({kind, name})` -/
def note (isNew : Bool) (kind : MetricKind) (name : Bytes) : RegistryStore fl :=
  if isNew then { r with order := r.order ++ [⟨kind, name⟩] } else r

/-- `counter`, and the reference that it returns. -/
def counter (name help unit : Bytes) : Nat × RegistryStore fl :=
  (r.counters.created,
    note { r with counters := r.counters.emplace name { metadata := ⟨name, help, unit⟩ } }
      (r.counters.find name).isNone .counter name)

def gauge (name help unit : Bytes) : Nat × RegistryStore fl :=
  (r.gauges.created,
    note
      { r with
        gauges := r.gauges.emplace name { metadata := ⟨name, help, unit⟩, value := fl.ofNat 0 } }
      (r.gauges.find name).isNone .gauge name)

def histogram (name help : Bytes) (boundaries : Boundaries fl) (unit : Bytes) :
    Nat × RegistryStore fl :=
  (r.histograms.created,
    note
      { r with histograms := r.histograms.emplace name (.create ⟨name, help, unit⟩ boundaries) }
      (r.histograms.find name).isNone .histogram name)

/-- `bridge_gauge`, which returns nothing. -/
def bridgeGauge (name help : Bytes) (callback : Option D) (unit : Bytes) : RegistryStore fl :=
  note { r with bridges := Table.assign name { metadata := ⟨name, help, unit⟩, callback } r.bridges }
    (r.bridges.lookup name).isNone .bridgeGauge name

/-- `find_counter`, `find_gauge` and `find_histogram`, as pointers. -/
def find (e : MetricEntry) : Option Nat :=
  match e.kind with
  | .counter => r.counters.find e.name
  | .gauge => r.gauges.find e.name
  | .histogram => r.histograms.find e.name
  | .bridgeGauge => none

/-- The object that a reference of a kind denotes, if it exists. -/
def denotes (kind : MetricKind) (p : Nat) : Option (Metric fl) :=
  match kind with
  | .counter => (r.counters.get p).map .counter
  | .gauge => (r.gauges.get p).map .gauge
  | .histogram => (r.histograms.get p).map .histogram
  | .bridgeGauge => none

/-- How many objects of a kind were made. -/
def created : MetricKind → Nat
  | .counter => r.counters.created
  | .gauge => r.gauges.created
  | .histogram => r.histograms.created
  | .bridgeGauge => 0

end RegistryStore

/-- What an exporter reads for an entry that is not a bridge. -/
def MetricsRegistry.exported {fl : Floating D} (r : MetricsRegistry fl) (e : MetricEntry) :
    Option (Metric fl) :=
  match e.kind with
  | .counter => (r.findCounter e.name).map .counter
  | .gauge => (r.findGauge e.name).map .gauge
  | .histogram => (r.findHistogram e.name).map .histogram
  | .bridgeGauge => none

/-- A registration, or an update through a reference. -/
inductive ReferenceOp where
  | counter (name help unit : Bytes)
  | gauge (name help unit : Bytes)
  | histogram (name help : Bytes) (boundaries : Boundaries fl) (unit : Bytes)
  | bridgeGauge (name help : Bytes) (callback : Option D) (unit : Bytes)
  | increment (ref : Nat) (delta : UInt64)
  | set (ref : Nat) (value : D)
  | add (ref : Nat) (delta : D)
  | subtract (ref : Nat) (delta : D)
  | observe (ref : Nat) (value : D)

namespace ReferenceOp
variable {fl}

/-- What an operation registers. -/
def registers : ReferenceOp fl → Option MetricEntry
  | .counter name _ _ => some ⟨.counter, name⟩
  | .gauge name _ _ => some ⟨.gauge, name⟩
  | .histogram name _ _ _ => some ⟨.histogram, name⟩
  | .bridgeGauge name _ _ _ => some ⟨.bridgeGauge, name⟩
  | _ => none

/-- What an operation returns a reference to. -/
def refersTo (op : ReferenceOp fl) : Option MetricEntry :=
  op.registers.filter (·.kind ≠ .bridgeGauge)

end ReferenceOp

/-- A registry, and the references it returned, the latest first. -/
structure RegistryUse where
  registry : RegistryStore fl := {}
  references : List (MetricEntry × Nat) := []

namespace RegistryUse
variable {fl} (u : RegistryUse fl)

/-- The registry after a registration, whose reference is kept. -/
def keep (e : MetricEntry) (x : Nat × RegistryStore fl) : RegistryUse fl :=
  ⟨x.2, (e, x.1) :: u.references⟩

def step (u : RegistryUse fl) : ReferenceOp fl → RegistryUse fl
  | .counter name help unit => u.keep ⟨.counter, name⟩ (u.registry.counter name help unit)
  | .gauge name help unit => u.keep ⟨.gauge, name⟩ (u.registry.gauge name help unit)
  | .histogram name help boundaries unit =>
    u.keep ⟨.histogram, name⟩ (u.registry.histogram name help boundaries unit)
  | .bridgeGauge name help callback unit =>
    { u with registry := u.registry.bridgeGauge name help callback unit }
  | .increment ref delta =>
    { u with registry.counters := u.registry.counters.update ref (·.increment delta) }
  | .set ref value => { u with registry.gauges := u.registry.gauges.update ref (·.set value) }
  | .add ref delta =>
    { u with
      registry.gauges := u.registry.gauges.update ref fun g => g.set (fl.add g.value delta) }
  | .subtract ref delta =>
    { u with
      registry.gauges := u.registry.gauges.update ref fun g => g.set (fl.sub g.value delta) }
  | .observe ref value =>
    { u with registry.histograms := u.registry.histograms.update ref (·.observe value) }

/-- The registry and its references after a sequence of operations. -/
def ofOps (ops : List (ReferenceOp fl)) : RegistryUse fl := GuardedRun.run step {} ops

/-- **The references are good**, after the operations `ops`. -/
structure ReferencesValid (u : RegistryUse fl) (ops : List (ReferenceOp fl)) : Prop where
  /-- Each denotes an object that exists, and that the registry owns. -/
  alive : ∀ x ∈ u.references, (u.registry.denotes x.1.kind x.2).isSome = true ∧
    ∃ name, u.registry.find ⟨x.1.kind, name⟩ = some x.2
  /-- The latest of a name denotes what is found and exported under it. -/
  latest : ∀ later x earlier, u.references = later ++ x :: earlier → (∀ y ∈ later, y.1 ≠ x.1) →
    u.registry.find x.1 = some x.2 ∧
      u.registry.values.exported x.1 = u.registry.denotes x.1.kind x.2
  /-- The entries are what was registered, each once and in the order of first registration. -/
  listed : u.registry.values.entries = (ops.filterMap (·.registers)).eraseDups
  resolved : ∀ e ∈ u.registry.values.entries, u.registry.values.registered e = true

/-! ## What the references denote -/

/-- The invariant: what is found under a name is the latest reference to it. -/
structure Tracked (u : RegistryUse fl) : Prop where
  counters : u.registry.counters.Owns
  gauges : u.registry.gauges.Owns
  histograms : u.registry.histograms.Owns
  found : ∀ e, u.registry.find e = u.references.lookup e
  old : ∀ x ∈ u.references, x.2 < u.registry.created x.1.kind
  distinct : u.references.Pairwise fun x y => x.1.kind = y.1.kind → x.2 ≠ y.2

end RegistryUse

section Note
variable {fl : Floating D} {r : RegistryStore fl} {isNew : Bool} {kind : MetricKind} {name : Bytes}

theorem RegistryStore.note_values :
    (r.note isNew kind name).values = r.values.note isNew kind name := by
  rw [RegistryStore.note, MetricsRegistry.note]
  split <;> rfl

end Note

namespace RegistryUse
variable {fl} {u : RegistryUse fl}

theorem Tracked.init : Tracked ({} : RegistryUse fl) where
  counters := .init
  gauges := .init
  histograms := .init
  found e := by
    obtain ⟨kind, name⟩ := e
    cases kind <;> rfl
  old := nofun
  distinct := List.Pairwise.nil

theorem Tracked.note {isNew : Bool} {kind : MetricKind} {name : Bytes} (h : u.Tracked) :
    ({ u with registry := u.registry.note isNew kind name } : RegistryUse fl).Tracked := by
  rw [RegistryStore.note]
  split
  · exact ⟨h.counters, h.gauges, h.histograms, h.found, h.old, h.distinct⟩
  · exact h

/-- A registration that makes an object of the kind and puts it under the name. -/
theorem Tracked.keep (h : u.Tracked) {e : MetricEntry} {r : RegistryStore fl}
    (hcounters : r.counters.Owns) (hgauges : r.gauges.Owns) (hhistograms : r.histograms.Owns)
    (hfind : ∀ e', r.find e' = if e' = e then some (u.registry.created e.kind)
      else u.registry.find e')
    (hcreated : ∀ kind, r.created kind = u.registry.created kind + if kind = e.kind then 1 else 0) :
    (u.keep e (u.registry.created e.kind, r)).Tracked where
  counters := hcounters
  gauges := hgauges
  histograms := hhistograms
  found e' := by
    show r.find e' = ((e, u.registry.created e.kind) :: u.references).lookup e'
    rw [hfind, List.lookup_cons]
    by_cases he : e' = e
    · rw [if_pos he, beq_iff_eq.mpr he]
    · rw [if_neg he, beq_eq_false_iff_ne.mpr he]
      exact h.found e'
  old := by
    refine List.forall_mem_cons.mpr ⟨?_, fun x hx => ?_⟩
    · show u.registry.created e.kind < r.created e.kind
      rw [hcreated, if_pos rfl]
      exact Nat.lt_succ_self _
    · show x.2 < r.created x.1.kind
      rw [hcreated]
      exact Nat.lt_add_right _ (h.old x hx)
  distinct := by
    refine List.pairwise_cons.mpr ⟨fun x hx hkind => ?_, h.distinct⟩
    have := h.old x hx
    rw [← hkind] at this
    exact Nat.ne_of_gt this

/-- What is found after an object of a kind got a name. -/
theorem find_of_kind {r r' : RegistryStore fl} {kind : MetricKind} {name : Bytes} {p : Nat}
    (hkind : ∀ name', r'.find ⟨kind, name'⟩ = if name' = name then some p else r.find ⟨kind, name'⟩)
    (hother : ∀ kind' name', kind' ≠ kind → r'.find ⟨kind', name'⟩ = r.find ⟨kind', name'⟩)
    (e : MetricEntry) : r'.find e = if e = ⟨kind, name⟩ then some p else r.find e := by
  obtain ⟨kind', name'⟩ := e
  simp only [MetricEntry.mk.injEq]
  by_cases hk : kind' = kind
  · subst hk
    simp only [true_and]
    exact hkind name'
  · rw [if_neg fun h => hk h.1]
    exact hother kind' name' hk

/-- **One operation.** -/
theorem Tracked.step (h : u.Tracked) (op : ReferenceOp fl) : (u.step op).Tracked := by
  cases op with
  | counter name help unit =>
    refine (h.keep (e := ⟨.counter, name⟩)
      (r := { u.registry with counters := u.registry.counters.emplace name _ })
      (h.counters.emplace _ _) h.gauges h.histograms (find_of_kind ?_ ?_) ?_).note
    · exact fun name' => OwningMap.find_emplace name'
    · intro kind' name' hkind
      cases kind' <;> first | rfl | exact absurd rfl hkind
    · intro kind
      cases kind <;> rfl
  | gauge name help unit =>
    refine (h.keep (e := ⟨.gauge, name⟩)
      (r := { u.registry with gauges := u.registry.gauges.emplace name _ })
      h.counters (h.gauges.emplace _ _) h.histograms (find_of_kind ?_ ?_) ?_).note
    · exact fun name' => OwningMap.find_emplace name'
    · intro kind' name' hkind
      cases kind' <;> first | rfl | exact absurd rfl hkind
    · intro kind
      cases kind <;> rfl
  | histogram name help boundaries unit =>
    refine (h.keep (e := ⟨.histogram, name⟩)
      (r := { u.registry with histograms := u.registry.histograms.emplace name _ })
      h.counters h.gauges (h.histograms.emplace _ _) (find_of_kind ?_ ?_) ?_).note
    · exact fun name' => OwningMap.find_emplace name'
    · intro kind' name' hkind
      cases kind' <;> first | rfl | exact absurd rfl hkind
    · intro kind
      cases kind <;> rfl
  | bridgeGauge name help callback unit =>
    refine Tracked.note (u := { u with registry.bridges := _ }) ?_
    exact ⟨h.counters, h.gauges, h.histograms, h.found, h.old, h.distinct⟩
  | increment ref delta =>
    exact ⟨h.counters.update _ _, h.gauges, h.histograms, h.found, h.old, h.distinct⟩
  | set ref value | add ref value | subtract ref value =>
    exact ⟨h.counters, h.gauges.update _ _, h.histograms, h.found, h.old, h.distinct⟩
  | observe ref value =>
    exact ⟨h.counters, h.gauges, h.histograms.update _ _, h.found, h.old, h.distinct⟩

/-- **After every sequence of operations.** -/
theorem tracked (ops : List (ReferenceOp fl)) : (ofOps ops).Tracked :=
  GuardedRun.run_invariant (P := Tracked) (fun _ op h => h.step op) Tracked.init ops

/-! ## By the values -/

/-- A change of a gauge sets it to something. -/
theorem Tracked.values_gauge (h : u.Tracked) (ref : Nat) {f : Gauge D → Gauge D}
    (hf : ∀ g, ∃ value, f g = g.set value) {r : RegistryStore fl}
    (hr : r = { u.registry with gauges := u.registry.gauges.update ref f }) :
    r.values = u.registry.values ∨ ∃ x, r.values = u.registry.values.step x := by
  subst hr
  rcases h.gauges.values_update_cases ref f with hsame | ⟨k, g, hmod⟩
  · exact Or.inl (congrArg (fun l => { u.registry.values with gauges := l }) hsame)
  · obtain ⟨value, hvalue⟩ := hf g
    exact Or.inr ⟨.set k value,
      congrArg (fun l => { u.registry.values with gauges := l }) (hmod (·.set value) hvalue.symm)⟩

/-- **One operation, as the exporters see it**: it is one of the `MetricsRegistry`, or
changes an object that is gone. -/
theorem Tracked.values_step (h : u.Tracked) (op : ReferenceOp fl) :
    (u.step op).registry.values = u.registry.values ∨
      ∃ x, (u.step op).registry.values = u.registry.values.step x := by
  cases op with
  | counter name help unit =>
    refine Or.inr ⟨.counter name help unit, RegistryStore.note_values.trans ?_⟩
    show MetricsRegistry.note { u.registry.values with counters := _ } _ _ _ = _
    rw [h.counters.values_emplace, ← h.counters.isNone_lookup]
    rfl
  | gauge name help unit =>
    refine Or.inr ⟨.gauge name help unit, RegistryStore.note_values.trans ?_⟩
    show MetricsRegistry.note { u.registry.values with gauges := _ } _ _ _ = _
    rw [h.gauges.values_emplace, ← h.gauges.isNone_lookup]
    rfl
  | histogram name help boundaries unit =>
    refine Or.inr ⟨.histogram name help boundaries unit, RegistryStore.note_values.trans ?_⟩
    show MetricsRegistry.note { u.registry.values with histograms := _ } _ _ _ = _
    rw [h.histograms.values_emplace, ← h.histograms.isNone_lookup]
    rfl
  | bridgeGauge name help callback unit =>
    exact Or.inr ⟨.bridgeGauge name help callback unit, RegistryStore.note_values⟩
  | increment ref delta =>
    rcases h.counters.values_update_cases ref (·.increment delta) with hsame | ⟨k, c, hmod⟩
    · exact Or.inl (congrArg (fun l => { u.registry.values with counters := l }) hsame)
    · exact Or.inr ⟨.increment k delta,
        congrArg (fun l => { u.registry.values with counters := l }) (hmod _ rfl)⟩
  | set ref value => exact h.values_gauge ref (fun _ => ⟨_, rfl⟩) rfl
  | add ref delta => exact h.values_gauge ref (fun _ => ⟨_, rfl⟩) rfl
  | subtract ref delta => exact h.values_gauge ref (fun _ => ⟨_, rfl⟩) rfl
  | observe ref value =>
    rcases h.histograms.values_update_cases ref (·.observe value) with hsame | ⟨k, x, hmod⟩
    · exact Or.inl (congrArg (fun l => { u.registry.values with histograms := l }) hsame)
    · exact Or.inr ⟨.observe k value,
        congrArg (fun l => { u.registry.values with histograms := l }) (hmod _ rfl)⟩

/-- **The registry with its pointers is a run of the registry by values.** -/
theorem values_run (ops : List (ReferenceOp fl)) :
    ∃ xs, (ofOps ops).registry.values = MetricsRegistry.ofOps xs := by
  have hstep : ∀ (u : RegistryUse fl) (op : ReferenceOp fl),
      (u.Tracked ∧ ∃ xs, u.registry.values = MetricsRegistry.ofOps xs) →
      (u.step op).Tracked ∧ ∃ xs, (u.step op).registry.values = MetricsRegistry.ofOps xs := by
    rintro u op ⟨h, xs, hxs⟩
    refine ⟨h.step op, ?_⟩
    rcases h.values_step op with hsame | ⟨x, hx⟩
    · exact ⟨xs, hsame.trans hxs⟩
    · refine ⟨xs ++ [x], ?_⟩
      rw [hx, hxs, MetricsRegistry.ofOps, MetricsRegistry.ofOps, GuardedRun.run_append]
      rfl
  exact (GuardedRun.run_invariant hstep ⟨Tracked.init, [], rfl⟩ ops).2

/-! ## Which references are good -/

/-- Exporters read what is found. -/
theorem Tracked.exported_eq (h : u.Tracked) (e : MetricEntry) :
    u.registry.values.exported e = (u.registry.find e).bind (u.registry.denotes e.kind) := by
  obtain ⟨kind, name⟩ := e
  cases kind with
  | counter =>
    show ((u.registry.counters.values).lookup name).map _ = _
    rw [h.counters.lookup_values, Option.map_bind]
    rfl
  | gauge =>
    show ((u.registry.gauges.values).lookup name).map _ = _
    rw [h.gauges.lookup_values, Option.map_bind]
    rfl
  | histogram =>
    show ((u.registry.histograms.values).lookup name).map _ = _
    rw [h.histograms.lookup_values, Option.map_bind]
    rfl
  | bridgeGauge => rfl

/-- What is found exists. -/
theorem Tracked.denotes_isSome (h : u.Tracked) {e : MetricEntry} {p : Nat}
    (hp : u.registry.find e = some p) : (u.registry.denotes e.kind p).isSome = true := by
  obtain ⟨kind, name⟩ := e
  cases kind with
  | counter => exact Option.isSome_map.trans ((h.counters.exists_iff p).mpr ⟨name, hp⟩)
  | gauge => exact Option.isSome_map.trans ((h.gauges.exists_iff p).mpr ⟨name, hp⟩)
  | histogram => exact Option.isSome_map.trans ((h.histograms.exists_iff p).mpr ⟨name, hp⟩)
  | bridgeGauge => cases hp

/-- A reference that the registry still owns is what is found under its own name. -/
theorem Tracked.find_of_owned (h : u.Tracked) {x : MetricEntry × Nat} (hx : x ∈ u.references)
    {name : Bytes} (hname : u.registry.find ⟨x.1.kind, name⟩ = some x.2) :
    u.registry.find x.1 = some x.2 := by
  have hmem : (⟨x.1.kind, name⟩, x.2) ∈ u.references :=
    Table.mem_of_lookup ((h.found _).symm.trans hname)
  have hsymm : Std.Symm fun x y : MetricEntry × Nat => x.1.kind = y.1.kind → x.2 ≠ y.2 :=
    ⟨fun _ _ hxy hkind => (hxy hkind.symm).symm⟩
  have hsame : (⟨x.1.kind, name⟩, x.2) = x := by
    by_contra hne
    exact h.distinct.forall hmem hx hne rfl rfl
  have hkey : (⟨x.1.kind, name⟩ : MetricEntry) = x.1 := congrArg Prod.fst hsame
  rw [← hkey]
  exact hname

/-- **All references are alive if and only if no name was registered twice.** -/
theorem Tracked.alive_iff (h : u.Tracked) :
    (∀ x ∈ u.references, (u.registry.denotes x.1.kind x.2).isSome = true ∧
      ∃ name, u.registry.find ⟨x.1.kind, name⟩ = some x.2) ↔ (u.references.map (·.1)).Nodup := by
  constructor
  · intro halive
    refine List.pairwise_map.mpr (h.distinct.imp_of_mem fun {x y} hx hy hxy heq => ?_)
    obtain ⟨-, _, hname⟩ := halive x hx
    obtain ⟨-, _, hname'⟩ := halive y hy
    have hfound := h.find_of_owned hx hname
    rw [heq, h.find_of_owned hy hname'] at hfound
    exact hxy (congrArg (·.kind) heq) (Option.some.inj hfound).symm
  · intro hnodup x hx
    have hfound : u.registry.find x.1 = some x.2 :=
      (h.found x.1).trans ((Table.lookup_iff hnodup).mpr hx)
    exact ⟨h.denotes_isSome hfound, x.1.name, hfound⟩

/-- The latest reference to a name is what is found under it. -/
theorem Tracked.find_latest (h : u.Tracked) {later earlier : List (MetricEntry × Nat)}
    {x : MetricEntry × Nat} (hrefs : u.references = later ++ x :: earlier)
    (hlatest : ∀ y ∈ later, y.1 ≠ x.1) : u.registry.find x.1 = some x.2 := by
  rw [h.found, hrefs, List.lookup_append, List.lookup_eq_none_iff.mpr fun y hy => ?_]
  · rw [Option.none_or, List.lookup_cons, beq_self_eq_true]
  · exact bne_iff_ne.mpr (hlatest y hy).symm

/-! ## The entries -/

theorem step_references (op : ReferenceOp fl) :
    ((u.step op).references.map (·.1)) = op.refersTo.toList ++ u.references.map (·.1) := by
  cases op <;> rfl

theorem note_order {r : RegistryStore fl} (hindexed : r.values.Indexed) {r' : RegistryStore fl}
    (horder : r'.order = r.order) {isNew : Bool} {kind : MetricKind} {name : Bytes}
    (hnew : isNew = !r.values.registered ⟨kind, name⟩) :
    (r'.note isNew kind name).order = r.order ++ [⟨kind, name⟩].removeAll r.order := by
  have hmem : r.order.elem ⟨kind, name⟩ = r.values.registered ⟨kind, name⟩ := by
    rw [Bool.eq_iff_iff, List.elem_iff]
    exact hindexed.mem_iff _
  rw [RegistryStore.note, hnew, ← hmem, List.removeAll, List.filter_cons, List.filter_nil]
  split
  · exact congrArg (· ++ _) horder
  · rw [List.append_nil]
    exact horder

/-- A registration that is new is listed. -/
theorem Tracked.step_order (h : u.Tracked) (hindexed : u.registry.values.Indexed)
    (op : ReferenceOp fl) :
    (u.step op).registry.order =
      u.registry.order ++ op.registers.toList.removeAll u.registry.order := by
  cases op with
  | counter name =>
    refine note_order hindexed ?_ ?_
    · rfl
    · rw [← h.counters.isNone_lookup]
      exact MetricsRegistry.isNone_eq _
  | gauge name =>
    refine note_order hindexed ?_ ?_
    · rfl
    · rw [← h.gauges.isNone_lookup]
      exact MetricsRegistry.isNone_eq _
  | histogram name =>
    refine note_order hindexed ?_ ?_
    · rfl
    · rw [← h.histograms.isNone_lookup]
      exact MetricsRegistry.isNone_eq _
  | bridgeGauge name =>
    refine note_order hindexed ?_ ?_
    · rfl
    · exact MetricsRegistry.isNone_eq _
  | _ => exact (List.append_nil _).symm

/-- The first occurrences, when one more may come. -/
theorem eraseDups_append_toList {α : Type} [BEq α] [LawfulBEq α] (l : List α) (o : Option α) :
    (l ++ o.toList).eraseDups = l.eraseDups ++ o.toList.removeAll l.eraseDups := by
  rw [List.eraseDups_append]
  refine congrArg _ ?_
  cases o with
  | none => rfl
  | some a =>
    rw [Option.toList_some, List.cons_removeAll, List.cons_removeAll]
    simp only [List.contains_eq_mem, List.mem_eraseDups, List.nil_removeAll]
    split <;> rfl

/-- What the operations left behind: the entries, and the references that they returned. -/
theorem ofOps_listed (ops : List (ReferenceOp fl)) :
    (ofOps ops).registry.order = (ops.filterMap (·.registers)).eraseDups ∧
      (ofOps ops).references.map (·.1) = (ops.filterMap (·.refersTo)).reverse := by
  induction ops using List.reverseRecOn with
  | nil => exact ⟨rfl, rfl⟩
  | append_singleton ops op ih =>
    obtain ⟨horder, hrefs⟩ := ih
    have hstep : ofOps (ops ++ [op]) = (ofOps ops).step op := GuardedRun.run_append ..
    obtain ⟨xs, hxs⟩ := values_run ops
    have hindexed : (ofOps ops).registry.values.Indexed := by
      rw [hxs]
      exact MetricsRegistry.indexed_run xs
    constructor
    · rw [hstep, (tracked ops).step_order hindexed, horder, List.filterMap_append,
        ← eraseDups_append_toList]
      cases hop : op.registers with
      | none => rw [List.filterMap_cons_none hop]; rfl
      | some e => rw [List.filterMap_cons_some hop]; rfl
    · rw [hstep, step_references, hrefs, List.filterMap_append, List.reverse_append]
      cases hop : op.refersTo with
      | none => rw [List.filterMap_cons_none hop]; rfl
      | some e => rw [List.filterMap_cons_some hop]; rfl

/-- **Which references stay valid.**  The entries and the latest references are good after
every sequence of operations; all the references are, if and only if no counter, gauge or
histogram was registered again under its name. -/
theorem referencesValid_iff (ops : List (ReferenceOp fl)) :
    (ofOps ops).ReferencesValid ops ↔ (ops.filterMap (·.refersTo)).Nodup := by
  have h := tracked ops
  obtain ⟨horder, hrefs⟩ := ofOps_listed ops
  rw [← List.nodup_reverse, ← hrefs, ← h.alive_iff]
  refine ⟨fun hvalid => hvalid.alive, fun halive => ⟨halive, ?_, horder, ?_⟩⟩
  · intro later x earlier hsplit hlatest
    have hfound := h.find_latest hsplit hlatest
    exact ⟨hfound, by rw [h.exported_eq, hfound, Option.bind_some]⟩
  · obtain ⟨xs, hxs⟩ := values_run ops
    rw [hxs]
    exact fun e he => ((MetricsRegistry.indexed_run xs).mem_iff e).mp he

/-- One counter registered again: the first reference is to nothing. -/
theorem registered_again :
    ¬ ∀ ops : List (ReferenceOp Floating.whole), (ofOps ops).ReferencesValid ops := by
  intro h
  have hfirst := (h [.counter [0x61] [] [], .counter [0x61] [] []]).alive
    (⟨.counter, [0x61]⟩, 0) (by decide)
  exact absurd hfirst.1 (by decide)

end RegistryUse
end NeuStack
