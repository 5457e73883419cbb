import NeuStack.JsonExporter

/-! # The export is JSON

`Exports` says which value a document has to have: the metrics of each section are the
registered ones whose names the filter keeps, each once, and a section without metrics is
left out.  The exporter is followed operation by operation with the rules of `Writes`;
what an entry writes is found under its name because the entries are the metrics
(`MetricsRegistry.Indexed`).
-/
namespace NeuStack
variable {D : Type} {fl : Floating D}

/-! ## Values -/

def metadataJson (m : MetricMeta) : List (Bytes × Json) :=
  [(ascii "help", .str m.help), (ascii "unit", .str m.unit)]

def uint64Json (n : UInt64) : Json := .num (decimal n.toNat)

def Counter.json (c : Counter) : Json :=
  .obj (metadataJson c.metadata ++ [(ascii "value", uint64Json c.value)])

def Gauge.json (fl : Floating D) (g : Gauge D) : Json :=
  .obj (metadataJson g.metadata ++ [(ascii "value", doubleJson fl g.value)])

/-- A bridge whose callback throws has the value zero. -/
def BridgeGauge.json (fl : Floating D) (bg : BridgeGauge D) : Json :=
  .obj (metadataJson bg.metadata ++
    [(ascii "value", doubleJson fl (bg.callback.getD (fl.ofNat 0)))])

namespace Histogram

def bucketsJson (fl : Floating D) (snap : Snapshot D) : Json :=
  .obj (((snap.boundaries.zip snap.bucketCounts).map fun (bound, n) =>
    (fl.print6g bound, uint64Json n)) ++
      [(ascii "+Inf", uint64Json (snap.bucketCounts.getLastD 0))])

def percentilesJson (fl : Floating D) (snap : Snapshot D) : Json :=
  let percentile m := doubleJson fl (JsonExporter.estimatePercentile fl snap (fl.ofScientific m 2))
  .obj [(ascii "p50", percentile 50), (ascii "p90", percentile 90), (ascii "p99", percentile 99)]

def json (h : Histogram fl) : Json :=
  .obj (metadataJson h.metadata ++
    [(ascii "count", uint64Json h.snapshot.count), (ascii "sum", doubleJson fl h.snapshot.sum),
      (ascii "buckets", bucketsJson fl h.snapshot),
      (ascii "percentiles", percentilesJson fl h.snapshot)])

end Histogram

namespace MetricsRegistry

/-- The value of a metric. -/
def json (r : MetricsRegistry fl) (e : MetricEntry) : Json :=
  match e.kind with
  | .counter => (r.findCounter e.name).elim .null Counter.json
  | .gauge => (r.findGauge e.name).elim .null (Gauge.json fl)
  | .histogram => (r.findHistogram e.name).elim .null Histogram.json
  | .bridgeGauge => (r.findBridge e.name).elim .null (BridgeGauge.json fl)

def member (r : MetricsRegistry fl) (e : MetricEntry) : Bytes × Json := (e.name, r.json e)

end MetricsRegistry

/-- The section of the metrics of a kind. -/
def MetricKind.title : MetricKind → Bytes
  | .counter => ascii "counters"
  | .gauge | .bridgeGauge => ascii "gauges"
  | .histogram => ascii "histograms"

/-- **The members of a section**: the registered metrics of its kinds that the filter
keeps, each once. -/
def MetricsRegistry.Lists (r : MetricsRegistry fl) (keep : Bytes → Bool) (title : Bytes)
    (members : List (Bytes × Json)) : Prop :=
  ∃ es : List MetricEntry, es.Nodup ∧
    (∀ e, e ∈ es ↔ r.registered e = true ∧ keep e.name = true ∧ e.kind.title = title) ∧
    members = es.map r.member

/-- A section that has members. -/
def sectionJson (title : Bytes) (members : List (Bytes × Json)) : List (Bytes × Json) :=
  if members = [] then [] else [(title, .obj members)]

/-- **`v` is what an export says**: the members `head`, and the sections. -/
structure MetricsRegistry.Exports (r : MetricsRegistry fl) (keep : Bytes → Bool)
    (head : List (Bytes × Json)) (v : Json) : Prop where
  sections : ∃ counters gauges histograms : List (Bytes × Json),
    r.Lists keep (ascii "counters") counters ∧
    r.Lists keep (ascii "gauges") gauges ∧
    r.Lists keep (ascii "histograms") histograms ∧
    v = .obj (head ++ [(ascii "metrics", .obj (sectionJson (ascii "counters") counters ++
      sectionJson (ascii "gauges") gauges ++ sectionJson (ascii "histograms") histograms))])

/-! ## What is written of a metric -/

open JsonExporter

theorem Writes.metadata {f : JsonBuilder → JsonBuilder} {members : List (Bytes × Json)}
    (m : MetricMeta) (h : WritesMembers f members) :
    WritesMembers (fun b => f ((((b.key (ascii "help")).writeString m.help).comma.key
      (ascii "unit")).writeString m.unit).comma) (metadataJson m ++ members) :=
  (((Writes.string m.help).member _).comma ((Writes.string m.unit).member _)).comma h

theorem writes_counter (c : Counter) : Writes (serializeCounter c) c.json :=
  (Writes.metadata c.metadata ((Writes.uint64 c.value).member (ascii "value"))).object

theorem writes_gauge (g : Gauge D) : Writes (serializeGauge fl g) (g.json fl) :=
  (Writes.metadata g.metadata ((Writes.double g.value).member (ascii "value"))).object

theorem writes_bridge (bg : BridgeGauge D) : Writes (serializeBridge fl bg) (bg.json fl) :=
  (Writes.metadata bg.metadata ((Writes.double _).member (ascii "value"))).object

/-- Behind the first boundary the loop writes a comma before each. -/
theorem writeBuckets_eq {i : Nat} (hi : 0 < i) (l : List (D × UInt64)) (b : JsonBuilder) :
    writeBuckets fl i l b =
      l.foldl (fun b e => (b.comma.key (fl.print6g e.1)).writeUInt64 e.2) b := by
  induction l generalizing i b with
  | nil => rfl
  | cons e l ih =>
    obtain ⟨bound, n⟩ := e
    rw [writeBuckets, if_pos hi]
    exact ih (Nat.succ_pos i) _

/-- The loop over the boundaries, if there are any. -/
theorem writes_bounds (bound : D) (n : UInt64) (l : List (D × UInt64)) :
    WritesMembers (writeBuckets fl 0 ((bound, n) :: l))
      (((bound, n) :: l).map fun (bound, n) => (fl.print6g bound, uint64Json n)) := by
  have hbucket (e : D × UInt64) : WritesMembers
      (fun b => (b.key (fl.print6g e.1)).writeUInt64 e.2) [(fl.print6g e.1, uint64Json e.2)] :=
    (Writes.uint64 e.2).member _
  have hloop := (hbucket (bound, n)).foldl l fun e _ => hbucket e
  intro b
  obtain ⟨t, ht, htext⟩ := hloop b
  refine ⟨t, ?_, htext⟩
  rw [writeBuckets, if_neg (Nat.lt_irrefl 0), writeBuckets_eq (Nat.succ_pos 0)]
  exact ht

theorem writes_buckets {snap : Histogram.Snapshot D}
    (hsized : snap.bucketCounts.length = snap.boundaries.length + 1) :
    Writes (fun b =>
      let b := writeBuckets fl 0 (snap.boundaries.zip snap.bucketCounts) b.beginObject
      let b := if snap.boundaries = [] then b else b.comma
      ((b.key (ascii "+Inf")).writeUInt64 (snap.bucketCounts.getLastD 0)).endObject)
      (Histogram.bucketsJson fl snap) := by
  have hlast := (Writes.uint64 (snap.bucketCounts.getLastD 0)).member (ascii "+Inf")
  rw [Histogram.bucketsJson]
  cases hbounds : snap.boundaries with
  | nil =>
    simp only [if_true]
    exact hlast.object
  | cons bound bounds =>
    obtain ⟨n, counts, hcounts⟩ : ∃ n counts, snap.bucketCounts = n :: counts :=
      List.exists_cons_of_length_pos (hsized ▸ Nat.succ_pos _)
    have hbounds : WritesMembers (writeBuckets fl 0 ((bound, n) :: bounds.zip counts)) _ :=
      writes_bounds bound n (bounds.zip counts)
    simp only [reduceCtorEq, if_false]
    rw [← List.zip_cons_cons, ← hcounts] at hbounds
    exact (hbounds.comma hlast).object

theorem writes_histogram (h : Histogram fl) : Writes (serializeHistogram h) h.json := by
  have hsized : h.snapshot.bucketCounts.length = h.snapshot.boundaries.length + 1 :=
    (Histogram.length_cumulate 0 h.buckets).trans h.sized
  have hpercentile (m : Nat) : Writes (JsonBuilder.writeDouble fl
      (estimatePercentile fl h.snapshot (fl.ofScientific m 2))) _ := Writes.double _
  have hpercentiles := ((((hpercentile 50).member (ascii "p50")).comma
    ((hpercentile 90).member (ascii "p90"))).comma ((hpercentile 99).member (ascii "p99"))).object
  exact (Writes.metadata h.metadata
    (((((Writes.uint64 h.snapshot.count).member (ascii "count")).comma
      ((Writes.double h.snapshot.sum).member (ascii "sum"))).comma
      ((writes_buckets hsized).member (ascii "buckets"))).comma
      (hpercentiles.member (ascii "percentiles")))).object

/-! ## Sections -/

section
variable {title : Bytes} {isKind : MetricKind → Bool} {keep : Bytes → Bool}
  {write : MetricEntry → JsonBuilder → JsonBuilder} {w : SectionWriter}

theorem writeEntry_eq (e : MetricEntry) :
    writeEntry title isKind keep write w e =
      if isKind e.kind && keep e.name then
        { w.openEntry title with builder := write e (w.openEntry title).builder }
      else w := by
  rw [writeEntry]
  cases isKind e.kind <;> cases keep e.name <;> rfl

/-- An open section takes the further entries, each behind a comma. -/
theorem foldl_writeEntry (hw : w.has = true) (l : List MetricEntry) :
    l.foldl (writeEntry title isKind keep write) w =
      { w with
        builder := (l.filter fun e => isKind e.kind && keep e.name).foldl
          (fun b e => write e b.comma) w.builder } := by
  induction l generalizing w with
  | nil => rfl
  | cons e l ih =>
    rw [List.foldl_cons, writeEntry_eq, List.filter_cons]
    split
    · have hopen : w.openEntry title = { w with builder := w.builder.comma } := by
        rw [SectionWriter.openEntry, hw]
        rfl
      rw [hopen]
      exact ih hw
    · exact ih hw

/-- A section that no entry opens is not written at all. -/
theorem writeSection_none {l : List MetricEntry}
    (hl : (l.filter fun e => isKind e.kind && keep e.name) = []) :
    writeSection title isKind keep write l w = { w with has := false } := by
  have hloop : ∀ w : SectionWriter, l.foldl (writeEntry title isKind keep write) w = w := by
    intro w
    induction l generalizing w with
    | nil => rfl
    | cons e l ih =>
      rw [List.filter_cons] at hl
      split at hl
      · cases hl
      · rename_i he
        rw [List.foldl_cons, writeEntry_eq, if_neg he]
        exact ih hl w
  rw [writeSection, hloop]
  rfl

/-- A section that is written is an object under its key. -/
theorem writeSection_some {l : List MetricEntry} {e : MetricEntry} {es : List MetricEntry}
    (hl : (l.filter fun e => isKind e.kind && keep e.name) = e :: es) :
    writeSection title isKind keep write l w =
      { builder := (es.foldl (fun b e => write e b.comma)
          (write e (w.separated.key title).beginObject)).endObject
        sectionIdx := w.sectionIdx + 1
        has := true } := by
  induction l generalizing w with
  | nil => cases hl
  | cons e' l ih =>
    rw [List.filter_cons] at hl
    split at hl
    · rename_i he
      obtain ⟨rfl, rfl⟩ := List.cons.inj hl
      rw [writeSection, List.foldl_cons, writeEntry_eq, if_pos he, foldl_writeEntry rfl]
      rfl
    · rename_i he
      rw [← ih (w := w) hl, writeSection, writeSection, List.foldl_cons, writeEntry_eq, if_neg he]

/-- **The members written so far**, behind the builder `b`. -/
structure Wrote (b : JsonBuilder) (members : List (Bytes × Json)) (w : SectionWriter) :
    Prop where
  sectionIdx : w.sectionIdx = members.length
  text : ∃ t, w.builder = b.append t ∧ (Json.MembersText members t ∨ t = [] ∧ members = [])

variable {b : JsonBuilder} {members : List (Bytes × Json)}

theorem Wrote.init (b : JsonBuilder) : Wrote b [] { builder := b } :=
  ⟨rfl, [], b.append_nil.symm, Or.inr ⟨rfl, rfl⟩⟩

/-- One more member, behind a comma unless it is the first. -/
theorem Wrote.member (h : Wrote b members w) {f : JsonBuilder → JsonBuilder} {v : Json}
    (hf : Writes f v) :
    Wrote b (members ++ [(title, v)])
      { builder := f (w.separated.key title), sectionIdx := w.sectionIdx + 1, has := true } := by
  refine ⟨by rw [h.sectionIdx, List.length_append]; rfl, ?_⟩
  obtain ⟨t, ht, htext⟩ := h.text
  obtain ⟨t', ht', htext'⟩ := hf.member title w.separated
  dsimp only at ht' ⊢
  rw [ht', SectionWriter.separated]
  rcases htext with htext | ⟨rfl, rfl⟩
  · obtain ⟨w', hcomma, hw'⟩ := w.builder.comma_eq
    have hidx : w.sectionIdx > 0 := by
      rw [h.sectionIdx]
      cases htext <;> exact Nat.succ_pos _
    refine ⟨t ++ 44 :: (w' ++ t'), ?_, Or.inl (htext.append (htext'.blank hw'))⟩
    rw [if_pos hidx, hcomma, ht, JsonBuilder.append_append, JsonBuilder.append_append]
    simp only [List.cons_append]
  · refine ⟨t', ?_, Or.inl htext'⟩
    rw [if_neg (by rw [h.sectionIdx]; exact Nat.lt_irrefl 0), ht, JsonBuilder.append_nil]

/-- **A section** adds its members under its key, or nothing if there are none. -/
theorem Wrote.writeSection (h : Wrote b members w) {json : MetricEntry → Json}
    {l : List MetricEntry}
    (hwrite : ∀ e ∈ l, isKind e.kind = true → WritesMembers (write e) [(e.name, json e)]) :
    Wrote b
      (members ++ sectionJson title
        ((l.filter fun e => isKind e.kind && keep e.name).map fun e => (e.name, json e)))
      (JsonExporter.writeSection title isKind keep write l w) := by
  have hkept : ∀ e ∈ l.filter fun e => isKind e.kind && keep e.name,
      WritesMembers (write e) [(e.name, json e)] := by
    intro e he
    obtain ⟨hmem, hkeep⟩ := List.mem_filter.mp he
    exact hwrite e hmem (Bool.and_eq_true_iff.mp hkeep).1
  cases hes : l.filter fun e => isKind e.kind && keep e.name with
  | nil =>
    rw [writeSection_none hes, List.map_nil, sectionJson, if_pos rfl, List.append_nil]
    exact ⟨h.sectionIdx, h.text⟩
  | cons e es =>
    rw [hes] at hkept
    rw [writeSection_some hes, List.map_cons, sectionJson, if_neg (List.cons_ne_nil _ _)]
    have hobject := ((hkept e (List.mem_cons_self ..)).foldl es
      fun e' he' => hkept e' (List.mem_cons_of_mem _ he')).object
    exact h.member hobject

end

/-! ## Documents -/

namespace MetricsRegistry
variable {r : MetricsRegistry fl}

theorem Indexed.lists (h : r.Indexed) {isKind : MetricKind → Bool} {title : Bytes}
    (hkind : ∀ kind : MetricKind, isKind kind = true ↔ kind.title = title)
    (keep : Bytes → Bool) :
    r.Lists keep title
      ((r.entries.filter fun e => isKind e.kind && keep e.name).map r.member) := by
  refine ⟨_, h.nodup.filter _, fun e => ?_, rfl⟩
  rw [List.mem_filter, Bool.and_eq_true, hkind]
  refine (and_congr_left fun _ => h.mem_iff e).trans ?_
  exact and_congr_right fun _ => and_comm

theorem Indexed.writes_counter (h : r.Indexed) {e : MetricEntry} (he : e ∈ r.entries)
    (hkind : isCounter e.kind = true) : WritesMembers (writeCounter r e) [r.member e] := by
  have hregistered := (h.mem_iff e).mp he
  obtain ⟨kind, name⟩ := e
  obtain rfl : kind = .counter := of_decide_eq_true hkind
  obtain ⟨c, hc⟩ := Option.isSome_iff_exists.mp hregistered
  have hwrite : writeCounter r ⟨.counter, name⟩ = fun b => serializeCounter c (b.key name) := by
    funext b
    rw [writeCounter, hc]
  have hvalue : r.member ⟨.counter, name⟩ = (name, c.json) := by
    rw [member, json, hc]
    rfl
  rw [hwrite, hvalue]
  exact (NeuStack.writes_counter c).member name

theorem Indexed.writes_gauge (h : r.Indexed) {e : MetricEntry} (he : e ∈ r.entries)
    (hkind : isGauge e.kind = true) :
    WritesMembers (writeGauge r e) [r.member e] := by
  have hregistered := (h.mem_iff e).mp he
  obtain ⟨kind, name⟩ := e
  rw [isGauge, Bool.or_eq_true, decide_eq_true_eq, decide_eq_true_eq] at hkind
  rcases hkind with hkind | hkind
  · cases hkind
    obtain ⟨g, hg⟩ := Option.isSome_iff_exists.mp hregistered
    have hwrite : writeGauge r ⟨.gauge, name⟩ = fun b => serializeGauge fl g (b.key name) := by
      funext b
      rw [writeGauge, if_pos rfl, hg]
    have hvalue : r.member ⟨.gauge, name⟩ = (name, g.json fl) := by
      rw [member, json, hg]
      rfl
    rw [hwrite, hvalue]
    exact (NeuStack.writes_gauge g).member name
  · cases hkind
    obtain ⟨bg, hbg⟩ := Option.isSome_iff_exists.mp hregistered
    have hwrite : writeGauge r ⟨.bridgeGauge, name⟩ =
        fun b => serializeBridge fl bg (b.key name) := by
      funext b
      rw [writeGauge, if_neg nofun, hbg]
    have hvalue : r.member ⟨.bridgeGauge, name⟩ = (name, bg.json fl) := by
      rw [member, json, hbg]
      rfl
    rw [hwrite, hvalue]
    exact (writes_bridge bg).member name

theorem Indexed.writes_histogram (h : r.Indexed) {e : MetricEntry} (he : e ∈ r.entries)
    (hkind : isHistogram e.kind = true) : WritesMembers (writeHistogram r e) [r.member e] := by
  have hregistered := (h.mem_iff e).mp he
  obtain ⟨kind, name⟩ := e
  obtain rfl : kind = .histogram := of_decide_eq_true hkind
  obtain ⟨hist, hhist⟩ := Option.isSome_iff_exists.mp hregistered
  have hwrite : writeHistogram r ⟨.histogram, name⟩ =
      fun b => serializeHistogram hist (b.key name) := by
    funext b
    rw [writeHistogram, hhist]
  have hvalue : r.member ⟨.histogram, name⟩ = (name, hist.json) := by
    rw [member, json, hhist]
    rfl
  rw [hwrite, hvalue]
  exact (NeuStack.writes_histogram hist).member name

/-- The members of a section, in the order of the entries. -/
def kept (r : MetricsRegistry fl) (isKind : MetricKind → Bool) (namePrefix : Option Bytes) :
    List (Bytes × Json) :=
  (r.entries.filter fun e => isKind e.kind && matchesName namePrefix e.name).map r.member

/-- The members of the object of the metrics. -/
def metricsJson (r : MetricsRegistry fl) (namePrefix : Option Bytes) : List (Bytes × Json) :=
  [] ++ sectionJson (ascii "counters") (r.kept isCounter namePrefix) ++
    sectionJson (ascii "gauges") (r.kept isGauge namePrefix) ++
    sectionJson (ascii "histograms") (r.kept isHistogram namePrefix)

theorem Indexed.wrote_sections (h : r.Indexed) (namePrefix : Option Bytes) (b : JsonBuilder) :
    Wrote b (r.metricsJson namePrefix) (writeSections r namePrefix b) := by
  refine Wrote.writeSection (Wrote.writeSection (Wrote.writeSection (Wrote.init b) ?_) ?_) ?_
  · exact fun e he => h.writes_counter he
  · exact fun e he => h.writes_gauge he
  · exact fun e he => h.writes_histogram he

/-- **The object of the metrics**, whatever the filter. -/
theorem Indexed.writes_metrics (h : r.Indexed) (namePrefix : Option Bytes) :
    Writes (writeMetricsObject r namePrefix) (.obj (r.metricsJson namePrefix)) :=
  Writes.object fun b => (h.wrote_sections namePrefix b).text

theorem Indexed.exports (h : r.Indexed) (namePrefix : Option Bytes) (head : List (Bytes × Json)) :
    r.Exports (matchesName namePrefix) head
      (.obj (head ++ [(ascii "metrics", .obj (r.metricsJson namePrefix))])) where
  sections := by
    refine ⟨_, _, _, h.lists ?_ _, h.lists ?_ _, h.lists ?_ _, rfl⟩ <;>
      · intro kind
        cases kind <;> decide

end MetricsRegistry

/-- **The export is JSON.**  In every registry that registrations and updates lead to, both
forms of the document are texts of one value, which is what the registry says. -/
theorem export_parses (xs : List (RegistryOp fl)) (now namePrefix : Bytes) :
    (∃ v, (MetricsRegistry.ofOps xs).Exports (fun _ => true) [(ascii "timestamp", .str now)] v ∧
      ∀ pretty, Json.parse (serialize pretty now (MetricsRegistry.ofOps xs)) = some v) ∧
    ∃ v, (MetricsRegistry.ofOps xs).Exports (fun name => namePrefix.isPrefixOf name)
        [(ascii "timestamp", .str now), (ascii "filter", .str namePrefix)] v ∧
      ∀ pretty, Json.parse
        (serializeFiltered pretty now (MetricsRegistry.ofOps xs) namePrefix) = some v := by
  have h := MetricsRegistry.indexed_run xs
  have htimestamp := (Writes.string now).member (ascii "timestamp")
  refine ⟨⟨_, h.exports none _, fun pretty => ?_⟩,
    _, h.exports (some namePrefix) _, fun pretty => ?_⟩
  · have hdocument := (htimestamp.comma ((h.writes_metrics none).member (ascii "metrics"))).object
    obtain ⟨t, ht, hparses⟩ := hdocument { pretty }
    have hbuf : serialize pretty now (MetricsRegistry.ofOps xs) = t := congrArg JsonBuilder.buf ht
    rw [hbuf]
    exact Json.parse_of_parses hparses
  · have hfilter := (Writes.string namePrefix).member (ascii "filter")
    have hdocument := ((htimestamp.comma hfilter).comma
      ((h.writes_metrics (some namePrefix)).member (ascii "metrics"))).object
    obtain ⟨t, ht, hparses⟩ := hdocument { pretty }
    have hbuf : serializeFiltered pretty now (MetricsRegistry.ofOps xs) namePrefix = t :=
      congrArg JsonBuilder.buf ht
    rw [hbuf]
    exact Json.parse_of_parses hparses

end NeuStack
