import NeuStack.JsonBuilder

/-! # The JSON exporter

`json_exporter.cpp`.  The entries of the registry are run through three times, once for
each section, and a section is opened by the first entry that belongs to it.  The time is
a parameter.
-/
namespace NeuStack
variable {D : Type} {fl : Floating D}

namespace JsonExporter

/-! ## Percentiles -/

def estimatePercentile (fl : Floating D) (snap : Histogram.Snapshot D) (q : D) : D :=
  let zero := fl.ofNat 0
  if snap.count = 0 then zero
  else
    let counts := snap.bucketCounts.map fun n => fl.ofNat n.toNat
    let rank := fl.mul q (fl.ofNat snap.count.toNat)
    let i := counts.findIdx fun n => fl.lt rank n
    let lower := if 0 < i then snap.boundaries.getD (i - 1) zero else zero
    let prevCount := if 0 < i then counts.getD (i - 1) zero else zero
    let upper :=
      if i < snap.boundaries.length then snap.boundaries.getD i zero
      else
        match snap.boundaries.getLast? with
        | none => zero
        | some last => fl.mul last (fl.ofNat 2)
    let currBucketCount := fl.sub (counts.getD i zero) prevCount
    if fl.le currBucketCount zero then lower
    else
      let fraction := fl.div (fl.sub rank prevCount) currBucketCount
      fl.add lower (fl.mul fraction (fl.sub upper lower))

/-! ## Metrics -/

def serializeCounter (c : Counter) (b : JsonBuilder) : JsonBuilder :=
  let b := b.beginObject
  let b := ((b.key (ascii "help")).writeString c.metadata.help).comma
  let b := ((b.key (ascii "unit")).writeString c.metadata.unit).comma
  let b := (b.key (ascii "value")).writeUInt64 c.value
  b.endObject

def serializeGauge (fl : Floating D) (g : Gauge D) (b : JsonBuilder) : JsonBuilder :=
  let b := b.beginObject
  let b := ((b.key (ascii "help")).writeString g.metadata.help).comma
  let b := ((b.key (ascii "unit")).writeString g.metadata.unit).comma
  let b := (b.key (ascii "value")).writeDouble fl g.value
  b.endObject

def serializeBridge (fl : Floating D) (bg : BridgeGauge D) (b : JsonBuilder) : JsonBuilder :=
  let val := bg.callback.getD (fl.ofNat 0)
  let b := b.beginObject
  let b := ((b.key (ascii "help")).writeString bg.metadata.help).comma
  let b := ((b.key (ascii "unit")).writeString bg.metadata.unit).comma
  let b := (b.key (ascii "value")).writeDouble fl val
  b.endObject

/-- The loop over the boundaries, from the boundary `i` on. -/
def writeBuckets (fl : Floating D) (i : Nat) : List (D × UInt64) → JsonBuilder → JsonBuilder
  | [], b => b
  | (bound, n) :: rest, b =>
    let b := if i > 0 then b.comma else b
    writeBuckets fl (i + 1) rest ((b.key (fl.print6g bound)).writeUInt64 n)

def serializeHistogram (h : Histogram fl) (b : JsonBuilder) : JsonBuilder :=
  let snap := h.snapshot
  let b := b.beginObject
  let b := ((b.key (ascii "help")).writeString h.metadata.help).comma
  let b := ((b.key (ascii "unit")).writeString h.metadata.unit).comma
  let b := ((b.key (ascii "count")).writeUInt64 snap.count).comma
  let b := ((b.key (ascii "sum")).writeDouble fl snap.sum).comma
  let b := (b.key (ascii "buckets")).beginObject
  let b := writeBuckets fl 0 (snap.boundaries.zip snap.bucketCounts) b
  let b := if snap.boundaries = [] then b else b.comma
  let b := (b.key (ascii "+Inf")).writeUInt64 (snap.bucketCounts.getLastD 0)
  let b := b.endObject.comma
  let b := (b.key (ascii "percentiles")).beginObject
  let b := ((b.key (ascii "p50")).writeDouble fl
    (estimatePercentile fl snap (fl.ofScientific 50 2))).comma
  let b := ((b.key (ascii "p90")).writeDouble fl
    (estimatePercentile fl snap (fl.ofScientific 90 2))).comma
  let b := (b.key (ascii "p99")).writeDouble fl
    (estimatePercentile fl snap (fl.ofScientific 99 2))
  let b := b.endObject
  b.endObject

/-! ## Sections -/

/-- The builder, and the variables of `write_metrics_object`. -/
structure SectionWriter where
  builder : JsonBuilder
  sectionIdx : Nat := 0
  has : Bool := false

/-- `if (section_idx++ > 0) b.comma()` -/
def SectionWriter.separated (w : SectionWriter) : JsonBuilder :=
  if w.sectionIdx > 0 then w.builder.comma else w.builder

/-- The part of one round that the three loops share: the section's opening, or a comma. -/
def SectionWriter.openEntry (title : Bytes) (w : SectionWriter) : SectionWriter :=
  if !w.has then
    { builder := (w.separated.key title).beginObject
      sectionIdx := w.sectionIdx + 1
      has := true }
  else { w with builder := w.builder.comma }

/-- One round of a loop over the entries, which passes by those of other kinds and of
other names. -/
def writeEntry (title : Bytes) (isKind : MetricKind → Bool) (keep : Bytes → Bool)
    (write : MetricEntry → JsonBuilder → JsonBuilder) (w : SectionWriter) (e : MetricEntry) :
    SectionWriter :=
  if !isKind e.kind then w
  else if !keep e.name then w
  else
    let w := w.openEntry title
    { w with builder := write e w.builder }

/-- A loop, and the section's closing if it was opened. -/
def writeSection (title : Bytes) (isKind : MetricKind → Bool) (keep : Bytes → Bool)
    (write : MetricEntry → JsonBuilder → JsonBuilder) (entries : List MetricEntry)
    (w : SectionWriter) : SectionWriter :=
  let w := entries.foldl (writeEntry title isKind keep write) { w with has := false }
  if w.has then { w with builder := w.builder.endObject } else w

/-- The body of the first loop. -/
def writeCounter (r : MetricsRegistry fl) (e : MetricEntry) (b : JsonBuilder) : JsonBuilder :=
  match r.findCounter e.name with
  | some c => serializeCounter c (b.key e.name)
  | none => b

/-- The body of the second loop. -/
def writeGauge (r : MetricsRegistry fl) (e : MetricEntry) (b : JsonBuilder) : JsonBuilder :=
  if e.kind = .gauge then
    match r.findGauge e.name with
    | some g => serializeGauge fl g (b.key e.name)
    | none => b
  else
    match r.findBridge e.name with
    | some bg => serializeBridge fl bg (b.key e.name)
    | none => b

/-- The body of the third loop. -/
def writeHistogram (r : MetricsRegistry fl) (e : MetricEntry) (b : JsonBuilder) : JsonBuilder :=
  match r.findHistogram e.name with
  | some h => serializeHistogram h (b.key e.name)
  | none => b

/-- `matches` -/
def matchesName (namePrefix : Option Bytes) (name : Bytes) : Bool :=
  match namePrefix with
  | none => true
  | some p => p.isPrefixOf name

def isCounter (kind : MetricKind) : Bool := kind = .counter

def isGauge (kind : MetricKind) : Bool := kind = .gauge || kind = .bridgeGauge

def isHistogram (kind : MetricKind) : Bool := kind = .histogram

/-- The three loops of `write_metrics_object`. -/
def writeSections (r : MetricsRegistry fl) (namePrefix : Option Bytes) (b : JsonBuilder) :
    SectionWriter :=
  let keep := matchesName namePrefix
  let w : SectionWriter := { builder := b }
  let w := writeSection (ascii "counters") isCounter keep (writeCounter r) r.entries w
  let w := writeSection (ascii "gauges") isGauge keep (writeGauge r) r.entries w
  writeSection (ascii "histograms") isHistogram keep (writeHistogram r) r.entries w

def writeMetricsObject (r : MetricsRegistry fl) (namePrefix : Option Bytes) (b : JsonBuilder) :
    JsonBuilder :=
  (writeSections r namePrefix b.beginObject).builder.endObject

/-! ## Documents -/

def serialize (pretty : Bool) (now : Bytes) (r : MetricsRegistry fl) : Bytes :=
  let b : JsonBuilder := { pretty }
  let b := b.beginObject
  let b := ((b.key (ascii "timestamp")).writeString now).comma
  let b := writeMetricsObject r none (b.key (ascii "metrics"))
  b.endObject.buf

def serializeFiltered (pretty : Bool) (now : Bytes) (r : MetricsRegistry fl) (namePrefix : Bytes) :
    Bytes :=
  let b : JsonBuilder := { pretty }
  let b := b.beginObject
  let b := ((b.key (ascii "timestamp")).writeString now).comma
  let b := ((b.key (ascii "filter")).writeString namePrefix).comma
  let b := writeMetricsObject r (some namePrefix) (b.key (ascii "metrics"))
  b.endObject.buf

end JsonExporter
end NeuStack
