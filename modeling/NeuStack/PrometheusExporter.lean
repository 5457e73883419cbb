import NeuStack.Decimal
import NeuStack.MetricsRegistry

/-! # The Prometheus exporter

`prometheus_exporter.cpp`.  Each writer appends the block of one metric to `out`; the
entries of the registry are run through in their order and looked up by kind and name.
-/
namespace NeuStack
variable {D : Type} (fl : Floating D)

namespace PrometheusExporter

/-- One round of `escape_help`. -/
def escapeHelpByte (c : UInt8) : Bytes :=
  if c = 92 then ascii "\\\\" else if c = 10 then ascii "\\n" else [c]

def escapeHelp (out s : Bytes) : Bytes := s.foldl (fun out c => out ++ escapeHelpByte c) out

/-- `format_value` of a `uint64_t` -/
def formatUInt64 (out : Bytes) (v : UInt64) : Bytes := out ++ decimal v.toNat

/-- `format_value` of a `double` -/
def formatDouble (out : Bytes) (v : D) : Bytes :=
  if fl.isNan v then out ++ ascii "NaN"
  else if fl.isInf v then
    out ++ if fl.lt (fl.ofNat 0) v then ascii "+Inf" else ascii "-Inf"
  else if fl.isWhole v && fl.lt (fl.fabs v) (fl.ofNat (10 ^ 15)) then out ++ fl.print0f v
  else out ++ fl.print6g v

/-- The two lines every block starts with; `family` is the end of the second. -/
def writeMeta (out : Bytes) (m : MetricMeta) (family : Bytes) : Bytes :=
  let out := out ++ ascii "# HELP "
  let out := out ++ m.name
  let out := out ++ ascii " "
  let out := escapeHelp out m.help
  let out := out ++ ascii "\n"
  let out := out ++ ascii "# TYPE "
  let out := out ++ m.name
  out ++ family

def writeCounter (out : Bytes) (c : Counter) : Bytes :=
  let out := writeMeta out c.metadata (ascii " counter\n")
  let out := out ++ c.metadata.name
  let out := out ++ ascii " "
  let out := formatUInt64 out c.value
  let out := out ++ ascii "\n"
  out ++ ascii "\n"

def writeGauge (out : Bytes) (g : Gauge D) : Bytes :=
  let out := writeMeta out g.metadata (ascii " gauge\n")
  let out := out ++ g.metadata.name
  let out := out ++ ascii " "
  let out := formatDouble fl out g.value
  let out := out ++ ascii "\n"
  out ++ ascii "\n"

/-- A callback that throws counts as zero. -/
def writeBridgeGauge (out : Bytes) (bg : BridgeGauge D) : Bytes :=
  let val := bg.callback.getD (fl.ofNat 0)
  let out := writeMeta out bg.metadata (ascii " gauge\n")
  let out := out ++ bg.metadata.name
  let out := out ++ ascii " "
  let out := formatDouble fl out val
  let out := out ++ ascii "\n"
  out ++ ascii "\n"

/-- One round of the loop over the boundaries. -/
def writeBucket (name : Bytes) (out : Bytes) (bucket : D × UInt64) : Bytes :=
  let out := out ++ name
  let out := out ++ ascii "_bucket\x7ble=\""
  let out := out ++ fl.print6g bucket.1
  let out := out ++ ascii "\"\x7d "
  let out := formatUInt64 out bucket.2
  out ++ ascii "\n"

variable {fl}

def writeHistogram (out : Bytes) (h : Histogram fl) : Bytes :=
  let name := h.metadata.name
  let snap := h.snapshot
  let out := writeMeta out h.metadata (ascii " histogram\n")
  let out := (snap.boundaries.zip snap.bucketCounts).foldl (writeBucket fl name) out
  let out := out ++ name
  let out := out ++ ascii "_bucket\x7ble=\"+Inf\"\x7d "
  let out := formatUInt64 out (snap.bucketCounts.getLastD 0)
  let out := out ++ ascii "\n"
  let out := out ++ name
  let out := out ++ ascii "_sum "
  let out := formatDouble fl out snap.sum
  let out := out ++ ascii "\n"
  let out := out ++ name
  let out := out ++ ascii "_count "
  let out := formatUInt64 out snap.count
  let out := out ++ ascii "\n"
  out ++ ascii "\n"

/-- One round of `serialize`. -/
def writeEntry (registry : MetricsRegistry fl) (out : Bytes) (entry : MetricEntry) : Bytes :=
  match entry.kind with
  | .counter =>
    match registry.findCounter entry.name with
    | some c => writeCounter out c
    | none => out
  | .gauge =>
    match registry.findGauge entry.name with
    | some g => writeGauge fl out g
    | none => out
  | .bridgeGauge =>
    match registry.findBridge entry.name with
    | some bg => writeBridgeGauge fl out bg
    | none => out
  | .histogram =>
    match registry.findHistogram entry.name with
    | some h => writeHistogram out h
    | none => out

def serialize (registry : MetricsRegistry fl) : Bytes :=
  registry.entries.foldl (writeEntry registry) []

end PrometheusExporter
end NeuStack
