import Mathlib.Data.UInt
import NeuStack.Exposition
import NeuStack.PrometheusExporter

/-! # The export is a Prometheus page

`document` is the page a registry stands for: of each entry the `HELP` and the `TYPE` line,
the samples and an empty line.  What the exporter writes is read back as that page
(`parse_serialize`), whatever the help texts are.  Two things can still be wrong with the page,
and the registry decides about each: a metric has as many `TYPE` lines as entries have its
name (`count_type`), and the labels of a histogram increase exactly if its boundaries
differ in their first six digits (`bucketed_iff`).
-/
namespace NeuStack
open Exposition
variable {D : Type} {fl : Floating D}

/-! ## Whole numbers -/

/-- The whole numbers among the `double`s, how they compare and how they are printed. -/
structure Floating.Integers (fl : Floating D) where
  ofInt : Int → D
  lt_ofInt : ∀ m n : Int, m.natAbs ≤ 2 ^ 53 → n.natAbs ≤ 2 ^ 53 →
    (fl.lt (ofInt m) (ofInt n) = true ↔ m < n)
  print6g_ofInt : ∀ n : Int, n.natAbs ≤ 2 ^ 53 → fl.print6g (ofInt n) = SixDigits.print n

variable (ints : fl.Integers)

/-- `values` are the whole numbers `ns`. -/
structure Floating.Integers.Are (values : List D) (ns : List Int) : Prop where
  values_eq : values = ns.map ints.ofInt
  exact : ∀ n ∈ ns, n.natAbs ≤ 2 ^ 53

/-- Names are metric names, and boundaries are whole numbers. -/
def RegistryOp.Exported : RegistryOp fl → Prop
  | .counter name _ _ | .gauge name _ _ | .bridgeGauge name _ _ _ => isName name = true
  | .histogram name _ boundaries _ =>
    isName name = true ∧ ∃ ns, ints.Are boundaries.values ns
  | _ => True

/-! ## What is registered -/

def MetricMeta.Named (name : Bytes) (m : MetricMeta) : Prop := isName name = true ∧ m.name = name

/-- The buckets add up to the count, and the boundaries are whole numbers. -/
structure Histogram.Whole (h : Histogram fl) : Prop where
  counted : (cumulate 0 h.buckets).getLastD 0 = h.count
  integers : ∃ ns, ints.Are h.boundaries.values ns

/-- Each metric has the name it is found under. -/
structure MetricsRegistry.Exportable (r : MetricsRegistry fl) : Prop where
  counters : Table.All (fun name c => c.metadata.Named name) r.counters
  gauges : Table.All (fun name g => g.metadata.Named name) r.gauges
  histograms : Table.All (fun name h => h.metadata.Named name ∧ h.Whole ints) r.histograms
  bridges : Table.All (fun name bg => bg.metadata.Named name) r.bridges

namespace Histogram

theorem getLastD_cumulate (cumulative : UInt64) (l : List UInt64) :
    (cumulate cumulative l).getLastD cumulative = cumulative + l.sum := by
  induction l generalizing cumulative with
  | nil => exact (UInt64.add_zero cumulative).symm
  | cons n l ih =>
    rw [cumulate, List.getLastD_cons, ih, List.sum_cons, UInt64.add_assoc]

theorem sum_modify {l : List UInt64} {i : Nat} (hi : i < l.length) :
    (l.modify i (· + 1)).sum = l.sum + 1 := by
  induction l generalizing i with
  | nil => exact absurd hi (Nat.not_lt_zero i)
  | cons n l ih =>
    cases i with
    | zero =>
      rw [List.modify_zero_cons, List.sum_cons, List.sum_cons, UInt64.add_assoc,
        UInt64.add_comm 1, ← UInt64.add_assoc]
    | succ i =>
      rw [List.modify_succ_cons, List.sum_cons, List.sum_cons,
        ih (Nat.lt_of_succ_lt_succ hi), UInt64.add_assoc]

variable {ints} {h : Histogram fl}

theorem Whole.create (metadata : MetricMeta) {boundaries : Boundaries fl} {ns : List Int}
    (hns : ints.Are boundaries.values ns) : (create metadata boundaries).Whole ints where
  counted := by
    rw [getLastD_cumulate, UInt64.zero_add]
    show (List.replicate _ 0).sum = 0
    induction boundaries.values.length + 1 with
    | zero => rfl
    | succ n ih => rw [List.replicate_succ, List.sum_cons, ih, UInt64.zero_add]
  integers := ⟨ns, hns⟩

theorem Whole.observe (hw : h.Whole ints) (value : D) : (h.observe value).Whole ints where
  counted := by
    have hcounted := hw.counted
    rw [getLastD_cumulate, UInt64.zero_add] at hcounted ⊢
    have hidx : h.boundaries.values.findIdx (fl.le value) < h.buckets.length := by
      rw [h.sized]
      exact Nat.lt_succ_of_le List.findIdx_le_length
    show (h.buckets.modify _ (· + 1)).sum = h.count + 1
    rw [sum_modify hidx, hcounted]
  integers := hw.integers

end Histogram

namespace MetricsRegistry
variable {ints} {r : MetricsRegistry fl}

theorem Exportable.init : ({} : MetricsRegistry fl).Exportable ints :=
  ⟨.nil, .nil, .nil, .nil⟩

/-- The order of the entries does not matter. -/
theorem Exportable.note (h : r.Exportable ints) (isNew : Bool) (kind : MetricKind)
    (name : Bytes) : (r.note isNew kind name).Exportable ints := by
  rw [MetricsRegistry.note]
  split
  · exact ⟨h.counters, h.gauges, h.histograms, h.bridges⟩
  · exact h

theorem Exportable.step (h : r.Exportable ints) {x : RegistryOp fl} (hx : x.Exported ints) :
    (r.step x).Exportable ints := by
  cases x with
  | counter name help unit =>
    refine Exportable.note ?_ (r.findCounter name).isNone .counter name
    exact ⟨h.counters.assign ⟨hx, rfl⟩, h.gauges, h.histograms, h.bridges⟩
  | gauge name help unit =>
    refine Exportable.note ?_ (r.findGauge name).isNone .gauge name
    exact ⟨h.counters, h.gauges.assign ⟨hx, rfl⟩, h.histograms, h.bridges⟩
  | histogram name help boundaries unit =>
    obtain ⟨hname, ns, hns⟩ := hx
    refine Exportable.note ?_ (r.findHistogram name).isNone .histogram name
    exact ⟨h.counters, h.gauges, h.histograms.assign ⟨⟨hname, rfl⟩, .create _ hns⟩, h.bridges⟩
  | bridgeGauge name help callback unit =>
    refine Exportable.note ?_ (r.findBridge name).isNone .bridgeGauge name
    exact ⟨h.counters, h.gauges, h.histograms, h.bridges.assign ⟨hx, rfl⟩⟩
  | increment name delta => exact { h with counters := h.counters.modify fun _ _ hc => hc }
  | set name value => exact { h with gauges := h.gauges.modify fun _ _ hg => hg }
  | observe name value =>
    exact { h with histograms := h.histograms.modify fun _ _ hh => ⟨hh.1, hh.2.observe value⟩ }
  | returns name result =>
    have hbridges : Table.All (fun name bg => bg.metadata.Named name)
        (Table.modify name (fun b => { b with callback := result }) r.bridges) :=
      h.bridges.modify fun _ _ hb => hb
    exact { h with bridges := hbridges }
  | clear => exact .init

theorem exportable_run {xs : List (RegistryOp fl)} (hxs : ∀ x ∈ xs, x.Exported ints) :
    (ofOps xs).Exportable ints := by
  have hguard : GuardedRun.Meets MetricsRegistry.step (fun _ x => x.Exported ints)
      ({} : MetricsRegistry fl) xs := GuardedRun.meets_of_forall (fun x hx _ => hxs x hx) _
  exact hguard.invariant (fun _ _ h hx => h.step hx) Exportable.init

end MetricsRegistry

/-! ## The page -/

/-- What is printed of a `double` -/
def doubleText (fl : Floating D) (v : D) : Bytes := PrometheusExporter.formatDouble fl [] v

/-- The lines of one metric. -/
def MetricMeta.block (m : MetricMeta) (family : Family) (samples : List Line) : List Line :=
  .help m.name m.help :: .type m.name family :: (samples ++ [.blank])

def Counter.lines (c : Counter) : List Line :=
  c.metadata.block .counter [.sample c.metadata.name none (decimal c.value.toNat)]

def Gauge.lines (fl : Floating D) (g : Gauge D) : List Line :=
  g.metadata.block .gauge [.sample g.metadata.name none (doubleText fl g.value)]

def BridgeGauge.lines (fl : Floating D) (bg : BridgeGauge D) : List Line :=
  bg.metadata.block .gauge
    [.sample bg.metadata.name none (doubleText fl (bg.callback.getD (fl.ofNat 0)))]

namespace Histogram

def bucketLine (name le : Bytes) (n : UInt64) : Line :=
  .sample (name ++ ascii "_bucket") (some le) (decimal n.toNat)

def samples (h : Histogram fl) : List Line :=
  let name := h.metadata.name
  let snap := h.snapshot
  (snap.boundaries.zip snap.bucketCounts).map (fun b => bucketLine name (fl.print6g b.1) b.2) ++
    [bucketLine name (ascii "+Inf") (snap.bucketCounts.getLastD 0),
      .sample (name ++ ascii "_sum") none (doubleText fl snap.sum),
      .sample (name ++ ascii "_count") none (decimal snap.count.toNat)]

def lines (h : Histogram fl) : List Line := h.metadata.block .histogram h.samples

end Histogram

def MetricKind.family : MetricKind → Family
  | .counter => .counter
  | .gauge | .bridgeGauge => .gauge
  | .histogram => .histogram

namespace MetricsRegistry

/-- The lines of an entry. -/
def lines (r : MetricsRegistry fl) (e : MetricEntry) : List Line :=
  match e.kind with
  | .counter => (r.findCounter e.name).elim [] Counter.lines
  | .gauge => (r.findGauge e.name).elim [] (Gauge.lines fl)
  | .histogram => (r.findHistogram e.name).elim [] Histogram.lines
  | .bridgeGauge => (r.findBridge e.name).elim [] (BridgeGauge.lines fl)

/-- **The page of a registry.** -/
def document (r : MetricsRegistry fl) : List Line := r.entries.flatMap r.lines

end MetricsRegistry

/-! ## What is written -/

namespace PrometheusExporter

theorem escapeHelp_eq (out s : Bytes) : escapeHelp out s = out ++ escape s := by
  rw [escapeHelp, List.foldl_append_eq_append]
  rfl

theorem formatDouble_eq (out : Bytes) (v : D) :
    formatDouble fl out v = out ++ doubleText fl v := by
  rw [doubleText, formatDouble, formatDouble]
  split
  · rfl
  · split
    · rfl
    · split <;> rfl

theorem writeMeta_eq (out : Bytes) (m : MetricMeta) (family : Family) :
    writeMeta out m (32 :: (family.name ++ [10])) =
      out ++ render [.help m.name m.help, .type m.name family] := by
  simp only [writeMeta, escapeHelp_eq, render, Line.render, List.flatMap_cons, List.flatMap_nil,
    List.append_assoc, List.append_nil, List.cons_append]
  rfl

/-- The lines of a metric, written one after the other. -/
theorem render_block (m : MetricMeta) (family : Family) (samples : List Line) :
    render (m.block family samples) =
      render [.help m.name m.help, .type m.name family] ++ (render samples ++ [10]) := by
  simp only [MetricMeta.block, render, List.flatMap_cons, List.flatMap_append, List.flatMap_nil,
    List.append_assoc, List.append_nil]
  rfl

theorem writeCounter_eq (out : Bytes) (c : Counter) :
    writeCounter out c = out ++ render c.lines := by
  rw [writeCounter, show ascii " counter\n" = 32 :: (Family.counter.name ++ [10]) from rfl,
    writeMeta_eq, Counter.lines, render_block]
  simp only [formatUInt64, render, Line.render, List.flatMap_cons, List.flatMap_nil,
    List.append_assoc, List.append_nil, List.cons_append]
  rfl

theorem writeGauge_eq (out : Bytes) (g : Gauge D) :
    writeGauge fl out g = out ++ render (g.lines fl) := by
  rw [writeGauge, show ascii " gauge\n" = 32 :: (Family.gauge.name ++ [10]) from rfl,
    writeMeta_eq, Gauge.lines, render_block]
  simp only [formatDouble_eq, render, Line.render, List.flatMap_cons, List.flatMap_nil,
    List.append_assoc, List.append_nil, List.cons_append]
  rfl

theorem writeBridgeGauge_eq (out : Bytes) (bg : BridgeGauge D) :
    writeBridgeGauge fl out bg = out ++ render (bg.lines fl) :=
  writeGauge_eq out ⟨bg.metadata, bg.callback.getD (fl.ofNat 0)⟩

theorem writeBucket_eq (name out : Bytes) (b : D × UInt64) :
    writeBucket fl name out b =
      out ++ render [Histogram.bucketLine name (fl.print6g b.1) b.2] := by
  simp only [writeBucket, Histogram.bucketLine, formatUInt64, render, Line.render,
    List.flatMap_cons, List.flatMap_nil, List.append_assoc, List.append_nil]
  rfl

theorem writeHistogram_eq (out : Bytes) (h : Histogram fl) :
    writeHistogram out h = out ++ render h.lines := by
  have hloop (l : List (D × UInt64)) (out : Bytes) :
      l.foldl (writeBucket fl h.metadata.name) out = out ++ render
        (l.map fun b => Histogram.bucketLine h.metadata.name (fl.print6g b.1) b.2) := by
    induction l generalizing out with
    | nil => exact (List.append_nil out).symm
    | cons b l ih =>
      rw [List.foldl_cons, ih, writeBucket_eq]
      simp only [render, List.flatMap_cons, List.flatMap_nil, List.map_cons, List.append_assoc,
        List.append_nil]
  rw [writeHistogram, show ascii " histogram\n" = 32 :: (Family.histogram.name ++ [10]) from rfl,
    writeMeta_eq, Histogram.lines, render_block, hloop, Histogram.samples]
  simp only [formatDouble_eq, formatUInt64, Histogram.bucketLine, render, Line.render,
    List.flatMap_append, List.flatMap_cons, List.flatMap_nil, List.append_assoc, List.append_nil,
    List.cons_append]
  rfl

theorem writeEntry_eq (r : MetricsRegistry fl) (out : Bytes) (e : MetricEntry) :
    writeEntry r out e = out ++ render (r.lines e) := by
  have hnone : out = out ++ render [] := (List.append_nil out).symm
  obtain ⟨kind, name⟩ := e
  rw [writeEntry, MetricsRegistry.lines]
  cases kind with
  | counter =>
    cases r.findCounter name with
    | none => exact hnone
    | some c => exact writeCounter_eq out c
  | gauge =>
    cases r.findGauge name with
    | none => exact hnone
    | some g => exact writeGauge_eq out g
  | histogram =>
    cases r.findHistogram name with
    | none => exact hnone
    | some h => exact writeHistogram_eq out h
  | bridgeGauge =>
    cases r.findBridge name with
    | none => exact hnone
    | some bg => exact writeBridgeGauge_eq out bg

/-- **The exporter writes the page of the registry.** -/
theorem serialize_eq (r : MetricsRegistry fl) : serialize r = render r.document := by
  have hround : writeEntry r = fun out e => out ++ render (r.lines e) :=
    funext fun out => funext fun e => writeEntry_eq r out e
  rw [serialize, hround, List.foldl_append_eq_append, List.nil_append, MetricsRegistry.document,
    render, List.flatMap_assoc]
  rfl

end PrometheusExporter

/-! ## What is read -/

theorem isValue_of_isNumber {s : Bytes} (h : Json.isNumber s = true) : isValue s = true := by
  rw [isValue, decide_eq_true_eq]
  exact Or.inr (Or.inr (Or.inr h))

theorem isValue_decimal (n : Nat) : isValue (decimal n) = true :=
  isValue_of_isNumber (isNumber_decimal n)

theorem isValue_doubleText (v : D) : isValue (doubleText fl v) = true := by
  rw [doubleText, PrometheusExporter.formatDouble]
  split
  · rfl
  · rename_i hnan
    have hnan := Bool.eq_false_of_not_eq_true hnan
    split
    · split <;> rfl
    · rename_i hinf
      have hinf := Bool.eq_false_of_not_eq_true hinf
      split
      · exact isValue_of_isNumber (fl.print0f_number v hnan hinf)
      · exact isValue_of_isNumber (fl.print6g_number v hnan hinf)

theorem isName_append {name s : Bytes} (h : isName name = true) (hs : s.all isNameChar = true) :
    isName (name ++ s) = true := by
  cases name with
  | nil => cases h
  | cons b name =>
    rw [isName, Bool.and_eq_true] at h
    rw [List.cons_append, isName, List.all_append, h.1, h.2, hs]
    rfl

/-- The label of a whole number has no quote and no newline. -/
theorem label_print (n : Int) : ∀ b ∈ SixDigits.print n, b ≠ 34 ∧ b ≠ 10 := by
  intro b hb
  have hchar := Json.all_of_isNumber (SixDigits.isNumber_print n) b hb
  constructor <;> rintro rfl <;> exact absurd hchar (by decide)

theorem label_inf : ∀ b ∈ ascii "+Inf", b ≠ 34 ∧ b ≠ 10 := by
  have hall : (ascii "+Inf").all (fun b => b != 34 && b != 10) = true := by decide
  intro b hb
  have hchar := List.all_eq_true.mp hall b hb
  rwa [Bool.and_eq_true, bne_iff_ne, bne_iff_ne] at hchar

theorem MetricMeta.Named.valid {m : MetricMeta} {name : Bytes} (h : m.Named name)
    {family : Family} {samples : List Line} (hsamples : ∀ l ∈ samples, l.Valid) :
    ∀ l ∈ m.block family samples, l.Valid := by
  obtain ⟨hname, rfl⟩ := h
  intro l hl
  rw [MetricMeta.block, List.mem_cons, List.mem_cons, List.mem_append, List.mem_singleton] at hl
  rcases hl with rfl | rfl | hl | rfl
  · exact hname
  · exact hname
  · exact hsamples l hl
  · exact trivial

namespace Histogram
variable {ints} {h : Histogram fl} {name : Bytes}

theorem snapshot_sized (h : Histogram fl) :
    h.snapshot.bucketCounts.length = h.snapshot.boundaries.length + 1 :=
  (length_cumulate 0 h.buckets).trans h.sized

/-- Each boundary has its count. -/
theorem zip_boundaries (h : Histogram fl) :
    (h.snapshot.boundaries.zip h.snapshot.bucketCounts).map (·.1) = h.boundaries.values := by
  have hle : h.snapshot.boundaries.length ≤ h.snapshot.bucketCounts.length := by
    rw [snapshot_sized]
    exact Nat.le_succ _
  exact List.map_fst_zip hle

/-- The labels below `+Inf`. -/
theorem labels {ns : List Int} (hns : ints.Are h.boundaries.values ns) :
    (h.snapshot.boundaries.zip h.snapshot.bucketCounts).map (fun b => fl.print6g b.1) =
      ns.map SixDigits.print := by
  rw [← Function.comp_def fl.print6g, ← List.map_map, zip_boundaries, hns.values_eq, List.map_map]
  exact List.map_congr_left fun n hn => ints.print6g_ofInt n (hns.exact n hn)

theorem isSample (h : Histogram fl) : ∀ l ∈ h.samples, l.isSample = true := by
  intro l hl
  rw [samples, List.mem_append] at hl
  rcases hl with hl | hl
  · obtain ⟨b, -, rfl⟩ := List.mem_map.mp hl
    rfl
  · simp only [List.mem_cons, List.not_mem_nil, or_false] at hl
    rcases hl with rfl | rfl | rfl <;> rfl

theorem valid (hname : h.metadata.Named name) (hw : h.Whole ints) :
    ∀ l ∈ h.samples, l.Valid := by
  obtain ⟨hname, rfl⟩ := hname
  obtain ⟨ns, hns⟩ := hw.integers
  intro l hl
  rw [samples, List.mem_append] at hl
  rcases hl with hl | hl
  · obtain ⟨b, hb, rfl⟩ := List.mem_map.mp hl
    have hlabel : fl.print6g b.1 ∈ ns.map SixDigits.print := by
      rw [← labels hns]
      exact List.mem_map.mpr ⟨b, hb, rfl⟩
    obtain ⟨n, -, hn⟩ := List.mem_map.mp hlabel
    refine ⟨isName_append hname (by decide), isValue_decimal _, ?_⟩
    rw [← hn]
    exact label_print n
  · simp only [List.mem_cons, List.not_mem_nil, or_false] at hl
    rcases hl with rfl | rfl | rfl
    · exact ⟨isName_append hname (by decide), isValue_decimal _, label_inf⟩
    · exact ⟨isName_append hname (by decide), isValue_doubleText _⟩
    · exact ⟨isName_append hname (by decide), isValue_decimal _⟩

end Histogram

namespace MetricsRegistry
variable {ints} {r : MetricsRegistry fl}

/-- The block of an entry. -/
theorem Exportable.lines_eq (h : r.Exportable ints) {e : MetricEntry}
    (he : r.registered e = true) : ∃ (m : MetricMeta) (samples : List Line), m.Named e.name ∧
      r.lines e = m.block e.kind.family samples ∧
      ∀ l ∈ samples, l.Valid ∧ l.isSample = true := by
  have hone {m : MetricMeta} {value : Bytes} (hm : m.Named e.name) (hvalue : isValue value = true) :
      ∀ l ∈ [Line.sample m.name none value], l.Valid ∧ l.isSample = true := fun l hl => by
    rw [List.mem_singleton.mp hl]
    obtain ⟨hname, hm⟩ := hm
    exact ⟨⟨hm ▸ hname, hvalue⟩, rfl⟩
  obtain ⟨kind, name⟩ := e
  rw [MetricsRegistry.lines]
  cases kind with
  | counter =>
    obtain ⟨c, hfind⟩ := Option.isSome_iff_exists.mp he
    have hnamed := h.counters name c hfind
    rw [hfind]
    exact ⟨c.metadata, _, hnamed, rfl, hone hnamed (isValue_decimal _)⟩
  | gauge =>
    obtain ⟨g, hfind⟩ := Option.isSome_iff_exists.mp he
    have hnamed := h.gauges name g hfind
    rw [hfind]
    exact ⟨g.metadata, _, hnamed, rfl, hone hnamed (isValue_doubleText _)⟩
  | histogram =>
    obtain ⟨hist, hfind⟩ := Option.isSome_iff_exists.mp he
    obtain ⟨hnamed, hwhole⟩ := h.histograms name hist hfind
    rw [hfind]
    exact ⟨hist.metadata, _, hnamed, rfl, fun l hl =>
      ⟨Histogram.valid hnamed hwhole l hl, hist.isSample l hl⟩⟩
  | bridgeGauge =>
    obtain ⟨bg, hfind⟩ := Option.isSome_iff_exists.mp he
    have hnamed := h.bridges name bg hfind
    rw [hfind]
    exact ⟨bg.metadata, _, hnamed, rfl, hone hnamed (isValue_doubleText _)⟩

/-- **What is exported is read as the page of the registry.** -/
theorem Exportable.parse_serialize (h : r.Exportable ints) (hindexed : r.Indexed) :
    parse (PrometheusExporter.serialize r) = some r.document := by
  rw [PrometheusExporter.serialize_eq]
  refine parse_render fun l hl => ?_
  obtain ⟨e, he, hl⟩ := List.mem_flatMap.mp hl
  obtain ⟨m, samples, hm, hlines, hsamples⟩ := h.lines_eq ((hindexed.mem_iff e).mp he)
  rw [hlines] at hl
  exact hm.valid (fun l hl => (hsamples l hl).1) l hl

/-! ## `TYPE` lines -/

theorem countP_block (m : MetricMeta) (family : Family) {samples : List Line}
    (hsamples : ∀ l ∈ samples, l.isSample = true) (name : Bytes) :
    (m.block family samples).countP (Line.isTypeOf name) = if m.name = name then 1 else 0 := by
  have hnone : samples.countP (Line.isTypeOf name) = 0 := by
    rw [List.countP_eq_zero]
    intro l hl htype
    have hsample := hsamples l hl
    cases l with
    | type n f => cases hsample
    | blank | help | sample => cases htype
  have hblank : [Line.blank].countP (Line.isTypeOf name) = 0 := rfl
  rw [MetricMeta.block, List.countP_cons_of_neg (show ¬ false = true from Bool.false_ne_true),
    List.countP_cons, List.countP_append, hnone, hblank, Nat.zero_add]
  show (if decide (m.name = name) = true then 1 else 0) = _
  simp only [decide_eq_true_eq]

/-- **A metric has a `TYPE` line for each entry with its name.** -/
theorem Exportable.count_type (h : r.Exportable ints) (hindexed : r.Indexed) (name : Bytes) :
    r.document.countP (Line.isTypeOf name) = (r.order.map (·.name)).count name := by
  have hentry (es : List MetricEntry) (hes : ∀ e ∈ es, r.registered e = true) :
      (es.flatMap r.lines).countP (Line.isTypeOf name) = (es.map (·.name)).count name := by
    induction es with
    | nil => rfl
    | cons e es ih =>
      obtain ⟨he, hes⟩ := List.forall_mem_cons.mp hes
      obtain ⟨m, samples, hm, hlines, hsamples⟩ := h.lines_eq he
      rw [List.flatMap_cons, List.countP_append, ih hes, hlines,
        countP_block m _ (fun l hl => (hsamples l hl).2), hm.2, List.map_cons, List.count_cons,
        Nat.add_comm]
      simp only [beq_iff_eq]
  exact hentry r.order fun e he => (hindexed.mem_iff e).mp he

/-! ## Buckets -/

/-- Behind its `TYPE` line a histogram has its own samples. -/
theorem Exportable.samplesOf (h : r.Exportable ints) (hindexed : r.Indexed) {name : Bytes}
    {hist : Histogram fl} (hfind : r.findHistogram name = some hist) :
    samplesOf name r.document = hist.samples := by
  have hregistered : r.registered ⟨.histogram, name⟩ = true :=
    Option.isSome_iff_exists.mpr ⟨hist, hfind⟩
  obtain ⟨es, es', horder⟩ := List.append_of_mem ((hindexed.mem_iff _).mpr hregistered)
  obtain ⟨-, hname⟩ := (h.histograms name hist hfind).1
  have hlines : r.lines ⟨.histogram, name⟩ = hist.metadata.block .histogram hist.samples := by
    show (r.findHistogram name).elim [] Histogram.lines = _
    rw [hfind]
    rfl
  have hdocument : r.document =
      (es.flatMap r.lines ++ [.help name hist.metadata.help]) ++
        .type name .histogram :: (hist.samples ++ .blank :: es'.flatMap r.lines) := by
    rw [document, entries, horder, List.flatMap_append, List.flatMap_cons, hlines,
      MetricMeta.block, hname]
    simp only [List.append_assoc, List.cons_append, List.nil_append]
  rw [hdocument]
  refine samplesOf_append ?_ hist.isSample
  intro l hl heq
  subst heq
  rcases List.mem_append.mp hl with hl | hl
  · obtain ⟨e, he, hl⟩ := List.mem_flatMap.mp hl
    have hmem : e ∈ r.order := horder ▸ List.mem_append_left _ he
    obtain ⟨m, samples, hm, hlines, hsamples⟩ := h.lines_eq ((hindexed.mem_iff e).mp hmem)
    rw [hlines, MetricMeta.block, List.mem_cons, List.mem_cons, List.mem_append,
      List.mem_singleton] at hl
    rcases hl with hl | hl | hl | hl
    · cases hl
    · obtain ⟨heq, hkind⟩ := Line.type.inj hl
      have hkind : e.kind = .histogram := by
        cases hk : e.kind with
        | histogram => rfl
        | counter | gauge | bridgeGauge =>
          rw [hk] at hkind
          cases hkind
      have he' : e = ⟨.histogram, name⟩ := by
        rw [← hkind, heq, hm.2]
      have hnodup := hindexed.nodup
      rw [horder, List.nodup_append] at hnodup
      exact hnodup.2.2 e he _ (List.mem_cons_self ..) he'
    · cases (hsamples _ hl).2
    · cases hl
  · cases List.mem_singleton.mp hl

end MetricsRegistry

/-- A number is not the label `+Inf`. -/
theorem readLabel_print (n : Int) :
    readLabel (SixDigits.print n) = some ((SixDigits.round n : ℚ) : WithTop ℚ) := by
  have hne : SixDigits.print n ≠ ascii "+Inf" := fun heq =>
    absurd (SixDigits.isNumber_print n) (by rw [heq]; decide)
  rw [readLabel, if_neg hne, SixDigits.read_print]
  rfl

namespace Histogram
variable {ints} {h : Histogram fl}

theorem bucket_bucketLine (name le : Bytes) (n : UInt64) :
    (bucketLine name le n).bucket name = some (le, decimal n.toNat) := if_pos rfl

theorem count_bucketLine (name le : Bytes) (n : UInt64) :
    (bucketLine name le n).count name = none := rfl

/-- The buckets that are read of a histogram. -/
theorem filterMap_bucket (h : Histogram fl) :
    h.samples.filterMap (Line.bucket h.metadata.name) =
      (h.snapshot.boundaries.zip h.snapshot.bucketCounts).map
          (fun b => (fl.print6g b.1, decimal b.2.toNat)) ++
        [(ascii "+Inf", decimal (h.snapshot.bucketCounts.getLastD 0).toNat)] := by
  have hbuckets (l : List (D × UInt64)) :
      (l.map fun b => bucketLine h.metadata.name (fl.print6g b.1) b.2).filterMap
        (Line.bucket h.metadata.name) = l.map fun b => (fl.print6g b.1, decimal b.2.toNat) := by
    rw [List.filterMap_map, ← List.filterMap_eq_map]
    exact List.filterMap_congr fun b _ => bucket_bucketLine ..
  rw [samples, List.filterMap_append, hbuckets, List.filterMap_cons, bucket_bucketLine]
  rfl

/-- The counts that are read of a histogram. -/
theorem filterMap_count (h : Histogram fl) :
    h.samples.filterMap (Line.count h.metadata.name) = [decimal h.count.toNat] := by
  have hbuckets (l : List (D × UInt64)) :
      (l.map fun b => bucketLine h.metadata.name (fl.print6g b.1) b.2).filterMap
        (Line.count h.metadata.name) = [] := by
    rw [List.filterMap_eq_nil_iff]
    intro l hl
    obtain ⟨b, -, rfl⟩ := List.mem_map.mp hl
    rfl
  have hsum (v : Bytes) : (Line.sample (h.metadata.name ++ ascii "_sum") none v).count
      h.metadata.name = none :=
    if_neg fun heq => absurd (List.append_cancel_left heq) (by decide)
  have hcount (v : Bytes) : (Line.sample (h.metadata.name ++ ascii "_count") none v).count
      h.metadata.name = some v := if_pos rfl
  rw [samples, List.filterMap_append, hbuckets, List.nil_append, List.filterMap_cons,
    count_bucketLine, List.filterMap_cons, hsum, List.filterMap_cons, hcount]
  rfl

theorem increasing {ns : List Int} (hns : ints.Are h.boundaries.values ns) :
    ns.Pairwise (· < ·) := by
  have hincreasing := h.boundaries.increasing
  rw [hns.values_eq, List.pairwise_map] at hincreasing
  exact hincreasing.imp_of_mem fun hm hn hlt =>
    (ints.lt_ofInt _ _ (hns.exact _ hm) (hns.exact _ hn)).mp hlt

/-- **The buckets of a histogram are in order exactly if its boundaries differ in their
first six digits.** -/
theorem bucketed_iff (hw : h.Whole ints) {ns : List Int}
    (hns : ints.Are h.boundaries.values ns) {ls : List Line}
    (hls : samplesOf h.metadata.name ls = h.samples) :
    Bucketed h.metadata.name ls ↔ (ns.map SixDigits.round).Nodup := by
  have hbuckets : Exposition.buckets h.metadata.name ls = _ := (congrArg _ hls).trans h.filterMap_bucket
  have hlabels : (Exposition.buckets h.metadata.name ls).map (·.1) =
      ns.map SixDigits.print ++ [ascii "+Inf"] := by
    rw [hbuckets, List.map_append, List.map_map, ← labels hns]
    rfl
  have hread : (Exposition.buckets h.metadata.name ls).map (readLabel ·.1) =
      (ns.map (fun n => ((SixDigits.round n : ℚ) : WithTop ℚ)) ++ [⊤]).map some := by
    rw [← Function.comp_def readLabel, ← List.map_map, hlabels, List.map_append, List.map_append,
      List.map_map, List.map_map]
    congr 1
    exact List.map_congr_left fun n _ => readLabel_print n
  have hordered : (ns.map (fun n => ((SixDigits.round n : ℚ) : WithTop ℚ)) ++ [⊤]).Pairwise
      (· < ·) ↔ (ns.map SixDigits.round).Nodup := by
    rw [List.pairwise_append, List.pairwise_map, List.nodup_iff_pairwise_ne, List.pairwise_map]
    constructor
    · rintro ⟨hrounds, -⟩
      exact hrounds.imp fun hlt => ne_of_lt (Int.cast_lt.mp (WithTop.coe_lt_coe.mp hlt))
    · intro hrounds
      refine ⟨((increasing hns).and hrounds).imp fun hlt => ?_, List.pairwise_singleton _ _, ?_⟩
      · exact WithTop.coe_lt_coe.mpr
          (Int.cast_lt.mpr ((SixDigits.round_lt_iff hlt.1).mpr hlt.2))
      · intro x hx y hy
        obtain ⟨n, -, rfl⟩ := List.mem_map.mp hx
        rw [List.mem_singleton.mp hy]
        exact WithTop.coe_lt_top _
  constructor
  · rintro ⟨-, ⟨bounds, hbounds, hpairwise⟩, -⟩
    rw [hread] at hbounds
    rw [← List.map_injective_iff.mpr (Option.some_injective _) hbounds] at hpairwise
    exact hordered.mp hpairwise
  · intro hrounds
    refine ⟨?_, ⟨_, hread, hordered.mpr hrounds⟩, ⟨decimal h.count.toNat, ?_, ?_⟩⟩
    · have hnodup : ((Exposition.buckets h.metadata.name ls).map (readLabel ·.1)).Nodup := by
        rw [hread]
        exact List.Nodup.map (Option.some_injective _) ((hordered.mpr hrounds).imp ne_of_lt)
      rw [← Function.comp_def readLabel, ← List.map_map] at hnodup
      exact hnodup.of_map _
    · rw [hbuckets, List.getLast?_concat]
      show some (ascii "+Inf", decimal ((cumulate 0 h.buckets).getLastD 0).toNat) = _
      rw [hw.counted]
    · exact (congrArg _ hls).trans h.filterMap_count

end Histogram

/-! ## The page of every registry -/

namespace MetricsRegistry

/-- **What a scraper asks of `text`**, as the page of `r`: it consists of the complete lines
of the metrics, each metric has one `TYPE` line, and the buckets of each histogram are in
order. -/
structure Scrapable (r : MetricsRegistry fl) (text : Bytes) : Prop where
  lines : parse text = some r.document
  typed : ∀ e, r.registered e = true → r.document.countP (Line.isTypeOf e.name) = 1
  bucketed : ∀ name, (r.findHistogram name).isSome = true → Bucketed name r.document

/-- The boundaries of each histogram differ in their first six digits. -/
def Distinguished (r : MetricsRegistry fl) : Prop :=
  ∀ name hist ns, r.findHistogram name = some hist → ints.Are hist.boundaries.values ns →
    (ns.map SixDigits.round).Nodup

/-- **The export is a page exactly if no name is that of two metrics and no two boundaries
of a histogram are printed alike.** -/
theorem scrapable_iff (xs : List (RegistryOp fl)) (hxs : ∀ x ∈ xs, x.Exported ints) :
    (ofOps xs).Scrapable (PrometheusExporter.serialize (ofOps xs)) ↔
      ((ofOps xs).order.map (·.name)).Nodup ∧ (ofOps xs).Distinguished ints := by
  have hexport := exportable_run hxs
  have hindexed := indexed_run xs
  have hbucketed {name : Bytes} {hist : Histogram fl} {ns : List Int}
      (hfind : (ofOps xs).findHistogram name = some hist)
      (hns : ints.Are hist.boundaries.values ns) :
      Bucketed name (ofOps xs).document ↔ (ns.map SixDigits.round).Nodup := by
    obtain ⟨⟨-, hname⟩, hwhole⟩ := hexport.histograms name hist hfind
    subst hname
    exact Histogram.bucketed_iff hwhole hns (hexport.samplesOf hindexed hfind)
  constructor
  · rintro ⟨-, htyped, hbuckets⟩
    refine ⟨List.nodup_iff_count_eq_one.mpr fun name hname => ?_, fun name hist ns hfind hns => ?_⟩
    · obtain ⟨e, he, rfl⟩ := List.mem_map.mp hname
      rw [← hexport.count_type hindexed]
      exact htyped e ((hindexed.mem_iff e).mp he)
    · exact (hbucketed hfind hns).mp (hbuckets name (Option.isSome_iff_exists.mpr ⟨hist, hfind⟩))
  · rintro ⟨hnames, hdistinct⟩
    refine ⟨hexport.parse_serialize hindexed, fun e he => ?_, fun name hname => ?_⟩
    · rw [hexport.count_type hindexed]
      exact List.nodup_iff_count_eq_one.mp hnames _
        (List.mem_map.mpr ⟨e, (hindexed.mem_iff e).mpr he, rfl⟩)
    · obtain ⟨hist, hfind⟩ := Option.isSome_iff_exists.mp hname
      obtain ⟨ns, hns⟩ := (hexport.histograms name hist hfind).2.integers
      exact (hbucketed hfind hns).mpr (hdistinct name hist ns hfind hns)

end MetricsRegistry

/-! ## Registries of whole numbers -/

/-- The whole numbers alone, exact. -/
def Floating.whole : Floating Int where
  ofNat := Int.ofNat
  ofScientific m k := m / 10 ^ k
  add := (· + ·)
  sub := (· - ·)
  mul := (· * ·)
  div := (· / ·)
  lt a b := a < b
  le a b := a ≤ b
  isNan _ := false
  isInf _ := false
  isWhole _ := true
  fabs n := n.natAbs
  print0f := signedDecimal
  print6g := SixDigits.print
  print0f_number n _ _ := isNumber_signedDecimal n
  print6g_number n _ _ := SixDigits.isNumber_print n

def Floating.wholeIntegers : Floating.whole.Integers where
  ofInt n := n
  lt_ofInt _ _ _ _ := decide_eq_true_iff
  print6g_ofInt _ _ := rfl

namespace MetricsRegistry

def sizes : Boundaries Floating.whole where
  values := [1000, 1000000]
  nonempty := List.cons_ne_nil _ _
  few := by decide
  increasing := by decide

/-- Two boundaries that are printed `1e+06`. -/
def alike : Boundaries Floating.whole where
  values := [1000000, 1000001]
  nonempty := List.cons_ne_nil _ _
  few := by decide
  increasing := by decide

/-- A counter with a newline in its help text, and a histogram. -/
def served : List (RegistryOp Floating.whole) :=
  [.counter (ascii "requests") (ascii "all\n# TYPE requests gauge") [],
    .histogram (ascii "size") (ascii "bytes") sizes [], .observe (ascii "size") 1500]

theorem served_scrapable :
    (∀ x ∈ served, x.Exported Floating.wholeIntegers) ∧
      ((ofOps served).Scrapable (PrometheusExporter.serialize (ofOps served)) ↔
        ((ofOps served).order.map (·.name)).Nodup ∧
          (ofOps served).Distinguished Floating.wholeIntegers) := by
  have hserved : ∀ x ∈ served, x.Exported Floating.wholeIntegers := by
    intro x hx
    simp only [served, List.mem_cons, List.not_mem_nil, or_false] at hx
    rcases hx with rfl | rfl | rfl
    · exact (by decide : isName (ascii "requests") = true)
    · exact ⟨by decide, sizes.values, rfl, by decide⟩
    · exact trivial
  exact ⟨hserved, scrapable_iff Floating.wholeIntegers served hserved⟩

/-- A counter and a gauge of one name. -/
def twins : List (RegistryOp Floating.whole) :=
  [.counter (ascii "a") [] [], .gauge (ascii "a") [] []]

def close : List (RegistryOp Floating.whole) := [.histogram (ascii "a") [] alike []]

/-- **A name can have two `TYPE` lines, and a histogram a label twice.** -/
theorem unscrapable :
    ((∀ x ∈ twins, x.Exported Floating.wholeIntegers) ∧
      ¬ (ofOps twins).Scrapable (PrometheusExporter.serialize (ofOps twins))) ∧
    (∀ x ∈ close, x.Exported Floating.wholeIntegers) ∧
      ¬ (ofOps close).Scrapable (PrometheusExporter.serialize (ofOps close)) := by
  refine ⟨⟨fun x hx => ?_, fun h => ?_⟩, fun x hx => ?_, fun h => ?_⟩
  · simp only [twins, List.mem_cons, List.not_mem_nil, or_false] at hx
    rcases hx with rfl | rfl <;> exact (by decide : isName (ascii "a") = true)
  · exact absurd (h.typed ⟨.counter, ascii "a"⟩ (by decide)) (by decide +kernel)
  · rw [List.mem_singleton.mp hx]
    exact ⟨by decide, alike.values, rfl, by decide⟩
  · exact absurd (h.bucketed (ascii "a") (by decide)).distinct (by decide +kernel)

end MetricsRegistry
end NeuStack
