import NeuStack.ByteStrings
import NeuStack.GuardedRun
import NeuStack.WrapRing
import Mathlib.Data.List.Perm.Subperm

/-! # The data set of TCP samples

The connection engine pushes samples into a `MetricsBuffer`, a ring that overwrites, and
`SampleExporter` appends the new ones to a file.  It knows them in two ways: by the number
of pushes since its last turn, and by their time stamps.

The number alone is right (`Recorded.recent`).  The time stamps lose every sample that is
not later than one written before, so that the export is complete if and only if they
increase strictly (`complete_iff`).
-/
namespace NeuStack
namespace Metrics

/-- `struct TCPSample`. -/
structure TCPSample where
  timestampUs : UInt64
  rttUs : UInt32 := 0
  minRttUs : UInt32 := 0
  srttUs : UInt32 := 0
  cwnd : UInt32 := 0
  ssthresh : UInt32 := 0
  bytesInFlight : UInt32 := 0
  deliveryRate : UInt32 := 0
  sendRate : UInt32 := 0
  lossDetected : UInt8 := 0
  timeoutOccurred : UInt8 := 0
  ecnCeCount : UInt8 := 0
  isAppLimited : UInt8 := 0
  packetsSent : UInt16 := 0
  packetsLost : UInt16 := 0
  deriving DecidableEq

/-- `MetricsBuffer<T, N>`, for `N` the `k`-th power of two. -/
structure MetricsBuffer (T : Type) (k : Nat) where
  buffer : Nat → T
  writePos : BitVec 64 := 0

namespace MetricsBuffer
variable {T : Type} {k : Nat} (b : MetricsBuffer T k)

def push (sample : T) : MetricsBuffer T k where
  buffer := Function.update b.buffer (WrapRing.slot k b.writePos) sample
  writePos := b.writePos + 1

/-- `recent`, the oldest first. -/
def recent (n : BitVec 64) : List T :=
  let count := min n.toNat (min b.writePos.toNat (2 ^ k))
  WrapRing.contents k b.buffer (b.writePos - BitVec.ofNat 64 count) count

def totalPushed : BitVec 64 := b.writePos

end MetricsBuffer

/-- `SampleExporter`; `rows` are the samples written to the file. -/
structure SampleExporter where
  rows : List TCPSample := []
  lastTotal : BitVec 64 := 0
  lastTimestamp : UInt64 := 0
  exportedCount : BitVec 64 := 0

namespace SampleExporter

/-- The first line of the file. -/
def header : Bytes :=
  ascii <| "timestamp_us,rtt_us,min_rtt_us,srtt_us,cwnd,ssthresh,bytes_in_flight," ++
    "delivery_rate,send_rate,loss_detected,timeout_occurred,ecn_ce_count," ++
    "is_app_limited,packets_sent,packets_lost\n"

/-- The line that is written for a sample. -/
def line (s : TCPSample) : Bytes :=
  List.intercalate (ascii ",") (List.map decimal
    [s.timestampUs.toNat, s.rttUs.toNat, s.minRttUs.toNat, s.srttUs.toNat, s.cwnd.toNat,
      s.ssthresh.toNat, s.bytesInFlight.toNat, s.deliveryRate.toNat, s.sendRate.toNat,
      s.lossDetected.toNat, s.timeoutOccurred.toNat, s.ecnCeCount.toNat, s.isAppLimited.toNat,
      s.packetsSent.toNat, s.packetsLost.toNat]) ++ ascii "\n"

/-- What is in the file. -/
def file (e : SampleExporter) : Bytes := header ++ e.rows.flatMap line

/-- The loop of `export_new_samples`. -/
def exportSamples (e : SampleExporter) : List TCPSample → SampleExporter
  | [] => e
  | s :: samples =>
    if s.timestampUs ≤ e.lastTimestamp then exportSamples e samples
    else
      exportSamples
        { e with
          rows := e.rows ++ [s]
          lastTimestamp := s.timestampUs
          exportedCount := e.exportedCount + 1 }
        samples

/-- `export_new_samples` -/
def exportNewSamples (b : MetricsBuffer TCPSample 10) (e : SampleExporter) : SampleExporter :=
  let currentTotal := b.totalPushed
  if currentTotal = e.lastTotal then e
  else
    let newCount := currentTotal - e.lastTotal
    { e.exportSamples (b.recent (if newCount ≤ 1024 then newCount else 1024)) with
      lastTotal := currentTotal }

end SampleExporter

inductive SamplingOp where
  | push (sample : TCPSample)
  | exportNewSamples

/-- A buffer and its exporter, with what was pushed. -/
structure Sampling where
  buffer : MetricsBuffer TCPSample 10
  exporter : SampleExporter := {}
  pushed : List TCPSample := []

namespace Sampling

def step (s : Sampling) : SamplingOp → Sampling
  | .push sample =>
    { s with buffer := s.buffer.push sample, pushed := s.pushed ++ [sample] }
  | .exportNewSamples => { s with exporter := s.exporter.exportNewSamples s.buffer }

/-- At most 1024 pushes between the exports, when `n` were made since the last one. -/
def Frequent : Nat → List SamplingOp → Prop
  | n, [] => n ≤ 1024
  | n, .push _ :: ops => Frequent (n + 1) ops
  | n, .exportNewSamples :: ops => n ≤ 1024 ∧ Frequent 0 ops

/-- What the operations push. -/
def pushes (ops : List SamplingOp) : List TCPSample :=
  ops.filterMap fun
    | .push sample => some sample
    | .exportNewSamples => none

/-- The operations on an empty buffer whose array holds `array`, and one export more. -/
def exported (array : Nat → TCPSample) (ops : List SamplingOp) : Sampling :=
  (GuardedRun.run step { buffer := { buffer := array } } ops).step .exportNewSamples

/-- The time stamps increase, from above zero. -/
def Increasing (l : List TCPSample) : Prop := (0 :: l.map (·.timestampUs)).Pairwise (· < ·)

instance (l : List TCPSample) : Decidable (Increasing l) :=
  inferInstanceAs (Decidable (List.Pairwise ..))

/-- There are not more time stamps than numbers of 64 bits. -/
theorem Increasing.length_lt {l : List TCPSample} (h : Increasing l) : l.length < 2 ^ 64 := by
  have hnodup : ((0 :: l.map (·.timestampUs)).map UInt64.toNat).Nodup :=
    List.pairwise_map.mpr (h.imp fun hlt heq => absurd (UInt64.lt_iff_toNat_lt.mp hlt) (by omega))
  have hsub : (0 :: l.map (·.timestampUs)).map UInt64.toNat ⊆ List.range (2 ^ 64) := by
    intro x hx
    obtain ⟨t, -, rfl⟩ := List.mem_map.mp hx
    exact List.mem_range.mpr t.toNat_lt
  have := (hnodup.subperm hsub).length_le
  rw [List.length_range, List.length_map, List.length_cons, List.length_map] at this
  exact this

/-! ## The rows -/

/-- The rows increase, up to the time stamp that is remembered. -/
structure Sorted (e : SampleExporter) : Prop where
  increasing : Increasing e.rows
  bounded : ∀ s ∈ e.rows, s.timestampUs ≤ e.lastTimestamp

theorem increasing_snoc {l : List TCPSample} {s : TCPSample} {t : UInt64} (h : Increasing l)
    (hbound : ∀ x ∈ l, x.timestampUs ≤ t) (ht : t < s.timestampUs) : Increasing (l ++ [s]) := by
  have happend : (0 :: (l ++ [s]).map (·.timestampUs)) =
      (0 :: l.map (·.timestampUs)) ++ [s.timestampUs] := by
    rw [List.map_append, List.cons_append]
    rfl
  rw [Increasing, happend, List.pairwise_append]
  refine ⟨h, List.pairwise_singleton .., ?_⟩
  intro a ha b hb
  rw [List.mem_singleton.mp hb]
  refine UInt64.lt_of_le_of_lt ?_ ht
  rcases List.mem_cons.mp ha with rfl | ha
  · exact UInt64.zero_le
  · obtain ⟨x, hx, rfl⟩ := List.mem_map.mp ha
    exact hbound x hx

theorem Sorted.exportSamples {e : SampleExporter} (h : Sorted e) (l : List TCPSample) :
    Sorted (e.exportSamples l) := by
  induction l generalizing e with
  | nil => exact h
  | cons s l ih =>
    rw [SampleExporter.exportSamples]
    split
    · exact ih h
    · rename_i hlater
      have hlt : e.lastTimestamp < s.timestampUs := UInt64.not_le.mp hlater
      refine ih ⟨increasing_snoc h.increasing h.bounded hlt, fun x hx => ?_⟩
      rcases List.mem_append.mp hx with hx | hx
      · exact UInt64.le_of_lt (UInt64.lt_of_le_of_lt (h.bounded x hx) hlt)
      · rw [List.mem_singleton.mp hx]
        exact UInt64.le_refl _

theorem Sorted.step {s : Sampling} (h : Sorted s.exporter) (op : SamplingOp) :
    Sorted (s.step op).exporter := by
  cases op with
  | push sample => exact h
  | exportNewSamples =>
    show Sorted (s.exporter.exportNewSamples s.buffer)
    rw [SampleExporter.exportNewSamples]
    split
    · exact h
    · exact ⟨(h.exportSamples _).increasing, (h.exportSamples _).bounded⟩

/-- **No two rows have the same time stamp**, whatever was pushed. -/
theorem sorted_exported (array : Nat → TCPSample) (ops : List SamplingOp) :
    Sorted (exported array ops).exporter := by
  have hinit : Sorted {} := ⟨List.pairwise_singleton .., fun _ hx => nomatch hx⟩
  have hstep (s : Sampling) (op : SamplingOp) (h : Sorted s.exporter) :
      Sorted (s.step op).exporter := h.step op
  have hrun : Sorted (GuardedRun.run step { buffer := { buffer := array } } ops).exporter :=
    GuardedRun.run_invariant (P := fun s : Sampling => Sorted s.exporter) hstep hinit ops
  exact hrun.step _

/-- The loop appends some of the samples. -/
theorem exportSamples_append (e : SampleExporter) (l : List TCPSample) :
    ∃ kept, kept.Sublist l ∧ (e.exportSamples l).rows = e.rows ++ kept := by
  induction l generalizing e with
  | nil => exact ⟨[], List.Sublist.refl _, (List.append_nil _).symm⟩
  | cons s l ih =>
    rw [SampleExporter.exportSamples]
    split
    · obtain ⟨kept, hsub, hrows⟩ := ih e
      exact ⟨kept, hsub.cons s, hrows⟩
    · obtain ⟨kept, hsub, hrows⟩ := ih
        { e with
          rows := e.rows ++ [s]
          lastTimestamp := s.timestampUs
          exportedCount := e.exportedCount + 1 }
      exact ⟨s :: kept, hsub.cons_cons s, hrows.trans (List.append_cons ..).symm⟩

/-- **The file only grows**, by whole lines. -/
theorem file_exportNewSamples (e : SampleExporter) (b : MetricsBuffer TCPSample 10) :
    ∃ kept, (e.exportNewSamples b).rows = e.rows ++ kept ∧
      (e.exportNewSamples b).file = e.file ++ kept.flatMap SampleExporter.line := by
  have hfile {e' : SampleExporter} {kept : List TCPSample} (hrows : e'.rows = e.rows ++ kept) :
      e'.file = e.file ++ kept.flatMap SampleExporter.line := by
    rw [SampleExporter.file, hrows, List.flatMap_append, ← List.append_assoc]
    rfl
  rw [SampleExporter.exportNewSamples]
  split
  · exact ⟨[], (List.append_nil _).symm, hfile (List.append_nil _).symm⟩
  · obtain ⟨kept, -, hrows⟩ := exportSamples_append e (b.recent _)
    exact ⟨kept, hrows, hfile hrows⟩

/-! ## Nothing is lost -/

/-- The loop writes all, if it all increases. -/
theorem exportSamples_rows {e : SampleExporter} {l : List TCPSample}
    (hstamp : e.lastTimestamp ∈ 0 :: e.rows.map (·.timestampUs)) (h : Increasing (e.rows ++ l)) :
    (e.exportSamples l).rows = e.rows ++ l ∧
      (e.exportSamples l).lastTimestamp ∈ 0 :: (e.rows ++ l).map (·.timestampUs) := by
  induction l generalizing e with
  | nil => exact ⟨(List.append_nil _).symm, (List.append_nil e.rows).symm ▸ hstamp⟩
  | cons s l ih =>
    have hlater : ¬ s.timestampUs ≤ e.lastTimestamp := by
      rw [Increasing, List.map_append, ← List.cons_append, List.pairwise_append] at h
      exact UInt64.not_le.mpr (h.2.2 _ hstamp _ (List.mem_cons_self ..))
    have hsplit : e.rows ++ s :: l = e.rows ++ [s] ++ l := (List.append_cons ..)
    rw [hsplit] at h ⊢
    rw [SampleExporter.exportSamples, if_neg hlater]
    refine ih ?_ h
    rw [List.map_append]
    exact List.mem_cons_of_mem _ (List.mem_append_right _ (List.mem_cons_self ..))

/-- The invariant: the last `n` samples are pending, and the ring holds them. -/
structure Recorded (s : Sampling) (n : Nat) : Prop where
  few : n ≤ 1024
  pending : n ≤ s.pushed.length
  total : s.buffer.writePos = BitVec.ofNat 64 s.pushed.length
  last : s.exporter.lastTotal = BitVec.ofNat 64 (s.pushed.length - n)
  window : WrapRing.contents 10 s.buffer.buffer s.exporter.lastTotal n =
    s.pushed.drop (s.pushed.length - n)
  rows : s.exporter.rows = s.pushed.take (s.pushed.length - n)
  stamp : s.exporter.lastTimestamp ∈ 0 :: s.exporter.rows.map (·.timestampUs)

variable {s : Sampling} {n : Nat}

theorem Recorded.writePos (h : s.Recorded n) :
    s.buffer.writePos = s.exporter.lastTotal + BitVec.ofNat 64 n := by
  rw [h.total, h.last, ← BitVec.ofNat_add, Nat.sub_add_cancel h.pending]

theorem Recorded.push (h : s.Recorded n) (hn : n + 1 ≤ 1024) (sample : TCPSample) :
    (s.step (.push sample)).Recorded (n + 1) := by
  have hlength : (s.pushed ++ [sample]).length = s.pushed.length + 1 := by
    rw [List.length_append, List.length_singleton]
  have hsub : (s.pushed ++ [sample]).length - (n + 1) = s.pushed.length - n := by
    rw [hlength, Nat.add_sub_add_right]
  refine ⟨hn, ?_, ?_, ?_, ?_, ?_, h.stamp⟩
  · show n + 1 ≤ (s.pushed ++ [sample]).length
    rw [hlength]
    exact Nat.succ_le_succ h.pending
  · show s.buffer.writePos + 1 = BitVec.ofNat 64 (s.pushed ++ [sample]).length
    rw [hlength, BitVec.ofNat_add, h.total]
    rfl
  · show s.exporter.lastTotal = BitVec.ofNat 64 ((s.pushed ++ [sample]).length - (n + 1))
    rw [hsub, h.last]
  · show WrapRing.contents 10 (Function.update s.buffer.buffer _ sample) s.exporter.lastTotal
      (n + 1) =
      (s.pushed ++ [sample]).drop ((s.pushed ++ [sample]).length - (n + 1))
    rw [hsub, List.drop_append_of_le_length (Nat.sub_le ..), ← h.window, h.writePos,
      WrapRing.contents, WrapRing.contents_write (by decide) _ (Nat.le_refl n) hn,
      Function.update_self]
  · show s.exporter.rows = (s.pushed ++ [sample]).take ((s.pushed ++ [sample]).length - (n + 1))
    rw [hsub, List.take_append_of_le_length (Nat.sub_le ..), h.rows]

/-- **The count is right**: what `recent` returns for the new pushes is what is pending. -/
theorem Recorded.recent (h : s.Recorded n) (hlength : s.pushed.length < 2 ^ 64) :
    s.buffer.recent (BitVec.ofNat 64 n) = s.pushed.drop (s.pushed.length - n) := by
  have hfew := h.few
  have hpending := h.pending
  have hcount : min (BitVec.ofNat 64 n).toNat (min s.buffer.writePos.toNat (2 ^ 10)) = n := by
    rw [h.total, BitVec.toNat_ofNat, BitVec.toNat_ofNat, Nat.mod_eq_of_lt (by omega),
      Nat.mod_eq_of_lt hlength]
    omega
  have hstart : s.buffer.writePos - BitVec.ofNat 64 n = s.exporter.lastTotal := by
    rw [h.writePos, BitVec.add_sub_cancel]
  rw [MetricsBuffer.recent]
  simp only [hcount]
  rw [hstart, h.window]

theorem Recorded.exportNewSamples (h : s.Recorded n) (hincreasing : Increasing s.pushed) :
    (s.step .exportNewSamples).Recorded 0 := by
  have hlength := hincreasing.length_lt
  have hfew := h.few
  have hcount : s.buffer.totalPushed - s.exporter.lastTotal = BitVec.ofNat 64 n := by
    rw [MetricsBuffer.totalPushed, h.writePos, BitVec.add_comm, BitVec.add_sub_cancel]
  by_cases hnew : s.buffer.totalPushed = s.exporter.lastTotal
  · have hzero : 0 = n := by
      rw [hnew, BitVec.sub_self] at hcount
      have := congrArg BitVec.toNat hcount
      rw [BitVec.toNat_ofNat n, Nat.mod_eq_of_lt (by omega)] at this
      exact this
    have hstay : s.step .exportNewSamples = s :=
      congrArg (fun e => { s with exporter := e }) (if_pos hnew)
    rw [hstay]
    exact hzero.symm ▸ h
  · have hsmall : BitVec.ofNat 64 n ≤ 1024 := by
      rw [BitVec.le_def, BitVec.toNat_ofNat, Nat.mod_eq_of_lt (by omega)]
      exact hfew
    have hexported : s.exporter.exportNewSamples s.buffer =
        { s.exporter.exportSamples (s.pushed.drop (s.pushed.length - n)) with
          lastTotal := s.buffer.writePos } := by
      rw [← h.recent hlength, SampleExporter.exportNewSamples, if_neg hnew, hcount]
      simp only [if_pos hsmall]
      rfl
    have hall : s.exporter.rows ++ s.pushed.drop (s.pushed.length - n) = s.pushed := by
      rw [h.rows, List.take_append_drop]
    obtain ⟨hrows, hstamp⟩ := exportSamples_rows h.stamp (hall.symm ▸ hincreasing)
    rw [hall] at hrows hstamp
    rw [step, hexported]
    refine ⟨Nat.zero_le _, Nat.zero_le _, h.total, h.total, ?_, ?_, ?_⟩
    · exact (List.drop_length ..).symm
    · exact hrows.trans (List.take_length ..).symm
    · show _ ∈ 0 :: List.map _ (SampleExporter.exportSamples _ _).rows
      rw [hrows]
      exact hstamp

theorem Frequent.le {ops : List SamplingOp} (h : Frequent n ops) : n ≤ 1024 := by
  induction ops generalizing n with
  | nil => exact h
  | cons op ops ih =>
    cases op with
    | push => exact Nat.le_of_succ_le (ih h)
    | exportNewSamples => exact h.1

/-- Pushes that stay frequent, and all increase. -/
theorem Recorded.run {ops : List SamplingOp} (h : s.Recorded n) (hfrequent : Frequent n ops)
    (hincreasing : Increasing (s.pushed ++ pushes ops)) :
    ∃ n', (GuardedRun.run step s ops).Recorded n' ∧
      (GuardedRun.run step s ops).pushed = s.pushed ++ pushes ops := by
  induction ops generalizing s n with
  | nil => exact ⟨n, h, (List.append_nil _).symm⟩
  | cons op ops ih =>
    cases op with
    | push sample =>
      have hn : n + 1 ≤ 1024 := Frequent.le hfrequent
      have hsplit : s.pushed ++ pushes (.push sample :: ops) = s.pushed ++ [sample] ++ pushes ops :=
        List.append_cons ..
      rw [hsplit] at hincreasing ⊢
      exact ih (h.push hn sample) hfrequent hincreasing
    | exportNewSamples =>
      refine ih (h.exportNewSamples ?_) hfrequent.2 hincreasing
      refine hincreasing.sublist (List.Sublist.cons_cons _ ?_)
      exact (List.sublist_append_left ..).map _

/-- **When the export is complete.**  With at most 1024 pushes between the exports, every
pushed sample is written once and in its order if and only if the time stamps increase
strictly, from above zero. -/
theorem complete_iff (array : Nat → TCPSample) (ops : List SamplingOp)
    (hfrequent : Frequent 0 ops) :
    (exported array ops).exporter.rows = pushes ops ↔ Increasing (pushes ops) := by
  constructor
  · intro hrows
    exact hrows ▸ (sorted_exported array ops).increasing
  · intro hincreasing
    have hinit : Recorded { buffer := { buffer := array } } 0 :=
      ⟨Nat.zero_le _, Nat.zero_le _, rfl, rfl, rfl, rfl, List.mem_cons_self ..⟩
    obtain ⟨n, hrun, hpushed⟩ := hinit.run hfrequent hincreasing
    rw [List.nil_append] at hpushed
    have hlast := (hrun.exportNewSamples (hpushed.symm ▸ hincreasing)).rows
    exact hlast.trans ((List.take_length ..).trans hpushed)

/-- Two connections that push in the same microsecond, and one that pushes later. -/
def sameMicrosecond : List SamplingOp :=
  [.push { timestampUs := 1000, srttUs := 1 }, .push { timestampUs := 1000, srttUs := 2 },
    .push { timestampUs := 2000 }]

theorem sameMicrosecond_lost :
    ¬ ∀ (array : Nat → TCPSample) (ops : List SamplingOp), Frequent 0 ops →
      (pushes ops).Pairwise (fun s t => s.timestampUs ≤ t.timestampUs) →
      (exported array ops).exporter.rows = pushes ops := by
  intro h
  have hrows := h (fun _ => { timestampUs := 0 }) sameMicrosecond
    (show 3 ≤ 1024 by decide) (by decide)
  exact absurd hrows (by decide +kernel)

/-- A run with an export in between. -/
theorem complete_iff_later :
    (exported (fun _ => { timestampUs := 0 })
        [.push { timestampUs := 1000 }, .exportNewSamples, .push { timestampUs := 2000 }]).exporter.rows =
      [{ timestampUs := 1000 }, { timestampUs := 2000 }] :=
  (complete_iff _ [.push { timestampUs := 1000 }, .exportNewSamples, .push { timestampUs := 2000 }]
    ⟨by decide, show 1 ≤ 1024 by decide⟩).mpr (by decide)

end Sampling
end Metrics
end NeuStack
