import NeuStack.RecentSamples

/-! # The history of samples

The thread of `IntelligencePlane` reads the samples that are new since its last round, at
most 100 of them, and keeps the last 1000 with the greatest delivery rate among them
(`_est_bw`).  It finds the new ones by the number of pushes alone, and that is right: no
sample gets into the history twice or out of order (`sublist_pushed`), and none is missing
as long as at most 100 are pushed between two rounds (`prompt_complete`).
-/
namespace NeuStack
namespace Metrics

/-- What the thread of `IntelligencePlane` reads with. -/
structure SampleReader where
  lastReadCount : BitVec 64 := 0
  sampleHistory : List TCPSample := []
  estBw : UInt32 := 0

namespace SampleReader

def maxHistory : Nat := 1000

/-- `if (sample.delivery_rate > _est_bw) _est_bw = sample.delivery_rate;` -/
def raise (estBw : UInt32) (sample : TCPSample) : UInt32 :=
  if estBw < sample.deliveryRate then sample.deliveryRate else estBw

/-- The samples of a round: `recent(std::min(new_samples, 100))`. -/
def newSamples (b : MetricsBuffer TCPSample 10) (r : SampleReader) : List TCPSample :=
  let newCount := b.totalPushed - r.lastReadCount
  b.recent (if newCount ≤ 100 then newCount else 100)

/-- They join the history, of which the oldest samples go if it gets too long. -/
def extend (samples : List TCPSample) (r : SampleReader) : SampleReader :=
  let history := r.sampleHistory ++ samples
  if maxHistory < history.length then
    let kept := history.drop (history.length - maxHistory)
    { r with sampleHistory := kept, estBw := kept.foldl raise 0 }
  else { r with sampleHistory := history, estBw := samples.foldl raise r.estBw }

/-- The part of a round of `run_loop` that reads new samples. -/
def read (b : MetricsBuffer TCPSample 10) (r : SampleReader) : SampleReader :=
  if r.lastReadCount < b.totalPushed then
    { r.extend (r.newSamples b) with lastReadCount := b.totalPushed }
  else r

end SampleReader

inductive FlowOp where
  | push (sample : TCPSample)
  | read

/-- The buffer between the connections and the thread, with what was pushed. -/
structure SampleFlow where
  buffer : MetricsBuffer TCPSample 10
  reader : SampleReader := {}
  pushed : List TCPSample := []

namespace SampleFlow
open SampleReader

def step (f : SampleFlow) : FlowOp → SampleFlow
  | .push sample =>
    { f with buffer := f.buffer.push sample, pushed := f.pushed ++ [sample] }
  | .read => { f with reader := f.reader.read f.buffer }

/-- The number of samples pushed when the thread read last. -/
def readCount (f : SampleFlow) : Nat := f.reader.lastReadCount.toNat

/-- At most 100 samples wait when the thread reads. -/
def Prompt (f : SampleFlow) : FlowOp → Prop
  | .push _ => True
  | .read => f.pushed.length ≤ f.readCount + 100

/-! ## The history -/

/-- The greatest delivery rate is that of the history, which is short. -/
structure Estimated (r : SampleReader) : Prop where
  estBw : r.estBw = r.sampleHistory.foldl raise 0
  bounded : r.sampleHistory.length ≤ maxHistory

theorem Estimated.extend {r : SampleReader} (h : Estimated r) (samples : List TCPSample) :
    Estimated (r.extend samples) := by
  rw [SampleReader.extend]
  split
  · constructor
    · dsimp only
    · rw [List.length_drop]
      omega
  · rename_i hshort
    refine ⟨?_, Nat.le_of_not_lt hshort⟩
    rw [List.foldl_append, ← h.estBw]

theorem Estimated.read {r : SampleReader} (h : Estimated r) (b : MetricsBuffer TCPSample 10) :
    Estimated (r.read b) := by
  rw [SampleReader.read]
  split
  · exact ⟨(h.extend _).estBw, (h.extend _).bounded⟩
  · exact h

/-- The history is the end of what it was, and of what joins it. -/
theorem sampleHistory_extend (samples : List TCPSample) (r : SampleReader) :
    (r.extend samples).sampleHistory = (r.sampleHistory ++ samples).rtake maxHistory := by
  rw [SampleReader.extend]
  split
  · rw [List.rtake]
  · rename_i hshort
    rw [List.rtake, Nat.sub_eq_zero_of_le (Nat.le_of_not_lt hshort), List.drop_zero]

/-! ## What is read -/

/-- The buffer holds what was pushed, and the history comes from what was pushed when the
thread read last. -/
structure Following (f : SampleFlow) : Prop where
  holds : f.buffer.Holds f.pushed
  read_le : f.readCount ≤ f.pushed.length
  sublist : f.reader.sampleHistory.Sublist (f.pushed.take f.readCount)

variable {f : SampleFlow}

theorem Following.init (array : Nat → TCPSample) :
    Following { buffer := { buffer := array } } :=
  ⟨.init array, Nat.zero_le _, List.Sublist.refl _⟩

theorem Following.toNat_totalPushed (h : f.Following) (hlt : f.pushed.length < 2 ^ 64) :
    f.buffer.totalPushed.toNat = f.pushed.length := by
  rw [MetricsBuffer.totalPushed, h.holds.toNat_writePos, Nat.mod_eq_of_lt hlt]

/-- **A round takes what was pushed since the last one**, the latest 100 of it. -/
theorem Following.newSamples (h : f.Following) (hlt : f.pushed.length < 2 ^ 64) :
    f.reader.newSamples f.buffer =
      f.pushed.rtake (min (f.pushed.length - f.readCount) 100) := by
  have hle : f.reader.lastReadCount ≤ f.buffer.totalPushed := by
    rw [BitVec.le_def, h.toNat_totalPushed hlt]
    exact h.read_le
  have hcount : (f.buffer.totalPushed - f.reader.lastReadCount).toNat =
      f.pushed.length - f.readCount := by
    rw [BitVec.toNat_sub_of_le hle, h.toNat_totalPushed hlt]
    rfl
  rw [SampleReader.newSamples, h.holds.recent, Nat.mod_eq_of_lt hlt]
  refine congrArg f.pushed.rtake ?_
  split
  · rename_i hfew
    rw [BitVec.le_def, hcount] at hfew
    replace hfew : f.pushed.length - f.readCount ≤ 100 := hfew
    rw [hcount]
    omega
  · rename_i hmany
    rw [BitVec.le_def, hcount] at hmany
    replace hmany : ¬ f.pushed.length - f.readCount ≤ 100 := hmany
    show min 100 _ = _
    omega

theorem Following.push (h : f.Following) (sample : TCPSample) :
    (f.step (.push sample)).Following := by
  refine ⟨h.holds.step (by decide) (.push sample), ?_, ?_⟩
  · show f.readCount ≤ (f.pushed ++ [sample]).length
    rw [List.length_append]
    exact Nat.le_add_right_of_le h.read_le
  · show List.Sublist _ ((f.pushed ++ [sample]).take f.readCount)
    rw [List.take_append_of_le_length h.read_le]
    exact h.sublist

/-- After a round, the thread has read up to the end. -/
theorem Following.readCount_read (h : f.Following) (hlt : f.pushed.length < 2 ^ 64) :
    (f.step .read).readCount = f.pushed.length := by
  show (f.reader.read f.buffer).lastReadCount.toNat = _
  rw [SampleReader.read]
  split
  · exact h.toNat_totalPushed hlt
  · rename_i hold
    rw [BitVec.lt_def, h.toNat_totalPushed hlt] at hold
    exact Nat.le_antisymm h.read_le (Nat.le_of_not_lt hold)

theorem Following.sampleHistory_read (h : f.Following) (hlt : f.pushed.length < 2 ^ 64)
    (hbounded : f.reader.sampleHistory.length ≤ maxHistory) :
    (f.step .read).reader.sampleHistory = (f.reader.sampleHistory ++
      f.pushed.rtake (min (f.pushed.length - f.readCount) 100)).rtake maxHistory := by
  show (f.reader.read f.buffer).sampleHistory = _
  rw [SampleReader.read]
  split
  · rw [← h.newSamples hlt]
    exact sampleHistory_extend _ _
  · rename_i hold
    rw [BitVec.lt_def, h.toNat_totalPushed hlt] at hold
    replace hold : ¬ f.readCount < f.pushed.length := hold
    rw [Nat.sub_eq_zero_of_le (Nat.le_of_not_lt hold), Nat.zero_min, List.rtake_zero,
      List.append_nil, List.rtake, Nat.sub_eq_zero_of_le hbounded, List.drop_zero]

theorem Following.read (h : f.Following) (hlt : f.pushed.length < 2 ^ 64)
    (hbounded : f.reader.sampleHistory.length ≤ maxHistory) : (f.step .read).Following := by
  refine ⟨h.holds, Nat.le_of_eq (h.readCount_read hlt), ?_⟩
  rw [h.readCount_read hlt, h.sampleHistory_read hlt hbounded]
  have hread := h.read_le
  -- what is new lies behind what the history comes from
  have hnew : (f.pushed.rtake (min (f.pushed.length - f.readCount) 100)).Sublist
      (f.pushed.drop f.readCount) := List.drop_sublist_drop_left _ (by omega)
  have hall := h.sublist.append hnew
  rw [List.take_append_drop] at hall
  show List.Sublist _ (f.pushed.take f.pushed.length)
  rw [List.take_length]
  exact (List.drop_sublist _ _).trans hall

/-! ## Runs -/

/-- The buffer, empty, and a thread that has read nothing. -/
def start (array : Nat → TCPSample) : SampleFlow := { buffer := { buffer := array } }

/-- What a run keeps, as long as the number of pushes fits 64 bits. -/
structure Kept (f : SampleFlow) : Prop where
  estimated : Estimated f.reader
  following : f.pushed.length < 2 ^ 64 → f.Following

theorem Kept.start (array : Nat → TCPSample) : (start array).Kept :=
  ⟨⟨rfl, Nat.zero_le _⟩, fun _ => .init array⟩

theorem length_push (f : SampleFlow) (sample : TCPSample) :
    (f.step (.push sample)).pushed.length = f.pushed.length + 1 := by
  show (f.pushed ++ [sample]).length = _
  rw [List.length_append, List.length_singleton]

theorem Kept.step (h : f.Kept) (op : FlowOp) : (f.step op).Kept := by
  cases op with
  | push sample =>
    refine ⟨h.estimated, fun hlt => ?_⟩
    rw [length_push] at hlt
    exact (h.following (Nat.lt_of_succ_lt hlt)).push sample
  | read =>
    exact ⟨h.estimated.read f.buffer, fun hlt => (h.following hlt).read hlt h.estimated.bounded⟩

/-- **The estimate is the greatest delivery rate of the history**, which has at most 1000
samples, in every run. -/
theorem estimated_run (array : Nat → TCPSample) (ops : List FlowOp) :
    Estimated (GuardedRun.run step (start array) ops).reader := by
  have hkept := GuardedRun.run_invariant (P := Kept) (fun _ op h => h.step op) (.start array) ops
  exact hkept.estimated

/-- **No sample is taken twice or out of order.** -/
theorem sublist_pushed (array : Nat → TCPSample) (ops : List FlowOp)
    (hlt : (GuardedRun.run step (start array) ops).pushed.length < 2 ^ 64) :
    (GuardedRun.run step (start array) ops).reader.sampleHistory.Sublist
      (GuardedRun.run step (start array) ops).pushed := by
  have hkept := GuardedRun.run_invariant (P := Kept) (fun _ op h => h.step op) (.start array) ops
  exact (hkept.following hlt).sublist.trans (List.take_sublist ..)

/-- The oldest items go at once or later. -/
theorem rtake_append_rtake {α : Type} (a b : List α) (n : Nat) :
    (a.rtake n ++ b).rtake n = (a ++ b).rtake n := by
  simp only [List.rtake_eq_reverse_take_reverse, List.reverse_append, List.reverse_reverse,
    List.take_append, List.take_take]
  congr 3
  omega

/-- The history is the latest of what was pushed when the thread read last. -/
def Complete (f : SampleFlow) : Prop :=
  f.reader.sampleHistory = (f.pushed.take f.readCount).rtake maxHistory

theorem Following.complete_read (h : f.Following) (hlt : f.pushed.length < 2 ^ 64)
    (hbounded : f.reader.sampleHistory.length ≤ maxHistory) (hc : f.Complete)
    (hprompt : f.Prompt .read) : (f.step .read).Complete := by
  have hread := h.read_le
  have hfew : min (f.pushed.length - f.readCount) 100 = f.pushed.length - f.readCount := by
    have hwait : f.pushed.length ≤ f.readCount + 100 := hprompt
    omega
  have hwaiting : f.pushed.rtake (f.pushed.length - f.readCount) = f.pushed.drop f.readCount := by
    rw [List.rtake, Nat.sub_sub_self hread]
  rw [Complete, h.readCount_read hlt, h.sampleHistory_read hlt hbounded, hfew, hwaiting, hc,
    rtake_append_rtake, List.take_append_drop]
  exact congrArg (List.rtake · maxHistory) (List.take_length ..).symm

theorem complete_start (array : Nat → TCPSample) : (start array).Complete := by
  rw [Complete, start, List.take_nil, List.rtake_nil]

/-- **None is missing**, as long as at most 100 samples wait whenever the thread reads. -/
theorem prompt_complete (array : Nat → TCPSample) (ops : List FlowOp)
    (hprompt : GuardedRun.Meets step Prompt (start array) ops)
    (hlt : (GuardedRun.run step (start array) ops).pushed.length < 2 ^ 64) :
    (GuardedRun.run step (start array) ops).Complete := by
  have hstart : (start array).Kept ∧ ((start array).pushed.length < 2 ^ 64 →
      (start array).Complete) := ⟨.start array, fun _ => complete_start array⟩
  refine (hprompt.invariant (P := fun f => f.Kept ∧ (f.pushed.length < 2 ^ 64 → f.Complete))
    (fun f op h hok => ?_) hstart).2 hlt
  refine ⟨h.1.step op, fun hlt => ?_⟩
  cases op with
  | push sample =>
    rw [length_push] at hlt
    have hc := h.2 (Nat.lt_of_succ_lt hlt)
    show f.reader.sampleHistory = ((f.pushed ++ [sample]).take f.readCount).rtake maxHistory
    rw [List.take_append_of_le_length (h.1.following (Nat.lt_of_succ_lt hlt)).read_le]
    exact hc
  | read => exact (h.1.following hlt).complete_read hlt h.1.estimated.bounded (h.2 hlt) hok

end SampleFlow
end Metrics
end NeuStack
