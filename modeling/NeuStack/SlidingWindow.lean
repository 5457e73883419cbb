import NeuStack.SecurityExporter
import NeuStack.Circular
import NeuStack.GuardedRun
import Mathlib.Algebra.BigOperators.Group.List.Basic
import Mathlib.Data.Nat.Bitwise
import Mathlib.Data.UInt

/-! # What the sliding window counts

The rates of a snapshot are totals over the current window and the completed ones that the
ring still holds, up to ten.  Over all calls of `record_packet` and `tick` these are the
packets since the eleventh most recent tick, or from the beginning (`snapshot_counts`): with
`n` completed windows in the ring, one tick further back than the `n`-th.

A log has the newest call first.
-/
namespace NeuStack

/-- The calls on the metrics. -/
inductive MetricsCall
  | recordPacket (len : UInt16) (tcpFlags : UInt8)
  | tick

namespace SecurityMetrics

def call (m : SecurityMetrics) : MetricsCall → SecurityMetrics
  | .recordPacket len tcpFlags => m.recordPacket len tcpFlags
  | .tick => m.tick

/-! ## What is to be counted -/

/-- The packets recorded since the `k`-th most recent tick; all of them, if there were fewer
ticks. -/
def since : Nat → List MetricsCall → List (UInt16 × UInt8)
  | 0, _ => []
  | _ + 1, [] => []
  | k + 1, .recordPacket len tcpFlags :: log => (len, tcpFlags) :: since (k + 1) log
  | k + 1, .tick :: log => since k log

theorem since_zero (log : List MetricsCall) : since 0 log = [] := by
  cases log <;> rfl

theorem since_recordPacket (k : Nat) (len : UInt16) (tcpFlags : UInt8) (log : List MetricsCall) :
    since (k + 1) (.recordPacket len tcpFlags :: log) = (len, tcpFlags) :: since (k + 1) log := by
  rw [since]

theorem since_tick (k : Nat) (log : List MetricsCall) :
    since (k + 1) (.tick :: log) = since k log := by
  rw [since]

/-- The packets of the window that the last tick completed. -/
def lastWindow : List MetricsCall → List (UInt16 × UInt8)
  | [] => []
  | .recordPacket _ _ :: log => lastWindow log
  | .tick :: log => since 1 log

def ticks (log : List MetricsCall) : Nat :=
  log.countP fun | .recordPacket _ _ => false | .tick => true

def isFin (tcpFlags : UInt8) : Bool := tcpFlags.toNat.testBit 0
def isSyn (tcpFlags : UInt8) : Bool := tcpFlags.toNat.testBit 1
def isRst (tcpFlags : UInt8) : Bool := tcpFlags.toNat.testBit 2
def isAck (tcpFlags : UInt8) : Bool := tcpFlags.toNat.testBit 4

/-- What there is to count in some packets. -/
def counted (packets : List (UInt16 × UInt8)) : Counters where
  packetsTotal := .ofNat packets.length
  bytesTotal := .ofNat (packets.map (·.1.toNat)).sum
  synPackets := .ofNat (packets.countP fun p => isSyn p.2 && !isAck p.2)
  synAckPackets := .ofNat (packets.countP fun p => isSyn p.2 && isAck p.2)
  rstPackets := .ofNat (packets.countP fun p => isRst p.2)
  finPackets := .ofNat (packets.countP fun p => isFin p.2)
  newConnections := .ofNat (packets.countP fun p => isSyn p.2 && !isAck p.2)

/-- The totals of a snapshot are the counts of these packets. -/
structure Snapshot.Totals (snap : Snapshot) (ps : List (UInt16 × UInt8)) : Prop where
  packets : snap.totalPackets = (counted ps).packetsTotal
  bytes : snap.totalBytes = (counted ps).bytesTotal
  syn : snap.totalSyn = (counted ps).synPackets
  synAck : snap.totalSynAck = (counted ps).synAckPackets
  rst : snap.totalRst = (counted ps).rstPackets
  newConn : snap.totalNewConn = (counted ps).newConnections

/-! ## Counting packet by packet -/

/-- The counters of two windows together. -/
def Counters.add (c d : Counters) : Counters where
  packetsTotal := c.packetsTotal + d.packetsTotal
  bytesTotal := c.bytesTotal + d.bytesTotal
  synPackets := c.synPackets + d.synPackets
  synAckPackets := c.synAckPackets + d.synAckPackets
  rstPackets := c.rstPackets + d.rstPackets
  finPackets := c.finPackets + d.finPackets
  newConnections := c.newConnections + d.newConnections
  halfOpen := c.halfOpen + d.halfOpen
  droppedPackets := c.droppedPackets + d.droppedPackets
  alertedPackets := c.alertedPackets + d.alertedPackets

theorem countP_ofNat {α : Type} (p : α → Bool) (x : α) (xs : List α) :
    UInt64.ofNat ((x :: xs).countP p) = .ofNat (xs.countP p) + .ofNat ([x].countP p) := by
  rw [List.countP_cons, UInt64.ofNat_add, List.countP_singleton]

theorem counted_cons (p : UInt16 × UInt8) (packets : List (UInt16 × UInt8)) :
    counted (p :: packets) = (counted packets).add (counted [p]) := by
  rw [counted, Counters.add]
  congr 1
  · rw [List.length_cons, UInt64.ofNat_add]
    rfl
  · rw [List.map_cons, List.sum_cons, Nat.add_comm, UInt64.ofNat_add]
    rfl
  all_goals exact countP_ofNat _ _ _

/-- The test of one flag. -/
theorem flag_iff {tcpFlags mask : UInt8} {i : Nat} (hmask : mask.toNat = 2 ^ i) :
    tcpFlags &&& mask ≠ 0 ↔ tcpFlags.toNat.testBit i = true := by
  rw [ne_eq, ← UInt8.toNat_inj, UInt8.toNat_and, hmask, Nat.and_two_pow]
  cases tcpFlags.toNat.testBit i with
  | false => exact iff_of_false (fun h => h (Nat.zero_mul _)) Bool.false_ne_true
  | true =>
    rw [Bool.toNat_true, Nat.one_mul]
    exact iff_of_true (Nat.two_pow_pos i).ne' rfl

theorem one_eq {α : Type} {c : Prop} [Decidable c] {p : α → Bool} {x : α} (h : c ↔ p x = true) :
    one c = .ofNat ([x].countP p) := by
  rw [one, List.countP_singleton]
  by_cases hc : c
  · rw [if_pos hc, if_pos (h.mp hc)]
    rfl
  · rw [if_neg hc, if_neg (mt h.mpr hc)]
    rfl

/-- `record_packet` counts one packet more. -/
theorem recordPacket_current (m : SecurityMetrics) (len : UInt16) (tcpFlags : UInt8) :
    (m.recordPacket len tcpFlags).current = m.current.add (counted [(len, tcpFlags)]) := by
  have hfin : tcpFlags &&& 0x01 ≠ 0 ↔ isFin tcpFlags = true := flag_iff rfl
  have hsyn : tcpFlags &&& 0x02 ≠ 0 ↔ isSyn tcpFlags = true := flag_iff rfl
  have hrst : tcpFlags &&& 0x04 ≠ 0 ↔ isRst tcpFlags = true := flag_iff rfl
  have hack : tcpFlags &&& 0x10 ≠ 0 ↔ isAck tcpFlags = true := flag_iff rfl
  have hopen : (tcpFlags &&& 0x02 ≠ 0 ∧ ¬ tcpFlags &&& 0x10 ≠ 0) ↔
      (isSyn tcpFlags && !isAck tcpFlags) = true := by
    rw [Bool.and_eq_true, Bool.not_eq_true', ← Bool.not_eq_true]
    exact and_congr hsyn (not_congr hack)
  have hanswer : (tcpFlags &&& 0x02 ≠ 0 ∧ tcpFlags &&& 0x10 ≠ 0) ↔
      (isSyn tcpFlags && isAck tcpFlags) = true := by
    rw [Bool.and_eq_true]
    exact and_congr hsyn hack
  have hlen : len.toUInt64 = UInt64.ofNat ([(len, tcpFlags)].map (·.1.toNat)).sum := by
    rw [List.map_singleton, List.sum_singleton, ← UInt16.toNat_toUInt64, UInt64.ofNat_toNat]
  rw [recordPacket, Counters.add]
  dsimp only
  congr 1
  · rw [hlen]
    rfl
  · exact congrArg _ (one_eq hopen)
  · exact congrArg _ (one_eq hanswer)
  · exact congrArg _ (one_eq hrst)
  · exact congrArg _ (one_eq hfin)
  · exact congrArg _ (one_eq hopen)
  · exact (UInt64.add_zero _).symm
  · exact (UInt64.add_zero _).symm
  · exact (UInt64.add_zero _).symm

/-! ## The ring -/

/-- The counters of the completed windows, the oldest first. -/
def completed : List MetricsCall → List Counters
  | [] => []
  | .recordPacket _ _ :: log => completed log
  | .tick :: log => completed log ++ [counted (since 1 log)]

/-- The ring holds the windows completed last, and no other counts. -/
structure Holds (m : SecurityMetrics) (done : List Counters) : Prop where
  ring : m.Ring done
  index : m.windowIndex = done.length % windowSize
  slots : m.window.rotate m.windowIndex =
    (List.replicate windowSize ({} : Counters) ++ done).drop done.length
  unused : ∀ c ∈ m.window.drop m.windowCount, c = {}

variable {m : SecurityMetrics} {done : List Counters} {f : Counters → UInt64}

theorem holds_empty : Holds {} [] where
  ring := ring_empty
  index := rfl
  slots := by decide
  unused := fun _ hc => List.eq_of_mem_replicate hc

theorem Holds.congr {m' : SecurityMetrics} (h : m.Holds done) (heq : m'.windows = m.windows) :
    m'.Holds done := by
  obtain ⟨hwindow, hrest⟩ := Prod.mk.inj heq
  obtain ⟨hindex, hcount⟩ := Prod.mk.inj hrest
  refine ⟨h.ring.congr heq, hindex ▸ h.index, ?_, ?_⟩
  · rw [hwindow, hindex]
    exact h.slots
  · rw [hwindow, hcount]
    exact h.unused

theorem Holds.tick (h : m.Holds done) : m.tick.Holds (done ++ [m.current]) where
  ring := h.ring.tick
  index := by
    show (m.windowIndex + 1) % windowSize = _
    rw [h.index, Nat.mod_add_mod, List.length_append, List.length_singleton]
  slots := by
    show (m.window.set m.windowIndex m.current).rotate ((m.windowIndex + 1) % windowSize) = _
    have hindex : m.windowIndex < m.window.length := by
      rw [h.ring.length]
      exact h.ring.index
    have hroom : done.length + 1 ≤ (List.replicate windowSize ({} : Counters) ++ done).length := by
      rw [List.length_append, List.length_replicate, Nat.add_comm]
      exact Nat.add_le_add_right (by decide) _
    rw [← h.ring.length, Circular.rotate_set hindex, h.slots, List.tail_drop, h.ring.length,
      ← List.append_assoc, List.length_append, List.length_singleton,
      List.drop_append_of_le_length hroom]
  unused := by
    show ∀ c ∈ (m.window.set m.windowIndex m.current).drop (min (m.windowCount + 1) windowSize),
      c = {}
    rcases Nat.lt_or_ge done.length windowSize with hroom | hfull
    · -- the slot written is the first unused one
      have hindex : m.windowIndex = m.windowCount := by
        rw [h.index, h.ring.count, Nat.mod_eq_of_lt hroom, Nat.min_eq_left hroom.le]
      have hcount : min (m.windowCount + 1) windowSize = m.windowCount + 1 := by
        rw [h.ring.count, Nat.min_eq_left hroom.le]
        exact Nat.min_eq_left hroom
      rw [hcount, List.drop_set_of_lt (by rw [hindex]; exact Nat.lt_succ_self _),
        ← List.tail_drop]
      exact fun c hc => h.unused c (List.mem_of_mem_tail hc)
    · have hcount : min (m.windowCount + 1) windowSize = windowSize := by
        rw [h.ring.count, Nat.min_eq_right hfull]
        decide
      rw [hcount, List.drop_eq_nil_of_le (by rw [List.length_set, h.ring.length])]
      exact fun c hc => nomatch hc

theorem foldl_total (n : UInt64) (cs : List Counters) :
    cs.foldl (fun n c => n + f c) n = n + (cs.map f).sum := by
  induction cs generalizing n with
  | nil => exact (UInt64.add_zero n).symm
  | cons c cs ih => rw [List.foldl_cons, ih, List.map_cons, List.sum_cons, UInt64.add_assoc]

theorem sum_blank {cs : List Counters} (hf : f {} = 0) (hcs : ∀ c ∈ cs, c = {}) :
    (cs.map f).sum = 0 := by
  refine List.sum_eq_zero fun n hn => ?_
  obtain ⟨c, hc, rfl⟩ := List.mem_map.mp hn
  rw [hcs c hc]
  exact hf

/-- **The total over the ring** is that over the windows completed last. -/
theorem Holds.total (h : m.Holds done) (hf : f {} = 0) :
    m.total f = f m.current + ((done.drop (done.length - windowSize)).map f).sum := by
  have htaken : ((m.window.take m.windowCount).map f).sum = (m.window.map f).sum := by
    conv_rhs => rw [← List.take_append_drop m.windowCount m.window, List.map_append,
      List.sum_append, sum_blank hf h.unused]
    exact (UInt64.add_zero _).symm
  have hturned : (m.window.map f).sum = ((m.window.rotate m.windowIndex).map f).sum :=
    ((List.rotate_perm _ _).map f).sum_eq.symm
  rw [SecurityMetrics.total, foldl_total, htaken, hturned, h.slots, List.drop_append,
    List.length_replicate, List.map_append, List.sum_append, List.drop_replicate,
    sum_blank hf fun c hc => List.eq_of_mem_replicate hc, UInt64.zero_add]

/-! ## Windows and calls -/

/-- A counter of windows that can be taken together. -/
structure Linear (f : Counters → UInt64) : Prop where
  blank : f {} = 0
  add (c d : Counters) : f (c.add d) = f c + f d

theorem length_completed (log : List MetricsCall) : (completed log).length = ticks log := by
  induction log with
  | nil => rfl
  | cons x log ih =>
    cases x with
    | recordPacket len tcpFlags => exact ih
    | tick =>
      rw [completed, List.length_append, List.length_singleton, ih, ticks, ticks]
      exact (List.countP_cons_of_pos rfl).symm

/-- What was recorded since the tick before the last `k` windows. -/
theorem counted_since (hf : Linear f) (k : Nat) (log : List MetricsCall) :
    f (counted (since (k + 1) log)) = f (counted (since 1 log)) +
      (((completed log).drop ((completed log).length - k)).map f).sum := by
  induction log generalizing k with
  | nil =>
    rw [completed, List.drop_nil]
    exact (UInt64.add_zero _).symm
  | cons x log ih =>
    cases x with
    | recordPacket len tcpFlags =>
      rw [since_recordPacket, since_recordPacket 0, completed, counted_cons,
        counted_cons _ (since 1 log), hf.add, hf.add, ih, add_right_comm]
    | tick =>
      rw [completed, List.length_append, List.length_singleton]
      cases k with
      | zero =>
        rw [Nat.sub_zero, List.drop_eq_nil_of_le (by rw [List.length_append]; exact le_rfl)]
        exact (UInt64.add_zero _).symm
      | succ k =>
        have hblank : f (counted []) = 0 := hf.blank
        rw [since_tick, since_tick, since_zero, hblank, ih, Nat.add_sub_add_right,
          List.drop_append_of_le_length (Nat.sub_le _ _), List.map_append, List.sum_append,
          List.map_singleton, List.sum_singleton, zero_add, add_comm]

/-- The metrics after the calls of a log. -/
structure Counts (m : SecurityMetrics) (log : List MetricsCall) : Prop where
  current : m.current = counted (since 1 log)
  holds : m.Holds (completed log)

theorem Counts.call {log : List MetricsCall} (h : m.Counts log) (x : MetricsCall) :
    (m.call x).Counts (x :: log) := by
  cases x with
  | recordPacket len tcpFlags =>
    refine ⟨?_, h.holds.congr rfl⟩
    rw [since_recordPacket, counted_cons, ← h.current]
    exact m.recordPacket_current len tcpFlags
  | tick =>
    refine ⟨by rw [since_tick, since_zero]; rfl, ?_⟩
    rw [completed, ← h.current]
    exact h.holds.tick

theorem counts_run {log : List MetricsCall} (h : m.Counts log) (xs : List MetricsCall) :
    (GuardedRun.run call m xs).Counts (xs.reverse ++ log) := by
  induction xs generalizing m log with
  | nil => exact h
  | cons x xs ih =>
    rw [List.reverse_cons, List.append_assoc]
    exact ih (h.call x)

theorem getLast?_completed {log : List MetricsCall} (h : 0 < ticks log) :
    (completed log).getLast? = some (counted (lastWindow log)) := by
  induction log with
  | nil => cases h
  | cons x log ih =>
    cases x with
    | recordPacket len tcpFlags => exact ih h
    | tick => exact List.getLast?_concat

/-- **What a snapshot shows**, after any calls of `record_packet` and `tick`: its totals count
the packets since the tick before the windows that are in the ring, the divisor is the number
of these windows and the current one, and the counters are those of the window completed last,
before the first tick those of the current one. -/
theorem snapshot_counts (xs : List MetricsCall) :
    let log := xs.reverse
    let snap := (GuardedRun.run call {} xs).snapshot
    snap.Totals (since (min windowSize (ticks log) + 1) log) ∧
      snap.windowSeconds = min windowSize (ticks log) + 1 ∧
      snap.counters = counted (if ticks log = 0 then since 1 log else lastWindow log) := by
  intro log snap
  have h : (GuardedRun.run call {} xs).Counts log := by
    have hstart : ({} : SecurityMetrics).Counts [] := ⟨rfl, holds_empty⟩
    have hrun := counts_run hstart xs
    rwa [List.append_nil] at hrun
  have htotal : ∀ {f : Counters → UInt64}, Linear f → (GuardedRun.run call {} xs).total f =
      f (counted (since (min windowSize (ticks log) + 1) log)) := by
    intro f hf
    have hback : ticks log - min windowSize (ticks log) = ticks log - windowSize := by omega
    rw [h.holds.total hf.blank, h.current, counted_since hf (min windowSize (ticks log)),
      length_completed, hback]
  refine ⟨⟨?_, ?_, ?_, ?_, ?_, ?_⟩, ?_, ?_⟩
  · exact htotal ⟨rfl, fun _ _ => rfl⟩
  · exact htotal ⟨rfl, fun _ _ => rfl⟩
  · exact htotal ⟨rfl, fun _ _ => rfl⟩
  · exact htotal ⟨rfl, fun _ _ => rfl⟩
  · exact htotal ⟨rfl, fun _ _ => rfl⟩
  · exact htotal ⟨rfl, fun _ _ => rfl⟩
  · show (GuardedRun.run call {} xs).windowCount + 1 = _
    rw [h.holds.ring.count, length_completed, Nat.min_comm]
  · by_cases hticks : ticks log = 0
    · rw [if_pos hticks, ← h.current]
      refine if_neg ?_
      rw [h.holds.ring.count, length_completed, hticks]
      decide
    · rw [if_neg hticks]
      exact h.holds.ring.snapshot (getLast?_completed (Nat.pos_of_ne_zero hticks))

/-- The totals reach one tick further back than the number of windows in the ring: after a
packet and a tick, the packet is counted. -/
theorem totals_before_tick :
    let xs : List MetricsCall := [.recordPacket 100 0x10, .tick]
    ¬ (GuardedRun.run call {} xs).snapshot.Totals
      (since (min windowSize (ticks xs.reverse)) xs.reverse) := by
  intro xs h
  exact absurd h.packets (by decide)

end SecurityMetrics
end NeuStack
