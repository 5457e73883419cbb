import NeuStack.SampleExporter

/-! # The most recent samples

What `MetricsBuffer` is for: it is asked for the samples pushed last.  The abstract buffer
is the list of all that was pushed since it was cleared (`MetricsOp.record`), and the ring
holds the end of that list (`Holds`), whatever was left in the array before.

The position only grows, and after `2 ^ 64` pushes it is zero again.  The readers take it for
the number of pushes, so that is what their answers are for, up to a multiple of `2 ^ 64`
(`keeps_recent`).
-/
namespace NeuStack
namespace Metrics

/-- A call of the producer. -/
inductive MetricsOp (T : Type) where
  | push (sample : T)
  | clear

/-- What was pushed since the last `clear()`, oldest first. -/
def MetricsOp.record {T : Type} (pushed : List T) : MetricsOp T → List T
  | push sample => pushed ++ [sample]
  | clear => []

namespace MetricsBuffer
variable {T : Type} {k : Nat}

/-- `latest`; `T{}` where nothing was pushed. -/
def latest [Inhabited T] (b : MetricsBuffer T k) : T :=
  if b.writePos = 0 then default else b.buffer (WrapRing.slot k (b.writePos - 1))

/-- `all` -/
def all (b : MetricsBuffer T k) : List T := b.recent (BitVec.ofNat 64 (2 ^ k))

/-- `count` -/
def count (b : MetricsBuffer T k) : Nat := min b.writePos.toNat (2 ^ k)

/-- `clear`: the array is left as it is. -/
def clear (b : MetricsBuffer T k) : MetricsBuffer T k := { b with writePos := 0 }

def step (b : MetricsBuffer T k) : MetricsOp T → MetricsBuffer T k
  | .push sample => b.push sample
  | .clear => b.clear

/-- **The readers keep the most recent samples** of the list `pushed`, if `total` samples
were pushed. -/
structure KeepsRecent [Inhabited T] (b : MetricsBuffer T k) (pushed : List T) (total : Nat) :
    Prop where
  recent : ∀ n : BitVec 64, b.recent n = pushed.rtake (min n.toNat (min total (2 ^ k)))
  all : b.all = b.recent (BitVec.ofNat 64 (2 ^ k))
  latest : b.latest = if total = 0 then default else pushed.getLast?.getD default
  count : b.count = min total (2 ^ k)

/-! ## The ring and the list -/

/-- The ring holds the end of the list, and the position is its length. -/
structure Holds (b : MetricsBuffer T k) (pushed : List T) : Prop where
  writePos : b.writePos = BitVec.ofNat 64 pushed.length
  latest : WrapRing.Latest k b.buffer b.writePos pushed

namespace Holds
variable {b : MetricsBuffer T k} {pushed : List T}

theorem init (array : Nat → T) : Holds ({ buffer := array } : MetricsBuffer T k) [] :=
  ⟨rfl, WrapRing.latest_nil _⟩

theorem step (h : b.Holds pushed) (hk : k ≤ 64) (op : MetricsOp T) :
    (b.step op).Holds (op.record pushed) := by
  cases op with
  | push sample =>
    refine ⟨?_, h.latest.write hk sample⟩
    show b.writePos + 1 = BitVec.ofNat 64 (pushed ++ [sample]).length
    rw [List.length_append, List.length_singleton, BitVec.ofNat_add, h.writePos]
    rfl
  | clear => exact ⟨rfl, WrapRing.latest_nil _⟩

theorem run (h : b.Holds pushed) (hk : k ≤ 64) (ops : List (MetricsOp T)) :
    (GuardedRun.run MetricsBuffer.step b ops).Holds
      (GuardedRun.run MetricsOp.record pushed ops) := by
  induction ops generalizing b pushed with
  | nil => exact h
  | cons op ops ih => exact ih (h.step hk op)

theorem toNat_writePos (h : b.Holds pushed) : b.writePos.toNat = pushed.length % 2 ^ 64 := by
  rw [h.writePos, BitVec.toNat_ofNat]

/-- The window that is read lies in the list and in the ring. -/
theorem recent (h : b.Holds pushed) (n : BitVec 64) :
    b.recent n = pushed.rtake (min n.toNat (min (pushed.length % 2 ^ 64) (2 ^ k))) := by
  have htotal := Nat.mod_le pushed.length (2 ^ 64)
  rw [MetricsBuffer.recent, h.toNat_writePos]
  exact h.latest _ (by omega) (by omega)

theorem latest_eq [Inhabited T] (h : b.Holds pushed) :
    b.latest = if pushed.length % 2 ^ 64 = 0 then default else pushed.getLast?.getD default := by
  have hzero : b.writePos = 0 ↔ pushed.length % 2 ^ 64 = 0 := by
    rw [← h.toNat_writePos]
    exact BitVec.toNat_inj.symm
  rw [MetricsBuffer.latest]
  by_cases hpos : b.writePos = 0
  · rw [if_pos hpos, if_pos (hzero.mp hpos)]
  · rw [if_neg hpos, if_neg fun hmod => hpos (hzero.mpr hmod)]
    rcases List.eq_nil_or_concat' pushed with rfl | ⟨front, last, rfl⟩
    · exact absurd h.writePos hpos
    · -- the slot before the position is the window of one item
      have hone := h.latest 1 (by simp) Nat.one_le_two_pow
      rw [List.rtake_concat_succ, List.rtake_zero, WrapRing.contents, WrapRing.contents_zero,
        List.nil_append, List.nil_append, List.singleton_inj, BitVec.add_zero] at hone
      rw [List.getLast?_concat]
      exact hone

theorem keepsRecent [Inhabited T] (h : b.Holds pushed) :
    b.KeepsRecent pushed (pushed.length % 2 ^ 64) where
  recent := h.recent
  all := rfl
  latest := h.latest_eq
  count := by rw [MetricsBuffer.count, h.toNat_writePos]

end Holds

/-! ## Runs -/

/-- **The buffer keeps the most recent samples**: after any calls of `push` and `clear`, in
whatever the array held before, `recent`, `all`, `latest` and `count` are about the end of
what was pushed since the last `clear`, where the number of pushes is taken modulo `2 ^ 64`. -/
theorem keeps_recent {T : Type} [Inhabited T] (k : Fin 64) (array : Nat → T)
    (ops : List (MetricsOp T)) :
    let b : MetricsBuffer T k.val := GuardedRun.run step { buffer := array } ops
    let pushed := GuardedRun.run MetricsOp.record [] ops
    b.KeepsRecent pushed (pushed.length % 2 ^ 64) :=
  ((Holds.init array).run (Nat.le_of_lt k.isLt) ops).keepsRecent

end MetricsBuffer

instance : Inhabited TCPSample := ⟨{ timestampUs := 0 }⟩

/-- Two slots, three samples, and two more behind a `clear`. -/
example :
    let b : MetricsBuffer Nat 1 := GuardedRun.run MetricsBuffer.step { buffer := fun _ => 0 }
      [.push 1, .push 2, .push 3]
    (b.all, b.recent 1, b.latest, b.clear.all, ((b.clear.push 4).push 5).all) =
      ([2, 3], [3], 3, [], [4, 5]) := by decide

namespace MetricsBuffer

theorem record_pushes {T : Type} (pushed samples : List T) :
    GuardedRun.run MetricsOp.record pushed (samples.map .push) = pushed ++ samples := by
  induction samples generalizing pushed with
  | nil => exact (List.append_nil _).symm
  | cons sample samples ih => exact (ih (pushed ++ [sample])).trans (List.append_cons ..).symm

/-- The position has come round. -/
theorem count_wrapped {T : Type} {k : Nat} (hk : k ≤ 64) (array : Nat → T) {samples : List T}
    (hlength : samples.length = 2 ^ 64) :
    (GuardedRun.run step ({ buffer := array } : MetricsBuffer T k) (samples.map .push)).count =
      0 := by
  have hrun := (Holds.init (k := k) array).run hk (samples.map .push)
  rw [record_pushes, List.nil_append] at hrun
  rw [count, hrun.toNat_writePos, hlength, Nat.mod_self, Nat.zero_min]

/-- `2 ^ 64` pushes of one sample into the engine's buffer of 1024: it counts none. -/
theorem wrapped_forgets :
    ¬ ∀ (k : Fin 64) (array : Nat → TCPSample) (ops : List (MetricsOp TCPSample)),
      let b : MetricsBuffer TCPSample k.val := GuardedRun.run step { buffer := array } ops
      let pushed := GuardedRun.run MetricsOp.record [] ops
      b.KeepsRecent pushed pushed.length := by
  intro hclaim
  have hlength : (List.replicate (2 ^ 64) ({ timestampUs := 1 } : TCPSample)).length = 2 ^ 64 :=
    List.length_replicate
  generalize List.replicate (2 ^ 64) ({ timestampUs := 1 } : TCPSample) = samples at hlength
  have hcount := (hclaim 10 (fun _ => default) (samples.map .push)).count
  rw [record_pushes, List.nil_append, hlength] at hcount
  rw [count_wrapped (by decide) _ hlength] at hcount
  exact absurd hcount (by decide)

end MetricsBuffer
end Metrics
end NeuStack
