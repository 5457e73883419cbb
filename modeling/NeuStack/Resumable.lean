import Mathlib.Logic.Basic

/-! # Loops that wait for input

A machine holds the input that it has not used yet, and makes rounds until one of them
has to wait for more.  It is **resumable** if a round does the same whatever stands
behind its input, and a round that waits has done no more than to record what it used.
Then giving more to a loop that has stopped is giving it everything at once
(`Resumable.run_more`): a machine that is fed in pieces ends where it ends when it is fed
their concatenation.
-/
namespace Rounds
variable {σ : Type}

/-- At most `n` rounds; a round says whether the loop goes on. -/
@[grind =] def run (round : σ → Bool × σ) : Nat → σ → σ
  | 0, p => p
  | n + 1, p => if (round p).1 then run round n (round p).2 else (round p).2

theorem run_of_goes {round : σ → Bool × σ} {p q : σ} (h : round p = (true, q)) (n : Nat) :
    run round (n + 1) p = run round n q := by
  rw [run, h, if_pos rfl]

theorem run_of_waits {round : σ → Bool × σ} {p q : σ} (h : round p = (false, q)) (n : Nat) :
    run round (n + 1) p = q := by
  rw [run, h, if_neg Bool.false_ne_true]

theorem run_congr {round : σ → Bool × σ} {p q : σ} (h : round p = round q) (n : Nat) :
    run round (n + 1) p = run round (n + 1) q := by
  rw [run, run, h]

/-- What a round keeps, the loop keeps. -/
theorem run_invariant {round : σ → Bool × σ} {P : σ → Prop} (hround : ∀ p, P p → P (round p).2)
    (n : Nat) {p : σ} (hp : P p) : P (run round n p) := by
  induction n generalizing p with
  | zero => exact hp
  | succ n ih =>
    rw [run]
    split
    · exact ih (hround p hp)
    · exact hround p hp

/-- The loop from `p` stops in `q`, after `n` rounds. -/
inductive Stops (round : σ → Bool × σ) : Nat → σ → σ → Prop
  | waits {p q : σ} (h : round p = (false, q)) : Stops round 1 p q
  | goes {n : Nat} {p q r : σ} (h : round p = (true, q)) (rest : Stops round n q r) :
      Stops round (n + 1) p r

/-- Rounds that are not needed are not made. -/
theorem Stops.run_eq {round : σ → Bool × σ} {n m : Nat} {p q : σ} (h : Stops round n p q)
    (hm : n ≤ m) : run round m p = q := by
  induction h generalizing m with
  | waits h =>
    obtain ⟨m, rfl⟩ := Nat.exists_eq_add_of_le' hm
    exact run_of_waits h m
  | goes h _ ih =>
    obtain ⟨m, rfl⟩ := Nat.exists_eq_add_of_le' (Nat.le_trans (Nat.le_add_left 1 _) hm)
    rw [run_of_goes h]
    exact ih (Nat.le_of_succ_le_succ hm)

end Rounds

open Rounds

/-- `more b p` is `p` with `b` behind its input; `rank` bounds the rounds that are left. -/
structure Resumable {σ α : Type} (round : σ → Bool × σ) (more : List α → σ → σ)
    (rank : σ → Nat) : Prop where
  more_nil : ∀ p, more [] p = p
  more_more : ∀ a b p, more b (more a p) = more (a ++ b) p
  rank_more : ∀ b p, rank (more b p) = rank p
  rank_goes : ∀ {p q}, round p = (true, q) → rank q < rank p
  rank_waits : ∀ {p q}, round p = (false, q) → rank q ≤ rank p
  goes : ∀ {p q} b, round p = (true, q) → round (more b p) = (true, more b q)
  waits : ∀ {p q} b, round p = (false, q) → round (more b p) = round (more b q)

namespace Resumable
variable {σ α : Type} {round : σ → Bool × σ} {more : List α → σ → σ} {rank : σ → Nat}
  (h : Resumable round more rank)
include h

theorem rank_run_le (n : Nat) (p : σ) : rank (run round n p) ≤ rank p := by
  induction n generalizing p with
  | zero => exact Nat.le_refl _
  | succ n ih =>
    rcases hround : round p with ⟨_ | _, q⟩
    · rw [run_of_waits hround]
      exact h.rank_waits hround
    · rw [run_of_goes hround]
      exact Nat.le_trans (ih q) (Nat.le_of_lt (h.rank_goes hround))

/-- More rounds than the rank do not matter. -/
theorem run_eq {n m : Nat} {p : σ} (hn : rank p < n) (hm : rank p < m) :
    run round n p = run round m p := by
  induction n generalizing m p with
  | zero => exact absurd hn (Nat.not_lt_zero _)
  | succ n ih =>
    cases m with
    | zero => exact absurd hm (Nat.not_lt_zero _)
    | succ m =>
      rcases hround : round p with ⟨_ | _, q⟩
      · rw [run_of_waits hround, run_of_waits hround]
      · have hlt := h.rank_goes hround
        rw [run_of_goes hround, run_of_goes hround]
        exact ih (by omega) (by omega)

/-- **The loop stops**, after at most as many rounds as the rank, and one. -/
theorem stops (p : σ) : ∃ n q, n ≤ rank p + 1 ∧ Stops round n p q := by
  generalize hrank : rank p = k
  induction k using Nat.strongRecOn generalizing p with
  | ind k ih =>
    rcases hround : round p with ⟨_ | _, q⟩
    · exact ⟨1, q, Nat.le_add_left 1 k, .waits hround⟩
    · have hlt := h.rank_goes hround
      obtain ⟨n, r, hn, hstops⟩ := ih (rank q) (hrank ▸ hlt) q rfl
      exact ⟨n + 1, r, by omega, .goes hround hstops⟩

/-- **A loop that has stopped can be resumed.** -/
theorem run_more {n : Nat} {p : σ} (hn : rank p < n) (b : List α) :
    run round n (more b p) = run round n (more b (run round n p)) := by
  induction n generalizing p with
  | zero => exact absurd hn (Nat.not_lt_zero _)
  | succ n ih =>
    rcases hround : round p with ⟨_ | _, q⟩
    · rw [run_of_waits hround, run, run, h.waits b hround]
    · have hlt := h.rank_goes hround
      have hle := h.rank_run_le n q
      rw [run_of_goes hround, run_of_goes (h.goes b hround), ih (by omega)]
      apply h.run_eq <;> rw [h.rank_more] <;> omega

end Resumable
