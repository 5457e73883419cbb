import Mathlib.Logic.Basic

/-! # Checked computations

A **checked** computation is a function once more, with the divisions taken seriously: it
stops, at `none`, where a divisor is zero.  `Goes P r v` says that the checked computation
`r` does not stop, that its result is the value `v` of the unchecked one, and that `v` has
the property `P`, on which the next computation can rely.  So an invariant and the absence
of zero divisors are carried along together, one rule for each way of putting computations
together; `Goes.foldlM` is the rule for loops and for runs.
-/
namespace Checked
variable {α β γ : Type}

/-- A divisor: the computation stops if it is zero. -/
def divisor? [OfNat α 0] [DecidableEq α] (d : α) : Option α := if d = 0 then none else some d

theorem divisor?_eq [OfNat α 0] [DecidableEq α] {d : α} (h : d ≠ 0) : divisor? d = some d :=
  if_neg h

/-- **The checked computation `r` goes through**, with the result `v`, which has `P`. -/
structure Goes (P : α → Prop) (r : Option α) (v : α) : Prop where
  eq : r = some v
  holds : P v

namespace Goes
variable {P : α → Prop} {Q : β → Prop} {r r' : Option α} {v v' : α}

/-- What cannot stop. -/
theorem some (h : P v) : Goes P (some v) v := ⟨rfl, h⟩

theorem bind {f : α → Option β} {w : β} (h : Goes P r v) (hf : P v → Goes Q (f v) w) :
    Goes Q (r >>= f) w := by
  rw [h.eq]
  exact hf h.holds

theorem map {f : α → β} (h : Goes P r v) (hf : P v → Q (f v)) : Goes Q (r.map f) (f v) := by
  rw [h.eq]
  exact .some (hf h.holds)

/-- A division by what is not zero. -/
theorem divide [OfNat γ 0] [DecidableEq γ] {d : γ} {f : γ → Option α} (hd : d ≠ 0)
    (hf : Goes P (f d) v) : Goes P (divisor? d >>= f) v := by
  rw [divisor?_eq hd]
  exact hf

theorem ite {c : Prop} [Decidable c] (ht : c → Goes P r v) (he : ¬ c → Goes P r' v') :
    Goes P (if c then r else r') (if c then v else v') := by
  by_cases h : c
  · rw [if_pos h, if_pos h]
    exact ht h
  · rw [if_neg h, if_neg h]
    exact he h

/-- **A loop goes through** if each round does and keeps the property. -/
theorem foldlM {f : α → γ → Option α} {g : α → γ → α} {xs : List γ}
    (hstep : ∀ a, ∀ x ∈ xs, P a → Goes P (f a x) (g a x)) {a : α} (ha : P a) :
    Goes P (xs.foldlM f a) (xs.foldl g a) := by
  induction xs generalizing a with
  | nil => exact .some ha
  | cons x xs ih =>
    rw [List.foldlM_cons, List.foldl_cons]
    refine (hstep a x List.mem_cons_self ha).bind fun hx => ?_
    exact ih (fun a y hy => hstep a y (List.mem_cons_of_mem _ hy)) hx

end Goes
end Checked
