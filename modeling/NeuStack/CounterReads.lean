import Mathlib.Algebra.BigOperators.Group.List.Basic
import Mathlib.Algebra.GroupWithZero.Nat
import Mathlib.Algebra.Order.BigOperators.Group.List
import Mathlib.Algebra.Order.Group.Nat

/-! # Reading counters that grow

Several counters grow while they are read one after another.  `Reads` says what the numbers
`ns` read so far are worth: each lies between what its counter was at first and what it is
now, and a number `c` that did not exceed the sum of all counters when the reading began
does not exceed the sum of what was read and of what is still unread.

It survives growth (`Reads.grow`) and reading one counter more (`Reads.read`).

The counters come from a list of things that are put into numbered boxes
(`sum_inBox`), and one thing may take the place of another (`countP_set_of_getElem?`).
-/
namespace CounterReads

/-- What is known of the first counters of `n`, of which `ns` was read. -/
structure Reads (n : Nat) (first now : Nat → Nat) (c : Nat) (ns : List Nat) : Prop where
  length : ns.length ≤ n
  low : ∀ j, first j ≤ now j
  between : ∀ (j : Nat) (h : j < ns.length), first j ≤ ns[j] ∧ ns[j] ≤ now j
  total : c ≤ ns.sum + ((List.range' ns.length (n - ns.length)).map now).sum

variable {n c : Nat} {first now now' : Nat → Nat} {ns : List Nat}

theorem Reads.start (hlow : ∀ j, first j ≤ now j) (hc : c ≤ ((List.range n).map now).sum) :
    Reads n first now c [] where
  length := Nat.zero_le n
  low := hlow
  between _ h := absurd h (Nat.not_lt_zero _)
  total := by
    rw [List.sum_nil, Nat.zero_add, List.length_nil, Nat.sub_zero, ← List.range_eq_range']
    exact hc

/-- The counters grow. -/
theorem Reads.grow (h : Reads n first now c ns) (hnow : ∀ j, now j ≤ now' j) :
    Reads n first now' c ns where
  length := h.length
  low j := Nat.le_trans (h.low j) (hnow j)
  between j hj := ⟨(h.between j hj).1, Nat.le_trans (h.between j hj).2 (hnow j)⟩
  total := Nat.le_trans h.total (Nat.add_le_add_left (List.sum_le_sum fun j _ => hnow j) _)

/-- The next counter is read. -/
theorem Reads.read (h : Reads n first now c ns) (hlt : ns.length < n) :
    Reads n first now c (ns ++ [now ns.length]) where
  length := by
    rw [List.length_append, List.length_singleton]
    exact hlt
  low := h.low
  between j hj := by
    rw [List.length_append, List.length_singleton] at hj
    rcases Nat.lt_or_eq_of_le (Nat.le_of_lt_succ hj) with hj' | rfl
    · rw [List.getElem_append_left hj']
      exact h.between j hj'
    · rw [List.getElem_concat_length rfl]
      exact ⟨h.low _, Nat.le_refl _⟩
  total := by
    have htotal := h.total
    have hrest : n - ns.length = n - (ns.length + 1) + 1 := by omega
    rw [hrest, List.range'_succ, List.map_cons, List.sum_cons] at htotal
    rw [List.sum_append, List.sum_singleton, List.length_append, List.length_singleton]
    omega

/-- All counters were read. -/
theorem Reads.total_read (h : Reads n first now c ns) (hall : ns.length = n) : c ≤ ns.sum := by
  have htotal := h.total
  rw [hall, Nat.sub_self] at htotal
  exact htotal

/-- What was read of the counters up to the `i`-th. -/
theorem Reads.sum_take (h : Reads n first now c ns) {i : Nat} (hi : i ≤ ns.length) :
    ((List.range i).map first).sum ≤ (ns.take i).sum ∧
      (ns.take i).sum ≤ ((List.range i).map now).sum := by
  induction i with
  | zero => exact ⟨Nat.le_refl 0, Nat.le_refl 0⟩
  | succ i ih =>
    obtain ⟨hlow, hhigh⟩ := ih (Nat.le_of_succ_le hi)
    obtain ⟨hfirst, hnow⟩ := h.between i hi
    rw [List.range_succ, List.map_append, List.map_append, List.sum_append, List.sum_append,
      List.take_succ_eq_append_getElem hi, List.sum_append]
    simp only [List.map_cons, List.map_nil, List.sum_singleton]
    exact ⟨Nat.add_le_add hlow hfirst, Nat.add_le_add hhigh hnow⟩

/-! ## Things in boxes -/

section Boxes
variable {α : Type} (p : α → Bool) (box : α → Nat) (l : List α)

/-- How many of the things are in the box `j`. -/
def inBox (j : Nat) : Nat := l.countP fun a => p a && box a == j

/-- The boxes below `n`, together. -/
theorem sum_inBox (n : Nat) :
    ((List.range n).map (inBox p box l)).sum = l.countP fun a => p a && decide (box a < n) := by
  induction n with
  | zero =>
    symm
    rw [List.range_zero, List.map_nil, List.sum_nil, List.countP_eq_zero]
    intro a _
    simp
  | succ n ih =>
    rw [List.range_succ, List.map_append, List.sum_append, ih, List.map_singleton,
      List.sum_singleton]
    clear ih
    induction l with
    | nil => rfl
    | cons a l ih =>
      rw [inBox] at ih ⊢
      rw [List.countP_cons, List.countP_cons, List.countP_cons, ← ih]
      cases p a with
      | false => rfl
      | true =>
        rcases Nat.lt_trichotomy (box a) n with h | h | h
        · simp [h, Nat.ne_of_lt h, Nat.lt_succ_of_lt h]
          omega
        · simp [h]
          omega
        · simp [Nat.not_lt_of_gt h, Nat.ne_of_gt h, Nat.not_lt_of_ge (Nat.succ_le_of_lt h)]

variable {p l}

/-- Another thing takes the place of one. -/
theorem countP_set_of_getElem? {i : Nat} {a : α} (b : α) (ha : l[i]? = some a) :
    (l.set i b).countP p + (if p a then 1 else 0) = l.countP p + if p b then 1 else 0 := by
  induction l generalizing i with
  | nil => cases ha
  | cons x l ih =>
    cases i with
    | zero =>
      cases ha
      rw [List.set_cons_zero, List.countP_cons, List.countP_cons]
      omega
    | succ i =>
      rw [List.set_cons_succ, List.countP_cons, List.countP_cons]
      have := ih ha
      omega

end Boxes

end CounterReads
