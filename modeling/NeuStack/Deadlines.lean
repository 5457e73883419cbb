import Mathlib.Data.List.Basic

/-! # Lists of deadlines

A timer list holds entries of a deadline and a key, in the order they were
started.  A key can be started afresh, put off in place, dropped from the front
of the list, or dropped because its deadline has come.

What a key is waiting for is the list of its deadlines, `due k l`.  A key that is
started once at a time has exactly one; each operation says what it makes of that
one, and that it leaves the other keys alone.
-/
namespace Deadlines
variable {κ : Type} [DecidableEq κ]

/-- The deadlines of `k`. -/
@[grind =] def due (k : κ) (l : List (Nat × κ)) : List Nat := (l.filter (·.2 = k)).map (·.1)

/-- Put off the first deadline of `k`. -/
@[grind =] def renew (deadline : Nat) (k : κ) : List (Nat × κ) → List (Nat × κ)
  | [] => []
  | entry :: rest =>
    if entry.2 = k then (deadline, k) :: rest else entry :: renew deadline k rest

variable {k k' : κ} {l l' : List (Nat × κ)} {d : Nat}

@[simp] theorem due_nil : due k ([] : List (Nat × κ)) = [] := rfl

theorem due_cons (entry : Nat × κ) :
    due k (entry :: l) = if entry.2 = k then entry.1 :: due k l else due k l := by
  unfold due
  rw [List.filter_cons]
  by_cases hk : entry.2 = k
  · rw [if_pos (decide_eq_true hk), if_pos hk, List.map_cons]
  · rw [if_neg (by simpa using hk), if_neg hk]

@[simp] theorem due_append : due k (l ++ l') = due k l ++ due k l' := by
  rw [due, List.filter_append, List.map_append]
  rfl

theorem mem_due : d ∈ due k l ↔ (d, k) ∈ l := by
  unfold due
  rw [List.mem_map]
  constructor
  · rintro ⟨⟨d', k'⟩, hmem, rfl⟩
    obtain ⟨hmem, hk⟩ := List.mem_filter.mp hmem
    have hk : k' = k := by simpa using hk
    exact hk ▸ hmem
  · intro hmem
    exact ⟨(d, k), List.mem_filter.mpr ⟨hmem, by simp⟩, rfl⟩

theorem due_eq_nil : due k l = [] ↔ k ∉ l.map (·.2) := by
  rw [List.eq_nil_iff_forall_not_mem]
  constructor
  · intro hnone hmem
    obtain ⟨⟨d, k'⟩, hentry, rfl⟩ := List.mem_map.mp hmem
    exact hnone d (mem_due.mpr hentry)
  · intro hnot d hd
    exact hnot (List.mem_map.mpr ⟨(d, k), mem_due.mp hd, rfl⟩)

/-- A key with a deadline is in the list. -/
theorem mem_of_due (h : due k l = [d]) : (d, k) ∈ l :=
  mem_due.mp (by rw [h]; exact List.mem_singleton_self d)

/-- The only deadline of a key. -/
theorem eq_of_due (h : due k l = [d]) {d' : Nat} (hmem : (d', k) ∈ l) : d' = d := by
  have hd' := mem_due.mpr hmem
  rw [h] at hd'
  exact List.mem_singleton.mp hd'

/-! ## Starting, putting off, dropping -/

/-- A key that is started has its new deadline behind the ones it had. -/
theorem due_start_self (d : Nat) : due k (l ++ [(d, k)]) = due k l ++ [d] := by
  rw [due_append, due_cons, if_pos rfl]
  rfl

theorem due_start_ne (d : Nat) (hne : k' ≠ k) : due k (l ++ [(d, k')]) = due k l := by
  rw [due_append, due_cons, if_neg hne, due_nil, List.append_nil]

theorem length_renew (deadline : Nat) (k : κ) (l : List (Nat × κ)) :
    (renew deadline k l).length = l.length := by
  induction l with
  | nil => rfl
  | cons entry rest ih =>
    unfold renew
    split
    · rfl
    · rw [List.length_cons, ih, List.length_cons]

theorem due_renew_ne (deadline : Nat) (hne : k' ≠ k) : due k (renew deadline k' l) = due k l := by
  induction l with
  | nil => rfl
  | cons entry rest ih =>
    unfold renew
    split
    · rename_i hk
      rw [due_cons, due_cons, if_neg hne, if_neg (by rw [hk]; exact hne)]
    · rw [due_cons, due_cons, ih]

/-- Putting off replaces the first deadline of the key. -/
theorem due_renew_self (deadline : Nat) :
    due k (renew deadline k l) = (due k l).set 0 deadline := by
  induction l with
  | nil => rfl
  | cons entry rest ih =>
    unfold renew
    by_cases hk : entry.2 = k
    · rw [if_pos hk, due_cons, if_pos rfl, due_cons, if_pos hk, List.set_cons_zero]
    · rw [if_neg hk, due_cons, if_neg hk, ih, due_cons, if_neg hk]

/-- Dropping entries from the front is nothing to a key that is not among them. -/
theorem due_drop (n : Nat) (hnot : k ∉ (l.take n).map (·.2)) : due k (l.drop n) = due k l := by
  calc due k (l.drop n) = due k (l.take n) ++ due k (l.drop n) := by
        rw [due_eq_nil.mpr hnot, List.nil_append]
    _ = due k l := by rw [← due_append, List.take_append_drop]

/-- Dropping the entries whose deadline has come. -/
theorem due_filter (keep : Nat → Bool) :
    due k (l.filter (fun entry => keep entry.1)) = (due k l).filter keep := by
  induction l with
  | nil => rfl
  | cons entry rest ih =>
    have hhead : (entry :: rest).filter (fun entry => keep entry.1) =
        if keep entry.1 then entry :: rest.filter (fun entry => keep entry.1)
        else rest.filter (fun entry => keep entry.1) := List.filter_cons
    rw [hhead, due_cons]
    by_cases hkeep : keep entry.1 = true
    · rw [if_pos hkeep, due_cons, ih]
      split
      · exact (List.filter_cons_of_pos hkeep).symm
      · rfl
    · rw [if_neg hkeep, ih]
      split
      · exact (List.filter_cons_of_neg hkeep).symm
      · rfl

end Deadlines
