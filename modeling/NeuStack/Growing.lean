import Mathlib.Logic.Relation

/-! # Traces that grow

A machine that only ever appends to a trace: `Grows P l l'` says that `l'` is `l`
with more behind it, all of which satisfies `P`.  Appending twice is appending,
and what an appended entry can be is what it must satisfy (`Grows.mem`).
-/

/-- `l'` is `l` followed by elements that satisfy `P`. -/
def Grows {α : Type} (P : α → Prop) (l l' : List α) : Prop := ∃ m, l' = l ++ m ∧ ∀ a ∈ m, P a

namespace Grows
variable {α β : Type} {P Q : α → Prop} {l l' l'' : List α} {a b : α}

theorem refl (l : List α) : Grows P l l :=
  ⟨[], (List.append_nil l).symm, fun _ h => nomatch h⟩

theorem single (h : P a) : Grows P l (l ++ [a]) :=
  ⟨[a], rfl, fun _ hb => List.mem_singleton.mp hb ▸ h⟩

theorem trans (h : Grows P l l') (h' : Grows P l' l'') : Grows P l l'' := by
  obtain ⟨m, rfl, hm⟩ := h
  obtain ⟨m', rfl, hm'⟩ := h'
  refine ⟨m ++ m', List.append_assoc .., fun a ha => ?_⟩
  rcases List.mem_append.mp ha with ha | ha
  · exact hm a ha
  · exact hm' a ha

theorem snoc (h : Grows P l l') (ha : P a) : Grows P l (l' ++ [a]) := h.trans (single ha)

theorem mono (h : Grows P l l') (hPQ : ∀ a, P a → Q a) : Grows Q l l' := by
  obtain ⟨m, rfl, hm⟩ := h
  exact ⟨m, rfl, fun a ha => hPQ a (hm a ha)⟩

theorem isPrefix (h : Grows P l l') : l <+: l' := by
  obtain ⟨m, rfl, -⟩ := h
  exact List.prefix_append l m

/-- An entry was there before, or satisfies `P`. -/
theorem mem (h : Grows P l l') (ha : a ∈ l') : a ∈ l ∨ P a := by
  obtain ⟨m, rfl, hm⟩ := h
  exact (List.mem_append.mp ha).imp_right (hm a)

theorem countP_eq {f : α → Bool} (h : Grows P l l') (hf : ∀ a, P a → f a = false) :
    l'.countP f = l.countP f := by
  obtain ⟨m, rfl, hm⟩ := h
  have hnew : m.countP f = 0 := List.countP_eq_zero.mpr fun a ha => by simp [hf a (hm a ha)]
  rw [List.countP_append, hnew, Nat.add_zero]

/-- Each move appends, so a path of moves does. -/
theorem of_path {S : Type} {r : S → S → Prop} {tr : S → List α}
    (hr : ∀ s t, r s t → Grows P (tr s) (tr t)) {s t : S} (h : Relation.ReflTransGen r s t) :
    Grows P (tr s) (tr t) := by
  induction h with
  | refl => exact refl _
  | tail _ hmove ih => exact ih.trans (hr _ _ hmove)

end Grows
