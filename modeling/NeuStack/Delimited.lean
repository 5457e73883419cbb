import Mathlib.Data.List.Basic

/-! # Cutting at a delimiter

A stream that comes in pieces is cut where two given elements stand next to each other
for the first time (`cutPair`), or at the first occurrence of one (`cutAt`).  What has
been cut does not change when more comes (`cutPair_append`); so a parser that cuts off
one line after another does not see the pieces.
-/
namespace Delimited
variable {α : Type} [DecidableEq α]

/-- What stands before and behind the first `x` that is followed by `y`. -/
@[grind =] def cutPair (x y : α) : List α → Option (List α × List α)
  | [] => none
  | a :: rest =>
    if a = x ∧ rest.head? = some y then some ([], rest.tail)
    else (cutPair x y rest).map fun (before, behind) => (a :: before, behind)

/-- What stands before and behind the first `x`. -/
@[grind =] def cutAt (x : α) : List α → Option (List α × List α)
  | [] => none
  | a :: rest =>
    if a = x then some ([], rest)
    else (cutAt x rest).map fun (before, behind) => (a :: before, behind)

variable {x y : α} {xs before behind : List α}

theorem cutPair_eq_some (h : cutPair x y xs = some (before, behind)) :
    xs = before ++ x :: y :: behind := by
  induction xs generalizing before with
  | nil => cases h
  | cons a rest ih =>
    rw [cutPair] at h
    split at h
    · rename_i hpair
      obtain ⟨rfl, hy⟩ := hpair
      cases h
      obtain ⟨rest, rfl⟩ := List.head?_eq_some_iff.mp hy
      rfl
    · obtain ⟨⟨before', behind'⟩, hrest, heq⟩ := Option.map_eq_some_iff.mp h
      cases heq
      rw [ih hrest, List.cons_append]

theorem length_of_cutPair (h : cutPair x y xs = some (before, behind)) :
    xs.length = before.length + 2 + behind.length := by
  rw [cutPair_eq_some h, List.length_append, List.length_cons, List.length_cons]
  omega

/-- **More does not change a cut.** -/
theorem cutPair_append (h : cutPair x y xs = some (before, behind)) (ys : List α) :
    cutPair x y (xs ++ ys) = some (before, behind ++ ys) := by
  induction xs generalizing before with
  | nil => cases h
  | cons a rest ih =>
    rw [cutPair] at h
    rw [List.cons_append, cutPair]
    split at h
    · rename_i hpair
      obtain ⟨rfl, hy⟩ := hpair
      cases h
      obtain ⟨rest, rfl⟩ := List.head?_eq_some_iff.mp hy
      rw [if_pos ⟨rfl, rfl⟩]
      rfl
    · rename_i hpair
      obtain ⟨⟨before', behind'⟩, hrest, heq⟩ := Option.map_eq_some_iff.mp h
      cases heq
      rw [if_neg, ih hrest]
      · rfl
      · rintro ⟨rfl, hy⟩
        refine hpair ⟨rfl, ?_⟩
        cases rest with
        | nil => cases hrest
        | cons b rest => exact hy

/-- The pair does not stand before the cut. -/
theorem cutPair_before (h : cutPair x y xs = some (before, behind)) :
    cutPair x y before = none := by
  induction xs generalizing before with
  | nil => cases h
  | cons a rest ih =>
    rw [cutPair] at h
    split at h
    · cases h
      rfl
    · rename_i hpair
      obtain ⟨⟨before', behind'⟩, hrest, heq⟩ := Option.map_eq_some_iff.mp h
      cases heq
      rw [cutPair, if_neg, ih hrest]
      · rfl
      · rintro ⟨rfl, hy⟩
        have hsplit := cutPair_eq_some hrest
        cases before' with
        | nil => cases hy
        | cons b before' =>
          rw [List.cons_append] at hsplit
          exact hpair ⟨rfl, by rw [hsplit]; exact hy⟩

/-- Where the pair first stands. -/
theorem cutPair_of (hne : x ≠ y) (h : cutPair x y before = none) (behind : List α) :
    cutPair x y (before ++ x :: y :: behind) = some (before, behind) := by
  induction before with
  | nil =>
    rw [List.nil_append, cutPair, if_pos ⟨rfl, rfl⟩]
    rfl
  | cons a before ih =>
    rw [cutPair] at h
    split at h
    · cases h
    rename_i hpair
    rw [List.cons_append, cutPair, if_neg, ih (Option.map_eq_none_iff.mp h)]
    · rfl
    · rintro ⟨rfl, hy⟩
      cases before with
      | nil => exact hne (Option.some.inj hy)
      | cons b before => exact hpair ⟨rfl, hy⟩

/-! ## Where there is no pair -/

theorem cutPair_cons_of_ne {z : α} (h : z ≠ x) (ys : List α) :
    cutPair x y (z :: ys) = none ↔ cutPair x y ys = none := by
  rw [cutPair, if_neg fun hpair => h hpair.1, Option.map_eq_none_iff]

theorem cutPair_of_not_mem (h : x ∉ xs) : cutPair x y xs = none := by
  induction xs with
  | nil => rfl
  | cons a xs ih =>
    rw [List.mem_cons, not_or] at h
    exact (cutPair_cons_of_ne (Ne.symm h.1) xs).mpr (ih h.2)

/-- Around an element that is neither of the two. -/
theorem cutPair_append_cons {z : α} (hx : z ≠ x) (hy : z ≠ y) {ys : List α} :
    cutPair x y (xs ++ z :: ys) = none ↔ cutPair x y xs = none ∧ cutPair x y ys = none := by
  induction xs with
  | nil => exact (cutPair_cons_of_ne hx ys).trans (and_iff_right rfl).symm
  | cons a xs ih =>
    have hhead : (xs ++ z :: ys).head? = some y ↔ xs.head? = some y := by
      cases xs with
      | nil => exact iff_of_false (fun h => hy (Option.some.inj h)) nofun
      | cons b xs => exact Iff.rfl
    rw [List.cons_append, cutPair, cutPair]
    by_cases hpair : a = x ∧ xs.head? = some y
    · rw [if_pos hpair, if_pos ⟨hpair.1, hhead.mpr hpair.2⟩]
      exact iff_of_false nofun fun h => nomatch h.1
    · rw [if_neg hpair, if_neg fun h => hpair ⟨h.1, hhead.mp h.2⟩, Option.map_eq_none_iff,
        Option.map_eq_none_iff]
      exact ih

theorem cutPair_of_suffix {ys : List α} (h : cutPair x y xs = none) (hsuffix : ys <:+ xs) :
    cutPair x y ys = none := by
  induction xs with
  | nil => rwa [List.suffix_nil.mp hsuffix]
  | cons a xs ih =>
    rcases List.suffix_cons_iff.mp hsuffix with rfl | hsuffix
    · exact h
    · rw [cutPair] at h
      split at h
      · cases h
      · exact ih (Option.map_eq_none_iff.mp h) hsuffix

/-! ## At one element -/

theorem cutAt_eq_none : cutAt x xs = none ↔ x ∉ xs := by
  induction xs with
  | nil => exact iff_of_true rfl List.not_mem_nil
  | cons a xs ih =>
    rw [cutAt]
    by_cases h : a = x
    · rw [if_pos h, h]
      exact iff_of_false nofun (not_not_intro List.mem_cons_self)
    · rw [if_neg h, Option.map_eq_none_iff, ih, List.mem_cons, not_or]
      exact (and_iff_right (Ne.symm h)).symm

theorem cutAt_eq_some (h : cutAt x xs = some (before, behind)) :
    xs = before ++ x :: behind ∧ x ∉ before := by
  induction xs generalizing before with
  | nil => cases h
  | cons a rest ih =>
    rw [cutAt] at h
    split at h
    · rename_i heq
      cases h
      rw [heq]
      exact ⟨rfl, List.not_mem_nil⟩
    · rename_i hne
      obtain ⟨⟨before', behind'⟩, hrest, heq⟩ := Option.map_eq_some_iff.mp h
      cases heq
      obtain ⟨rfl, hnot⟩ := ih hrest
      refine ⟨rfl, fun hmem => ?_⟩
      rcases List.mem_cons.mp hmem with heq | hmem
      · exact hne heq.symm
      · exact hnot hmem

theorem cutAt_of (h : x ∉ before) (behind : List α) :
    cutAt x (before ++ x :: behind) = some (before, behind) := by
  induction before with
  | nil => rw [List.nil_append, cutAt, if_pos rfl]
  | cons a before ih =>
    rw [List.mem_cons, not_or] at h
    rw [List.cons_append, cutAt, if_neg (Ne.symm h.1), ih h.2]
    rfl

end Delimited
