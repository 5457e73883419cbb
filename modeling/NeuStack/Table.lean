import Mathlib.Data.List.Nodup

/-! # Association lists with distinct keys

A finite map as a list of pairs searched from the front.  With distinct keys,
looking a key up and membership of the pair are the same (`lookup_iff`), and
erasing a key leaves exactly the other pairs (`mem_erase`).
-/
namespace Table
variable {κ ν : Type} [BEq κ] [LawfulBEq κ] [DecidableEq κ] {l : List (κ × ν)} {k k' : κ} {v : ν}

omit [DecidableEq κ] in
theorem mem_of_lookup (h : l.lookup k = some v) : (k, v) ∈ l := by
  obtain ⟨l₁, l₂, rfl, -⟩ := List.lookup_eq_some_iff.mp h
  exact List.mem_append_right _ (List.mem_cons_self ..)

omit [DecidableEq κ] in
theorem lookup_iff (hl : (l.map (·.1)).Nodup) : l.lookup k = some v ↔ (k, v) ∈ l := by
  refine ⟨mem_of_lookup, fun h => ?_⟩
  induction l with
  | nil => cases h
  | cons e l ih =>
    obtain ⟨k₁, v₁⟩ := e
    rw [List.map_cons, List.nodup_cons] at hl
    rw [List.lookup_cons]
    rcases List.mem_cons.mp h with heq | hmem
    · cases heq
      simp
    · have hne : (k == k₁) = false := by
        rw [beq_eq_false_iff_ne]
        rintro rfl
        exact hl.1 (List.mem_map.mpr ⟨_, hmem, rfl⟩)
      rw [hne]
      exact ih hl.2 hmem

omit [DecidableEq κ] in
/-- The pair under a key is unique. -/
theorem eq_of_mem (hl : (l.map (·.1)).Nodup) {v' : ν} (h : (k, v) ∈ l) (h' : (k, v') ∈ l) :
    v = v' := by
  rw [← lookup_iff hl] at h h'
  rw [h] at h'
  exact Option.some.inj h'

omit [DecidableEq κ] in
theorem lookup_eq_none (h : l.lookup k = none) : k ∉ l.map (·.1) := by
  rw [List.lookup_eq_none_iff] at h
  intro hk
  obtain ⟨e, he, rfl⟩ := List.mem_map.mp hk
  have hne := h e he
  rw [bne_self_eq_false] at hne
  cases hne

omit [BEq κ] [LawfulBEq κ] in
theorem mem_erase : (k', v) ∈ l.filter (·.1 ≠ k) ↔ (k', v) ∈ l ∧ k' ≠ k := by
  rw [List.mem_filter, decide_eq_true_eq]

theorem lookup_erase (l : List (κ × ν)) (k k' : κ) :
    (l.filter (·.1 ≠ k)).lookup k' = if k' = k then none else l.lookup k' := by
  induction l with
  | nil => split <;> rfl
  | cons e l ih =>
    obtain ⟨k₁, v⟩ := e
    by_cases hk : k₁ = k
    · rw [List.filter_cons_of_neg (by simpa using hk), ih, List.lookup_cons]
      by_cases hk' : k' = k
      · rw [if_pos hk', if_pos hk']
      · rw [if_neg hk', if_neg hk', beq_eq_false_iff_ne.mpr (fun heq => hk' (heq.trans hk))]
    · rw [List.filter_cons_of_pos (by simpa using hk), List.lookup_cons, List.lookup_cons, ih]
      by_cases hk' : k' = k
      · rw [if_pos hk', if_pos hk', beq_eq_false_iff_ne.mpr (fun heq => hk (heq.symm.trans hk'))]
      · rw [if_neg hk', if_neg hk']

omit [BEq κ] [LawfulBEq κ] in
theorem nodup_erase (hl : (l.map (·.1)).Nodup) : ((l.filter (·.1 ≠ k)).map (·.1)).Nodup :=
  hl.sublist (List.filter_sublist.map _)

/-- `l[k] = v` -/
def assign (k : κ) (v : ν) : List (κ × ν) → List (κ × ν)
  | [] => [(k, v)]
  | e :: l => if e.1 = k then (k, v) :: l else e :: assign k v l

theorem lookup_assign (k : κ) (v : ν) (l : List (κ × ν)) (k' : κ) :
    (assign k v l).lookup k' = if k' = k then some v else l.lookup k' := by
  induction l with
  | nil =>
    by_cases hk : k' = k
    · rw [if_pos hk, assign, List.lookup_cons, beq_iff_eq.mpr hk]
    · rw [if_neg hk, assign, List.lookup_cons, beq_eq_false_iff_ne.mpr hk]
  | cons e l ih =>
    obtain ⟨k₁, v₁⟩ := e
    by_cases hk₁ : k₁ = k
    · rw [assign, if_pos hk₁, List.lookup_cons, List.lookup_cons, hk₁]
      by_cases hk : k' = k
      · rw [if_pos hk, beq_iff_eq.mpr hk]
      · rw [if_neg hk, beq_eq_false_iff_ne.mpr hk]
    · rw [assign, if_neg hk₁, List.lookup_cons, List.lookup_cons]
      cases hbeq : k' == k₁ with
      | true => rw [if_neg fun hk => hk₁ ((beq_iff_eq.mp hbeq).symm.trans hk)]
      | false => exact ih

omit [LawfulBEq κ] [BEq κ] in
/-- Where an assignment goes: to the first pair under the key, or to the end. -/
theorem assign_cases (k : κ) (v : ν) (l : List (κ × ν)) :
    (∃ l₁ old l₂, l = l₁ ++ (k, old) :: l₂ ∧ assign k v l = l₁ ++ (k, v) :: l₂) ∨
      k ∉ l.map (·.1) ∧ assign k v l = l ++ [(k, v)] := by
  induction l with
  | nil => exact Or.inr ⟨nofun, rfl⟩
  | cons e l ih =>
    obtain ⟨k₁, v₁⟩ := e
    by_cases hk : k₁ = k
    · subst hk
      exact Or.inl ⟨[], v₁, l, rfl, if_pos rfl⟩
    · rw [assign, if_neg hk]
      rcases ih with ⟨l₁, old, l₂, rfl, heq⟩ | ⟨hfresh, heq⟩
      · exact Or.inl ⟨(k₁, v₁) :: l₁, old, l₂, rfl, congrArg _ heq⟩
      · refine Or.inr ⟨fun hmem => ?_, congrArg _ heq⟩
        rcases List.mem_cons.mp hmem with h | h
        · exact hk h.symm
        · exact hfresh h

/-- The value under `k`, if there is one, changed by `f`. -/
def modify (k : κ) (f : ν → ν) (l : List (κ × ν)) : List (κ × ν) :=
  l.map fun e => if e.1 = k then (e.1, f e.2) else e

theorem lookup_modify (k : κ) (f : ν → ν) (l : List (κ × ν)) (k' : κ) :
    (modify k f l).lookup k' = if k' = k then (l.lookup k').map f else l.lookup k' := by
  induction l with
  | nil => split <;> rfl
  | cons e l ih =>
    obtain ⟨k₁, v₁⟩ := e
    rw [modify, List.map_cons, List.lookup_cons]
    by_cases hk₁ : k₁ = k
    · rw [if_pos hk₁, List.lookup_cons]
      cases hbeq : k' == k₁ with
      | true => rw [if_pos ((beq_iff_eq.mp hbeq).trans hk₁)]; rfl
      | false => exact ih
    · rw [if_neg hk₁, List.lookup_cons]
      cases hbeq : k' == k₁ with
      | true => rw [if_neg fun hk => hk₁ ((beq_iff_eq.mp hbeq).symm.trans hk)]
      | false => exact ih

/-- A property of what is found in a table. -/
def All (P : κ → ν → Prop) (l : List (κ × ν)) : Prop := ∀ k v, l.lookup k = some v → P k v

variable {P : κ → ν → Prop}

omit [LawfulBEq κ] [DecidableEq κ] in
theorem All.nil : All P [] := nofun

theorem All.assign (h : All P l) (hv : P k v) : All P (assign k v l) := by
  intro k' v' hv'
  rw [lookup_assign] at hv'
  split at hv'
  · cases hv'
    rename_i hk
    exact hk ▸ hv
  · exact h k' v' hv'

theorem All.modify (h : All P l) {f : ν → ν} (hf : ∀ k v, P k v → P k (f v)) :
    All P (modify k f l) := by
  intro k' v' hv'
  rw [lookup_modify] at hv'
  split at hv'
  · obtain ⟨v, hv, rfl⟩ := Option.map_eq_some_iff.mp hv'
    exact hf k' v (h k' v hv)
  · exact h k' v' hv'

/-- A count over a list without repetitions, when one element changes sides. -/
theorem countP_update {α : Type} {l : List α} {a : α} {f g : α → Bool} (hl : l.Nodup)
    (ha : a ∈ l) (hfg : ∀ b, b ≠ a → f b = g b) :
    l.countP f + (g a).toNat = l.countP g + (f a).toNat := by
  induction l with
  | nil => cases ha
  | cons b l ih =>
    rw [List.nodup_cons] at hl
    rw [List.countP_cons, List.countP_cons]
    rcases List.mem_cons.mp ha with rfl | hmem
    · have hrest : l.countP f = l.countP g := by
        refine List.countP_congr fun c hc => ?_
        rw [hfg c (fun heq => hl.1 (heq ▸ hc))]
      rw [hrest]
      cases f a <;> cases g a <;> rfl
    · have hb : b ≠ a := fun heq => hl.1 (heq ▸ hmem)
      have hind := ih hl.2 hmem
      rw [hfg b hb]
      omega

end Table
