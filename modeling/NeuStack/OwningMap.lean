import NeuStack.Table

/-! # Maps that own their objects

A map from keys to unique pointers.  The objects it created are numbered, so that a number
stands for one object for ever; `owner` holds the number that each key owns, and `objects`
what still exists.  Assigning to a key creates an object and destroys the one that the key
owned.

`Owns` is the invariant: an object exists if and only if a key owns it, and then one key
only.  So a number that was handed out is good until its key is assigned again
(`get_emplace`), and the map seen by its values is an association list (`values_emplace`,
`values_update`).
-/
structure OwningMap (κ ν : Type) where
  owner : List (κ × Nat) := []
  objects : List (Nat × ν) := []
  created : Nat := 0

namespace OwningMap
variable {κ ν : Type} [BEq κ] [DecidableEq κ] (m : OwningMap κ ν)

/-- The object under a key. -/
def find (k : κ) : Option Nat := m.owner.lookup k

/-- The object behind a number, if it exists. -/
def get (p : Nat) : Option ν := m.objects.lookup p

/-- `m[k] = make_unique(v)`; the new object has the number `m.created`. -/
def emplace (k : κ) (v : ν) : OwningMap κ ν where
  owner := Table.assign k m.created m.owner
  objects := (m.created, v) ::
    (m.find k).elim m.objects fun old => m.objects.filter (·.1 ≠ old)
  created := m.created + 1

/-- A change of an object through its number. -/
def update (p : Nat) (f : ν → ν) : OwningMap κ ν := { m with objects := Table.modify p f m.objects }

/-- A key with the object that `g` finds behind its number. -/
def through (g : Nat → Option ν) (e : κ × Nat) : Option (κ × ν) := (g e.2).map (Prod.mk e.1)

/-- The map by its values. -/
def values : List (κ × ν) := m.owner.filterMap (through m.get)

/-- **What exists is owned, by one key.** -/
structure Owns (m : OwningMap κ ν) : Prop where
  keys : (m.owner.map (·.1)).Nodup
  unique : ∀ {k k' p}, m.find k = some p → m.find k' = some p → k = k'
  exists_iff : ∀ p, (m.get p).isSome = true ↔ ∃ k, m.find k = some p
  old : ∀ {k p}, m.find k = some p → p < m.created

omit [DecidableEq κ] in
theorem Owns.init : Owns ({} : OwningMap κ ν) where
  keys := List.nodup_nil
  unique := nofun
  exists_iff _ := ⟨nofun, nofun⟩
  old := nofun

variable [LawfulBEq κ] {m} {k k' : κ} {v : ν} {p : Nat}

theorem find_emplace (k' : κ) :
    (m.emplace k v).find k' = if k' = k then some m.created else m.find k' :=
  Table.lookup_assign ..

omit [LawfulBEq κ] in
/-- **What an assignment does to the objects**: one is new, and the one that the key owned
is gone. -/
theorem get_emplace (p : Nat) :
    (m.emplace k v).get p =
      if p = m.created then some v else if m.find k = some p then none else m.get p := by
  rw [get, emplace, List.lookup_cons]
  split
  · rename_i hp
    rw [if_pos (beq_iff_eq.mp hp)]
  · rename_i hp
    rw [if_neg (beq_eq_false_iff_ne.mp hp)]
    cases m.find k with
    | none => rfl
    | some old =>
      show (m.objects.filter (·.1 ≠ old)).lookup p = _
      rw [Table.lookup_erase]
      by_cases hold : p = old
      · rw [if_pos hold, if_pos (congrArg some hold.symm)]
      · rw [if_neg hold, if_neg fun h => hold (Option.some.inj h).symm]
        rfl

omit [BEq κ] [DecidableEq κ] [LawfulBEq κ] in
theorem get_update (p p' : Nat) (f : ν → ν) :
    (m.update p f).get p' = if p' = p then (m.get p').map f else m.get p' :=
  Table.lookup_modify ..

/-- **The objects stay owned.** -/
theorem Owns.emplace (h : m.Owns) (k : κ) (v : ν) : (m.emplace k v).Owns where
  keys := by
    show ((Table.assign k m.created m.owner).map (·.1)).Nodup
    rcases Table.assign_cases k m.created m.owner with ⟨l₁, old, l₂, hl, heq⟩ | ⟨hnew, heq⟩
    · have hkeys := h.keys
      rw [hl, List.map_append, List.map_cons] at hkeys
      rw [heq, List.map_append, List.map_cons]
      exact hkeys
    · rw [heq, List.map_append]
      refine List.nodup_append.mpr ⟨h.keys, List.nodup_singleton _, fun a ha b hb hab => hnew ?_⟩
      have hk : b = k := List.mem_singleton.mp hb
      exact hk ▸ hab ▸ ha
  unique {k₁ k₂ p} h₁ h₂ := by
    rw [find_emplace] at h₁ h₂
    split at h₁ <;> split at h₂
    · rename_i heq₁ heq₂
      exact heq₁.trans heq₂.symm
    · exact absurd (h.old h₂) (Option.some.inj h₁ ▸ Nat.lt_irrefl _)
    · exact absurd (h.old h₁) (Option.some.inj h₂ ▸ Nat.lt_irrefl _)
    · exact h.unique h₁ h₂
  exists_iff p := by
    rw [get_emplace]
    split
    · rename_i hp
      exact iff_of_true rfl ⟨k, by rw [find_emplace, if_pos rfl, hp]⟩
    · rename_i hp
      have hfind (k' : κ) : (m.emplace k v).find k' = some p ↔ k' ≠ k ∧ m.find k' = some p := by
        rw [find_emplace]
        split
        · rename_i hk
          exact iff_of_false (fun hsome => hp (Option.some.inj hsome).symm) fun hand => hand.1 hk
        · rename_i hk
          exact ⟨fun hsome => ⟨hk, hsome⟩, And.right⟩
      split
      · rename_i hk
        refine iff_of_false nofun ?_
        rintro ⟨k', hk'⟩
        obtain ⟨hne, hsome⟩ := (hfind k').mp hk'
        exact hne (h.unique hsome hk)
      · rename_i hk
        rw [h.exists_iff]
        constructor
        · rintro ⟨k', hk'⟩
          exact ⟨k', (hfind k').mpr ⟨fun heq => hk (heq ▸ hk'), hk'⟩⟩
        · rintro ⟨k', hk'⟩
          exact ⟨k', ((hfind k').mp hk').2⟩
  old {k' p} hk' := by
    rw [find_emplace] at hk'
    split at hk'
    · exact Option.some.inj hk' ▸ Nat.lt_succ_self _
    · exact Nat.lt_succ_of_lt (h.old hk')

omit [DecidableEq κ] [LawfulBEq κ] in
theorem Owns.update (h : m.Owns) (p : Nat) (f : ν → ν) : (m.update p f).Owns where
  keys := h.keys
  unique := h.unique
  exists_iff p' := by
    refine Iff.trans ?_ (h.exists_iff p')
    rw [get_update]
    split
    · rw [Option.isSome_map]
    · exact Iff.rfl
  old := h.old

/-! ## By its values -/

omit [DecidableEq κ] in
theorem Owns.find_iff (h : m.Owns) : m.find k = some p ↔ (k, p) ∈ m.owner :=
  Table.lookup_iff h.keys

/-- A change of an object is a change of the value under its key. -/
theorem Owns.values_update (h : m.Owns) (hk : m.find k = some p) (f : ν → ν) :
    (m.update p f).values = Table.modify k f m.values := by
  rw [values, values, Table.modify, List.map_filterMap]
  refine List.filterMap_congr fun e he => ?_
  obtain ⟨k', p'⟩ := e
  have hk' : m.find k' = some p' := h.find_iff.mpr he
  rw [through, through, get_update]
  by_cases hp : p' = p
  · have hkey : k' = k := h.unique hk' (hp ▸ hk)
    rw [if_pos hp, Option.map_map, Option.map_map]
    refine congrFun (congrArg Option.map (funext fun v => ?_)) _
    exact (if_pos hkey).symm
  · have hkey : k' ≠ k := fun heq => hp (Option.some.inj ((heq ▸ hk').symm.trans hk))
    rw [if_neg hp, Option.map_map]
    refine congrFun (congrArg Option.map (funext fun v => ?_)) _
    exact (if_neg hkey).symm

omit [BEq κ] [LawfulBEq κ] in
/-- Values read through `g` before an assignment of the key, and through `g'` after it. -/
theorem filterMap_assign {g g' : Nat → Option ν} {l : List (κ × Nat)}
    (hkeys : (l.map (·.1)).Nodup) (hother : ∀ e ∈ l, e.1 ≠ k → g' e.2 = g e.2)
    (hold : ∀ e ∈ l, (g e.2).isSome = true) (hnew : g' p = some v) :
    (Table.assign k p l).filterMap (through g') = Table.assign k v (l.filterMap (through g)) := by
  have hput : through g' (k, p) = some (k, v) := congrArg (Option.map (Prod.mk k)) hnew
  induction l with
  | nil => exact List.filterMap_cons_some hput
  | cons e l ih =>
    obtain ⟨k₁, p₁⟩ := e
    rw [List.map_cons, List.nodup_cons] at hkeys
    obtain ⟨w, hw⟩ := Option.isSome_iff_exists.mp (hold _ (List.mem_cons_self ..))
    have hother' := fun e he => hother e (List.mem_cons_of_mem _ he)
    have hvalue : through g (k₁, p₁) = some (k₁, w) := congrArg (Option.map (Prod.mk k₁)) hw
    rw [List.filterMap_cons_some hvalue, Table.assign, Table.assign]
    by_cases hk : k₁ = k
    · have hrest : ∀ e ∈ l, through g' e = through g e := by
        intro e he
        have hne : e.1 ≠ k := fun heq =>
          hkeys.1 (List.mem_map.mpr ⟨e, he, heq.trans hk.symm⟩)
        rw [through, through, hother' e he hne]
      rw [if_pos hk, if_pos hk, List.filterMap_cons_some hput, List.filterMap_congr hrest]
    · have hsame : through g' (k₁, p₁) = some (k₁, w) := by
        rw [through, hother _ (List.mem_cons_self ..) hk]
        exact hvalue
      rw [if_neg hk, if_neg hk, List.filterMap_cons_some hsame,
        ih hkeys.2 hother' fun e he => hold e (List.mem_cons_of_mem _ he)]

/-- **An assignment to a key is an assignment of the value.** -/
theorem Owns.values_emplace (h : m.Owns) (k : κ) (v : ν) :
    (m.emplace k v).values = Table.assign k v m.values := by
  refine filterMap_assign h.keys (fun e he hne => ?_) (fun e he => ?_) ?_
  · have he' : m.find e.1 = some e.2 := h.find_iff.mpr he
    rw [get_emplace, if_neg (Nat.ne_of_lt (h.old he')), if_neg fun hk => hne (h.unique he' hk)]
  · exact (h.exists_iff _).mpr ⟨e.1, h.find_iff.mpr he⟩
  · rw [get_emplace, if_pos rfl]

omit [DecidableEq κ] in
/-- The value under a key is the one behind its number. -/
theorem Owns.lookup_values (h : m.Owns) (k : κ) : m.values.lookup k = (m.find k).bind m.get := by
  have hold : ∀ e ∈ m.owner, (m.get e.2).isSome = true := fun e he =>
    (h.exists_iff _).mpr ⟨e.1, h.find_iff.mpr he⟩
  rw [values, find]
  generalize m.owner = l at hold
  induction l with
  | nil => rfl
  | cons e l ih =>
    obtain ⟨k₁, p₁⟩ := e
    obtain ⟨w, hw⟩ := Option.isSome_iff_exists.mp (hold _ (List.mem_cons_self ..))
    have hvalue : through m.get (k₁, p₁) = some (k₁, w) := congrArg (Option.map (Prod.mk k₁)) hw
    rw [List.filterMap_cons_some hvalue, List.lookup_cons, List.lookup_cons]
    split
    · exact hw.symm
    · exact ih fun e he => hold e (List.mem_cons_of_mem _ he)

omit [DecidableEq κ] in
theorem Owns.isNone_lookup (h : m.Owns) (k : κ) :
    (m.values.lookup k).isNone = (m.find k).isNone := by
  rw [h.lookup_values]
  cases hk : m.find k with
  | none => rfl
  | some p =>
    obtain ⟨v, hv⟩ := Option.isSome_iff_exists.mp ((h.exists_iff p).mpr ⟨k, hk⟩)
    rw [Option.bind_some, hv]
    rfl

omit [DecidableEq κ] in
/-- A change of an object that is gone changes no value. -/
theorem Owns.values_update_gone (h : m.Owns) (hp : ∀ k, m.find k ≠ some p) (f : ν → ν) :
    (m.update p f).values = m.values := by
  refine List.filterMap_congr fun e he => ?_
  have hne : e.2 ≠ p := fun heq => hp e.1 (heq ▸ h.find_iff.mpr he)
  rw [through, through, get_update, if_neg hne]

/-- A change through a number is a change under a key, or none; what the change does
elsewhere does not matter. -/
theorem Owns.values_update_cases (h : m.Owns) (p : Nat) (f : ν → ν) :
    (m.update p f).values = m.values ∨
      ∃ k v, ∀ f' : ν → ν, f' v = f v → (m.update p f).values = Table.modify k f' m.values := by
  by_cases hp : ∃ k, m.find k = some p
  · obtain ⟨k, hk⟩ := hp
    obtain ⟨v, hv⟩ := Option.isSome_iff_exists.mp ((h.exists_iff p).mpr ⟨k, hk⟩)
    refine Or.inr ⟨k, v, fun f' hf => ?_⟩
    rw [← h.values_update hk f']
    refine List.filterMap_congr fun e _ => ?_
    rw [through, through, get_update, get_update]
    split
    · rename_i heq
      simp only [heq, hv, Option.map_some, hf]
    · rfl
  · exact Or.inl (h.values_update_gone (fun k hk => hp ⟨k, hk⟩) f)

end OwningMap
