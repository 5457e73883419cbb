import Mathlib.Data.List.Infix

/-! # Paths, read lexically

A path is divided at a separator into components, which are walked one by one: an empty one
and a dot stay, two dots go up, and anything else is a name to go down.  Nothing is above the
root; from another start the steps up are counted (`resolve`).

A path without a step up, behind a directory, leads under the directory
(`under_resolve_append`).
-/
namespace LexicalPath
variable {α : Type}

/-- Where a path leads: from the root or not, how often up, and then the names down. -/
structure Place (α : Type) where
  absolute : Bool
  ups : Nat := 0
  names : List (List α) := []
  deriving DecidableEq

/-- A place is a directory, or lies under it. -/
structure Under (p d : Place α) : Prop where
  ups : p.ups = d.ups
  names : d.names <+: p.names

namespace Under
variable {p q d : Place α}

theorem refl (p : Place α) : Under p p := ⟨rfl, List.prefix_refl _⟩

theorem trans (h : Under p q) (h' : Under q d) : Under p d :=
  ⟨h.ups.trans h'.ups, h'.names.trans h.names⟩

end Under

/-- Two dots. -/
def Place.up (p : Place α) : Place α :=
  if p.names = [] then if p.absolute then p else { p with ups := p.ups + 1 }
  else { p with names := p.names.dropLast }

theorem Place.absolute_up (p : Place α) : p.up.absolute = p.absolute := by
  rw [up]
  split
  · split <;> rfl
  · rfl

variable [DecidableEq α] (sep dot : α)

namespace Place

/-- One component. -/
def move (p : Place α) (c : List α) : Place α :=
  if c = [] ∨ c = [dot] then p
  else if c = [dot, dot] then p.up
  else { p with names := p.names ++ [c] }

variable {dot} {p : Place α}

theorem absolute_move (p : Place α) (c : List α) : (p.move dot c).absolute = p.absolute := by
  rw [move]
  split
  · rfl
  · split
    · exact absolute_up p
    · rfl

/-- Only two dots lead out of a directory. -/
theorem under_move (p : Place α) {c : List α} (hc : c ≠ [dot, dot]) :
    Under (p.move dot c) p := by
  rw [move, if_neg hc]
  split
  · exact Under.refl p
  · exact ⟨rfl, List.prefix_append ..⟩

theorem absolute_foldl (cs : List (List α)) (p : Place α) :
    (cs.foldl (move dot) p).absolute = p.absolute := by
  induction cs generalizing p with
  | nil => rfl
  | cons c cs ih => exact (ih (p.move dot c)).trans (absolute_move p c)

theorem under_foldl {cs : List (List α)} (hcs : [dot, dot] ∉ cs) (p : Place α) :
    Under (cs.foldl (move dot) p) p := by
  induction cs generalizing p with
  | nil => exact Under.refl p
  | cons c cs ih =>
    have hc : c ≠ [dot, dot] := fun heq => hcs (heq ▸ List.mem_cons_self)
    exact (ih (fun hmem => hcs (List.mem_cons_of_mem c hmem)) _).trans (under_move p hc)

end Place

/-- Where a path leads. -/
def resolve (path : List α) : Place α :=
  (path.splitOn sep).foldl (Place.move dot) { absolute := path.head? = some sep }

variable {sep dot}

theorem absolute_resolve (path : List α) :
    (resolve sep dot path).absolute = decide (path.head? = some sep) :=
  Place.absolute_foldl ..

/-- The components of a path are among its characters. -/
theorem infix_of_mem_splitOn {c path : List α} (hc : c ∈ path.splitOn sep) : c <:+: path := by
  have hall : ∀ path : List α, (∃ hd tl, path.splitOn sep = hd :: tl ∧ hd <+: path) ∧
      ∀ c ∈ path.splitOn sep, c <:+: path := by
    intro path
    induction path with
    | nil =>
      rw [List.splitOn_nil]
      exact ⟨⟨[], [], rfl, List.nil_prefix⟩, fun c hc => List.mem_singleton.mp hc ▸ List.nil_infix⟩
    | cons x path ih =>
      obtain ⟨⟨hd, tl, heq, hhd⟩, hmem⟩ := ih
      rw [List.splitOn_cons_eq_if_modifyHead]
      split
      · refine ⟨⟨[], _, rfl, List.nil_prefix⟩, fun c hc => ?_⟩
        rcases List.mem_cons.mp hc with rfl | hc
        · exact List.nil_infix
        · exact (hmem c hc).trans (List.infix_cons (List.infix_refl path))
      · rw [heq, List.modifyHead_cons]
        refine ⟨⟨_, _, rfl, (List.prefix_cons_inj x).mpr hhd⟩, fun c hc => ?_⟩
        rcases List.mem_cons.mp hc with rfl | hc
        · exact ((List.prefix_cons_inj x).mpr hhd).isInfix
        · exact (hmem c (heq ▸ List.mem_cons_of_mem _ hc)).trans
            (List.infix_cons (List.infix_refl path))
  exact (hall path).2 c hc

/-- **Behind a directory**, a path without two dots leads under it. -/
theorem under_resolve_append (dir : List α) {rest : List α} (hrest : ¬ [dot, dot] <:+: rest) :
    Under (resolve sep dot (dir ++ sep :: rest)) (resolve sep dot dir) := by
  have hup : [dot, dot] ∉ rest.splitOn sep := fun hmem => hrest (infix_of_mem_splitOn hmem)
  cases dir with
  | nil =>
    have hunder := Place.under_foldl hup { absolute := decide ((sep :: rest).head? = some sep) }
    rw [resolve, List.splitOn_append_cons_self, List.splitOn_nil, List.foldl_append]
    exact ⟨hunder.ups, hunder.names⟩
  | cons x dir =>
    rw [resolve, List.splitOn_append_cons_self, List.foldl_append]
    exact Place.under_foldl hup _

/-- The two start at one place. -/
theorem absolute_resolve_append {dir : List α} (hdir : dir ≠ []) (rest : List α) :
    (resolve sep dot (dir ++ rest)).absolute = (resolve sep dot dir).absolute := by
  rw [absolute_resolve, absolute_resolve, List.head?_append_of_ne_nil dir hdir]

end LexicalPath
