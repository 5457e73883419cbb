import Mathlib.Logic.Relation

/-! # Runs of a deterministic machine

A machine is a function `step` from a state and an input to a state; its runs
are the left folds of `step` over lists of inputs.  A **guard** `ok s x` is a
condition on one step, stated before the step is taken: `Meets step ok s xs`
says that every step of the run from `s` over `xs` meets it.

Invariants come in three forms: of one guarded step after another
(`Meets.invariant`), of a step that is itself a path of smaller moves
(`invariant_of_path`), and of the states a run passes through
(`Meets.of_append`: every prefix of a guarded run is one).
-/
namespace GuardedRun
variable {S I : Type} (step : S → I → S)

/-- The state after the inputs `xs`. -/
def run (s : S) (xs : List I) : S := xs.foldl step s

@[simp] theorem run_nil (s : S) : run step s [] = s := rfl

@[simp] theorem run_cons (s : S) (x : I) (xs : List I) :
    run step s (x :: xs) = run step (step s x) xs := rfl

theorem run_append (s : S) (xs ys : List I) :
    run step s (xs ++ ys) = run step (run step s xs) ys :=
  List.foldl_append

/-- Every step of the run over `xs` meets the guard in the state it starts from. -/
def Meets (ok : S → I → Prop) : S → List I → Prop
  | _, [] => True
  | s, x :: xs => ok s x ∧ Meets ok (step s x) xs

variable {step} {ok : S → I → Prop}

instance decidableMeets [∀ s x, Decidable (ok s x)] :
    (s : S) → (xs : List I) → Decidable (Meets step ok s xs)
  | _, [] => .isTrue trivial
  | s, x :: xs =>
    have := decidableMeets (step s x) xs
    inferInstanceAs (Decidable (_ ∧ _))

theorem Meets.of_append {s : S} {xs ys : List I} (h : Meets step ok s (xs ++ ys)) :
    Meets step ok s xs ∧ Meets step ok (run step s xs) ys := by
  induction xs generalizing s with
  | nil => exact ⟨trivial, h⟩
  | cons x xs ih =>
    obtain ⟨hx, hrest⟩ := h
    obtain ⟨hxs, hys⟩ := ih hrest
    exact ⟨⟨hx, hxs⟩, hys⟩

/-- Each step by itself, in the state that the steps before it lead to. -/
theorem meets_iff {s : S} {xs : List I} :
    Meets step ok s xs ↔ ∀ ys x, ys ++ [x] <+: xs → ok (run step s ys) x := by
  induction xs generalizing s with
  | nil =>
    refine iff_of_true trivial fun ys x hprefix => ?_
    exact absurd (List.prefix_nil.mp hprefix) (List.append_ne_nil_of_right_ne_nil _ nofun)
  | cons x xs ih =>
    rw [Meets, ih]
    constructor
    · rintro ⟨hx, hrest⟩ ys y hprefix
      cases ys with
      | nil =>
        obtain ⟨rfl, -⟩ := List.cons_prefix_cons.mp hprefix
        exact hx
      | cons z ys =>
        obtain ⟨rfl, htail⟩ := List.cons_prefix_cons.mp hprefix
        exact hrest ys y htail
    · intro hall
      exact ⟨hall [] x (List.cons_prefix_cons.mpr ⟨rfl, List.nil_prefix⟩),
        fun ys y hprefix => hall (x :: ys) y (List.cons_prefix_cons.mpr ⟨rfl, hprefix⟩)⟩

/-- Inputs that meet the guard in every state. -/
theorem meets_of_forall {xs : List I} (h : ∀ x ∈ xs, ∀ s, ok s x) (s : S) : Meets step ok s xs := by
  induction xs generalizing s with
  | nil => exact trivial
  | cons x xs ih =>
    obtain ⟨hx, hrest⟩ := List.forall_mem_cons.mp h
    exact ⟨hx s, ih hrest _⟩

/-- What an invariant makes of a guard: if the steps that meet the guard keep it, and
obey `ok'` where it holds, then a run that meets the guard obeys `ok'`. -/
theorem Meets.imp {ok' : S → I → Prop} {P : S → Prop}
    (hstep : ∀ s x, P s → ok s x → P (step s x) ∧ ok' s x) {s : S} {xs : List I} (hs : P s)
    (h : Meets step ok s xs) : Meets step ok' s xs := by
  induction xs generalizing s with
  | nil => exact trivial
  | cons x xs ih =>
    obtain ⟨hnext, hok⟩ := hstep s x hs h.1
    exact ⟨hok, ih hnext h.2⟩

/-- **The run rule.**  What holds at the start, and is kept by every step that
meets the guard, holds after every run whose steps all meet it. -/
theorem Meets.invariant {P : S → Prop} (hstep : ∀ s x, P s → ok s x → P (step s x))
    {s : S} {xs : List I} (hs : P s) (h : Meets step ok s xs) : P (run step s xs) := by
  induction xs generalizing s with
  | nil => exact hs
  | cons x xs ih => exact ih (hstep s x hs h.1) h.2

/-- **The prefix rule.**  What holds at the start, and is kept by every step of the
run that meets the guard, holds in every state the run passes through. -/
theorem Meets.always {P : S → Prop} {s : S} {xs : List I}
    (hstep : ∀ s, ∀ x ∈ xs, P s → ok s x → P (step s x)) (hs : P s) (h : Meets step ok s xs) :
    ∀ ys, ys <+: xs → P (run step s ys) := by
  induction xs generalizing s with
  | nil =>
    intro ys hys
    rw [List.prefix_nil.mp hys]
    exact hs
  | cons x xs ih =>
    intro ys hys
    cases ys with
    | nil => exact hs
    | cons y ys =>
      obtain ⟨rfl, hrest⟩ := List.cons_prefix_cons.mp hys
      exact ih (fun s z hz => hstep s z (List.mem_cons_of_mem _ hz))
        (hstep s y (List.mem_cons_self ..) hs h.1) h.2 ys hrest

/-- Conversely: if a step that misses the guard spoils the property, a run that has
it in all of its states meets the guard.  `Q` is what may be assumed of the states. -/
theorem meets_of_always {P Q : S → Prop} (hQ : ∀ s x, Q s → Q (step s x))
    (hok : ∀ s x, Q s → P s → P (step s x) → ok s x) {s : S} {xs : List I} (hs : Q s)
    (h : ∀ ys, ys <+: xs → P (run step s ys)) : Meets step ok s xs := by
  induction xs generalizing s with
  | nil => exact trivial
  | cons x xs ih =>
    have hfirst : P (step s x) := h [x] (List.cons_prefix_cons.mpr ⟨rfl, List.nil_prefix⟩)
    exact ⟨hok s x hs (h [] List.nil_prefix) hfirst,
      ih (hQ s x hs) fun ys hys => h (x :: ys) (List.cons_prefix_cons.mpr ⟨rfl, hys⟩)⟩

/-- Two guards that agree on the states an invariant allows are met by the same runs. -/
theorem meets_congr {ok' : S → I → Prop} {Q : S → Prop} (hQ : ∀ s x, Q s → Q (step s x))
    (hok : ∀ s x, Q s → (ok s x ↔ ok' s x)) {s : S} (hs : Q s) (xs : List I) :
    Meets step ok s xs ↔ Meets step ok' s xs := by
  induction xs generalizing s with
  | nil => exact Iff.rfl
  | cons x xs ih => exact and_congr (hok s x hs) (ih (hQ s x hs))

/-- A property of the states together with one of the steps, and the guard that is
right for both.  `Q` is what may be assumed of the states. -/
theorem always_and_meets_iff {P Q : S → Prop} {obeys : S → I → Prop}
    (hQ : ∀ s x, Q s → Q (step s x))
    (hok : ∀ s x, Q s → P s → (ok s x ↔ P (step s x) ∧ obeys s x)) {s : S} (hs : Q s) (hP : P s)
    (xs : List I) :
    (∀ ys, ys <+: xs → P (run step s ys)) ∧ Meets step obeys s xs ↔ Meets step ok s xs := by
  constructor
  · rintro ⟨halways, hobeys⟩
    induction xs generalizing s with
    | nil => exact trivial
    | cons x xs ih =>
      have hnext : P (step s x) := halways [x] (List.cons_prefix_cons.mpr ⟨rfl, List.nil_prefix⟩)
      exact ⟨(hok s x hs hP).mpr ⟨hnext, hobeys.1⟩, ih (hQ s x hs) hnext
        (fun ys hys => halways (x :: ys) (List.cons_prefix_cons.mpr ⟨rfl, hys⟩)) hobeys.2⟩
  · intro hmeets
    induction xs generalizing s with
    | nil =>
      refine ⟨fun ys hys => ?_, trivial⟩
      rw [List.prefix_nil.mp hys]
      exact hP
    | cons x xs ih =>
      obtain ⟨hnext, hobeys⟩ := (hok s x hs hP).mp hmeets.1
      obtain ⟨halways, hrest⟩ := ih (hQ s x hs) hnext hmeets.2
      refine ⟨fun ys hys => ?_, hobeys, hrest⟩
      cases ys with
      | nil => exact hP
      | cons y ys =>
        obtain ⟨rfl, htail⟩ := List.cons_prefix_cons.mp hys
        exact halways ys htail

/-- The run rule for runs without a guard. -/
theorem run_invariant {P : S → Prop} (hstep : ∀ s x, P s → P (step s x)) {s : S} (hs : P s)
    (xs : List I) : P (run step s xs) := by
  induction xs generalizing s with
  | nil => exact hs
  | cons x xs ih => exact ih (hstep s x hs)

/-- **The path rule.**  What one move keeps, a path of moves keeps. -/
theorem invariant_of_path {r : S → S → Prop} {P : S → Prop} (hr : ∀ s t, r s t → P s → P t)
    {s t : S} (h : Relation.ReflTransGen r s t) (hs : P s) : P t := by
  induction h with
  | refl => exact hs
  | tail _ hbc ih => exact hr _ _ hbc ih

end GuardedRun
