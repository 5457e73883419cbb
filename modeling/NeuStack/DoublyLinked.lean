import Mathlib.Data.List.Nodup
import Mathlib.Logic.Function.Basic

/-! # Doubly linked lists

A list whose elements point at each other: `head` and `tail` are its ends, `prev` and
`next` the links of each element.  `Threads d l` says that the links run through `l` in its
order, forwards along `next` and backwards along `prev`; removing an element and appending
one do to `l` what they say (`Threads.remove`, `Threads.pushBack`), and following the links
from `head` gives `l` (`Threads.walk`).
-/
@[ext]
structure DoublyLinked (κ : Type) where
  head : Option κ
  tail : Option κ
  prev : κ → Option κ
  next : κ → Option κ

namespace DoublyLinked
variable {κ : Type}

/-- The elements found by following `next`, at most `n` of them. -/
def walk (d : DoublyLinked κ) : Nat → Option κ → List κ
  | 0, _ => []
  | _ + 1, none => []
  | n + 1, some k => k :: d.walk n (d.next k)

/-- `f` leads from each element of `l` to the one behind it, and from the last nowhere. -/
def Leads (f : κ → Option κ) : List κ → Prop
  | [] => True
  | k :: l => f k = l.head? ∧ Leads f l

/-- **The links run through `l`.** -/
structure Threads (d : DoublyLinked κ) (l : List κ) : Prop where
  nodup : l.Nodup
  head : d.head = l.head?
  tail : d.tail = l.getLast?
  next : Leads d.next l
  prev : Leads d.prev l.reverse

variable {d : DoublyLinked κ} {f g : κ → Option κ} {l l₁ l₂ : List κ} {k : κ}

theorem Threads.empty {prev next : κ → Option κ} : Threads ⟨none, none, prev, next⟩ [] :=
  ⟨List.nodup_nil, rfl, rfl, trivial, trivial⟩

/-- The list is what is found from its head. -/
theorem Threads.walk (h : d.Threads l) : d.walk l.length d.head = l := by
  have hwalk (l : List κ) (hl : Leads d.next l) : d.walk l.length l.head? = l := by
    induction l with
    | nil => rfl
    | cons k l ih =>
      rw [List.length_cons, List.head?_cons, DoublyLinked.walk, hl.1, ih hl.2]
  rw [h.head]
  exact hwalk l h.next

/-! ## One direction -/

theorem Leads.congr (h : Leads f l) (hg : ∀ x ∈ l, g x = f x) : Leads g l := by
  induction l with
  | nil => exact trivial
  | cons k l ih =>
    obtain ⟨hk, hl⟩ := List.forall_mem_cons.mp hg
    exact ⟨hk.trans h.1, ih h.2 hl⟩

/-- Where an element leads. -/
theorem Leads.at (h : Leads f (l₁ ++ k :: l₂)) : f k = l₂.head? := by
  induction l₁ with
  | nil => exact h.1
  | cons x l₁ ih => exact ih h.2

theorem Leads.of_append (h : Leads f (l₁ ++ l₂)) : Leads f l₂ := by
  induction l₁ with
  | nil => exact h
  | cons x l₁ ih => exact ih h.2

/-- The links and the first element determine the list. -/
theorem Leads.unique {l' : List κ} (h : Leads f l) (h' : Leads f l') (hhead : l.head? = l'.head?) :
    l = l' := by
  induction l generalizing l' with
  | nil => exact (List.head?_eq_none_iff.mp hhead.symm).symm
  | cons k l ih =>
    cases l' with
    | nil => cases hhead
    | cons k' l' =>
      cases hhead
      rw [ih h.2 h'.2 (h.1.symm.trans h'.1)]

/-- **Links that end somewhere have no cycle.** -/
theorem Leads.nodup (h : Leads f l) : l.Nodup := by
  induction l with
  | nil => exact List.nodup_nil
  | cons k l ih =>
    refine List.nodup_cons.mpr ⟨fun hk => ?_, ih h.2⟩
    obtain ⟨s, t, rfl⟩ := List.append_of_mem hk
    have htail : Leads f t := h.2.of_append.2
    have hsame : s ++ k :: t = t := h.2.unique htail (h.1.symm.trans h.2.at)
    have := congrArg List.length hsame
    rw [List.length_append, List.length_cons] at this
    omega

/-- The element in front of `k` leads where `k` led. -/
theorem Leads.bypass (h : Leads f (l₁ ++ k :: l₂)) (hnodup : (l₁ ++ k :: l₂).Nodup)
    (hlast : ∀ p, l₁.getLast? = some p → g p = f k)
    (hother : ∀ x ∈ l₁ ++ l₂, l₁.getLast? ≠ some x → g x = f x) : Leads g (l₁ ++ l₂) := by
  induction l₁ with
  | nil => exact h.2.congr fun x hx => hother x hx nofun
  | cons x l₁ ih =>
    obtain ⟨hx, hrest⟩ := h
    obtain ⟨hfresh, hnodup⟩ := List.nodup_cons.mp hnodup
    cases l₁ with
    | nil =>
      refine ⟨(hlast x rfl).trans hrest.1, hrest.2.congr fun y hy => ?_⟩
      refine hother y (List.mem_cons_of_mem _ hy) fun heq => ?_
      cases heq
      exact hfresh (List.mem_cons_of_mem _ hy)
    | cons y l₁ =>
      have hne : (x :: y :: l₁).getLast? = (y :: l₁).getLast? := List.getLast?_cons_cons
      refine ⟨?_, ih hrest hnodup (fun p hp => hlast p (hne.trans hp)) fun z hz hz' =>
        hother z (List.mem_cons_of_mem _ hz) (hne ▸ hz')⟩
      rw [hother x (List.mem_cons_self ..) fun heq => ?_, hx]
      · rfl
      · rw [hne] at heq
        exact hfresh (List.mem_append_left _ (List.mem_of_getLast? heq))

/-- The last element leads to a new one. -/
theorem Leads.snoc (h : Leads f l) (hnodup : l.Nodup) (hk : g k = none)
    (hlast : ∀ t, l.getLast? = some t → g t = some k)
    (hother : ∀ x ∈ l, l.getLast? ≠ some x → g x = f x) : Leads g (l ++ [k]) := by
  induction l with
  | nil => exact ⟨hk, trivial⟩
  | cons x l ih =>
    obtain ⟨hx, hrest⟩ := h
    obtain ⟨hfresh, hnodup⟩ := List.nodup_cons.mp hnodup
    cases l with
    | nil => exact ⟨hlast x rfl, hk, trivial⟩
    | cons y l =>
      have hne : (x :: y :: l).getLast? = (y :: l).getLast? := List.getLast?_cons_cons
      refine ⟨?_, ih hrest hnodup (fun t ht => hlast t (hne.trans ht)) fun z hz hz' =>
        hother z (List.mem_cons_of_mem _ hz) (hne ▸ hz')⟩
      rw [hother x (List.mem_cons_self ..) fun heq => ?_, hx]
      · rfl
      · rw [hne] at heq
        exact hfresh (List.mem_of_getLast? heq)

/-! ## Operations -/

variable [DecidableEq κ]

/-- Take `k` out. -/
def remove (d : DoublyLinked κ) (k : κ) : DoublyLinked κ where
  head := if d.prev k = none then d.next k else d.head
  tail := if d.next k = none then d.prev k else d.tail
  prev x := if x = k then none else if d.next k = some x then d.prev k else d.prev x
  next x := if x = k then none else if d.prev k = some x then d.next k else d.next x

/-- Append `k`. -/
def pushBack (d : DoublyLinked κ) (k : κ) : DoublyLinked κ where
  head := if d.tail = none then some k else d.head
  tail := some k
  prev x := if x = k then d.tail else d.prev x
  next x := if d.tail = some x then some k else if x = k then none else d.next x

omit [DecidableEq κ] in
theorem Threads.next_eq (h : d.Threads (l₁ ++ k :: l₂)) : d.next k = l₂.head? := h.next.at

omit [DecidableEq κ] in
theorem reverse_split : (l₁ ++ k :: l₂).reverse = l₂.reverse ++ k :: l₁.reverse := by
  rw [List.reverse_append, List.reverse_cons, List.append_assoc, List.singleton_append]

omit [DecidableEq κ] in
theorem Threads.prev_eq (h : d.Threads (l₁ ++ k :: l₂)) : d.prev k = l₁.getLast? := by
  have hprev := h.prev
  rw [reverse_split] at hprev
  rw [hprev.at, List.head?_reverse]

theorem Threads.remove (h : d.Threads (l₁ ++ k :: l₂)) : (d.remove k).Threads (l₁ ++ l₂) := by
  have hnext := h.next_eq
  have hprev := h.prev_eq
  have hnodup := h.nodup
  obtain ⟨hfresh, hrest⟩ := List.nodup_middle.mp hnodup |> List.nodup_cons.mp
  have hne {x : κ} (hx : x ∈ l₁ ++ l₂) : x ≠ k := fun heq => hfresh (heq ▸ hx)
  refine ⟨hrest, ?_, ?_, ?_, ?_⟩
  · show (if d.prev k = none then d.next k else d.head) = _
    rw [hprev, hnext, h.head]
    cases l₁ with
    | nil => rfl
    | cons x l₁ => rw [if_neg (by rw [List.getLast?_cons]; exact Option.some_ne_none _)]; rfl
  · show (if d.next k = none then d.prev k else d.tail) = _
    rw [hprev, hnext, h.tail]
    cases l₂ with
    | nil => rw [List.append_nil]; rfl
    | cons x l₂ =>
      rw [List.head?_cons, if_neg (Option.some_ne_none _), List.getLast?_append,
        List.getLast?_append,
        List.getLast?_cons_cons]
  · refine h.next.bypass hnodup (fun p hp => ?_) fun x hx hx' => ?_
    · show (if p = k then none else if d.prev k = some p then d.next k else d.next p) = _
      rw [if_neg (hne (List.mem_append_left _ (List.mem_of_getLast? hp))), hprev, if_pos hp]
    · show (if x = k then none else if d.prev k = some x then d.next k else d.next x) = _
      rw [if_neg (hne hx), hprev, if_neg hx']
  · have hback := h.prev
    rw [reverse_split] at hback
    have hnodup' := List.nodup_reverse.mpr hnodup
    rw [reverse_split] at hnodup'
    rw [List.reverse_append]
    refine hback.bypass hnodup' (fun p hp => ?_) fun x hx hx' => ?_
    · rw [List.getLast?_reverse] at hp
      show (if p = k then none else if d.next k = some p then d.prev k else d.prev p) = _
      rw [if_neg (hne (List.mem_append_right _ (List.mem_of_head? hp))), hnext, if_pos hp]
    · rw [List.getLast?_reverse] at hx'
      rw [← List.reverse_append, List.mem_reverse] at hx
      show (if x = k then none else if d.next k = some x then d.prev k else d.prev x) = _
      rw [if_neg (hne hx), hnext, if_neg hx']

theorem Threads.pushBack (h : d.Threads l) (hk : k ∉ l) : (d.pushBack k).Threads (l ++ [k]) := by
  have htail := h.tail
  have hne {x : κ} (hx : x ∈ l) : x ≠ k := fun heq => hk (heq ▸ hx)
  refine ⟨?_, ?_, ?_, ?_, ?_⟩
  · exact List.nodup_append.mpr ⟨h.nodup, List.nodup_singleton k, fun a ha b hb =>
      (List.mem_singleton.mp hb) ▸ hne ha⟩
  · show (if d.tail = none then some k else d.head) = _
    rw [htail, h.head]
    cases l with
    | nil => rfl
    | cons x l => rw [if_neg (by rw [List.getLast?_cons]; exact Option.some_ne_none _)]; rfl
  · rw [List.getLast?_concat]
    rfl
  · refine h.next.snoc h.nodup ?_ (fun t ht => ?_) fun x hx hx' => ?_
    · show (if d.tail = some k then some k else if k = k then none else d.next k) = _
      rw [htail, if_neg fun heq => hk (List.mem_of_getLast? heq), if_pos rfl]
    · show (if d.tail = some t then some k else if t = k then none else d.next t) = _
      rw [htail, if_pos ht]
    · show (if d.tail = some x then some k else if x = k then none else d.next x) = _
      rw [htail, if_neg hx', if_neg (hne hx)]
  · rw [List.reverse_append, List.reverse_singleton, List.singleton_append]
    refine ⟨?_, h.prev.congr fun x hx => ?_⟩
    · show (if k = k then d.tail else d.prev k) = _
      rw [if_pos rfl, htail, List.head?_reverse]
    · show (if x = k then d.tail else d.prev x) = _
      rw [if_neg (hne (List.mem_reverse.mp hx))]

end DoublyLinked
