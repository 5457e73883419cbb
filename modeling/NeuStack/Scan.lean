import Mathlib.Algebra.Group.Nat.Defs
import Mathlib.Logic.Basic

/-! # Reading memory, with a record of what was read

A program that looks at a buffer through a pointer and a length computes a value,
reads bytes at certain distances from the pointer, and computes further lengths
by unsigned subtraction.  `Scan` keeps the three apart: the value, the distances
read in their order, and whether every subtraction stayed above zero.  Memory
goes on behind the buffer, so a read out of bounds has a value too; and a
subtraction below zero wraps.

`Within n` is the safety property of such a program on a buffer of `n` bytes.  It
is decided step by step (`within_bind`, `within_read`, `within_sub`): each rule
is an equivalence, so that what remains after rewriting with them is the exact
condition on the input.
-/

/-- The bytes at and behind a pointer. -/
abbrev Memory := Nat → UInt8

/-- The bytes a pointer at distance `off` and a length denote. -/
def Memory.slice (mem : Memory) (off n : Nat) : List UInt8 := (List.range n).map fun i => mem (off + i)

/-- A value, the distances read on the way, and whether no subtraction wrapped. -/
structure Scan (α : Type) where
  value : α
  reads : List Nat
  exact : Bool

namespace Scan
variable {α β : Type}

instance : Monad Scan where
  pure a := ⟨a, [], true⟩
  bind x f := ⟨(f x.value).value, x.reads ++ (f x.value).reads, x.exact && (f x.value).exact⟩

/-- Read one byte. -/
def read (mem : Memory) (i : Nat) : Scan UInt8 := ⟨mem i, [i], true⟩

/-- Read `n` bytes in a row. -/
def readRange (mem : Memory) (off n : Nat) : Scan (List UInt8) :=
  ⟨mem.slice off n, (List.range n).map (off + ·), true⟩

/-- Subtraction of `size_t`. -/
def sub (a b : Nat) : Scan Nat := ⟨if b ≤ a then a - b else 2 ^ 64 - (b - a), [], decide (b ≤ a)⟩

/-- **Only the first `n` bytes are read, and no length wraps.** -/
def Within (n : Nat) (x : Scan α) : Prop := (∀ i ∈ x.reads, i < n) ∧ x.exact = true

/-! ## The value -/

@[simp] theorem value_pure (a : α) : (pure a : Scan α).value = a := rfl

@[simp] theorem value_bind (x : Scan α) (f : α → Scan β) :
    (x >>= f).value = (f x.value).value := rfl

@[simp] theorem value_map (f : α → β) (x : Scan α) : (f <$> x).value = f x.value := rfl

@[simp] theorem value_ite (c : Prop) [Decidable c] (x y : Scan α) :
    (if c then x else y).value = if c then x.value else y.value := by
  split <;> rfl

@[simp] theorem value_read (mem : Memory) (i : Nat) : (read mem i).value = mem i := rfl

@[simp] theorem value_readRange (mem : Memory) (off n : Nat) :
    (readRange mem off n).value = mem.slice off n := rfl

theorem value_sub {a b : Nat} (h : b ≤ a) : (sub a b).value = a - b := if_pos h

/-! ## The bounds -/

variable {n : Nat}

@[simp] theorem within_pure (a : α) : (pure a : Scan α).Within n :=
  ⟨fun _ h => (nomatch h), rfl⟩

@[simp] theorem within_bind (x : Scan α) (f : α → Scan β) :
    (x >>= f).Within n ↔ x.Within n ∧ (f x.value).Within n := by
  constructor
  · rintro ⟨hreads, hexact⟩
    obtain ⟨hx, hf⟩ := (Bool.and_eq_true _ _).mp hexact
    exact ⟨⟨fun i hi => hreads i (List.mem_append_left _ hi), hx⟩,
      ⟨fun i hi => hreads i (List.mem_append_right _ hi), hf⟩⟩
  · rintro ⟨⟨hx, hxe⟩, ⟨hf, hfe⟩⟩
    refine ⟨fun i hi => ?_, (Bool.and_eq_true _ _).mpr ⟨hxe, hfe⟩⟩
    rcases List.mem_append.mp hi with hi | hi
    · exact hx i hi
    · exact hf i hi

@[simp] theorem within_map (f : α → β) (x : Scan α) : (f <$> x).Within n ↔ x.Within n := by
  show (x >>= fun a => pure (f a)).Within n ↔ _
  rw [within_bind]
  exact and_iff_left (within_pure _)

@[simp] theorem within_read (mem : Memory) (i : Nat) : (read mem i).Within n ↔ i < n := by
  constructor
  · exact fun h => h.1 i (List.mem_singleton.mpr rfl)
  · exact fun h => ⟨fun j hj => List.mem_singleton.mp hj ▸ h, rfl⟩

@[simp] theorem within_ite (c : Prop) [Decidable c] (x y : Scan α) :
    (if c then x else y).Within n ↔ (c → x.Within n) ∧ (¬ c → y.Within n) := by
  by_cases hc : c
  · rw [if_pos hc]
    exact ⟨fun h => ⟨fun _ => h, fun hn => absurd hc hn⟩, fun h => h.1 hc⟩
  · rw [if_neg hc]
    exact ⟨fun h => ⟨fun hp => absurd hp hc, fun _ => h⟩, fun h => h.2 hc⟩

theorem within_readRange (mem : Memory) (off len : Nat) (h : off + len ≤ n) :
    (readRange mem off len).Within n := by
  refine ⟨fun i hi => ?_, rfl⟩
  obtain ⟨j, hj, rfl⟩ := List.mem_map.mp hi
  exact Nat.lt_of_lt_of_le (Nat.add_lt_add_left (List.mem_range.mp hj) off) h

@[simp] theorem within_sub (a b : Nat) : (sub a b).Within n ↔ b ≤ a := by
  constructor
  · exact fun h => of_decide_eq_true h.2
  · exact fun h => ⟨fun _ hi => (nomatch hi), decide_eq_true h⟩

end Scan

/-! ## Slices -/

namespace Memory

@[simp] theorem length_slice (mem : Memory) (off n : Nat) : (mem.slice off n).length = n := by
  rw [slice, List.length_map, List.length_range]

theorem getElem?_slice (mem : Memory) (off n i : Nat) :
    (mem.slice off n)[i]? = if i < n then some (mem (off + i)) else none := by
  rw [slice, List.getElem?_map]
  split
  · rename_i h
    rw [List.getElem?_range h]
    rfl
  · rename_i h
    rw [List.getElem?_eq_none (by rw [List.length_range]; omega)]
    rfl

/-- Memory that starts with the bytes `l`. -/
def Holds (mem : Memory) (off : Nat) (l : List UInt8) : Prop := mem.slice off l.length = l

theorem slice_append (mem : Memory) (off m n : Nat) :
    mem.slice off (m + n) = mem.slice off m ++ mem.slice (off + m) n := by
  rw [slice, slice, slice, List.range_add, List.map_append, List.map_map]
  refine congrArg (_ ++ ·) (List.map_congr_left fun i _ => ?_)
  rw [Function.comp_apply, Nat.add_assoc]

theorem holds_append {mem : Memory} {off : Nat} {l l' : List UInt8} :
    mem.Holds off (l ++ l') ↔ mem.Holds off l ∧ mem.Holds (off + l.length) l' := by
  rw [Holds, Holds, Holds, List.length_append, slice_append]
  constructor
  · exact fun h => List.append_inj h (mem.length_slice _ _)
  · rintro ⟨h, h'⟩
    rw [h, h']

theorem holds_cons {mem : Memory} {off : Nat} {a : UInt8} {l : List UInt8} :
    mem.Holds off (a :: l) ↔ mem off = a ∧ mem.Holds (off + 1) l := by
  refine (holds_append (l := [a])).trans (and_congr_left' ?_)
  constructor
  · exact fun h => (List.cons.inj h).1
  · exact fun h => congrArg ([·]) h

/-- A buffer, with zeros behind it. -/
def ofList (l : List UInt8) : Memory := fun i => l.getD i 0

theorem holds_ofList (l : List UInt8) : (ofList l).Holds 0 l := by
  refine List.ext_getElem? fun i => ?_
  rw [getElem?_slice, Nat.zero_add, ofList, List.getD_eq_getElem?_getD]
  split
  · rename_i h
    rw [List.getElem?_eq_getElem h]
    rfl
  · rename_i h
    exact (List.getElem?_eq_none (Nat.not_lt.mp h)).symm

end Memory
