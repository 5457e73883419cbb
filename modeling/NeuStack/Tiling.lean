import NeuStack.SerialNumber

/-! # Blocks that tile a stream

A sender numbers the positions of a stream by serial numbers and keeps what may
have to be sent again as a queue of blocks.  `Tiles base a bs n` says that the
blocks lie end to end from position `a` to position `n`, each under the numbers of
its first position and of the one behind its last.  A block goes on at the back
(`Tiles.snoc`); at the front, blocks go, or lose a part (`Tiles.shorten`), when
the numbers before some position are acknowledged.
-/
namespace Tiling

/-- Consecutive items of a stream, with the number of the first and of the one behind. -/
structure Block (w : Nat) (α : Type) where
  start : BitVec w
  stop : BitVec w
  items : List α

variable {w : Nat} {α : Type} {base : BitVec w} {b : Block w α} {bs : List (Block w α)}
  {a n k : Nat}

/-- The items of the blocks, in order. -/
def items (bs : List (Block w α)) : List α := bs.flatMap (·.items)

@[simp] theorem items_nil : items ([] : List (Block w α)) = [] := rfl

@[simp] theorem items_cons : items (b :: bs) = b.items ++ items bs := List.flatMap_cons ..

@[simp] theorem items_snoc : items (bs ++ [b]) = items bs ++ b.items := by
  rw [items, List.flatMap_append, List.flatMap_singleton]
  rfl

/-- The blocks lie end to end from position `a` to position `n`. -/
def Tiles (base : BitVec w) : Nat → List (Block w α) → Nat → Prop
  | a, [], n => a = n
  | a, b :: bs, n => b.start = base + BitVec.ofNat w a ∧
      b.stop = base + BitVec.ofNat w (a + b.items.length) ∧
      Tiles base (a + b.items.length) bs n

/-- The numbers of consecutive blocks meet. -/
def Contiguous : BitVec w → List (Block w α) → BitVec w → Prop
  | x, [], y => x = y
  | x, b :: bs, y => b.start = x ∧ Contiguous b.stop bs y

namespace Tiles

theorem length_items (h : Tiles base a bs n) : n = a + (items bs).length := by
  induction bs generalizing a with
  | nil => exact h.symm
  | cons b bs ih =>
    rw [ih h.2.2, items_cons, List.length_append]
    omega

theorem contiguous (h : Tiles base a bs n) :
    Contiguous (base + BitVec.ofNat w a) bs (base + BitVec.ofNat w n) := by
  induction bs generalizing a with
  | nil => exact congrArg (base + BitVec.ofNat w ·) h
  | cons b bs ih =>
    obtain ⟨hstart, hstop, htail⟩ := h
    refine ⟨hstart, ?_⟩
    rw [hstop]
    exact ih htail

/-- The numbers of a block span its items. -/
theorem span (h : Tiles base a bs n) (hb : b ∈ bs) (hlt : b.items.length < 2 ^ w) :
    (b.stop - b.start).toNat = b.items.length := by
  induction bs generalizing a with
  | nil => cases hb
  | cons c bs ih =>
    obtain ⟨hstart, hstop, htail⟩ := h
    rcases List.mem_cons.mp hb with rfl | hb
    · rw [hstart, hstop, SerialNumber.toNat_sub_of_le base (Nat.le_add_right ..) (by omega)]
      omega
    · exact ih htail hb

/-- A block at the back. -/
theorem snoc (h : Tiles base a bs n) (hstart : b.start = base + BitVec.ofNat w n)
    (hstop : b.stop = base + BitVec.ofNat w (n + b.items.length)) :
    Tiles base a (bs ++ [b]) (n + b.items.length) := by
  induction bs generalizing a with
  | nil =>
    cases h
    exact ⟨hstart, hstop, rfl⟩
  | cons c bs ih => exact ⟨h.1, h.2.1, ih h.2.2⟩

/-- The front block goes. -/
theorem tail (h : Tiles base a (b :: bs) n) : Tiles base (a + b.items.length) bs n := h.2.2

/-- The front block loses its first `k` items. -/
theorem shorten (h : Tiles base a (b :: bs) n) (hk : k ≤ b.items.length) :
    Tiles base (a + k) (⟨base + BitVec.ofNat w (a + k), b.stop, b.items.drop k⟩ :: bs) n := by
  obtain ⟨-, hstop, htail⟩ := h
  have hend : a + k + (b.items.drop k).length = a + b.items.length := by
    rw [List.length_drop]
    omega
  refine ⟨rfl, ?_, ?_⟩
  · rw [hend]
    exact hstop
  · rw [hend]
    exact htail

end Tiles

end Tiling
