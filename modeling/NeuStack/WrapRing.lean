import NeuStack.SerialNumber
import Mathlib.Logic.Function.Basic
import Mathlib.Algebra.Order.Ring.Nat
import Mathlib.Data.List.DropRight

/-! # Rings with wrapping positions

An array of `2 ^ k` slots indexed by counters of `w` bits, which are never reduced:
the slot of a position is its last `k` bits, taken with a mask.  As long as `k ≤ w`
the positions of `2 ^ k` consecutive items have different slots, also where the
counter wraps (`slot_ne`).

`contents buf x n` is what the `n` slots from position `x` on hold.  A queue in the
ring is such a window; it grows at the back by a write to the slot behind it
(`contents_write`), and shrinks at the front (`contents_add`).

A ring that overwrites holds the end of what was written to it (`Latest`), however long
that is.
-/
namespace WrapRing
variable {w k : Nat} {α : Type}

/-- The slot of a position: `x & (2 ^ k - 1)`. -/
def slot (k : Nat) (x : BitVec w) : Nat := (x &&& BitVec.ofNat w (2 ^ k - 1)).toNat

theorem slot_eq (hk : k ≤ w) (x : BitVec w) : slot k x = x.toNat % 2 ^ k := by
  have hle : 2 ^ k ≤ 2 ^ w := Nat.pow_le_pow_right (by decide) hk
  have hpos : 0 < 2 ^ k := Nat.two_pow_pos k
  rw [slot, BitVec.toNat_and, BitVec.toNat_ofNat, Nat.mod_eq_of_lt (by omega),
    Nat.and_two_pow_sub_one_eq_mod]

theorem slot_add (hk : k ≤ w) (x : BitVec w) (i : Nat) :
    slot k (x + BitVec.ofNat w i) = (x.toNat + i) % 2 ^ k := by
  have hdvd : 2 ^ k ∣ 2 ^ w := pow_dvd_pow 2 hk
  rw [slot_eq hk, BitVec.toNat_add, BitVec.toNat_ofNat, Nat.mod_mod_of_dvd _ hdvd, Nat.add_mod,
    Nat.mod_mod_of_dvd _ hdvd, ← Nat.add_mod]

/-- Fewer than `2 ^ k` positions apart, the slots differ. -/
theorem slot_ne (hk : k ≤ w) (x : BitVec w) {i j : Nat} (hij : i < j) (hj : j < i + 2 ^ k) :
    slot k (x + BitVec.ofNat w i) ≠ slot k (x + BitVec.ofNat w j) := by
  rw [slot_add hk, slot_add hk]
  intro heq
  have hmod := Nat.sub_mod_eq_zero_of_mod_eq heq.symm
  rw [Nat.add_sub_add_left, Nat.mod_eq_of_lt (by omega)] at hmod
  omega

/-- What the `n` slots from position `x` on hold. -/
def contents (k : Nat) (buf : Nat → α) (x : BitVec w) : Nat → List α
  | 0 => []
  | n + 1 => contents k buf x n ++ [buf (slot k (x + BitVec.ofNat w n))]

variable {buf : Nat → α} {x : BitVec w} {n : Nat}

@[simp] theorem contents_zero (k : Nat) (buf : Nat → α) (x : BitVec w) :
    contents k buf x 0 = [] := rfl

@[simp] theorem length_contents (k : Nat) (buf : Nat → α) (x : BitVec w) (n : Nat) :
    (contents k buf x n).length = n := by
  induction n with
  | zero => rfl
  | succ n ih => rw [contents, List.length_append, ih, List.length_singleton]

/-- A window in two parts. -/
theorem contents_add (k : Nat) (buf : Nat → α) (x : BitVec w) (m n : Nat) :
    contents k buf x (m + n) =
      contents k buf x m ++ contents k buf (x + BitVec.ofNat w m) n := by
  induction n with
  | zero => rw [Nat.add_zero, contents_zero, List.append_nil]
  | succ n ih =>
    rw [← Nat.add_assoc, contents, ih, contents, SerialNumber.add_ofNat_add, List.append_assoc]

theorem contents_succ (k : Nat) (buf : Nat → α) (x : BitVec w) (n : Nat) :
    contents k buf x (n + 1) = buf (slot k x) :: contents k buf (x + 1) n := by
  have hzero : x + BitVec.ofNat w 0 = x := BitVec.add_zero x
  rw [Nat.add_comm, contents_add, contents, contents_zero, hzero]
  rfl

/-- A write to a slot outside of the window. -/
theorem contents_update {s : Nat} (v : α) (hs : ∀ i < n, slot k (x + BitVec.ofNat w i) ≠ s) :
    contents k (Function.update buf s v) x n = contents k buf x n := by
  induction n with
  | zero => rfl
  | succ n ih =>
    rw [contents, contents, ih fun i hi => hs i (by omega),
      Function.update_of_ne (hs n (Nat.lt_succ_self n))]

/-- A write behind the window leaves it, wherever there is room. -/
theorem contents_write (hk : k ≤ w) (v : α) {j : Nat} (hn : n ≤ j) (hj : j < 2 ^ k) :
    contents k (Function.update buf (slot k (x + BitVec.ofNat w j)) v) x n =
      contents k buf x n :=
  contents_update v fun i hi => slot_ne hk x (by omega) (by omega)

/-! ## Positions -/

/-- A position, from its distance to another. -/
theorem eq_add_of_sub {y : BitVec w} (h : (y - x).toNat = n) : y = x + BitVec.ofNat w n := by
  rw [← h]
  exact SerialNumber.eq_add_sub x y

/-- Both ends of a window move. -/
theorem toNat_sub_move {y : BitVec w} {a b : Nat} (ha : a ≤ (y - x).toNat + b)
    (hlt : (y - x).toNat + b < 2 ^ w) :
    ((y + BitVec.ofNat w b) - (x + BitVec.ofNat w a)).toNat = (y - x).toNat + b - a := by
  have hy : y = x + BitVec.ofNat w (y - x).toNat := SerialNumber.eq_add_sub x y
  generalize (y - x).toNat = n at *
  rw [hy, SerialNumber.add_ofNat_add]
  exact SerialNumber.toNat_sub_of_le x ha (by omega)

/-! ## A ring that overwrites -/

/-- **The ring holds the latest items of `l`**: what it holds before position `y`, as far as
it reaches, is the end of `l`. -/
def Latest (k : Nat) (buf : Nat → α) (y : BitVec w) (l : List α) : Prop :=
  ∀ n, n ≤ l.length → n ≤ 2 ^ k → contents k buf (y - BitVec.ofNat w n) n = l.rtake n

theorem latest_nil (y : BitVec w) : Latest k buf y [] := by
  intro n hn _
  rw [Nat.le_zero.mp hn, List.rtake_nil, contents_zero]

/-- **A write goes over the oldest item**, if there is no room left. -/
theorem Latest.write {y : BitVec w} {l : List α} (h : Latest k buf y l) (hk : k ≤ w) (v : α) :
    Latest k (Function.update buf (slot k y) v) (y + 1) (l ++ [v]) := by
  intro n hn hring
  cases n with
  | zero => rw [List.rtake_zero, contents_zero]
  | succ n =>
    rw [List.length_append, List.length_singleton, Nat.add_le_add_iff_right] at hn
    obtain ⟨x, rfl⟩ : ∃ x, y = x + BitVec.ofNat w n :=
      ⟨y - BitVec.ofNat w n, (BitVec.sub_add_cancel ..).symm⟩
    have hstart : x + BitVec.ofNat w n + 1 - BitVec.ofNat w (n + 1) = x := by
      rw [BitVec.add_assoc, BitVec.ofNat_add]
      exact BitVec.add_sub_cancel ..
    have hwindow : contents k buf x n = l.rtake n := by
      have hold := h n hn (Nat.le_of_succ_le hring)
      rw [BitVec.add_sub_cancel] at hold
      exact hold
    -- the slot that is written lies behind the window that stays
    rw [hstart, contents, Function.update_self, List.rtake_concat_succ, ← hwindow,
      contents_write hk v (Nat.le_refl n) (Nat.lt_of_succ_le hring)]

end WrapRing
