import Mathlib.Algebra.Group.Nat.Defs
import Mathlib.Logic.Basic

/-! # Serial numbers

Counters of `w` bits that wrap, compared by the sign of their difference: `a`
precedes `b` when `a - b`, read as a signed number, is negative.  The order is
total only inside a window of half the space, so every use has to say how far
apart its numbers can be.

Two forms of that are given.  The comparisons are restated on the unsigned
difference (`lt_iff`, `le_iff`, `gt_iff`, `ge_iff`), which is what arithmetic
on windows needs; and numbers at known distances from a common base are
compared by their distances (`gt_add`, `le_add`, `lt_add`).
-/
namespace SerialNumber
variable {w : Nat}

/-- `a` precedes `b`. -/
def lt (a b : BitVec w) : Bool := decide ((a - b).toInt < 0)

/-- `a` precedes `b` or is `b`. -/
def le (a b : BitVec w) : Bool := decide ((a - b).toInt ≤ 0)

/-- `a` follows `b`. -/
def gt (a b : BitVec w) : Bool := decide (0 < (a - b).toInt)

/-- `a` follows `b` or is `b`. -/
def ge (a b : BitVec w) : Bool := decide (0 ≤ (a - b).toInt)

theorem lt_iff (a b : BitVec w) : lt a b = true ↔ 2 ^ w ≤ 2 * (a - b).toNat := by
  rw [lt, decide_eq_true_eq, BitVec.toInt_neg_iff]

theorem ge_iff (a b : BitVec w) : ge a b = true ↔ 2 * (a - b).toNat < 2 ^ w := by
  rw [ge, decide_eq_true_eq, ← Int.not_lt, BitVec.toInt_neg_iff, Nat.not_le]

theorem gt_iff (a b : BitVec w) :
    gt a b = true ↔ 0 < (a - b).toNat ∧ 2 * (a - b).toNat < 2 ^ w := by
  rw [gt, decide_eq_true_eq, BitVec.toInt_eq_toNat_cond]
  have := (a - b).isLt
  split <;> omega

theorem le_iff (a b : BitVec w) :
    le a b = true ↔ (a - b).toNat = 0 ∨ 2 ^ w ≤ 2 * (a - b).toNat := by
  rw [le, decide_eq_true_eq, BitVec.toInt_eq_toNat_cond]
  have := (a - b).isLt
  split <;> omega

theorem le_eq_not_gt (a b : BitVec w) : le a b = !gt a b := by
  rw [Bool.eq_iff_iff, Bool.not_eq_true', ← Bool.not_eq_true, le_iff, gt_iff]
  omega

/-! ## Numbers counted from a common base -/

section Offset
variable (base : BitVec w) {x y : Nat}

theorem add_ofNat_add (x y : Nat) :
    base + BitVec.ofNat w x + BitVec.ofNat w y = base + BitVec.ofNat w (x + y) := by
  rw [BitVec.add_assoc, ← BitVec.ofNat_add]

theorem toNat_sub_of_le (h : y ≤ x) (hlt : x - y < 2 ^ w) :
    ((base + BitVec.ofNat w x) - (base + BitVec.ofNat w y)).toNat = x - y := by
  have hx : base + BitVec.ofNat w x = BitVec.ofNat w (x - y) + (base + BitVec.ofNat w y) := by
    rw [BitVec.add_comm (BitVec.ofNat w (x - y)), add_ofNat_add, Nat.add_sub_cancel' h]
  rw [hx, BitVec.add_sub_cancel, BitVec.toNat_ofNat, Nat.mod_eq_of_lt hlt]

theorem toNat_sub_of_lt (h : x < y) (hlt : y - x < 2 ^ w) :
    ((base + BitVec.ofNat w x) - (base + BitVec.ofNat w y)).toNat = 2 ^ w - (y - x) := by
  have hle := toNat_sub_of_le base (Nat.le_of_lt h) hlt
  rw [BitVec.toNat_sub] at hle ⊢
  have hbx := (base + BitVec.ofNat w x).isLt
  have hby := (base + BitVec.ofNat w y).isLt
  by_cases hxy : (base + BitVec.ofNat w x).toNat ≤ (base + BitVec.ofNat w y).toNat
  · rw [show 2 ^ w - (base + BitVec.ofNat w x).toNat + (base + BitVec.ofNat w y).toNat
        = (base + BitVec.ofNat w y).toNat - (base + BitVec.ofNat w x).toNat + 2 ^ w by omega,
      Nat.add_mod_right, Nat.mod_eq_of_lt (by omega)] at hle
    rw [Nat.mod_eq_of_lt (by omega)]
    omega
  · rw [Nat.mod_eq_of_lt (by omega)] at hle
    rw [show 2 ^ w - (base + BitVec.ofNat w y).toNat + (base + BitVec.ofNat w x).toNat
        = (base + BitVec.ofNat w x).toNat - (base + BitVec.ofNat w y).toNat + 2 ^ w by omega,
      Nat.add_mod_right, Nat.mod_eq_of_lt (by omega)]
    omega

/-- At distances less than half the space apart, numbers compare as their distances. -/
theorem lt_add (hx : 2 * (x - y) < 2 ^ w) (hy : 2 * (y - x) < 2 ^ w) :
    lt (base + BitVec.ofNat w x) (base + BitVec.ofNat w y) = true ↔ x < y := by
  rw [lt_iff]
  rcases Nat.lt_or_ge x y with h | h
  · rw [toNat_sub_of_lt base h (by omega)]
    omega
  · rw [toNat_sub_of_le base h (by omega)]
    omega

theorem gt_add (hx : 2 * (x - y) < 2 ^ w) (hy : 2 * (y - x) < 2 ^ w) :
    gt (base + BitVec.ofNat w x) (base + BitVec.ofNat w y) = true ↔ y < x := by
  rw [gt_iff]
  rcases Nat.lt_or_ge x y with h | h
  · rw [toNat_sub_of_lt base h (by omega)]
    omega
  · rw [toNat_sub_of_le base h (by omega)]
    omega

theorem le_add (hx : 2 * (x - y) < 2 ^ w) (hy : 2 * (y - x) < 2 ^ w) :
    le (base + BitVec.ofNat w x) (base + BitVec.ofNat w y) = true ↔ x ≤ y := by
  rw [le_eq_not_gt, Bool.not_eq_true', ← Bool.not_eq_true, gt_add base hx hy, Nat.not_lt]

/-- Distinct distances below the size of the space give distinct numbers. -/
theorem add_ofNat_inj (hx : x < 2 ^ w) (hy : y < 2 ^ w)
    (h : base + BitVec.ofNat w x = base + BitVec.ofNat w y) : x = y := by
  have h' := congrArg BitVec.toNat ((BitVec.add_right_inj base).mp h)
  rwa [BitVec.toNat_ofNat, BitVec.toNat_ofNat, Nat.mod_eq_of_lt hx, Nat.mod_eq_of_lt hy] at h'

/-- Every number is at some distance from every base. -/
theorem eq_add_sub (a : BitVec w) : a = base + BitVec.ofNat w (a - base).toNat := by
  rw [BitVec.ofNat_toNat, BitVec.setWidth_eq, BitVec.add_comm, BitVec.sub_add_cancel]

end Offset

end SerialNumber
