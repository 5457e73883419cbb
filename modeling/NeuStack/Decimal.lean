import Mathlib.Data.List.Induction
import Mathlib.Tactic.Ring
import NeuStack.ByteStrings
import NeuStack.Json

/-! # Decimal numbers

The digits that `decimal` prints, and the number that digits stand for.
-/
namespace NeuStack

theorem digit_of_mem_decimal {n : Nat} {b : UInt8} (h : b ∈ decimal n) :
    Json.isDigit b = true := by
  obtain ⟨c, hc, rfl⟩ := List.mem_map.mp h
  have hdigit := Nat.isDigit_of_mem_toDigits (by decide) (by decide) hc
  simp only [Char.isDigit, Bool.and_eq_true, decide_eq_true_eq, UInt32.le_iff_toNat_le] at hdigit
  have hlow : 48 ≤ c.toNat := hdigit.1
  have hhigh : c.toNat ≤ 57 := hdigit.2
  simp only [Json.isDigit, decide_eq_true_eq, UInt8.le_iff_toNat_le, UInt8.toNat_ofNat']
  rw [Nat.mod_eq_of_lt (by omega)]
  exact ⟨hlow, hhigh⟩

/-- A positive number starts with a digit other than zero. -/
theorem decimal_head {n : Nat} (hn : 0 < n) :
    ∃ d rest, decimal n = d :: rest ∧ d ≠ 48 := by
  induction n using Nat.strongRecOn with
  | ind n ih =>
    rw [decimal, Nat.toDigits_eq_if (by decide)]
    split
    · rename_i hlt
      have hdigit : ∀ m < 10, 0 < m → UInt8.ofNat (Nat.digitChar m).toNat ≠ 48 := by decide
      exact ⟨_, [], rfl, hdigit n hlt hn⟩
    · rename_i hge
      obtain ⟨d, rest, heq, hd⟩ := ih (n / 10) (Nat.div_lt_self hn (by decide))
        (Nat.div_pos (Nat.not_lt.mp hge) (by decide))
      rw [decimal] at heq
      refine ⟨d, rest ++ [UInt8.ofNat (n % 10).digitChar.toNat], ?_, hd⟩
      rw [List.map_append, heq]
      rfl

theorem isNumber_decimal (n : Nat) : Json.isNumber (decimal n) = true := by
  rcases Nat.eq_zero_or_pos n with rfl | hn
  · decide
  · obtain ⟨d, rest, heq, hd⟩ := decimal_head hn
    have hdigits : ∀ b ∈ d :: rest, Json.isDigit b = true := fun b hb =>
      digit_of_mem_decimal (heq ▸ hb)
    rw [heq]
    exact Json.isNumber_digits (hdigits d (List.mem_cons_self ..)) hd
      fun b hb => hdigits b (List.mem_cons_of_mem _ hb)

/-- `"%d"` -/
def signedDecimal (n : Int) : Bytes := if n < 0 then 45 :: decimal n.natAbs else decimal n.natAbs

theorem isNumber_signedDecimal (n : Int) : Json.isNumber (signedDecimal n) = true := by
  have hdecimal := isNumber_decimal n.natAbs
  rw [signedDecimal]
  split
  · rw [Json.isNumber.eq_def] at hdecimal
    split at hdecimal
    · rename_i heq
      have hdigit : Json.isDigit 45 = true := digit_of_mem_decimal (heq ▸ List.mem_cons_self ..)
      exact absurd hdigit (by decide)
    · exact hdecimal
  · exact hdecimal

/-! ## Reading -/

/-- The number that digits stand for. -/
def digitsValue (s : Bytes) : Nat := s.foldl (fun n b => n * 10 + (b.toNat - 48)) 0

theorem digitsValue_append (s t : Bytes) :
    digitsValue (s ++ t) = digitsValue s * 10 ^ t.length + digitsValue t := by
  induction t using List.reverseRecOn with
  | nil => rw [List.append_nil, List.length_nil, Nat.pow_zero, Nat.mul_one]; rfl
  | append_singleton t b ih =>
    have hlast (s : Bytes) : digitsValue (s ++ [b]) = digitsValue s * 10 + (b.toNat - 48) := by
      rw [digitsValue, List.foldl_append]
      rfl
    rw [← List.append_assoc, hlast, hlast, ih, List.length_append, List.length_singleton,
      Nat.pow_succ]
    ring

theorem digitsValue_zeros (k : Nat) : digitsValue (List.replicate k 48) = 0 := by
  induction k with
  | zero => rfl
  | succ k ih =>
    rw [List.replicate_succ, ← List.singleton_append, digitsValue_append, ih,
      show digitsValue [48] = 0 from rfl, Nat.zero_mul]

theorem digitsValue_decimal (n : Nat) : digitsValue (decimal n) = n := by
  induction n using Nat.strongRecOn with
  | ind n ih =>
    have hdigit : ∀ m < 10, digitsValue [UInt8.ofNat (Nat.digitChar m).toNat] = m := by decide
    rw [decimal, Nat.toDigits_eq_if (by decide)]
    split
    · rename_i hlt
      exact hdigit n hlt
    · rename_i hge
      have ih := ih (n / 10) (Nat.div_lt_self (by omega) (by decide))
      rw [decimal] at ih
      rw [List.map_append, digitsValue_append, ih]
      show n / 10 * 10 ^ 1 + digitsValue [UInt8.ofNat (Nat.digitChar (n % 10)).toNat] = n
      rw [hdigit _ (Nat.mod_lt n (by decide))]
      omega

theorem decimal_ne_nil (n : Nat) : decimal n ≠ [] := by
  rw [decimal, ne_eq, List.map_eq_nil_iff]
  exact Nat.toDigits_ne_nil

theorem isDigits_decimal (n : Nat) : Json.isDigits (decimal n) = true := by
  rw [Json.isDigits, decide_eq_true_eq]
  exact ⟨decimal_ne_nil n, List.all_eq_true.mpr fun _ => digit_of_mem_decimal⟩

theorem length_decimal_le {n k : Nat} (hk : 0 < k) : (decimal n).length ≤ k ↔ n < 10 ^ k := by
  rw [decimal, List.length_map]
  exact Nat.length_toDigits_le_iff (by decide) hk

end NeuStack
