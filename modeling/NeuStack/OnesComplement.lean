import Mathlib.Algebra.Group.Even
import Mathlib.Algebra.GroupWithZero.Nat

/-! # Ones' complement sums

The arithmetic behind checksums that add 16-bit words and fold the carries back
in.  A byte string is a sequence of big-endian words, an odd byte at the end
being the high byte of a last word; sums of strings of even length add up
(`wordSum_append`).

Folding the carries of a number gives its residue modulo `2 ^ 16 - 1`, with the
one distinction that only zero gives zero (`residue`).  So the complement of a
sum is what has to be added to make it fold to all ones (`residue_complement`),
which is the reason a receiver can check by adding.

`sum` is the ones' complement sum word by word, the carry of each addition coming
around; it is what the plain sum folds to (`toNat_sum_words`).
-/
namespace OnesComplement

/-- The sum of the big-endian words of a byte string. -/
def wordSum : List UInt8 → Nat
  | [] => 0
  | [a] => 256 * a.toNat
  | a :: b :: l => 256 * a.toNat + b.toNat + wordSum l

theorem wordSum_append {l : List UInt8} (h : Even l.length) (l' : List UInt8) :
    wordSum (l ++ l') = wordSum l + wordSum l' := by
  induction l using wordSum.induct with
  | case1 => rw [List.nil_append, wordSum, Nat.zero_add]
  | case2 a =>
    obtain ⟨k, hk⟩ := h
    rw [List.length_singleton] at hk
    omega
  | case3 a b l ih =>
    have hl : Even l.length := by
      rw [List.length_cons, List.length_cons] at h
      obtain ⟨k, hk⟩ := h
      exact ⟨k - 1, by omega⟩
    rw [List.cons_append, List.cons_append, wordSum, wordSum, ih hl, ← Nat.add_assoc]

/-- Behind an odd number of bytes the words are made up the other way. -/
theorem wordSum_append_odd {l : List UInt8} (h : l.length % 2 = 1) (l' : List UInt8) :
    wordSum (l ++ l') = wordSum l + wordSum (0 :: l') := by
  induction l using wordSum.induct with
  | case1 => cases h
  | case2 a =>
    cases l' with
    | nil => rfl
    | cons b l' =>
      show 256 * a.toNat + b.toNat + wordSum l' = 256 * a.toNat + (256 * 0 + b.toNat + wordSum l')
      omega
  | case3 a b l ih =>
    rw [List.length_cons, List.length_cons] at h
    rw [List.cons_append, List.cons_append, wordSum, wordSum, ih (by omega), ← Nat.add_assoc]

theorem wordSum_le (l : List UInt8) : 2 * wordSum l ≤ 65535 * (l.length + 1) := by
  induction l using wordSum.induct with
  | case1 => exact Nat.zero_le _
  | case2 a =>
    have ha := a.toNat_lt
    rw [wordSum, List.length_singleton]
    omega
  | case3 a b l ih =>
    have ha := a.toNat_lt
    have hb := b.toNat_lt
    rw [wordSum, List.length_cons, List.length_cons]
    omega

/-- What a number folds to. -/
def residue (s : Nat) : Nat := if s = 0 then 0 else (s - 1) % 65535 + 1

theorem residue_le (s : Nat) : residue s ≤ 65535 := by
  unfold residue
  split <;> omega

theorem residue_of_le {s : Nat} (h : s ≤ 65535) : residue s = s := by
  unfold residue
  split <;> omega

/-- Folding the carries once does not change it. -/
theorem residue_fold (s : Nat) : residue (s % 65536 + s / 65536) = residue s := by
  unfold residue
  by_cases hs : s = 0
  · rw [hs]
  · rw [if_neg hs, if_neg (by omega)]
    have hsplit : s - 1 = (s % 65536 + s / 65536 - 1) + 65535 * (s / 65536) := by omega
    rw [hsplit, Nat.add_mul_mod_self_left]

/-- **Adding the complement makes a sum fold to all ones.** -/
theorem residue_complement (s : Nat) : residue (s + (65535 - residue s)) = 65535 := by
  unfold residue
  by_cases hs : s = 0
  · subst hs
    rfl
  · rw [if_neg hs, if_neg (by omega)]
    have hdiv := Nat.div_add_mod (s - 1) 65535
    have hlt := Nat.mod_lt (s - 1) (by decide : 0 < 65535)
    have hsplit : s + (65535 - ((s - 1) % 65535 + 1)) - 1 = 65534 + 65535 * ((s - 1) / 65535) := by
      omega
    rw [hsplit, Nat.add_mul_mod_self_left]

/-! ## Word by word -/

/-- The big-endian words of a byte string. -/
def words : List UInt8 → List UInt16
  | [] => []
  | [a] => [UInt16.ofNat (256 * a.toNat)]
  | a :: b :: l => UInt16.ofNat (256 * a.toNat + b.toNat) :: words l

/-- Ones' complement addition. -/
def add (x y : UInt16) : UInt16 :=
  if x.toNat + y.toNat < 65536 then x + y else x + y + 1

/-- The ones' complement sum. -/
def sum (ws : List UInt16) : UInt16 := ws.foldl add 0

theorem toNat_add (x y : UInt16) : (add x y).toNat = residue (x.toNat + y.toNat) := by
  have hx := x.toNat_lt
  have hy := y.toNat_lt
  rw [add]
  split
  · rw [residue_of_le (by omega), UInt16.toNat_add, Nat.mod_eq_of_lt (by omega)]
  · rw [residue, if_neg (by omega), UInt16.toNat_add, UInt16.toNat_add,
      show (1 : UInt16).toNat = 1 from rfl]
    omega

theorem residue_eq_iff {s t : Nat} (hs : 0 < s) (ht : 0 < t) :
    residue s = residue t ↔ s % 65535 = t % 65535 := by
  rw [residue, residue, if_neg (by omega), if_neg (by omega)]
  omega

theorem residue_add (s t : Nat) : residue (residue s + t) = residue (s + t) := by
  rcases Nat.eq_zero_or_pos s with rfl | hs
  · rfl
  · have hmod : residue s % 65535 = s % 65535 := by
      rw [residue, if_neg (by omega)]
      omega
    have hpos : 0 < residue s := by
      rw [residue, if_neg (by omega)]
      exact Nat.succ_pos _
    rw [residue_eq_iff (by omega) (by omega)]
    omega

theorem toNat_foldl_add (x : UInt16) (ws : List UInt16) :
    (ws.foldl add x).toNat = residue (x.toNat + (ws.map UInt16.toNat).sum) := by
  induction ws generalizing x with
  | nil =>
    have hx := x.toNat_lt
    exact (residue_of_le (by omega : x.toNat ≤ 65535)).symm
  | cons w ws ih =>
    rw [List.foldl_cons, ih, toNat_add, residue_add, List.map_cons, List.sum_cons, Nat.add_assoc]

theorem wordSum_eq (l : List UInt8) : wordSum l = ((words l).map UInt16.toNat).sum := by
  induction l using wordSum.induct with
  | case1 => rfl
  | case2 a =>
    have ha := a.toNat_lt
    rw [wordSum, words, List.map_singleton, List.sum_singleton, UInt16.toNat_ofNat',
      Nat.mod_eq_of_lt (by omega)]
  | case3 a b l ih =>
    have ha := a.toNat_lt
    have hb := b.toNat_lt
    rw [wordSum, words, List.map_cons, List.sum_cons, UInt16.toNat_ofNat',
      Nat.mod_eq_of_lt (by omega), ih]

/-- **Adding word by word** is folding the plain sum. -/
theorem toNat_sum_words (l : List UInt8) : (sum (words l)).toNat = residue (wordSum l) := by
  rw [sum, toNat_foldl_add, wordSum_eq]
  exact congrArg residue (Nat.zero_add _)

/-- A sum that folds to all ones is a positive multiple of them. -/
theorem residue_eq_ones_iff (s : Nat) : residue s = 65535 ↔ 0 < s ∧ s % 65535 = 0 := by
  rw [residue]
  split <;> omega

/-- **What a sum cannot tell**: when one word is replaced by another, both sums folding to all
ones, then one of the words is zero and the other all ones. -/
theorem words_of_residues {s t : Nat} {x y : UInt16} (hreplaced : t + x.toNat = s + y.toNat)
    (hs : residue s = 65535) (ht : residue t = 65535) (hne : x ≠ y) :
    x = 0 ∧ y = 0xFFFF ∨ x = 0xFFFF ∧ y = 0 := by
  obtain ⟨-, hs⟩ := (residue_eq_ones_iff s).mp hs
  obtain ⟨-, ht⟩ := (residue_eq_ones_iff t).mp ht
  have hx := x.toNat_lt
  have hy := y.toNat_lt
  have hne : x.toNat ≠ y.toNat := fun h => hne (UInt16.toNat_inj.mp h)
  rw [← UInt16.toNat_inj, ← UInt16.toNat_inj, ← UInt16.toNat_inj, ← UInt16.toNat_inj]
  show x.toNat = 0 ∧ y.toNat = 65535 ∨ x.toNat = 65535 ∧ y.toNat = 0
  omega

end OnesComplement
