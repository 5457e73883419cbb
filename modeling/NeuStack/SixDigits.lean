import Mathlib.Data.List.DropRight
import Mathlib.Data.Nat.Log
import Mathlib.Data.Rat.Lemmas
import Mathlib.Order.Monotone.Basic
import Mathlib.Tactic.FieldSimp
import Mathlib.Tactic.Ring
import NeuStack.Decimal

/-! # `%.6g` of whole numbers

What `printf` makes of a whole number with six significant digits: numbers below a million
are printed in full, larger ones are rounded to the nearest multiple of a power of ten,
ties to even, and printed with an exponent.  `read` is the number a text stands for, and
what is printed of `n` stands for `round n` (`read_print`).  Rounding is monotone, so
numbers are told apart by their texts exactly if they round differently.
-/
namespace SixDigits
open NeuStack

/-! ## Rounding -/

/-- The multiple of `u` next to `n`, counted in `u`; in the middle, the even one. -/
def roundEven (u n : Nat) : Nat :=
  if 2 * (n % u) < u then n / u
  else if u < 2 * (n % u) then n / u + 1
  else n / u + n / u % 2

/-- The value of the last of the six digits. -/
def lastPlace (n : Nat) : Nat := Nat.log 10 n - 5

/-- The six digits, and the exponent of the first; rounding up can make a seventh. -/
def scientific (n : Nat) : Nat × Nat :=
  let m := roundEven (10 ^ lastPlace n) n
  if m = 10 ^ 6 then (10 ^ 5, lastPlace n + 6) else (m, lastPlace n + 5)

/-- The number that is printed of `n`. -/
def roundNat (n : Nat) : Nat :=
  if n < 10 ^ 6 then n else roundEven (10 ^ lastPlace n) n * 10 ^ lastPlace n

def round (n : Int) : Int := if n < 0 then -roundNat n.natAbs else roundNat n.natAbs

/-! ## Printing -/

/-- At least two digits. -/
def exponentDigits (e : Nat) : Bytes := if e < 10 then 48 :: decimal e else decimal e

/-- Digits with the point behind the first; there is none if no digit is left behind it. -/
def pointed : Bytes → Bytes
  | [] => []
  | [d] => [d]
  | d :: rest => d :: 46 :: rest

def printNat (n : Nat) : Bytes :=
  if n < 10 ^ 6 then decimal n
  else
    pointed ((decimal (scientific n).1).rdropWhile (· == 48)) ++
      101 :: 43 :: exponentDigits (scientific n).2

/-- **`%.6g`** -/
def print (n : Int) : Bytes := if n < 0 then 45 :: printNat n.natAbs else printNat n.natAbs

example : print 1234565 = ascii "1.23456e+06" ∧ print 999999500000 = ascii "1e+12" := by
  decide +kernel

/-! ## Reading -/

/-- The end of a number behind its digits. -/
def readExponent : Bytes → Option Int
  | [] => some 0
  | 101 :: 43 :: s => if Json.isDigits s then some (digitsValue s) else none
  | 101 :: 45 :: s => if Json.isDigits s then some (-digitsValue s) else none
  | _ => none

/-- The digits behind the point, and what is behind them. -/
def readFraction : Bytes → Bytes × Bytes
  | 46 :: s => (s.takeWhile Json.isDigit, s.dropWhile Json.isDigit)
  | s => ([], s)

def readUnsigned (s : Bytes) : Option ℚ :=
  let whole := s.takeWhile Json.isDigit
  let (fraction, rest) := readFraction (s.dropWhile Json.isDigit)
  if whole = [] then none
  else (readExponent rest).map fun e =>
    digitsValue (whole ++ fraction) / 10 ^ fraction.length * (10 : ℚ) ^ e

/-- **The number a text stands for.** -/
def read : Bytes → Option ℚ
  | 45 :: s => (readUnsigned s).map (-·)
  | s => readUnsigned s

/-! ## Rounding is monotone -/

theorem roundEven_le (u n : Nat) : roundEven u n ≤ n / u + 1 := by
  rw [roundEven]
  split
  · omega
  · split <;> omega

theorem le_roundEven (u n : Nat) : n / u ≤ roundEven u n := by
  rw [roundEven]
  split
  · omega
  · split <;> omega

theorem roundEven_mono {u m n : Nat} (h : m ≤ n) : roundEven u m ≤ roundEven u n := by
  rcases Nat.lt_or_eq_of_le (Nat.div_le_div_right (c := u) h) with hlt | heq
  · exact (roundEven_le u m).trans ((Nat.succ_le_of_lt hlt).trans (le_roundEven u n))
  · have hmod : m % u ≤ n % u := by
      have hm := Nat.div_add_mod m u
      have hn := Nat.div_add_mod n u
      rw [← heq] at hn
      omega
    rw [roundEven, roundEven, heq]
    split <;> split <;> try split
    all_goals try split
    all_goals omega

theorem log_eq {n : Nat} (hn : 10 ^ 6 ≤ n) : Nat.log 10 n = lastPlace n + 5 := by
  have hlog : 6 ≤ Nat.log 10 n := (Nat.le_log_iff_pow_le (by decide) (by omega)).mpr hn
  rw [lastPlace]
  omega

/-- A number of more than six digits has six before its last place. -/
theorem six_places {n : Nat} (hn : 10 ^ 6 ≤ n) :
    10 ^ 5 * 10 ^ lastPlace n ≤ n ∧ n < 10 ^ 6 * 10 ^ lastPlace n := by
  have hlow := Nat.pow_log_le_self 10 (show n ≠ 0 by omega)
  have hhigh := Nat.lt_pow_succ_log_self (show 1 < 10 by decide) n
  rw [log_eq hn] at hlow hhigh
  rw [← Nat.pow_add, ← Nat.pow_add, Nat.add_comm 5, Nat.add_comm 6]
  exact ⟨hlow, hhigh⟩

theorem six_digits {n : Nat} (hn : 10 ^ 6 ≤ n) :
    10 ^ 5 ≤ roundEven (10 ^ lastPlace n) n ∧ roundEven (10 ^ lastPlace n) n ≤ 10 ^ 6 := by
  obtain ⟨hlow, hhigh⟩ := six_places hn
  have hpos : 0 < 10 ^ lastPlace n := Nat.pow_pos (by decide)
  refine ⟨((Nat.le_div_iff_mul_le hpos).mpr hlow).trans (le_roundEven ..), ?_⟩
  exact (roundEven_le ..).trans (Nat.div_lt_of_lt_mul (Nat.mul_comm (10 ^ 6) _ ▸ hhigh))

theorem roundNat_mono {m n : Nat} (h : m ≤ n) : roundNat m ≤ roundNat n := by
  rw [roundNat, roundNat]
  split
  · rename_i hm
    split
    · exact h
    · rename_i hn
      have hlow := (six_digits (Nat.not_lt.mp hn)).1
      have hpos : 1 ≤ 10 ^ lastPlace n := Nat.pow_pos (by decide)
      have hten : 1 ≤ lastPlace n := by
        have := log_eq (Nat.not_lt.mp hn)
        have hlog : 6 ≤ Nat.log 10 n :=
          (Nat.le_log_iff_pow_le (by decide) (by omega)).mpr (Nat.not_lt.mp hn)
        omega
      have hunit : 10 ^ 1 ≤ 10 ^ lastPlace n := Nat.pow_le_pow_right (by decide) hten
      have := Nat.mul_le_mul hlow hunit
      omega
  · rename_i hm
    have hm := Nat.not_lt.mp hm
    rw [if_neg (by omega)]
    have hn : 10 ^ 6 ≤ n := hm.trans h
    have hlog : lastPlace m ≤ lastPlace n := by
      have := Nat.log_mono_right (b := 10) h
      rw [log_eq hm, log_eq hn] at this
      omega
    rcases Nat.lt_or_eq_of_le hlog with hlt | heq
    · calc roundEven (10 ^ lastPlace m) m * 10 ^ lastPlace m
          ≤ 10 ^ 6 * 10 ^ lastPlace m := Nat.mul_le_mul_right _ (six_digits hm).2
        _ = 10 ^ 5 * 10 ^ (lastPlace m + 1) := by rw [Nat.pow_succ]; ring
        _ ≤ 10 ^ 5 * 10 ^ lastPlace n :=
          Nat.mul_le_mul_left _ (Nat.pow_le_pow_right (by decide) hlt)
        _ ≤ roundEven (10 ^ lastPlace n) n * 10 ^ lastPlace n :=
          Nat.mul_le_mul_right _ (six_digits hn).1
    · rw [heq]
      exact Nat.mul_le_mul_right _ (roundEven_mono h)

theorem round_mono {m n : Int} (h : m ≤ n) : round m ≤ round n := by
  rw [round, round]
  split
  · split
    · have := roundNat_mono (m := n.natAbs) (n := m.natAbs) (by omega)
      omega
    · omega
  · rw [if_neg (by omega)]
    have := roundNat_mono (m := m.natAbs) (n := n.natAbs) (by omega)
    omega

/-- Different roundings are in the order of the numbers. -/
theorem round_lt_iff {m n : Int} (h : m < n) : round m < round n ↔ round m ≠ round n :=
  ⟨ne_of_lt, fun hne => lt_of_le_of_ne (round_mono h.le) hne⟩

/-! ## What is printed is read back -/

theorem takeWhile_digits {s t : Bytes} (hs : ∀ b ∈ s, Json.isDigit b = true)
    (ht : ∀ b ∈ t.head?, Json.isDigit b = false) :
    (s ++ t).takeWhile Json.isDigit = s ∧ (s ++ t).dropWhile Json.isDigit = t := by
  rw [List.takeWhile_append_of_pos hs, List.dropWhile_append_of_pos hs]
  cases t with
  | nil => exact ⟨List.append_nil s, rfl⟩
  | cons b t =>
    have hb : ¬ Json.isDigit b = true := by
      rw [ht b rfl]
      exact Bool.false_ne_true
    rw [List.takeWhile_cons_of_neg hb, List.dropWhile_cons_of_neg hb, List.append_nil]
    exact ⟨rfl, rfl⟩

theorem readUnsigned_decimal (n : Nat) : readUnsigned (decimal n) = some (n : ℚ) := by
  obtain ⟨htake, hdrop⟩ := takeWhile_digits (s := decimal n) (t := [])
    (fun _ => digit_of_mem_decimal) nofun
  rw [List.append_nil] at htake hdrop
  rw [readUnsigned, htake, hdrop, show readFraction [] = ([], []) from rfl]
  dsimp only
  rw [if_neg (decimal_ne_nil n), List.append_nil, digitsValue_decimal, readExponent]
  simp

theorem isDigits_exponentDigits (e : Nat) : Json.isDigits (exponentDigits e) = true := by
  rw [exponentDigits]
  split
  · rw [Json.isDigits, decide_eq_true_eq]
    refine ⟨List.cons_ne_nil _ _, List.all_eq_true.mpr fun b hb => ?_⟩
    rcases List.mem_cons.mp hb with rfl | hb
    · rfl
    · exact digit_of_mem_decimal hb
  · exact isDigits_decimal e

theorem digitsValue_exponentDigits (e : Nat) : digitsValue (exponentDigits e) = e := by
  rw [exponentDigits]
  split
  · rw [← List.singleton_append, digitsValue_append, digitsValue_decimal,
      show digitsValue [48] = 0 from rfl, Nat.zero_mul, Nat.zero_add]
  · exact digitsValue_decimal e

theorem readExponent_digits (e : Nat) :
    readExponent (101 :: 43 :: exponentDigits e) = some (e : Int) := by
  rw [readExponent, if_pos (isDigits_exponentDigits e), digitsValue_exponentDigits]

/-- Digits with a point and an exponent. -/
theorem readUnsigned_pointed {d : UInt8} {rest : Bytes}
    (hdigits : ∀ b ∈ d :: rest, Json.isDigit b = true) (e : Nat) :
    readUnsigned (pointed (d :: rest) ++ 101 :: 43 :: exponentDigits e) =
      some ((digitsValue (d :: rest) : ℚ) / 10 ^ rest.length * 10 ^ e) := by
  have hd : ∀ b ∈ [d], Json.isDigit b = true := fun b hb =>
    hdigits b (List.mem_cons.mpr (Or.inl (List.mem_singleton.mp hb)))
  have hrest : ∀ b ∈ rest, Json.isDigit b = true := fun b hb =>
    hdigits b (List.mem_cons_of_mem _ hb)
  cases rest with
  | nil =>
    obtain ⟨htake, hdrop⟩ := takeWhile_digits (t := 101 :: 43 :: exponentDigits e) hd
      (by rintro b ⟨⟩; rfl)
    have hfraction : readFraction (101 :: 43 :: exponentDigits e) =
        ([], 101 :: 43 :: exponentDigits e) := rfl
    rw [pointed, readUnsigned, htake, hdrop, hfraction]
    dsimp only
    rw [if_neg (List.cons_ne_nil _ _), readExponent_digits, List.append_nil]
    simp
  | cons r rest =>
    obtain ⟨htake, hdrop⟩ := takeWhile_digits
      (t := 46 :: (r :: rest ++ 101 :: 43 :: exponentDigits e)) hd (by rintro b ⟨⟩; rfl)
    obtain ⟨htake', hdrop'⟩ := takeWhile_digits (t := 101 :: 43 :: exponentDigits e) hrest
      (by rintro b ⟨⟩; rfl)
    have hfraction : readFraction (46 :: (r :: rest ++ 101 :: 43 :: exponentDigits e)) =
        (r :: rest, 101 :: 43 :: exponentDigits e) := Prod.ext htake' hdrop'
    rw [show pointed (d :: r :: rest) ++ 101 :: 43 :: exponentDigits e =
      [d] ++ 46 :: (r :: rest ++ 101 :: 43 :: exponentDigits e) from rfl, readUnsigned, htake,
      hdrop, hfraction]
    dsimp only
    rw [if_neg (List.cons_ne_nil _ _), readExponent_digits]
    simp

/-- The digits of a number without the zeros at its end. -/
theorem rdropWhile_zeros (s : Bytes) :
    ∃ k, s = s.rdropWhile (· == 48) ++ List.replicate k 48 := by
  induction s using List.reverseRecOn with
  | nil => exact ⟨0, rfl⟩
  | append_singleton s b ih =>
    obtain ⟨k, hk⟩ := ih
    rw [List.rdropWhile_concat]
    split
    · rename_i hb
      refine ⟨k + 1, ?_⟩
      rw [List.replicate_succ', ← List.append_assoc, ← hk, beq_iff_eq.mp hb]
    · exact ⟨0, (List.append_nil _).symm⟩

/-- The digits that are printed of a mantissa. -/
structure Significant (m : Nat) (s : Bytes) (k : Nat) : Prop where
  digits : ∀ b ∈ s, Json.isDigit b = true
  head : ∀ b ∈ s.head?, b ≠ 48
  length : s.length + k = 6
  value : digitsValue s * 10 ^ k = m

theorem significant {m : Nat} (hlow : 10 ^ 5 ≤ m) (hhigh : m < 10 ^ 6) :
    ∃ d rest k, (decimal m).rdropWhile (· == 48) = d :: rest ∧ Significant m (d :: rest) k := by
  obtain ⟨k, hk⟩ := rdropWhile_zeros (decimal m)
  obtain ⟨d, rest, hd, hne⟩ := decimal_head (n := m) (by omega)
  have hlength : (decimal m).length = 6 := by
    have hle : (decimal m).length ≤ 6 := (length_decimal_le (by decide)).mpr hhigh
    have hgt : ¬ (decimal m).length ≤ 5 := fun hle =>
      absurd ((length_decimal_le (by decide)).mp hle) (by omega)
    omega
  cases htrim : (decimal m).rdropWhile (· == 48) with
  | nil =>
    rw [htrim, List.nil_append, hd] at hk
    have hmem : d ∈ List.replicate k 48 := hk ▸ List.mem_cons_self ..
    exact absurd (List.eq_of_mem_replicate hmem) hne
  | cons c cs =>
    rw [htrim] at hk
    refine ⟨c, cs, k, rfl, ⟨fun b hb => ?_, ?_, ?_, ?_⟩⟩
    · refine digit_of_mem_decimal (n := m) ?_
      rw [hk]
      exact List.mem_append_left _ hb
    · rw [hd, List.cons_append] at hk
      rintro b ⟨⟩
      exact (List.cons.inj hk).1 ▸ hne
    · rw [← hlength, hk, List.length_append, List.length_replicate]
    · have hvalue := congrArg digitsValue hk
      rwa [digitsValue_append, digitsValue_zeros, List.length_replicate, Nat.add_zero,
        digitsValue_decimal, eq_comm] at hvalue

/-- The two parts of what is printed with an exponent. -/
theorem scientific_value {n : Nat} (hn : 10 ^ 6 ≤ n) :
    10 ^ 5 ≤ (scientific n).1 ∧ (scientific n).1 < 10 ^ 6 ∧ 5 ≤ (scientific n).2 ∧
      (scientific n).1 * 10 ^ ((scientific n).2 - 5) = roundNat n := by
  obtain ⟨hlow, hhigh⟩ := six_digits hn
  rw [roundNat, if_neg (Nat.not_lt.mpr hn), scientific]
  split
  · rename_i hround
    refine ⟨Nat.le_refl _, Nat.pow_lt_pow_right (by decide) (by decide), Nat.le_add_left _ _, ?_⟩
    rw [hround, show lastPlace n + 6 - 5 = lastPlace n + 1 by omega, Nat.pow_succ]
    ring
  · rename_i hround
    refine ⟨hlow, Nat.lt_of_le_of_ne hhigh hround, Nat.le_add_left _ _, ?_⟩
    rw [Nat.add_sub_cancel]

theorem printNat_large {n : Nat} (hn : 10 ^ 6 ≤ n) : ∃ d rest k,
    printNat n = pointed (d :: rest) ++ 101 :: 43 :: exponentDigits (scientific n).2 ∧
      Significant (scientific n).1 (d :: rest) k := by
  obtain ⟨hlow, hhigh, -, -⟩ := scientific_value hn
  obtain ⟨d, rest, k, htrim, hsig⟩ := significant hlow hhigh
  refine ⟨d, rest, k, ?_, hsig⟩
  rw [printNat, if_neg (Nat.not_lt.mpr hn), htrim]

theorem readUnsigned_printNat (n : Nat) : readUnsigned (printNat n) = some (roundNat n : ℚ) := by
  rcases Nat.lt_or_ge n (10 ^ 6) with hn | hn
  · rw [printNat, if_pos hn, readUnsigned_decimal, roundNat, if_pos hn]
  · obtain ⟨d, rest, k, hprint, hsig⟩ := printNat_large hn
    obtain ⟨-, -, he, hvalue⟩ := scientific_value hn
    rw [hprint, readUnsigned_pointed hsig.digits, ← hvalue, ← hsig.value]
    have hlength : rest.length + k = 5 := Nat.succ.inj (by
      have := hsig.length
      rw [List.length_cons] at this
      omega)
    obtain ⟨e, he⟩ := Nat.exists_eq_add_of_le he
    rw [he, Nat.add_sub_cancel_left, ← hlength]
    congr 1
    push_cast
    rw [pow_add, pow_add]
    field_simp

/-- The first character of what is printed. -/
theorem printNat_head (n : Nat) : ∃ d rest, printNat n = d :: rest ∧ Json.isDigit d = true := by
  rcases Nat.lt_or_ge n (10 ^ 6) with hn | hn
  · obtain ⟨d, rest, hd⟩ := List.exists_cons_of_ne_nil (decimal_ne_nil n)
    refine ⟨d, rest, by rw [printNat, if_pos hn, hd], digit_of_mem_decimal (n := n) ?_⟩
    rw [hd]
    exact List.mem_cons_self ..
  · obtain ⟨d, rest, k, hprint, hsig⟩ := printNat_large hn
    have hd := hsig.digits d (List.mem_cons_self ..)
    cases rest with
    | nil => exact ⟨d, _, hprint, hd⟩
    | cons r rest => exact ⟨d, _, hprint, hd⟩

/-- **What is printed of a number stands for its rounding.** -/
theorem read_print (n : Int) : read (print n) = some (round n : ℚ) := by
  rw [print, round]
  split
  · rw [read, readUnsigned_printNat]
    push_cast
    rfl
  · obtain ⟨d, rest, hd, hdigit⟩ := printNat_head n.natAbs
    have hread : read (printNat n.natAbs) = readUnsigned (printNat n.natAbs) := by
      rw [hd, read.eq_def]
      split
      · rename_i heq
        rw [(List.cons.inj heq).1] at hdigit
        exact absurd hdigit (by decide)
      · rfl
    rw [hread, readUnsigned_printNat]
    push_cast
    rfl

/-! ## What is printed is a number -/

theorem isUnsigned_digits {d : UInt8} {s t : Bytes} (hdigits : ∀ b ∈ d :: s, Json.isDigit b = true)
    (hd : d ≠ 48) (ht : ∀ b ∈ t.head?, Json.isDigit b = false) (hfraction : Json.isFraction t = true) :
    Json.isUnsigned (d :: s ++ t) = true := by
  obtain ⟨htake, hdrop⟩ := takeWhile_digits hdigits ht
  rw [List.cons_append, Json.isUnsigned.eq_def]
  split
  · rename_i heq
    exact absurd (List.cons.inj heq).1 hd
  · rw [← List.cons_append, htake, hdrop, hfraction, Bool.and_true, Json.isDigits, decide_eq_true_eq]
    exact ⟨List.cons_ne_nil _ _, List.all_eq_true.mpr hdigits⟩

theorem isUnsigned_printNat (n : Nat) : Json.isUnsigned (printNat n) = true := by
  rcases Nat.lt_or_ge n (10 ^ 6) with hn | hn
  · rw [printNat, if_pos hn]
    rcases Nat.eq_zero_or_pos n with rfl | hpos
    · decide
    · obtain ⟨d, rest, hd, hne⟩ := decimal_head hpos
      have hdigits : ∀ b ∈ d :: rest, Json.isDigit b = true := fun b hb =>
        digit_of_mem_decimal (n := n) (hd ▸ hb)
      have hunsigned := isUnsigned_digits (t := []) hdigits hne nofun rfl
      rwa [List.append_nil, ← hd] at hunsigned
  · obtain ⟨d, rest, k, hprint, hsig⟩ := printNat_large hn
    have hexponent : Json.isExponent (101 :: 43 :: exponentDigits (scientific n).2) = true :=
      isDigits_exponentDigits _
    have hne : d ≠ 48 := hsig.head d rfl
    rw [hprint]
    cases rest with
    | nil => exact isUnsigned_digits (s := []) hsig.digits hne (by rintro b ⟨⟩; rfl) hexponent
    | cons r rest =>
      have hrest : ∀ b ∈ r :: rest, Json.isDigit b = true := fun b hb =>
        hsig.digits b (List.mem_cons_of_mem _ hb)
      obtain ⟨htake, hdrop⟩ := takeWhile_digits
        (t := 101 :: 43 :: exponentDigits (scientific n).2) hrest (by rintro b ⟨⟩; rfl)
      refine isUnsigned_digits (s := []) (t := 46 :: (r :: rest ++ 101 :: 43 :: exponentDigits _))
        (fun b hb => hsig.digits b (List.mem_cons.mpr (Or.inl (List.mem_singleton.mp hb)))) hne
        (by rintro b ⟨⟩; rfl) ?_
      show (Json.isDigits _ && Json.isExponent _) = true
      rw [htake, hdrop, hexponent, Bool.and_true, Json.isDigits, decide_eq_true_eq]
      exact ⟨List.cons_ne_nil _ _, List.all_eq_true.mpr hrest⟩

theorem isNumber_print (n : Int) : Json.isNumber (print n) = true := by
  rw [print]
  split
  · exact isUnsigned_printNat _
  · obtain ⟨d, rest, hd, hdigit⟩ := printNat_head n.natAbs
    rw [hd, Json.isNumber.eq_def]
    split
    · rename_i heq
      rw [(List.cons.inj heq).1] at hdigit
      exact absurd hdigit (by decide)
    · rw [← hd]
      exact isUnsigned_printNat _

end SixDigits
