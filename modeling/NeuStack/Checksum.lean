import NeuStack.NetworkOrder
import NeuStack.OnesComplement

/-! # The Internet checksum

`checksum.cpp`.  The sum is kept in 32 bits; it does not wrap for anything that
fits a datagram with a pseudo header in front (`toNat_checksumAccumulate`).
-/
namespace NeuStack
open NetworkOrder OnesComplement

/-- `checksum_accumulate` -/
def checksumAccumulate (sum : UInt32) : List UInt8 → UInt32
  | [] => sum
  | [a] => sum + UInt32.ofNat (256 * a.toNat)
  | a :: b :: l => checksumAccumulate (sum + UInt32.ofNat (256 * a.toNat + b.toNat)) l

/-- The loop that folds the carries, for at most `fuel` rounds. -/
def foldCarries : Nat → UInt32 → UInt32
  | 0, sum => sum
  | fuel + 1, sum =>
    if sum.toNat / 65536 = 0 then sum
    else foldCarries fuel (UInt32.ofNat (sum.toNat % 65536) + UInt32.ofNat (sum.toNat / 65536))

/-- `checksum_finalize`; two rounds fold all carries of 32 bits (`foldCarries_done`). -/
def checksumFinalize (sum : UInt32) : UInt16 :=
  htons (UInt16.ofNat (65535 - (foldCarries 2 sum).toNat % 65536))

/-- `compute_checksum` -/
def computeChecksum (data : List UInt8) : UInt16 := checksumFinalize (checksumAccumulate 0 data)

/-- `verify_checksum` -/
def verifyChecksum (data : List UInt8) : Bool :=
  (foldCarries 2 (checksumAccumulate 0 data)).toNat % 65536 == 65535

/-! ## What they compute -/

theorem toNat_checksumAccumulate (sum : UInt32) (data : List UInt8)
    (h : sum.toNat + wordSum data < 2 ^ 32) :
    (checksumAccumulate sum data).toNat = sum.toNat + wordSum data := by
  induction data using wordSum.induct generalizing sum with
  | case1 => rfl
  | case2 a =>
    have ha := a.toNat_lt
    rw [wordSum] at h
    rw [checksumAccumulate, wordSum, UInt32.toNat_add, UInt32.toNat_ofNat',
      Nat.mod_eq_of_lt (a := 256 * a.toNat) (by omega), Nat.mod_eq_of_lt (by omega)]
  | case3 a b l ih =>
    have ha := a.toNat_lt
    have hb := b.toNat_lt
    rw [wordSum] at h
    have hsum : (sum + UInt32.ofNat (256 * a.toNat + b.toNat)).toNat =
        sum.toNat + (256 * a.toNat + b.toNat) := by
      rw [UInt32.toNat_add, UInt32.toNat_ofNat',
        Nat.mod_eq_of_lt (a := 256 * a.toNat + b.toNat) (by omega), Nat.mod_eq_of_lt (by omega)]
    rw [checksumAccumulate, ih _ (by rw [hsum]; omega), hsum, wordSum]
    omega

theorem toNat_carry (sum : UInt32) :
    (UInt32.ofNat (sum.toNat % 65536) + UInt32.ofNat (sum.toNat / 65536)).toNat =
      sum.toNat % 65536 + sum.toNat / 65536 := by
  have hsum := sum.toNat_lt
  rw [UInt32.toNat_add, UInt32.toNat_ofNat', UInt32.toNat_ofNat']
  omega

/-- The loop is done after two rounds, and has computed the residue. -/
theorem foldCarries_done (sum : UInt32) : (foldCarries 2 sum).toNat = residue sum.toNat := by
  have hlt := sum.toNat_lt
  unfold foldCarries
  by_cases h : sum.toNat / 65536 = 0
  · rw [if_pos h, residue_of_le (by omega)]
  · rw [if_neg h]
    have hcarry := toNat_carry sum
    generalize UInt32.ofNat (sum.toNat % 65536) + UInt32.ofNat (sum.toNat / 65536) = s at hcarry
    rw [← residue_fold, ← hcarry]
    unfold foldCarries
    by_cases h' : s.toNat / 65536 = 0
    · rw [if_pos h', residue_of_le (by omega)]
    · rw [if_neg h']
      have hcarry' := toNat_carry s
      rw [← residue_fold, ← hcarry', foldCarries, residue_of_le (by omega)]

/-- The checksum in network order. -/
theorem toNat_ntohs_checksumFinalize (sum : UInt32) :
    (ntohs (checksumFinalize sum)).toNat = 65535 - residue sum.toNat := by
  have hle := residue_le sum.toNat
  rw [checksumFinalize, ntohs_htons, foldCarries_done, UInt16.toNat_ofNat']
  omega

/-- A checksum is zero when the sum folds to all ones. -/
theorem checksumFinalize_eq_zero (sum : UInt32) :
    checksumFinalize sum = 0 ↔ residue sum.toNat = 65535 := by
  have hle := residue_le sum.toNat
  have hval := toNat_ntohs_checksumFinalize sum
  constructor
  · intro h
    rw [h] at hval
    have hzero : (ntohs 0).toNat = 0 := rfl
    omega
  · intro h
    have hzero : (ntohs (checksumFinalize sum)).toNat = 0 := by omega
    rw [toNat_ntohs] at hzero
    rw [← UInt16.toNat_inj]
    show (checksumFinalize sum).toNat = 0
    omega

theorem verifyChecksum_iff {data : List UInt8} (h : wordSum data < 2 ^ 32) :
    verifyChecksum data = true ↔ residue (wordSum data) = 65535 := by
  have hle := residue_le (wordSum data)
  have hsum : (checksumAccumulate 0 data).toNat = wordSum data := by
    have hacc := toNat_checksumAccumulate 0 data (by simpa using h)
    simpa using hacc
  rw [verifyChecksum, beq_iff_eq, foldCarries_done, hsum]
  omega

/-! ## A checksum in its place -/

theorem wordSum_store16 (x : UInt16) : wordSum (store16 x) = (ntohs x).toNat := by
  have hx := x.toNat_lt
  rw [toNat_ntohs]
  show 256 * (UInt8.ofNat x.toNat).toNat + (UInt8.ofNat (x.toNat / 256)).toNat + 0 = _
  rw [UInt8.toNat_ofNat', UInt8.toNat_ofNat']
  omega

/-- **Filling in the checksum**: the complement of the sum with an empty field makes
the sum with the field filled fold to all ones. -/
theorem residue_filled {pre post : List UInt8} (hpre : Even pre.length) {c : UInt16} {s : Nat}
    (hc : (ntohs c).toNat = 65535 - residue (s + wordSum (pre ++ (store16 0 ++ post)))) :
    residue (s + wordSum (pre ++ (store16 c ++ post))) = 65535 := by
  have heven : ∀ x, Even (store16 x).length := fun _ => ⟨1, rfl⟩
  have hzero : wordSum (store16 0) = 0 := rfl
  rw [wordSum_append hpre, wordSum_append (heven _), hzero, Nat.zero_add] at hc
  rw [wordSum_append hpre, wordSum_append (heven _), wordSum_store16, hc]
  have hsplit : s + (wordSum pre + (65535 - residue (s + (wordSum pre + wordSum post)) +
      wordSum post)) = s + (wordSum pre + wordSum post) +
        (65535 - residue (s + (wordSum pre + wordSum post))) := by
    omega
  rw [hsplit, residue_complement]

end NeuStack
