import NeuStack.IPv4Layer
import Mathlib.Order.Basic

/-! # The laws of the Internet checksum

Everything that carries a checksum rests on these, for all that fits a datagram with a pseudo
header in front (`internetChecksum`): summing in pieces is summing at once, no addition wraps,
folding ends with the ones' complement sum of the words, a filled-in checksum verifies, and then
no other word in the place of one does, but for the two zeros of the arithmetic.
-/
namespace NeuStack
open NetworkOrder OnesComplement

/-- No addition of `checksum_accumulate` wraps. -/
def NoWrap (sum : UInt32) : List UInt8 → Prop
  | [] => True
  | [a] => sum.toNat + 256 * a.toNat < 2 ^ 32
  | a :: b :: l => sum.toNat + (256 * a.toNat + b.toNat) < 2 ^ 32 ∧
      NoWrap (sum + UInt32.ofNat (256 * a.toNat + b.toNat)) l

/-- Nor one of the calls for some chunks in turn. -/
def NoWraps (sum : UInt32) : List (List UInt8) → Prop
  | [] => True
  | chunk :: chunks => NoWrap sum chunk ∧ NoWraps (checksumAccumulate sum chunk) chunks

/-! ## In pieces -/

theorem checksumAccumulate_append (sum : UInt32) {l : List UInt8} (h : Even l.length)
    (l' : List UInt8) :
    checksumAccumulate sum (l ++ l') = checksumAccumulate (checksumAccumulate sum l) l' := by
  induction l using wordSum.induct generalizing sum with
  | case1 => rfl
  | case2 a =>
    obtain ⟨k, hk⟩ := h
    rw [List.length_singleton] at hk
    omega
  | case3 a b l ih =>
    have hl : Even l.length := by
      obtain ⟨k, hk⟩ := h
      rw [List.length_cons, List.length_cons] at hk
      exact ⟨k - 1, by omega⟩
    rw [List.cons_append, List.cons_append, checksumAccumulate, checksumAccumulate, ih _ hl]

theorem noWrap_of_lt {sum : UInt32} {data : List UInt8} (h : sum.toNat + wordSum data < 2 ^ 32) :
    NoWrap sum data := by
  induction data using wordSum.induct generalizing sum with
  | case1 => exact trivial
  | case2 a => exact h
  | case3 a b l ih =>
    have ha := a.toNat_lt
    have hb := b.toNat_lt
    rw [wordSum] at h
    refine ⟨by omega, ih ?_⟩
    rw [UInt32.toNat_add, UInt32.toNat_ofNat',
      Nat.mod_eq_of_lt (a := 256 * a.toNat + b.toNat) (by omega), Nat.mod_eq_of_lt (by omega)]
    omega

/-- **Summing in chunks**, all of them of even length but the last. -/
theorem foldl_checksumAccumulate (sum : UInt32) (chunks : List (List UInt8))
    (heven : ∀ c ∈ chunks.dropLast, Even c.length)
    (hsum : sum.toNat + wordSum chunks.flatten < 2 ^ 32) :
    chunks.foldl checksumAccumulate sum = checksumAccumulate sum chunks.flatten ∧
      NoWraps sum chunks := by
  induction chunks generalizing sum with
  | nil => exact ⟨rfl, trivial⟩
  | cons chunk chunks ih =>
    cases chunks with
    | nil =>
      rw [List.flatten_singleton] at hsum ⊢
      exact ⟨rfl, noWrap_of_lt hsum, trivial⟩
    | cons next chunks =>
      have hchunk : Even chunk.length := heven chunk (List.mem_cons_self ..)
      rw [List.flatten_cons, wordSum_append hchunk] at hsum
      have hacc := toNat_checksumAccumulate sum chunk (by omega)
      obtain ⟨hfold, hrest⟩ := ih (checksumAccumulate sum chunk)
        (fun c hc => heven c (List.mem_cons_of_mem _ hc)) (by rw [hacc]; omega)
      refine ⟨?_, noWrap_of_lt (by omega), hrest⟩
      rw [List.foldl_cons, hfold, List.flatten_cons (l := chunk),
        checksumAccumulate_append _ hchunk]

/-! ## The loop -/

theorem foldCarries_small (fuel : Nat) {sum : UInt32} (h : sum.toNat / 65536 = 0) :
    foldCarries fuel sum = sum := by
  cases fuel with
  | zero => rfl
  | succ fuel => exact if_pos h

theorem foldCarries_add (m n : Nat) (sum : UInt32) :
    foldCarries (m + n) sum = foldCarries n (foldCarries m sum) := by
  induction m generalizing sum with
  | zero => rw [Nat.zero_add]; rfl
  | succ m ih =>
    rw [Nat.succ_add, foldCarries, foldCarries]
    split
    · rename_i hdone
      exact (foldCarries_small n hdone).symm
    · exact ih _

/-- **Folding ends**: after two rounds there is no carry left, and more change nothing. -/
theorem foldCarries_stops (sum : UInt32) {fuel : Nat} (h : 2 ≤ fuel) :
    foldCarries fuel sum = foldCarries 2 sum ∧ (foldCarries fuel sum).toNat / 65536 = 0 := by
  have hdone : (foldCarries 2 sum).toNat / 65536 = 0 := by
    have hle := residue_le sum.toNat
    rw [foldCarries_done]
    omega
  obtain ⟨more, rfl⟩ := Nat.exists_eq_add_of_le h
  rw [foldCarries_add, foldCarries_small more hdone]
  exact ⟨rfl, hdone⟩

/-! ## The value -/

/-- What fits a datagram, with a pseudo header, sums up to less than 32 bits hold. -/
theorem wordSum_lt {data : List UInt8} (h : data.length ≤ 12 + 65535) :
    wordSum data < 2 ^ 32 := by
  have hle := wordSum_le data
  omega

theorem toNat_checksumAccumulate_zero {data : List UInt8} (h : data.length ≤ 12 + 65535) :
    (checksumAccumulate 0 data).toNat = wordSum data := by
  have hacc := toNat_checksumAccumulate 0 data ((Nat.zero_add _).trans_lt (wordSum_lt h))
  exact hacc.trans (Nat.zero_add _)

theorem ntohs_computeChecksum {data : List UInt8} (h : data.length ≤ 12 + 65535) :
    ntohs (computeChecksum data) = ~~~ OnesComplement.sum (words data) := by
  rw [← UInt16.toNat_inj, UInt16.toNat_not, toNat_sum_words, computeChecksum,
    toNat_ntohs_checksumFinalize, toNat_checksumAccumulate_zero h]
  rfl

/-- The checksums of TCP and UDP are over a pseudo header and the data behind it. -/
theorem pseudoChecksum_eq (srcIp dstIp : UInt32) (protocol : UInt8) (data : List UInt8) :
    pseudoChecksum srcIp dstIp protocol data =
      computeChecksum (pseudoHeader srcIp dstIp protocol data.length ++ data) := by
  rw [pseudoChecksum, computeChecksum, checksumAccumulate_append _ ⟨6, rfl⟩]

/-- To verify with a checksum is to find it zero. -/
theorem computeChecksum_eq_zero_iff (data : List UInt8) :
    computeChecksum data = 0 ↔ verifyChecksum data = true := by
  have hle := residue_le (checksumAccumulate 0 data).toNat
  rw [computeChecksum, checksumFinalize_eq_zero, verifyChecksum, beq_iff_eq, foldCarries_done]
  omega

/-! ## Filling in and verifying -/

theorem length_filled (pre post : List UInt8) (x y : UInt16) :
    (pre ++ (store16 x ++ post)).length = (pre ++ (store16 y ++ post)).length := by
  rw [List.length_append, List.length_append, List.length_append, List.length_append,
    length_store16, length_store16]

theorem verifyChecksum_filled {pre post : List UInt8} (hpre : Even pre.length)
    (h : (pre ++ (store16 0 ++ post)).length ≤ 12 + 65535) :
    verifyChecksum (pre ++ (store16 (computeChecksum (pre ++ (store16 0 ++ post))) ++ post)) =
      true := by
  have hlen := length_filled pre post (computeChecksum (pre ++ (store16 0 ++ post))) 0
  rw [verifyChecksum_iff (wordSum_lt (hlen.trans_le h))]
  have hvalue : (ntohs (computeChecksum (pre ++ (store16 0 ++ post)))).toNat =
      65535 - residue (0 + wordSum (pre ++ (store16 0 ++ post))) := by
    rw [computeChecksum, toNat_ntohs_checksumFinalize, toNat_checksumAccumulate_zero h,
      Nat.zero_add]
  have hfilled := residue_filled hpre hvalue
  rwa [Nat.zero_add] at hfilled

theorem sum_set {ws : List UInt16} {i : Nat} {w : UInt16} (h : ws[i]? = some w) (w' : UInt16) :
    ((ws.set i w').map UInt16.toNat).sum + w.toNat = (ws.map UInt16.toNat).sum + w'.toNat := by
  induction ws generalizing i with
  | nil => cases h
  | cons v ws ih =>
    cases i with
    | zero =>
      obtain rfl : v = w := Option.some.inj h
      rw [List.set_cons_zero, List.map_cons, List.map_cons, List.sum_cons, List.sum_cons]
      omega
    | succ i =>
      have htail := ih (i := i) h
      rw [List.set_cons_succ, List.map_cons, List.map_cons, List.sum_cons, List.sum_cons]
      omega

/-- **One word in the place of another is noticed.** -/
theorem verifyChecksum_replaced {data data' : List UInt8} {i : Nat} {w w' : UInt16}
    (hlen : data.length ≤ 12 + 65535) (hlen' : data'.length = data.length)
    (hok : verifyChecksum data = true) (hw : (words data)[i]? = some w)
    (hset : words data' = (words data).set i w') (hne : w' ≠ w)
    (hzeros : ¬ (w = 0 ∧ w' = 0xFFFF ∨ w = 0xFFFF ∧ w' = 0)) : verifyChecksum data' = false := by
  rw [Bool.eq_false_iff]
  intro hok'
  rw [verifyChecksum_iff (wordSum_lt hlen)] at hok
  rw [verifyChecksum_iff (wordSum_lt (hlen'.trans_le hlen))] at hok'
  have hreplaced : wordSum data' + w.toNat = wordSum data + w'.toNat := by
    rw [wordSum_eq, wordSum_eq, hset]
    exact sum_set hw w'
  exact hzeros (words_of_residues hreplaced hok hok' hne.symm)

/-- **The Internet checksum**, of all that fits a datagram with a pseudo header in front: in
chunks or at once it is the same sum, which never wraps; folding it ends; the result is the
complement of the ones' complement sum of the words, also where TCP and UDP compute it, who
verify by finding it zero; in the place of an empty field it verifies; and then it does not with
any other word in the place of one, unless these are the two zeros. -/
theorem internetChecksum (message : List UInt8) (hlen : message.length ≤ 12 + 65535) :
    (∀ chunks : List (List UInt8), chunks.flatten = message →
      (∀ c ∈ chunks.dropLast, Even c.length) →
        chunks.foldl checksumAccumulate 0 = checksumAccumulate 0 message ∧ NoWraps 0 chunks) ∧
    (∀ (sum : UInt32) (fuel : Nat), 2 ≤ fuel → foldCarries fuel sum = foldCarries 2 sum ∧
      (foldCarries fuel sum).toNat / 65536 = 0) ∧
    ntohs (computeChecksum message) = ~~~ OnesComplement.sum (words message) ∧
    (∀ (srcIp dstIp : UInt32) (data : List UInt8),
      (message = pseudoHeader srcIp dstIp 6 data.length ++ data →
        TCPParser.computeTcpChecksum srcIp dstIp data = computeChecksum message) ∧
      (message = pseudoHeader srcIp dstIp 17 data.length ++ data →
        UDPLayer.computeUdpChecksum srcIp dstIp data = computeChecksum message)) ∧
    (computeChecksum message = 0 ↔ verifyChecksum message = true) ∧
    ∀ pre post, message = pre ++ (store16 0 ++ post) → Even pre.length →
      let filled := pre ++ (store16 (computeChecksum message) ++ post)
      verifyChecksum filled = true ∧
        ∀ (replaced : List UInt8) (i : Nat) (w w' : UInt16), replaced.length = filled.length →
          (words filled)[i]? = some w → words replaced = (words filled).set i w' → w' ≠ w →
            ¬ (w = 0 ∧ w' = 0xFFFF ∨ w = 0xFFFF ∧ w' = 0) → verifyChecksum replaced = false := by
  refine ⟨fun chunks hchunks heven => ?_, fun sum fuel h => foldCarries_stops sum h,
    ntohs_computeChecksum hlen, fun srcIp dstIp data => ⟨fun hdata => ?_, fun hdata => ?_⟩,
    computeChecksum_eq_zero_iff message, fun pre post hsplit hpre => ?_⟩
  · subst hchunks
    exact foldl_checksumAccumulate 0 chunks heven ((Nat.zero_add _).trans_lt (wordSum_lt hlen))
  · have hsize : data.length ≤ 65535 := by
      rw [hdata, List.length_append, length_pseudoHeader] at hlen
      omega
    rw [TCPParser.computeTcpChecksum, if_neg (Nat.not_lt.mpr hsize), pseudoChecksum_eq, ← hdata]
  · rw [UDPLayer.computeUdpChecksum, pseudoChecksum_eq, ← hdata]
  · subst hsplit
    have hverified := verifyChecksum_filled hpre hlen
    refine ⟨hverified, fun replaced i w w' hreplaced hw hset hne hzeros => ?_⟩
    exact verifyChecksum_replaced ((length_filled ..).trans_le hlen) hreplaced hverified hw hset
      hne hzeros

/-- Five bytes with the checksum in the second word, then with another last byte. -/
theorem internetChecksum_odd :
    let filled : List UInt8 :=
      [0x12, 0x34] ++ (store16 (computeChecksum [0x12, 0x34, 0, 0, 5]) ++ [5])
    verifyChecksum filled = true ∧ verifyChecksum (filled.set 4 6) = false := by
  intro filled
  obtain ⟨-, -, -, -, -, hfill⟩ := internetChecksum [0x12, 0x34, 0, 0, 5] (by decide)
  obtain ⟨hverified, hreplaced⟩ := hfill [0x12, 0x34] [5] rfl ⟨1, rfl⟩
  exact ⟨hverified, hreplaced (filled.set 4 6) 2 0x0500 0x0600 rfl (by decide) (by decide)
    (by decide) (by decide)⟩

end NeuStack
