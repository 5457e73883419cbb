import Mathlib.Algebra.GroupWithZero.Nat
import NeuStack.DNSParsing

/-! # Encoding and decoding names

The labels of a hostname on the wire, each behind its length (`wireName`), are what `decode_name`
reads back (`decodeName_wire`).  `encode_name` writes them so when no label is longer than 63 bytes;
of a longer one it cuts the length and not the label, and the decoder takes the rest of the label
for lengths and labels of its own (`codec_iff`).
-/
namespace NeuStack
open NetworkOrder

namespace DNSMessages

/-- The labels of a name, each behind its length, and a zero. -/
def wireName (labels : List (List UInt8)) : List UInt8 :=
  labels.flatMap (fun l => UInt8.ofNat l.length :: l) ++ [0]

/-- **A name on the wire**, of labels of at most 63 bytes. -/
def WireName (bytes : List UInt8) : Prop :=
  ∃ labels : List (List UInt8), (∀ l ∈ labels, l ≠ [] ∧ l.length ≤ 63) ∧ bytes = wireName labels

/-- The hostname with these labels, and maybe a dot behind them. -/
def hostname (labels : List (List UInt8)) (trailing : Bool) : List UInt8 :=
  [dot].intercalate labels ++ if trailing then [dot] else []

/-- **Encoding and decoding a hostname**: `encode_name` writes a name on the wire, and wherever that
is in a message, `decode_name` returns the hostname, its labels cut to 63 bytes, and the offset
behind it. -/
def NameRoundTrips (labels : List (List UInt8)) (trailing : Bool) : Prop :=
  WireName (encodeName (hostname labels trailing)) ∧
  ∀ (mem : Memory) (len offset : Nat), mem.Holds offset (encodeName (hostname labels trailing)) →
    offset + (encodeName (hostname labels trailing)).length ≤ len →
    (decodeName mem len offset).value = ([dot].intercalate (labels.map (·.take 63)),
      offset + (encodeName (hostname labels trailing)).length)

/-! ## Encoding -/

/-- What `encode_name` writes for a label. -/
def encodedLabel (label : List UInt8) : List UInt8 :=
  UInt8.ofNat (min label.length 63) :: label

theorem encodeLabels_nil (fuel : Nat) : encodeLabels fuel [] = [] := by
  cases fuel with
  | zero => rfl
  | succ fuel => exact if_pos rfl

theorem intercalate_cons (l : List UInt8) {ls : List (List UInt8)} (h : ls ≠ []) :
    [dot].intercalate (l :: ls) = l ++ dot :: [dot].intercalate ls := by
  cases ls with
  | nil => exact absurd rfl h
  | cons m ls => rfl

theorem ne_dot {label : List UInt8} (hdot : dot ∉ label) (a : UInt8) (ha : a ∈ label) :
    decide (a ≠ dot) = true :=
  decide_eq_true fun h : a = dot => hdot (h ▸ ha)

/-- A label in front of a dot. -/
theorem encodeLabels_dot {label : List UInt8} (hne : label ≠ []) (hdot : dot ∉ label) (fuel : Nat)
    (rest : List UInt8) : encodeLabels (fuel + 1) (label ++ dot :: rest) =
      encodedLabel label ++ encodeLabels fuel rest := by
  have htake : (label ++ dot :: rest).takeWhile (· ≠ dot) = label := by
    rw [List.takeWhile_append_of_pos (ne_dot hdot), List.takeWhile_cons_of_neg (by simp),
      List.append_nil]
  have hdrop : (label ++ dot :: rest).drop (label.length + 1) = rest := by
    rw [List.drop_length_add_append]
    rfl
  rw [encodeLabels, if_neg (fun h => hne (List.append_eq_nil_iff.mp h).1), htake]
  show encodedLabel label ++ encodeLabels fuel (List.drop (label.length + 1) _) = _
  rw [hdrop]

/-- The last label. -/
theorem encodeLabels_last {label : List UInt8} (hne : label ≠ []) (hdot : dot ∉ label)
    (fuel : Nat) : encodeLabels (fuel + 1) label = encodedLabel label := by
  have htake : label.takeWhile (· ≠ dot) = label := by
    have h : (label ++ []).takeWhile (· ≠ dot) = _ := List.takeWhile_append_of_pos (ne_dot hdot)
    rwa [List.append_nil, List.takeWhile_nil, List.append_nil] at h
  rw [encodeLabels, if_neg hne, htake]
  show encodedLabel label ++ encodeLabels fuel (List.drop (label.length + 1) _) = _
  rw [List.drop_of_length_le (Nat.le_succ _), encodeLabels_nil, List.append_nil]

theorem intercalate_singleton (l : List UInt8) : [dot].intercalate [l] = l :=
  List.append_nil l

theorem hostname_cons (label : List UInt8) {labels : List (List UInt8)} (h : labels ≠ [])
    (trailing : Bool) :
    hostname (label :: labels) trailing = label ++ dot :: hostname labels trailing := by
  rw [hostname, intercalate_cons label h, List.append_assoc, List.cons_append, hostname]

theorem encodeLabels_hostname {labels : List (List UInt8)} (hne : labels ≠ [])
    (hlabels : ∀ l ∈ labels, l ≠ [] ∧ dot ∉ l) (trailing : Bool) {fuel : Nat}
    (hfuel : (hostname labels trailing).length ≤ fuel) :
    encodeLabels fuel (hostname labels trailing) = labels.flatMap encodedLabel := by
  induction labels generalizing fuel with
  | nil => exact absurd rfl hne
  | cons label labels ih =>
    obtain ⟨hlabel, hdot⟩ := hlabels label (List.mem_cons_self ..)
    have hpos := List.length_pos_iff.mpr hlabel
    rw [List.flatMap_cons]
    by_cases hlast : labels = []
    · -- behind the last label there may be a dot
      rw [hlast, hostname, intercalate_singleton] at hfuel ⊢
      rw [List.length_append] at hfuel
      obtain ⟨fuel, rfl⟩ := Nat.exists_eq_add_of_lt (Nat.lt_of_lt_of_le hpos
        (Nat.le_trans (Nat.le_add_right ..) hfuel))
      rw [Nat.zero_add, List.flatMap_nil, List.append_nil]
      cases trailing with
      | false =>
        rw [if_neg (by decide), List.append_nil]
        exact encodeLabels_last hlabel hdot fuel
      | true =>
        rw [if_pos rfl, encodeLabels_dot hlabel hdot, encodeLabels_nil, List.append_nil]
    · rw [hostname_cons label hlast] at hfuel ⊢
      rw [List.length_append, List.length_cons] at hfuel
      obtain ⟨fuel, rfl⟩ := Nat.exists_eq_add_of_lt (Nat.lt_of_lt_of_le hpos
        (Nat.le_trans (Nat.le_add_right ..) hfuel))
      rw [Nat.zero_add, encodeLabels_dot hlabel hdot, ih hlast
        (fun l hl => hlabels l (List.mem_cons_of_mem _ hl)) (by omega)]

/-- **What `encode_name` writes.** -/
theorem encodeName_hostname {labels : List (List UInt8)} (hne : labels ≠ [])
    (hlabels : ∀ l ∈ labels, l ≠ [] ∧ dot ∉ l) (trailing : Bool) :
    encodeName (hostname labels trailing) = labels.flatMap encodedLabel ++ [0] := by
  rw [encodeName, encodeLabels_hostname hne hlabels trailing (Nat.le_refl _)]

/-- Labels that are short enough are written as they are on the wire. -/
theorem flatMap_encodedLabel {labels : List (List UInt8)} (h : ∀ l ∈ labels, l.length ≤ 63) :
    labels.flatMap encodedLabel = labels.flatMap (fun l => UInt8.ofNat l.length :: l) := by
  induction labels with
  | nil => rfl
  | cons l labels ih =>
    rw [List.flatMap_cons, List.flatMap_cons, ih fun m hm => h m (List.mem_cons_of_mem _ hm),
      encodedLabel, Nat.min_eq_left (h l (List.mem_cons_self ..))]

/-! ## Decoding -/

/-- The labels with a dot in front of each, but for the first of a name. -/
def dotted : Bool → List (List UInt8) → List UInt8
  | _, [] => []
  | first, l :: labels => (if first then [] else [dot]) ++ l ++ dotted false labels

theorem dotted_true (labels : List (List UInt8)) :
    dotted true labels = [dot].intercalate labels := by
  induction labels with
  | nil => rfl
  | cons l labels ih =>
    cases labels with
    | nil => exact (List.append_nil l).trans (intercalate_singleton l).symm
    | cons m labels =>
      rw [intercalate_cons l (List.cons_ne_nil m labels), ← ih]
      rfl

theorem length_byte {n : Nat} (hpos : 0 < n) (h : n ≤ 63) : (UInt8.ofNat n).toNat = n ∧
    UInt8.ofNat n ≠ 0 ∧ UInt8.ofNat n &&& 0xC0 ≠ 0xC0 := by
  have hall : ∀ i : Fin 64, UInt8.ofNat i &&& 0xC0 ≠ 0xC0 := by decide
  have hvalue : (UInt8.ofNat n).toNat = n := by
    rw [UInt8.toNat_ofNat', Nat.mod_eq_of_lt (by omega)]
  refine ⟨hvalue, fun hzero => ?_, hall ⟨n, by omega⟩⟩
  rw [hzero] at hvalue
  exact absurd hvalue (Nat.ne_of_lt hpos)

/-- The rounds over a name on the wire. -/
theorem run_wire {mem : Memory} {len : Nat} {labels : List (List UInt8)}
    (hlabels : ∀ l ∈ labels, l ≠ [] ∧ l.length ≤ 63) (c : NameCursor)
    (hmem : mem.Holds c.offset (wireName labels))
    (hfits : c.offset + (wireName labels).length ≤ len) :
    ∃ n d, NameRun mem len n c d ∧ d.resume = c.resume ∧
      d.offset = c.offset + (wireName labels).length ∧
      d.result = c.result ++ dotted c.first labels := by
  induction labels generalizing c with
  | nil =>
    obtain ⟨hzero, -⟩ := Memory.holds_cons.mp hmem
    exact ⟨1, _, .done (.zero hfits hzero), rfl, rfl, (List.append_nil _).symm⟩
  | cons l labels ih =>
    obtain ⟨hne, hshort⟩ := hlabels l (List.mem_cons_self ..)
    obtain ⟨hvalue, hpos, hplain⟩ := length_byte (List.length_pos_iff.mpr hne) hshort
    have hcons : wireName (l :: labels) = UInt8.ofNat l.length :: (l ++ wireName labels) := by
      rw [wireName, List.flatMap_cons, List.append_assoc]
      rfl
    rw [hcons, List.length_cons, List.length_append] at hfits ⊢
    rw [hcons, Memory.holds_cons, Memory.holds_append] at hmem
    obtain ⟨hlength, hlabel, hrest⟩ := hmem
    have hnat : (mem c.offset).toNat = l.length := hlength ▸ hvalue
    have htake : (c.take mem).offset = c.offset + 1 + l.length := by
      rw [NameCursor.take, hnat]
    -- one round takes the label, and the rest of the name is read from behind it
    obtain ⟨n, d, hrun, hresume, hoffset, hresult⟩ := ih
      (fun m hm => hlabels m (List.mem_cons_of_mem _ hm)) (c.take mem) (htake ▸ hrest)
      (by rw [htake]; omega)
    refine ⟨n + 1, d, .turn (.label (by omega) (hlength ▸ hplain) (hlength ▸ hpos)
      (by rw [hnat]; omega)) hrun, hresume, by rw [hoffset, htake]; omega, ?_⟩
    have hslice : mem.slice (c.offset + 1) l.length = l := hlabel
    rw [hresult, NameCursor.take, hnat, hslice]
    simp only [dotted, List.append_assoc]

/-- **Decoding a name on the wire.** -/
theorem decodeName_wire {mem : Memory} {len offset : Nat} {labels : List (List UInt8)}
    (hlabels : ∀ l ∈ labels, l ≠ [] ∧ l.length ≤ 63) (hmem : mem.Holds offset (wireName labels))
    (hfits : offset + (wireName labels).length ≤ len) : (decodeName mem len offset).value =
      ([dot].intercalate labels, offset + (wireName labels).length) := by
  obtain ⟨n, d, hrun, hresume, hoffset, hresult⟩ := run_wire hlabels { offset } hmem hfits
  rw [hrun.decodeName_eq, hresume, hoffset, hresult, ← dotted_true]
  rfl

/-! ## When both agree -/

theorem length_intercalate {labels : List (List UInt8)} (h : labels ≠ []) :
    ([dot].intercalate labels).length + 1 = (labels.map (·.length + 1)).sum := by
  induction labels with
  | nil => exact absurd rfl h
  | cons l labels ih =>
    by_cases hlast : labels = []
    · rw [hlast, intercalate_singleton, List.map_singleton, List.sum_singleton]
    · rw [intercalate_cons l hlast, List.length_append, List.length_cons, ih hlast, List.map_cons,
        List.sum_cons]
      omega

theorem length_flatMap {f : List UInt8 → List UInt8} (hf : ∀ l, (f l).length = l.length + 1)
    (labels : List (List UInt8)) :
    (labels.flatMap f).length = (labels.map (·.length + 1)).sum := by
  rw [List.length_flatMap]
  exact congrArg List.sum (List.map_congr_left fun l _ => hf l)

theorem sum_cut_le (labels : List (List UInt8)) :
    ((labels.map (·.take 63)).map (·.length + 1)).sum ≤ (labels.map (·.length + 1)).sum := by
  induction labels with
  | nil => exact Nat.le_refl 0
  | cons l labels ih =>
    rw [List.map_cons, List.map_cons, List.map_cons, List.sum_cons, List.sum_cons, List.length_take]
    omega

/-- Cutting makes the sum of the lengths less, unless there is nothing to cut. -/
theorem short_of_sum {labels : List (List UInt8)} (h : (labels.map (·.length + 1)).sum ≤
    ((labels.map (·.take 63)).map (·.length + 1)).sum) : ∀ l ∈ labels, l.length ≤ 63 := by
  induction labels with
  | nil => exact fun l hl => absurd hl List.not_mem_nil
  | cons l labels ih =>
    have htail := sum_cut_le labels
    rw [List.map_cons, List.map_cons, List.map_cons, List.sum_cons, List.sum_cons,
      List.length_take] at h
    intro m hm
    rcases List.mem_cons.mp hm with rfl | hm
    · omega
    · exact ih (by omega) m hm

/-- **The codec of names**, for any hostname of labels between single dots: both sides agree exactly
when no label is longer than 63 bytes. -/
theorem codec_iff {labels : List (List UInt8)} (hne : labels ≠ [])
    (hlabels : ∀ l ∈ labels, l ≠ [] ∧ dot ∉ l) (trailing : Bool) :
    NameRoundTrips labels trailing ↔ ∀ l ∈ labels, l.length ≤ 63 := by
  have hencoded := encodeName_hostname hne hlabels trailing
  constructor
  · rintro ⟨⟨wire, hwire, heq⟩, hdecode⟩
    -- what is decoded is two bytes shorter than what was encoded, and so nothing has been cut
    have hmem := Memory.holds_ofList (encodeName (hostname labels trailing))
    have hdecoded := hdecode _ _ 0 hmem (Nat.le_of_eq (Nat.zero_add _))
    rw [heq] at hmem hdecoded
    rw [decodeName_wire hwire hmem (Nat.le_of_eq (Nat.zero_add _))] at hdecoded
    have hjoin : [dot].intercalate wire = [dot].intercalate (labels.map (·.take 63)) :=
      congrArg Prod.fst hdecoded
    have hbytes : (labels.map (·.length + 1)).sum = (wire.map (·.length + 1)).sum := by
      have hlen := congrArg List.length (hencoded.symm.trans heq)
      rw [wireName, List.length_append, List.length_append, length_flatMap fun _ => rfl,
        length_flatMap fun _ => rfl] at hlen
      exact Nat.add_right_cancel hlen
    have hwire_ne : wire ≠ [] := by
      rintro rfl
      rw [← length_intercalate hne] at hbytes
      exact Nat.succ_ne_zero _ hbytes
    refine short_of_sum (Nat.le_of_eq ?_)
    rw [hbytes, ← length_intercalate hwire_ne, hjoin,
      length_intercalate fun h => hne (List.map_eq_nil_iff.mp h)]
  · intro hshort
    have hwire : encodeName (hostname labels trailing) = wireName labels := by
      rw [hencoded, flatMap_encodedLabel hshort, wireName]
    have hcut : labels.map (·.take 63) = labels := by
      refine (List.map_congr_left fun l hl => ?_).trans (List.map_id _)
      exact List.take_of_length_le (hshort l hl)
    have hvalid : ∀ l ∈ labels, l ≠ [] ∧ l.length ≤ 63 := fun l hl =>
      ⟨(hlabels l hl).1, hshort l hl⟩
    rw [NameRoundTrips, hwire, hcut]
    exact ⟨⟨labels, hvalid, rfl⟩, fun mem len offset => decodeName_wire hvalid⟩

/-- `aa.b`, with a dot behind it. -/
theorem codec_short : NameRoundTrips [[97, 97], [98]] true ↔
    ∀ l ∈ ([[97, 97], [98]] : List (List UInt8)), l.length ≤ 63 :=
  codec_iff (by decide) (by decide) true

/-- A label of 64 letters is encoded and not decoded again. -/
theorem codec_long : ¬ NameRoundTrips [List.replicate 64 97] false := fun h =>
  absurd (h.2 _ 66 0 (Memory.holds_ofList _) (by decide +kernel)) (by decide +kernel)

end DNSMessages
end NeuStack
