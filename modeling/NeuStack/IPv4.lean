import NeuStack.Checksum

/-! # IPv4 datagrams

`IPv4Parser` and `IPv4Builder` of `ipv4.cpp`.  A pointer into the received data
is its distance from the start of the data.

What the parser accepts is stated once on the bytes (`IPv4Valid`), and `parse`
is shown to compute it (`parse_value`) without leaving the data (`within_parse`).
-/
namespace NeuStack
open NetworkOrder

/-- `struct IPv4Packet`, in host byte order. -/
structure IPv4Packet where
  version : UInt8
  ihl : UInt8
  dscp : UInt8
  ecn : UInt8
  totalLength : UInt16
  identification : UInt16
  dontFragment : Bool
  moreFragments : Bool
  fragmentOffset : UInt16
  ttl : UInt8
  protocol : UInt8
  checksum : UInt16
  srcAddr : UInt32
  dstAddr : UInt32
  payload : Nat
  payloadLength : Nat
  rawData : Nat
  rawLength : Nat
  deriving DecidableEq, Repr

namespace IPProtocol

def icmp : UInt8 := 1
def tcp : UInt8 := 6
def udp : UInt8 := 17

end IPProtocol

/-! ## The header in place -/

namespace IPv4Header
variable (mem : Memory)

/-- `version()` -/
def version : Scan UInt8 := do
  let b ← Scan.read mem 0
  pure (b >>> 4)

/-- `ihl()` -/
def ihl : Scan UInt8 := do
  let b ← Scan.read mem 0
  pure (b &&& 0x0F)

/-- `header_length()` -/
def headerLength : Scan Nat := do
  let words ← ihl mem
  pure (words.toNat * 4)

def totalLength : Scan UInt16 := net16 mem 2

/-- `flags()` -/
def flags : Scan UInt16 := do
  let field ← net16 mem 6
  pure (field >>> 13)

/-- `fragment_offset()`, in units of eight bytes. -/
def fragmentOffset : Scan UInt16 := do
  let field ← net16 mem 6
  pure (field &&& 0x1FFF)

end IPv4Header

/-! ## The parser -/

namespace IPv4Parser

/-- `validate`: the text of the first error, or none. -/
def validate (mem : Memory) (len : Nat) : Scan (Option String) :=
  if len < 20 then pure (some "packet too short") else do
    let version ← IPv4Header.version mem
    if version ≠ 4 then pure (some "not IPv4") else do
    let ihl ← IPv4Header.ihl mem
    if ihl < 5 then pure (some "invalid IHL") else do
    let headerLen ← IPv4Header.headerLength mem
    if len < headerLen then pure (some "header length exceeds packet") else do
    let totalLen ← IPv4Header.totalLength mem
    if totalLen.toNat < headerLen then pure (some "total length < header length")
    else if len < totalLen.toNat then pure (some "total length exceeds packet") else do
    let header ← Scan.readRange mem 0 headerLen
    if verifyChecksum header then pure none else pure (some "checksum error")

/-- The second half of `parse`. -/
def fields (mem : Memory) (len : Nat) : Scan IPv4Packet := do
  let version ← IPv4Header.version mem
  let ihl ← IPv4Header.ihl mem
  let dscpEcn ← Scan.read mem 1
  let totalLength ← IPv4Header.totalLength mem
  let identification ← net16 mem 4
  let flags ← IPv4Header.flags mem
  let fragmentOffset ← IPv4Header.fragmentOffset mem
  let ttl ← Scan.read mem 8
  let protocol ← Scan.read mem 9
  let checksum ← net16 mem 10
  let srcAddr ← net32 mem 12
  let dstAddr ← net32 mem 16
  let headerLen ← IPv4Header.headerLength mem
  let payloadLength ← Scan.sub totalLength.toNat headerLen
  pure {
    version, ihl
    dscp := dscpEcn >>> 2
    ecn := dscpEcn &&& 0x03
    totalLength, identification
    dontFragment := flags &&& 0x02 != 0
    moreFragments := flags &&& 0x01 != 0
    fragmentOffset := fragmentOffset * 8
    ttl, protocol, checksum, srcAddr, dstAddr
    payload := headerLen
    payloadLength
    rawData := 0
    rawLength := len }

/-- `parse` -/
def parse (mem : Memory) (len : Nat) : Scan (Option IPv4Packet) := do
  let err ← validate mem len
  if err.isSome then pure none else some <$> fields mem len

end IPv4Parser

/-! ## The builder -/

/-- `IPv4Builder`, with the defaults of its members. -/
structure IPv4Builder where
  dscp : UInt8 := 0
  ecn : UInt8 := 0
  identification : UInt16 := 0
  dontFragment : Bool := true
  ttl : UInt8 := 64
  protocol : UInt8 := 0
  src : UInt32 := 0
  dst : UInt32 := 0
  payload : List UInt8 := []

namespace IPv4Builder

/-- The header of a datagram of `totalLen` bytes, with `checksum` in its field. -/
def header (b : IPv4Builder) (totalLen : Nat) (checksum : UInt16) : List UInt8 :=
  [(4 : UInt8) <<< 4 ||| 5, b.dscp <<< 2 ||| (b.ecn &&& 0x03)] ++
    store16 (htons (UInt16.ofNat totalLen)) ++ store16 (htons b.identification) ++
    store16 (htons (if b.dontFragment then (0x02 : UInt16) <<< 13 else 0)) ++ [b.ttl, b.protocol] ++
    store16 checksum ++ store32 (htonl b.src) ++ store32 (htonl b.dst)

/-- The header under its checksum. -/
def finished (b : IPv4Builder) (totalLen : Nat) : List UInt8 :=
  b.header totalLen (computeChecksum (b.header totalLen 0))

/-- `build`: what it writes to a buffer of `bufferLen` bytes, or nothing if that or a
datagram is too small. -/
def build (b : IPv4Builder) (bufferLen : Nat) : Option (List UInt8) :=
  let totalLen := 20 + b.payload.length
  if bufferLen < totalLen then none
  else if 65535 < totalLen then none
  else some (b.finished totalLen ++ b.payload)

/-- `build_header_only` -/
def buildHeaderOnly (b : IPv4Builder) (bufferLen payloadLen : Nat) : Option (List UInt8) :=
  let totalLen := 20 + payloadLen
  if bufferLen < 20 then none
  else if 65535 < totalLen then none
  else some (b.finished totalLen)

end IPv4Builder

/-! ## What the parser accepts -/

section Valid
variable {mem : Memory} {len n : Nat}

/-- The length of the header, from its own field. -/
def ipHeaderLength (mem : Memory) : Nat := (mem 0 &&& 0x0F).toNat * 4

/-- The length of the datagram, from its own field. -/
def ipTotalLength (mem : Memory) : Nat := 256 * (mem 2).toNat + (mem 3).toNat

/-- **A well-formed datagram** at the start of `len` bytes. -/
structure IPv4Valid (mem : Memory) (len : Nat) : Prop where
  version : mem 0 >>> 4 = 4
  ihl : 20 ≤ ipHeaderLength mem
  header : ipHeaderLength mem ≤ ipTotalLength mem
  total : ipTotalLength mem ≤ len
  /-- The words of the header add up to all ones. -/
  checksum : OnesComplement.residue (OnesComplement.wordSum (mem.slice 0 (ipHeaderLength mem))) =
    65535

theorem value_totalLength (mem : Memory) :
    (IPv4Header.totalLength mem).value.toNat = ipTotalLength mem :=
  toNat_net16 mem 2

/-- The header is at most 60 bytes long, which its sum does not overflow. -/
theorem ipHeaderLength_le (mem : Memory) : ipHeaderLength mem ≤ 60 := by
  have h : (mem 0 &&& 0x0F).toNat ≤ 15 := by
    rw [UInt8.toNat_and]
    exact Nat.and_le_right
  rw [ipHeaderLength]
  omega

theorem verifyChecksum_header (mem : Memory) :
    verifyChecksum (mem.slice 0 (ipHeaderLength mem)) = true ↔
      OnesComplement.residue (OnesComplement.wordSum (mem.slice 0 (ipHeaderLength mem))) = 65535 := by
  refine verifyChecksum_iff ?_
  have hle := OnesComplement.wordSum_le (mem.slice 0 (ipHeaderLength mem))
  have hlen := ipHeaderLength_le mem
  rw [Memory.length_slice] at hle
  omega

namespace IPv4Parser

/-- **`validate` finds no error exactly in well-formed datagrams.** -/
theorem validate_value : (validate mem len).value = none ↔ IPv4Valid mem len := by
  have hversion : (IPv4Header.version mem).value = mem 0 >>> 4 := rfl
  have hihl : (IPv4Header.ihl mem).value < 5 ↔ ipHeaderLength mem < 20 := by
    rw [UInt8.lt_iff_toNat_lt, ipHeaderLength]
    show (mem 0 &&& 0x0F).toNat < 5 ↔ _
    omega
  have hheader : (IPv4Header.headerLength mem).value = ipHeaderLength mem := rfl
  have htotal := value_totalLength mem
  have hsum : verifyChecksum (Scan.readRange mem 0 (IPv4Header.headerLength mem).value).value = true
      ↔ _ := verifyChecksum_header mem
  simp only [validate, Scan.value_ite, Scan.value_bind, Scan.value_pure]
  constructor
  · -- each test that was passed is one of the conditions
    intro h
    split at h
    · cases h
    split at h
    · cases h
    rename_i h4
    split at h
    · cases h
    rename_i hlong
    split at h
    · cases h
    split at h
    · cases h
    split at h
    · cases h
    split at h
    · rename_i hok
      rw [hihl] at hlong
      exact ⟨hversion ▸ not_not.mp h4, by omega, by omega, by omega, hsum.mp hok⟩
    · cases h
  · rintro ⟨h4, hlong, hle, hfit, hok⟩
    have hlong' : ¬ (IPv4Header.ihl mem).value < 5 := fun hlt => absurd (hihl.mp hlt) (by omega)
    rw [if_neg (by omega), if_neg (not_not.mpr (hversion.trans h4)), if_neg hlong',
      if_neg (by omega), if_neg (by omega), if_neg (by omega), if_pos (hsum.mpr hok)]

/-- **What `parse` returns.** -/
theorem parse_value (mem : Memory) (len : Nat) : (parse mem len).value =
    if (validate mem len).value = none then some (fields mem len).value else none := by
  simp only [parse, Scan.value_bind, Scan.value_ite, Scan.value_pure, Scan.value_map]
  cases (validate mem len).value <;> rfl

theorem parse_eq_some {pkt : IPv4Packet} :
    (parse mem len).value = some pkt ↔ IPv4Valid mem len ∧ pkt = (fields mem len).value := by
  rw [parse_value]
  constructor
  · intro h
    split at h
    · rename_i hvalid
      exact ⟨validate_value.mp hvalid, (Option.some.inj h).symm⟩
    · cases h
  · rintro ⟨hvalid, rfl⟩
    rw [if_pos (validate_value.mpr hvalid)]

/-! ## What the parser reads -/

theorem within_version (h : 0 < n) : (IPv4Header.version mem).Within n := by
  simpa [IPv4Header.version] using h

theorem within_ihl (h : 0 < n) : (IPv4Header.ihl mem).Within n := by
  simpa [IPv4Header.ihl] using h

theorem within_headerLength (h : 0 < n) : (IPv4Header.headerLength mem).Within n := by
  simpa [IPv4Header.headerLength] using within_ihl h

theorem within_validate (mem : Memory) (len : Nat) : (validate mem len).Within len := by
  unfold validate
  refine (Scan.within_ite ..).mpr ⟨fun _ => Scan.within_pure _, fun hlen => ?_⟩
  refine (Scan.within_bind ..).mpr ⟨within_version (by omega), ?_⟩
  refine (Scan.within_ite ..).mpr ⟨fun _ => Scan.within_pure _, fun _ => ?_⟩
  refine (Scan.within_bind ..).mpr ⟨within_ihl (by omega), ?_⟩
  refine (Scan.within_ite ..).mpr ⟨fun _ => Scan.within_pure _, fun _ => ?_⟩
  refine (Scan.within_bind ..).mpr ⟨within_headerLength (by omega), ?_⟩
  refine (Scan.within_ite ..).mpr ⟨fun _ => Scan.within_pure _, fun hheader => ?_⟩
  refine (Scan.within_bind ..).mpr ⟨within_net16.mpr (by omega), ?_⟩
  refine (Scan.within_ite ..).mpr ⟨fun _ => Scan.within_pure _, fun _ => ?_⟩
  refine (Scan.within_ite ..).mpr ⟨fun _ => Scan.within_pure _, fun _ => ?_⟩
  refine (Scan.within_bind ..).mpr ⟨Scan.within_readRange _ _ _ (by omega), ?_⟩
  exact (Scan.within_ite ..).mpr ⟨fun _ => Scan.within_pure _, fun _ => Scan.within_pure _⟩

theorem within_fields (h : IPv4Valid mem len) : (fields mem len).Within len := by
  obtain ⟨-, hlong, hheader, htotal, -⟩ := h
  have hsub : ipHeaderLength mem ≤ (IPv4Header.totalLength mem).value.toNat := by
    rw [value_totalLength]
    exact hheader
  simp only [fields, IPv4Header.version, IPv4Header.ihl, IPv4Header.headerLength,
    IPv4Header.totalLength, IPv4Header.flags, IPv4Header.fragmentOffset, Scan.within_bind,
    Scan.within_pure, Scan.within_read, within_net16, within_net32, Scan.within_sub, and_true]
  refine ⟨by omega, by omega, by omega, by omega, by omega, by omega, by omega, by omega, by omega,
    by omega, by omega, by omega, by omega, hsub⟩

/-- **The parser stays inside the data.** -/
theorem within_parse (mem : Memory) (len : Nat) : (parse mem len).Within len := by
  refine (Scan.within_bind ..).mpr ⟨within_validate mem len, (Scan.within_ite ..).mpr
    ⟨fun _ => Scan.within_pure _, fun hok => (Scan.within_map ..).mpr (within_fields ?_)⟩⟩
  cases herr : (validate mem len).value with
  | none => exact validate_value.mp herr
  | some err =>
    rw [herr] at hok
    exact absurd rfl hok

end IPv4Parser

/-! ## The fields of an accepted datagram -/

namespace IPv4Valid
variable (h : IPv4Valid mem len)
include h

theorem payloadLength : (IPv4Parser.fields mem len).value.payloadLength =
    ipTotalLength mem - ipHeaderLength mem := by
  have hsub : (Scan.sub (IPv4Header.totalLength mem).value.toNat (ipHeaderLength mem)).value =
      ipTotalLength mem - ipHeaderLength mem := by
    rw [value_totalLength, Scan.value_sub h.header]
  exact hsub

omit h in
theorem payload : (IPv4Parser.fields mem len).value.payload = ipHeaderLength mem := rfl

end IPv4Valid

end Valid

end NeuStack
