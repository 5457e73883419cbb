import NeuStack.IPv4
import NeuStack.TCPTypes

/-! # TCP segments on the wire

`TCPParser` and `TCPBuilder`.  The parser hands the payload of a datagram to the
connection manager as a segment; the builder writes one, whose checksum is filled
in afterwards.
-/
namespace NeuStack
open NetworkOrder

/-- `sizeof(TCPHeader)` -/
def tcpHeaderSize : Nat := 20

/-- The bytes of the pseudo header for the checksums of TCP and UDP. -/
def pseudoHeader (srcIp dstIp : UInt32) (protocol : UInt8) (len : Nat) : List UInt8 :=
  store32 (htonl srcIp) ++ store32 (htonl dstIp) ++ [0, protocol] ++
    store16 (htons (UInt16.ofNat len))

/-- The sum over a pseudo header and the bytes behind it. -/
def pseudoChecksum (srcIp dstIp : UInt32) (protocol : UInt8) (data : List UInt8) : UInt16 :=
  checksumFinalize (checksumAccumulate
    (checksumAccumulate 0 (pseudoHeader srcIp dstIp protocol data.length)) data)

/-! ## The parser -/

/-- The parsed segment with the header fields that only the parser looks at. -/
structure TCPParsed extends TCPSegment where
  dataOffset : UInt8
  checksum : UInt16
  urgentPtr : UInt16
  deriving DecidableEq, Repr

namespace TCPParser

/-- `compute_tcp_checksum` -/
def computeTcpChecksum (srcIp dstIp : UInt32) (data : List UInt8) : UInt16 :=
  if 65535 < data.length then 0 else pseudoChecksum srcIp dstIp 6 data

/-- `verify_checksum` -/
def verifyChecksum (mem : Memory) (pkt : IPv4Packet) : Scan Bool := do
  let payload ← Scan.readRange mem pkt.payload pkt.payloadLength
  pure (computeTcpChecksum pkt.srcAddr pkt.dstAddr payload == 0)

/-- `header_length()` of `TCPHeader`, in its 8 bits. -/
def headerLength (mem : Memory) (pkt : IPv4Packet) : Scan UInt8 := do
  let dataOffset ← Scan.read mem (pkt.payload + 12)
  pure ((dataOffset >>> 4) * 4)

/-- The second half of `parse`. -/
def fields (mem : Memory) (pkt : IPv4Packet) (headerLen : UInt8) : Scan TCPParsed := do
  let srcPort ← net16 mem pkt.payload
  let dstPort ← net16 mem (pkt.payload + 2)
  let seqNum ← net32 mem (pkt.payload + 4)
  let ackNum ← net32 mem (pkt.payload + 8)
  let flags ← Scan.read mem (pkt.payload + 13)
  let window ← net16 mem (pkt.payload + 14)
  let checksum ← net16 mem (pkt.payload + 16)
  let urgentPtr ← net16 mem (pkt.payload + 18)
  let dataLength ← Scan.sub pkt.payloadLength headerLen.toNat
  pure {
    srcAddr := pkt.srcAddr
    dstAddr := pkt.dstAddr
    srcPort, dstPort
    seqNum := seqNum.toBitVec
    ackNum := ackNum.toBitVec
    flags, window
    data := mem.slice (pkt.payload + headerLen.toNat) dataLength
    dataOffset := headerLen
    checksum, urgentPtr }

/-- `parse` -/
def parse (mem : Memory) (pkt : IPv4Packet) : Scan (Option TCPParsed) :=
  if pkt.payloadLength < tcpHeaderSize then pure none else do
    let headerLen ← headerLength mem pkt
    if headerLen.toNat < tcpHeaderSize ∨ pkt.payloadLength < headerLen.toNat then pure none else do
    let ok ← verifyChecksum mem pkt
    if !ok then pure none else some <$> fields mem pkt headerLen

end TCPParser

/-! ## The builder -/

/-- `TCPBuilder`, with the defaults of its members. -/
structure TCPBuilder where
  srcPort : UInt16 := 0
  dstPort : UInt16 := 0
  seq : UInt32 := 0
  ack : UInt32 := 0
  flags : UInt8 := 0
  window : UInt16 := 65535
  payload : List UInt8 := []

namespace TCPBuilder

/-- The header `build` writes, with `checksum` in its field. -/
def header (b : TCPBuilder) (checksum : UInt16) : List UInt8 :=
  store16 (htons b.srcPort) ++ store16 (htons b.dstPort) ++ store32 (htonl b.seq) ++
    store32 (htonl b.ack) ++ [(5 : UInt8) <<< 4, b.flags] ++ store16 (htons b.window) ++
    store16 checksum ++ store16 0

/-- `build`: what it writes to a buffer of `bufferLen` bytes, or nothing if that is
too small. -/
def build (b : TCPBuilder) (bufferLen : Nat) : Option (List UInt8) :=
  if bufferLen < tcpHeaderSize + b.payload.length then none else some (b.header 0 ++ b.payload)

/-- The bytes of a segment with its checksum field set to `checksum`. -/
def setChecksum (data : List UInt8) (checksum : UInt16) : List UInt8 :=
  data.take 16 ++ store16 checksum ++ data.drop 18

/-- `fill_checksum` -/
def fillChecksum (data : List UInt8) (srcIp dstIp : UInt32) : List UInt8 :=
  if 65535 < data.length then data
  else setChecksum data (pseudoChecksum srcIp dstIp 6 (setChecksum data 0))

@[simp] theorem length_header (b : TCPBuilder) (checksum : UInt16) :
    (b.header checksum).length = tcpHeaderSize := rfl

end TCPBuilder

/-! ## What the parser reads and returns -/

section Parser
variable {mem : Memory} {pkt : IPv4Packet} {n : Nat}

theorem length_pseudoHeader (srcIp dstIp : UInt32) (protocol : UInt8) (len : Nat) :
    (pseudoHeader srcIp dstIp protocol len).length = 12 := rfl

/-- The sum under a checksum with a pseudo header, which is in 32 bits for any
datagram. -/
theorem residue_pseudoChecksum (srcIp dstIp : UInt32) (protocol : UInt8) {data : List UInt8}
    (h : data.length ≤ 65535) :
    (ntohs (pseudoChecksum srcIp dstIp protocol data)).toNat =
        65535 - OnesComplement.residue (OnesComplement.wordSum
          (pseudoHeader srcIp dstIp protocol data.length) + OnesComplement.wordSum data) ∧
      (pseudoChecksum srcIp dstIp protocol data = 0 ↔ OnesComplement.residue
        (OnesComplement.wordSum (pseudoHeader srcIp dstIp protocol data.length) +
          OnesComplement.wordSum data) = 65535) := by
  have hpseudo := OnesComplement.wordSum_le (pseudoHeader srcIp dstIp protocol data.length)
  have hdata := OnesComplement.wordSum_le data
  rw [length_pseudoHeader] at hpseudo
  have hzero : (0 : UInt32).toNat = 0 := rfl
  have hfirst : (checksumAccumulate 0 (pseudoHeader srcIp dstIp protocol data.length)).toNat =
      OnesComplement.wordSum (pseudoHeader srcIp dstIp protocol data.length) := by
    rw [toNat_checksumAccumulate _ _ (by omega), hzero, Nat.zero_add]
  have hsum : (checksumAccumulate (checksumAccumulate 0
      (pseudoHeader srcIp dstIp protocol data.length)) data).toNat =
      OnesComplement.wordSum (pseudoHeader srcIp dstIp protocol data.length) +
        OnesComplement.wordSum data := by
    rw [toNat_checksumAccumulate _ _ (by omega), hfirst]
  rw [pseudoChecksum, toNat_ntohs_checksumFinalize, checksumFinalize_eq_zero, hsum]
  exact ⟨rfl, Iff.rfl⟩

namespace TCPParser

theorem within_headerLength (h : pkt.payload + pkt.payloadLength ≤ n)
    (hlong : tcpHeaderSize ≤ pkt.payloadLength) : (headerLength mem pkt).Within n := by
  unfold tcpHeaderSize at hlong
  simp only [headerLength, Scan.within_bind, Scan.within_read, Scan.within_pure, and_true]
  omega

/-- **The parser stays inside the payload.** -/
theorem within_parse (mem : Memory) (h : pkt.payload + pkt.payloadLength ≤ n) :
    (parse mem pkt).Within n := by
  unfold parse
  refine (Scan.within_ite ..).mpr ⟨fun _ => Scan.within_pure _, fun hlong => ?_⟩
  refine (Scan.within_bind ..).mpr ⟨within_headerLength h (Nat.not_lt.mp hlong), ?_⟩
  refine (Scan.within_ite ..).mpr ⟨fun _ => Scan.within_pure _, fun hfit => ?_⟩
  refine (Scan.within_bind ..).mpr ⟨?_, (Scan.within_ite ..).mpr
    ⟨fun _ => Scan.within_pure _, fun _ => (Scan.within_map ..).mpr ?_⟩⟩
  · exact (Scan.within_bind ..).mpr ⟨Scan.within_readRange _ _ _ h, Scan.within_pure _⟩
  · unfold tcpHeaderSize at hlong
    simp only [fields, Scan.within_bind, Scan.within_pure, Scan.within_read, within_net16,
      within_net32, Scan.within_sub, and_true]
    refine ⟨by omega, by omega, by omega, by omega, by omega, by omega, by omega, by omega, ?_⟩
    exact Nat.not_lt.mp fun hlt => hfit (Or.inr hlt)

/-- **What an accepted segment is.** -/
theorem parse_eq_some {seg : TCPParsed} : (parse mem pkt).value = some seg ↔
    tcpHeaderSize ≤ pkt.payloadLength ∧ tcpHeaderSize ≤ (headerLength mem pkt).value.toNat ∧
      (headerLength mem pkt).value.toNat ≤ pkt.payloadLength ∧
      (verifyChecksum mem pkt).value = true ∧
      seg = (fields mem pkt (headerLength mem pkt).value).value := by
  simp only [parse, Scan.value_ite, Scan.value_bind, Scan.value_pure, Scan.value_map]
  constructor
  · intro h
    split at h
    · cases h
    rename_i hlong
    split at h
    · cases h
    rename_i hfit
    split at h
    · cases h
    rename_i hok
    rw [not_or, Nat.not_lt, Nat.not_lt] at hfit
    exact ⟨Nat.not_lt.mp hlong, hfit.1, hfit.2, by simpa using hok, (Option.some.inj h).symm⟩
  · rintro ⟨hlong, hmin, hfit, hok, rfl⟩
    rw [if_neg (Nat.not_lt.mpr hlong), if_neg (not_or.mpr ⟨Nat.not_lt.mpr hmin, Nat.not_lt.mpr hfit⟩),
      if_neg (by rw [hok]; exact Bool.false_ne_true)]

end TCPParser

end Parser

end NeuStack
