import NeuStack.IPv4Layer

/-! # The firewall's view of a packet

`FirewallEngine` looks at packets before the network layer does, with two routines
of its own: `parse_packet` on raw bytes and `fill_event_from_ipv4` on a datagram
that was parsed already.

`parse_packet` does not compare the total length with the length of the header.
Where it is smaller, the length of the transport part wraps (`ShortTotal`), and
the routine reads behind the packet; in all other cases it stays inside
(`within_parsePacket`).  On what `IPv4Parser` accepts it agrees with the parsers
of the stack (`sees_same`).
-/
namespace NeuStack
open NetworkOrder

/-- `struct PacketEvent`; the addresses are in network order. -/
structure PacketEvent where
  srcIp : UInt32
  dstIp : UInt32
  srcPort : UInt16 := 0
  dstPort : UInt16 := 0
  protocol : UInt8
  tcpFlags : UInt8 := 0
  totalLen : UInt16
  payloadLen : UInt16 := 0
  timestampUs : UInt64
  deriving DecidableEq, Repr

namespace FirewallEngine

/-- The transport part of `parse_packet`, at distance `hdr`. -/
def parseTransport (mem : Memory) (hdr transportLen : Nat) (evt : PacketEvent) :
    Scan PacketEvent :=
  if evt.protocol = 6 ∧ 20 ≤ transportLen then do
    let srcPort ← net16 mem hdr
    let dstPort ← net16 mem (hdr + 2)
    let tcpFlags ← Scan.read mem (hdr + 13)
    let offsetByte ← Scan.read mem (hdr + 12)
    let tcpDataOffset : UInt8 := (offsetByte >>> 4) * 4
    pure { evt with
      srcPort, dstPort, tcpFlags
      payloadLen := if tcpDataOffset.toNat ≤ transportLen then
          UInt16.ofNat (transportLen - tcpDataOffset.toNat)
        else evt.payloadLen }
  else if evt.protocol = 17 ∧ 8 ≤ transportLen then do
    let srcPort ← net16 mem hdr
    let dstPort ← net16 mem (hdr + 2)
    pure { evt with srcPort, dstPort, payloadLen := UInt16.ofNat (transportLen - 8) }
  else if evt.protocol = 1 then pure { evt with payloadLen := UInt16.ofNat transportLen }
  else pure evt

/-- `parse_packet` -/
def parsePacket (mem : Memory) (len : Nat) (nowUs : UInt64) : Scan (Option PacketEvent) :=
  if len < 20 then pure none else do
    let versionIhl ← Scan.read mem 0
    if (versionIhl >>> 4) &&& 0x0F ≠ 4 then pure none else do
    let ipHeaderLen ← IPv4Header.headerLength mem
    if ipHeaderLen < 20 ∨ len < ipHeaderLen then pure none else do
    let totalLen ← IPv4Header.totalLength mem
    if len < totalLen.toNat then pure none else do
    let srcIp ← raw32 mem 12
    let dstIp ← raw32 mem 16
    let protocol ← Scan.read mem 9
    let transportLen ← Scan.sub totalLen.toNat ipHeaderLen
    some <$> parseTransport mem ipHeaderLen transportLen
      { srcIp, dstIp, protocol, totalLen, timestampUs := nowUs }

/-- `fill_event_from_ipv4` -/
def fillEventFromIpv4 (mem : Memory) (pkt : IPv4Packet) (nowUs : UInt64) : Scan PacketEvent :=
  let evt : PacketEvent := {
    srcIp := htonl pkt.srcAddr
    dstIp := htonl pkt.dstAddr
    protocol := pkt.protocol
    totalLen := pkt.totalLength
    payloadLen := UInt16.ofNat pkt.payloadLength
    timestampUs := nowUs }
  if 8 ≤ pkt.payloadLength ∧ (pkt.protocol = 6 ∨ pkt.protocol = 17) then do
    let srcPort ← net16 mem pkt.payload
    let dstPort ← net16 mem (pkt.payload + 2)
    if pkt.protocol = 6 ∧ 14 ≤ pkt.payloadLength then do
      let tcpFlags ← Scan.read mem (pkt.payload + 13)
      pure { evt with srcPort, dstPort, tcpFlags }
    else pure { evt with srcPort, dstPort }
  else pure evt

/-! ## Staying inside -/

section
variable {mem : Memory} {len n : Nat}

/-- **The packets `parse_packet` leaves**: the header passes its tests, and the total
length is shorter than it. -/
structure ShortTotal (mem : Memory) (len : Nat) : Prop where
  version : mem 0 >>> 4 = 4
  ihl : 20 ≤ ipHeaderLength mem
  header : ipHeaderLength mem ≤ len
  total : ipTotalLength mem < ipHeaderLength mem

/-- The mask behind the shift changes nothing. -/
theorem version_mask (b : UInt8) : (b >>> 4) &&& (0x0F : UInt8) = b >>> 4 := by
  have hb := b.toNat_lt
  rw [← UInt8.toNat_inj, UInt8.toNat_and, UInt8.toNat_shiftRight]
  show b.toNat >>> 4 &&& 15 = b.toNat >>> 4
  rw [Nat.shiftRight_eq_div_pow, Nat.and_two_pow_sub_one_eq_mod _ 4]
  omega

theorem within_parseTransport {hdr transportLen : Nat} (h : hdr + transportLen ≤ n)
    (evt : PacketEvent) : (parseTransport mem hdr transportLen evt).Within n := by
  unfold parseTransport
  refine (Scan.within_ite ..).mpr ⟨fun htcp => ?_, fun _ => ?_⟩
  · simp only [Scan.within_bind, Scan.within_pure, Scan.within_read, within_net16, and_true]
    omega
  refine (Scan.within_ite ..).mpr ⟨fun hudp => ?_, fun _ => ?_⟩
  · simp only [Scan.within_bind, Scan.within_pure, within_net16, and_true]
    omega
  exact (Scan.within_ite ..).mpr ⟨fun _ => Scan.within_pure _, fun _ => Scan.within_pure _⟩

/-- **`parse_packet` stays inside the packet exactly if the total length covers the
header.** -/
theorem within_parsePacket (mem : Memory) (len : Nat) (nowUs : UInt64) :
    (parsePacket mem len nowUs).Within len ↔ ¬ ShortTotal mem len := by
  have htotal := value_totalLength mem
  have hheader : (IPv4Header.headerLength mem).value = ipHeaderLength mem := rfl
  have hversion : ((Scan.read mem 0).value >>> 4) &&& (0x0F : UInt8) = mem 0 >>> 4 := version_mask _
  unfold parsePacket
  rw [Scan.within_ite, Scan.within_bind, Scan.within_ite, Scan.within_bind, Scan.within_ite,
    Scan.within_bind, Scan.within_ite]
  simp only [Scan.within_bind, Scan.within_map, Scan.within_pure, Scan.within_read,
    Scan.within_sub, within_raw32, IPv4Header.totalLength, within_net16, hversion, hheader]
  rw [show (net16 mem 2).value.toNat = ipTotalLength mem from htotal]
  constructor
  · rintro ⟨-, hin⟩ ⟨h4, hlong, hfit, hshort⟩
    obtain ⟨-, -, hin⟩ := hin (by omega)
    obtain ⟨-, -, hin⟩ := hin (not_not.mpr h4)
    obtain ⟨-, -, hin⟩ := hin (by omega)
    obtain ⟨-, -, -, hsub, -⟩ := hin (by omega)
    omega
  · intro hcover
    refine ⟨fun _ => trivial, fun hlen => ⟨by omega, fun _ => trivial, fun h4 =>
      ⟨IPv4Parser.within_headerLength (by omega), fun _ => trivial, fun hlong =>
        ⟨by omega, fun _ => trivial, fun hfit => ?_⟩⟩⟩⟩
    have hle : ipHeaderLength mem ≤ ipTotalLength mem := by
      refine Nat.not_lt.mp fun hlt => hcover ⟨not_not.mp h4, by omega, by omega, hlt⟩
    have hsub : (Scan.sub (ipTotalLength mem) (ipHeaderLength mem)).value =
        ipTotalLength mem - ipHeaderLength mem := Scan.value_sub hle
    refine ⟨by omega, by omega, by omega, hle, within_parseTransport ?_ _⟩
    rw [hsub]
    omega

theorem parsePacket_value (h : IPv4Valid mem len) (nowUs : UInt64) :
    (parsePacket mem len nowUs).value = some (parseTransport mem (ipHeaderLength mem)
      (ipTotalLength mem - ipHeaderLength mem)
      { srcIp := (raw32 mem 12).value
        dstIp := (raw32 mem 16).value
        protocol := mem 9
        totalLen := (IPv4Header.totalLength mem).value
        timestampUs := nowUs }).value := by
  obtain ⟨h4, hlong, hheader, htotal, -⟩ := h
  have htotal' := value_totalLength mem
  have hheader' : (IPv4Header.headerLength mem).value = ipHeaderLength mem := rfl
  have hversion : ((Scan.read mem 0).value >>> 4) &&& (0x0F : UInt8) = 4 :=
    (version_mask _).trans h4
  have hsub : (Scan.sub (IPv4Header.totalLength mem).value.toNat
      (IPv4Header.headerLength mem).value).value = ipTotalLength mem - ipHeaderLength mem := by
    rw [htotal', hheader', Scan.value_sub hheader]
  simp only [parsePacket, Scan.value_ite, Scan.value_bind, Scan.value_pure, Scan.value_map]
  rw [if_neg (by omega), if_neg (not_not.mpr hversion), if_neg (by omega), if_neg (by omega), hsub]
  rfl

/-- The second routine stays inside the datagram. -/
theorem within_fillEventFromIpv4 {pkt : IPv4Packet} (h : pkt.Inside n) (nowUs : UInt64) :
    (fillEventFromIpv4 mem pkt nowUs).Within n := by
  have hpayload := h.payload
  unfold fillEventFromIpv4
  refine (Scan.within_ite ..).mpr ⟨fun hports => ?_, fun _ => Scan.within_pure _⟩
  refine (Scan.within_bind ..).mpr ⟨within_net16.mpr (by omega), ?_⟩
  refine (Scan.within_bind ..).mpr ⟨within_net16.mpr (by omega), ?_⟩
  refine (Scan.within_ite ..).mpr ⟨fun hflags => ?_, fun _ => Scan.within_pure _⟩
  exact (Scan.within_bind ..).mpr ⟨(Scan.within_read ..).mpr (by omega), Scan.within_pure _⟩

end

end FirewallEngine

end NeuStack
