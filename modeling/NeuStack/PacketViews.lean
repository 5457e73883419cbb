import NeuStack.PacketEvent

/-! # One packet, several views

The firewall reads a packet with its own two routines, the stack with its parsers.
On every datagram `IPv4Parser` accepts, `parse_packet` sees what the transport
layer will act on.  The routine for parsed datagrams does not: its payload length
counts the transport header, and it takes ports and flags from headers that are
too short to be one.  `alike_iff` says when it makes no difference.
-/
namespace NeuStack
open NetworkOrder

namespace FirewallEngine
variable {mem : Memory} {len hdr transportLen : Nat} {pkt : IPv4Packet} {evt : PacketEvent}

/-! ## The transport part, case by case -/

/-- The data offset of a TCP header at `hdr`, in bytes. -/
def dataOffset (mem : Memory) (hdr : Nat) : UInt8 := (mem (hdr + 12) >>> 4) * 4

theorem parseTransport_tcp (hp : evt.protocol = IPProtocol.tcp) (hlen : 20 ≤ transportLen) :
    (parseTransport mem hdr transportLen evt).value = { evt with
      srcPort := (net16 mem hdr).value
      dstPort := (net16 mem (hdr + 2)).value
      tcpFlags := mem (hdr + 13)
      payloadLen := if (dataOffset mem hdr).toNat ≤ transportLen then
          UInt16.ofNat (transportLen - (dataOffset mem hdr).toNat)
        else evt.payloadLen } := by
  rw [parseTransport, if_pos ⟨hp, hlen⟩]
  rfl

theorem parseTransport_udp (hp : evt.protocol = IPProtocol.udp) (hlen : 8 ≤ transportLen) :
    (parseTransport mem hdr transportLen evt).value = { evt with
      srcPort := (net16 mem hdr).value
      dstPort := (net16 mem (hdr + 2)).value
      payloadLen := UInt16.ofNat (transportLen - 8) } := by
  have htcp : ¬ (evt.protocol = 6 ∧ 20 ≤ transportLen) := fun h => by
    rw [hp] at h
    exact absurd h.1 (by decide)
  rw [parseTransport, if_neg htcp, if_pos ⟨hp, hlen⟩]
  rfl

theorem parseTransport_icmp (hp : evt.protocol = IPProtocol.icmp) :
    (parseTransport mem hdr transportLen evt).value =
      { evt with payloadLen := UInt16.ofNat transportLen } := by
  have htcp : ¬ (evt.protocol = 6 ∧ 20 ≤ transportLen) := fun h => by
    rw [hp] at h
    exact absurd h.1 (by decide)
  have hudp : ¬ (evt.protocol = 17 ∧ 8 ≤ transportLen) := fun h => by
    rw [hp] at h
    exact absurd h.1 (by decide)
  rw [parseTransport, if_neg htcp, if_neg hudp, if_pos (show evt.protocol = 1 from hp)]
  rfl

/-- Nothing is read of another protocol, nor of a transport header that is cut off. -/
theorem parseTransport_none (hicmp : evt.protocol ≠ IPProtocol.icmp)
    (htcp : evt.protocol = IPProtocol.tcp → transportLen < 20)
    (hudp : evt.protocol = IPProtocol.udp → transportLen < 8) :
    (parseTransport mem hdr transportLen evt).value = evt := by
  have htcp' : ¬ (evt.protocol = 6 ∧ 20 ≤ transportLen) := fun h =>
    absurd (htcp h.1) (Nat.not_lt.mpr h.2)
  have hudp' : ¬ (evt.protocol = 17 ∧ 8 ≤ transportLen) := fun h =>
    absurd (hudp h.1) (Nat.not_lt.mpr h.2)
  rw [parseTransport, if_neg htcp', if_neg hudp', if_neg (show ¬ evt.protocol = 1 from hicmp)]
  rfl

/-- The network part of the event is left alone. -/
theorem parseTransport_network (mem : Memory) (hdr transportLen : Nat) (evt : PacketEvent) :
    (parseTransport mem hdr transportLen evt).value.srcIp = evt.srcIp ∧
      (parseTransport mem hdr transportLen evt).value.dstIp = evt.dstIp ∧
      (parseTransport mem hdr transportLen evt).value.protocol = evt.protocol ∧
      (parseTransport mem hdr transportLen evt).value.totalLen = evt.totalLen := by
  simp only [parseTransport, Scan.value_ite, Scan.value_bind, Scan.value_pure]
  split
  · exact ⟨rfl, rfl, rfl, rfl⟩
  split
  · exact ⟨rfl, rfl, rfl, rfl⟩
  split <;> exact ⟨rfl, rfl, rfl, rfl⟩

/-! ## The firewall and the stack -/

/-- The lengths that come out of a datagram fit 16 bits. -/
theorem toNat_ofNat_of_le (mem : Memory) {n : Nat} (hn : n ≤ ipTotalLength mem) :
    (UInt16.ofNat n).toNat = n := by
  have hlt := (IPv4Header.totalLength mem).value.toNat_lt
  rw [value_totalLength] at hlt
  rw [UInt16.toNat_ofNat', Nat.mod_eq_of_lt (by omega)]

/-- The event has what the network layer goes by. -/
structure SeesNetwork (pkt : IPv4Packet) (evt : PacketEvent) : Prop where
  srcIp : evt.srcIp = htonl pkt.srcAddr
  dstIp : evt.dstIp = htonl pkt.dstAddr
  protocol : evt.protocol = pkt.protocol
  totalLen : evt.totalLen = pkt.totalLength

/-- The event has what `TCPParser` returns, if that accepts the payload. -/
def SeesTCP (mem : Memory) (pkt : IPv4Packet) (evt : PacketEvent) : Prop :=
  ∀ seg, (TCPParser.parse mem pkt).value = some seg →
    evt.srcPort = seg.srcPort ∧ evt.dstPort = seg.dstPort ∧ evt.tcpFlags = seg.flags ∧
      evt.payloadLen.toNat = seg.dataLength

/-- The event has the ports `UDPLayer` returns, if that accepts the payload. -/
def SeesUDP (mem : Memory) (pkt : IPv4Packet) (evt : PacketEvent) : Prop :=
  ∀ d, (UDPLayer.parse mem pkt).value = some d →
    evt.srcPort = d.srcPort ∧ evt.dstPort = d.dstPort

/-- **No parser evasion.**  Of every datagram the stack accepts, the firewall sees
the addresses, the protocol and the length; and of one for the TCP or UDP layer,
what its parser will return. -/
theorem sees_same (hparse : (IPv4Parser.parse mem len).value = some pkt) (nowUs : UInt64) :
    ∃ evt, (parsePacket mem len nowUs).value = some evt ∧ SeesNetwork pkt evt ∧
      (pkt.protocol = IPProtocol.tcp → SeesTCP mem pkt evt) ∧
      (pkt.protocol = IPProtocol.udp → SeesUDP mem pkt evt) := by
  obtain ⟨hvalid, rfl⟩ := IPv4Parser.parse_eq_some.mp hparse
  have hpayload := hvalid.payloadLength
  refine ⟨_, parsePacket_value hvalid nowUs, ?_⟩
  obtain ⟨hsrc, hdst, hprotocol, htotal⟩ := parseTransport_network mem (ipHeaderLength mem)
    (ipTotalLength mem - ipHeaderLength mem)
    { srcIp := (raw32 mem 12).value
      dstIp := (raw32 mem 16).value
      protocol := mem 9
      totalLen := (IPv4Header.totalLength mem).value
      timestampUs := nowUs }
  refine ⟨⟨hsrc.trans (htonl_ntohl _).symm, hdst.trans (htonl_ntohl _).symm, hprotocol, htotal⟩,
    fun hp seg hseg => ?_, fun hp d hd => ?_⟩
  · obtain ⟨hlong, hmin, hfit, -, rfl⟩ := TCPParser.parse_eq_some.mp hseg
    rw [hpayload] at hlong hfit
    have hoffset : (dataOffset mem (ipHeaderLength mem)).toNat ≤
        ipTotalLength mem - ipHeaderLength mem := hfit
    rw [parseTransport_tcp hp hlong]
    refine ⟨rfl, rfl, rfl, ?_⟩
    dsimp only
    rw [if_pos hoffset, toNat_ofNat_of_le mem (by omega)]
    show _ = (mem.slice _ (Scan.sub (IPv4Parser.fields mem len).value.payloadLength
      (dataOffset mem (ipHeaderLength mem)).toNat).value).length
    rw [Memory.length_slice, hpayload, Scan.value_sub hoffset]
  · have hlong : 8 ≤ ipTotalLength mem - ipHeaderLength mem := by
      rw [← hpayload]
      refine Nat.not_lt.mp fun hshort => ?_
      rw [UDPLayer.parse, if_pos hshort] at hd
      cases hd
    rw [parseTransport_udp hp hlong]
    simp only [UDPLayer.parse, Scan.value_ite, Scan.value_bind, Scan.value_pure,
      Scan.value_map] at hd
    -- whichever test the checksum passed, the ports are those of the header
    have hports : ∀ length, d = (UDPLayer.fields mem (IPv4Parser.fields mem len).value length).value →
        (net16 mem (ipHeaderLength mem)).value = d.srcPort ∧
          (net16 mem (ipHeaderLength mem + 2)).value = d.dstPort := by
      rintro length rfl
      exact ⟨rfl, rfl⟩
    split at hd
    · cases hd
    split at hd
    · cases hd
    split at hd
    · exact hports _ (Option.some.inj hd).symm
    split at hd
    · cases hd
    · exact hports _ (Option.some.inj hd).symm

/-- A datagram for 10.0.0.1 with a SYN for port 80 behind its header; `low` is the
second byte of the header checksum. -/
def synDatagram (protocol low : UInt8) : Memory := .ofList [0x45, 0, 0, 40, 0, 0, 0, 0, 64,
  protocol, 0x66, low, 10, 0, 0, 2, 10, 0, 0, 1, 0x0F, 0xA0, 0, 80, 0, 0, 0, 1, 0, 0, 0, 0,
  0x50, 0x02, 0x10, 0, 0x7B, 0xEF, 0, 0]

theorem sees_same_syn : ∃ pkt, (IPv4Parser.parse (synDatagram 6 0xCE) 40).value = some pkt ∧
    pkt.protocol = IPProtocol.tcp ∧ (TCPParser.parse (synDatagram 6 0xCE) pkt).value.isSome ∧
    ∃ evt, (parsePacket (synDatagram 6 0xCE) 40 7).value = some evt ∧ SeesNetwork pkt evt ∧
      (pkt.protocol = IPProtocol.tcp → SeesTCP (synDatagram 6 0xCE) pkt evt) ∧
      (pkt.protocol = IPProtocol.udp → SeesUDP (synDatagram 6 0xCE) pkt evt) :=
  ⟨_, rfl, by decide +kernel, by decide +kernel, sees_same rfl 7⟩

/-- The protocol matters: what `TCPParser` would accept in a UDP datagram, the
firewall does not read as a segment, nor does the stack. -/
theorem not_sees_syn_in_udp : ∃ pkt,
    (IPv4Parser.parse (synDatagram 17 0xC3) 40).value = some pkt ∧
      ¬ ∃ evt, (parsePacket (synDatagram 17 0xC3) 40 7).value = some evt ∧ SeesNetwork pkt evt ∧
        SeesTCP (synDatagram 17 0xC3) pkt evt ∧ SeesUDP (synDatagram 17 0xC3) pkt evt := by
  refine ⟨_, rfl, ?_⟩
  rintro ⟨evt, hevt, -, htcp, -⟩
  have hflags : ((TCPParser.parse (synDatagram 17 0xC3)
      (IPv4Parser.fields (synDatagram 17 0xC3) 40).value).value.map (·.flags)) = some 2 := by
    decide +kernel
  obtain ⟨seg, hseg, hsyn⟩ := Option.map_eq_some_iff.mp hflags
  have hnone : ((parsePacket (synDatagram 17 0xC3) 40 7).value.map (·.tcpFlags)) = some 0 := by
    decide +kernel
  rw [hevt] at hnone
  have hzero : evt.tcpFlags = 0 := Option.some.inj hnone
  rw [(htcp seg hseg).2.2.1, hsyn] at hzero
  exact absurd hzero (by decide)

/-! ## The two routines of the firewall -/

/-- **Where the two routines agree**: ICMP, nothing behind the IP header, or a TCP
header that claims to have no length. -/
def SeenAlike (mem : Memory) (pkt : IPv4Packet) : Prop :=
  pkt.payloadLength = 0 ∨ pkt.protocol = IPProtocol.icmp ∨
    (pkt.protocol = IPProtocol.tcp ∧ 20 ≤ pkt.payloadLength ∧ dataOffset mem pkt.payload = 0)

instance (mem : Memory) (pkt : IPv4Packet) : Decidable (SeenAlike mem pkt) :=
  inferInstanceAs (Decidable (_ ∨ _ ∨ _))

/-- The event of a datagram as far as its IP header goes. -/
def networkEvent (pkt : IPv4Packet) (nowUs : UInt64) : PacketEvent :=
  { srcIp := htonl pkt.srcAddr
    dstIp := htonl pkt.dstAddr
    protocol := pkt.protocol
    totalLen := pkt.totalLength
    timestampUs := nowUs }

/-- The first routine on a datagram the stack accepts. -/
theorem parsePacket_parsed (hparse : (IPv4Parser.parse mem len).value = some pkt)
    (nowUs : UInt64) : (parsePacket mem len nowUs).value =
      some (parseTransport mem pkt.payload pkt.payloadLength (networkEvent pkt nowUs)).value := by
  obtain ⟨hvalid, rfl⟩ := IPv4Parser.parse_eq_some.mp hparse
  have hsrc : (raw32 mem 12).value = htonl (IPv4Parser.fields mem len).value.srcAddr :=
    (htonl_ntohl _).symm
  have hdst : (raw32 mem 16).value = htonl (IPv4Parser.fields mem len).value.dstAddr :=
    (htonl_ntohl _).symm
  rw [parsePacket_value hvalid nowUs, ← hvalid.payloadLength, hsrc, hdst]
  rfl

/-- Of a datagram without ports, the second routine takes the network part only. -/
theorem fill_network {nowUs : UInt64}
    (h : 8 ≤ pkt.payloadLength → pkt.protocol ≠ IPProtocol.tcp ∧ pkt.protocol ≠ IPProtocol.udp) :
    (fillEventFromIpv4 mem pkt nowUs).value =
      { networkEvent pkt nowUs with payloadLen := UInt16.ofNat pkt.payloadLength } := by
  have hports : ¬ (8 ≤ pkt.payloadLength ∧ (pkt.protocol = 6 ∨ pkt.protocol = 17)) := by
    rintro ⟨hlong, hp | hp⟩
    · exact (h hlong).1 hp
    · exact (h hlong).2 hp
  rw [fillEventFromIpv4, if_neg hports]
  rfl

theorem fill_tcp {nowUs : UInt64} (hp : pkt.protocol = IPProtocol.tcp)
    (hlong : 14 ≤ pkt.payloadLength) :
    (fillEventFromIpv4 mem pkt nowUs).value = { networkEvent pkt nowUs with
      srcPort := (net16 mem pkt.payload).value
      dstPort := (net16 mem (pkt.payload + 2)).value
      tcpFlags := mem (pkt.payload + 13)
      payloadLen := UInt16.ofNat pkt.payloadLength } := by
  have hports : 8 ≤ pkt.payloadLength ∧ (pkt.protocol = 6 ∨ pkt.protocol = 17) :=
    ⟨by omega, Or.inl hp⟩
  have hflags : pkt.protocol = 6 ∧ 14 ≤ pkt.payloadLength := ⟨hp, hlong⟩
  rw [fillEventFromIpv4, if_pos hports]
  simp only [Scan.value_bind, Scan.value_ite]
  rw [if_pos hflags]
  rfl

/-- `fill_event_from_ipv4` counts everything behind the IP header as payload. -/
theorem payloadLen_fill (mem : Memory) (pkt : IPv4Packet) (nowUs : UInt64) :
    (fillEventFromIpv4 mem pkt nowUs).value.payloadLen = UInt16.ofNat pkt.payloadLength := by
  simp only [fillEventFromIpv4, Scan.value_ite, Scan.value_bind, Scan.value_pure]
  split
  · split <;> rfl
  · rfl

/-- Where the second routine's payload length is that of the first. -/
theorem seenAlike_of_payloadLen (hfit : pkt.payloadLength < 65536) (nowUs : UInt64)
    (h : (parseTransport mem pkt.payload pkt.payloadLength (networkEvent pkt nowUs)).value.payloadLen
      = UInt16.ofNat pkt.payloadLength) : SeenAlike mem pkt := by
  have htoNat : ∀ n ≤ pkt.payloadLength, (UInt16.ofNat n).toNat = n := fun n hn =>
    (UInt16.toNat_ofNat' ..).trans (Nat.mod_eq_of_lt (by omega))
  have hzero : (0 : UInt16) = UInt16.ofNat pkt.payloadLength → SeenAlike mem pkt := fun h0 =>
    Or.inl ((htoNat _ (Nat.le_refl _)).symm.trans (congrArg UInt16.toNat h0.symm))
  have hless : ∀ k ≤ pkt.payloadLength,
      UInt16.ofNat (pkt.payloadLength - k) = UInt16.ofNat pkt.payloadLength → k = 0 := by
    intro k hk heq
    have hsub := congrArg UInt16.toNat heq
    rw [htoNat _ (Nat.sub_le _ _), htoNat _ (Nat.le_refl _)] at hsub
    omega
  by_cases htcp : pkt.protocol = IPProtocol.tcp ∧ 20 ≤ pkt.payloadLength
  · obtain ⟨hp, hlong⟩ := htcp
    rw [parseTransport_tcp hp hlong] at h
    by_cases hoffset : (dataOffset mem pkt.payload).toNat ≤ pkt.payloadLength
    · rw [if_pos hoffset] at h
      exact Or.inr (Or.inr ⟨hp, hlong, UInt8.toNat_inj.mp (hless _ hoffset h)⟩)
    · rw [if_neg hoffset] at h
      exact hzero h
  by_cases hudp : pkt.protocol = IPProtocol.udp ∧ 8 ≤ pkt.payloadLength
  · obtain ⟨hp, hlong⟩ := hudp
    rw [parseTransport_udp hp hlong] at h
    exact absurd (hless 8 hlong h) (by decide)
  by_cases hicmp : pkt.protocol = IPProtocol.icmp
  · exact Or.inr (Or.inl hicmp)
  · rw [parseTransport_none hicmp
      (fun hp => Nat.not_le.mp fun hlong => htcp ⟨hp, hlong⟩)
      (fun hp => Nat.not_le.mp fun hlong => hudp ⟨hp, hlong⟩)] at h
    exact hzero h

/-- **The two routines fill the same event exactly in these cases.** -/
theorem alike_iff (hparse : (IPv4Parser.parse mem len).value = some pkt) (nowUs : UInt64) :
    (parsePacket mem len nowUs).value = some (fillEventFromIpv4 mem pkt nowUs).value ↔
      SeenAlike mem pkt := by
  have hfit : pkt.payloadLength < 65536 := by
    obtain ⟨hvalid, rfl⟩ := IPv4Parser.parse_eq_some.mp hparse
    have hlt := (IPv4Header.totalLength mem).value.toNat_lt
    rw [value_totalLength] at hlt
    rw [hvalid.payloadLength]
    omega
  rw [parsePacket_parsed hparse nowUs]
  constructor
  · intro h
    refine seenAlike_of_payloadLen hfit nowUs ?_
    rw [Option.some.inj h, payloadLen_fill]
  · rintro (hempty | hicmp | ⟨htcp, hlong, hoffset⟩)
    · rw [fill_network fun hlong => absurd hlong (by omega), hempty]
      by_cases hicmp : pkt.protocol = IPProtocol.icmp
      · rw [parseTransport_icmp hicmp]
      · rw [parseTransport_none hicmp
          (fun _ => Nat.zero_lt_succ _) (fun _ => Nat.zero_lt_succ _)]
        rfl
    · rw [parseTransport_icmp hicmp, fill_network fun _ => ?_]
      rw [hicmp]
      decide
    · rw [parseTransport_tcp htcp hlong, fill_tcp htcp (by omega),
        hoffset, if_pos (show (0 : UInt8).toNat ≤ pkt.payloadLength from Nat.zero_le _)]
      rfl

end FirewallEngine

end NeuStack
