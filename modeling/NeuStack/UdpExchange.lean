import NeuStack.ChecksumLaws
import NeuStack.CodecRoundTrip
import NeuStack.IcmpErrors

/-! # UDP over three lengths

A datagram says its own length, and the payload it came in may be longer: what lies behind it is
no part of it.  The fields of an accepted datagram respect that (`datagram`), the checksum does
not: `verify_checksum` sums up the whole payload and puts its length into the pseudo header, so a
datagram with something behind it is told by a sum that has nothing to do with it (`exact_iff`).
A sender fills its packet, so `sendto` and `parse` agree (`sentAccepted`), also on the checksum that
comes out as zero and is sent as all ones.
-/
namespace NeuStack
open NetworkOrder OnesComplement

/-! ## Sending -/

namespace UDPLayer

/-- The header of a datagram and its data, with `checksum` in its field. -/
def packet (srcPort dstPort checksum : UInt16) (data : List UInt8) : List UInt8 :=
  store16 (htons srcPort) ++ store16 (htons dstPort) ++
    store16 (htons (UInt16.ofNat (8 + data.length))) ++ store16 checksum ++ data

/-- The checksum `sendto` fills in: zero would mean that there is none. -/
def sentChecksum (srcIp dstIp : UInt32) (srcPort dstPort : UInt16) (data : List UInt8) : UInt16 :=
  let checksum := computeUdpChecksum srcIp dstIp (packet srcPort dstPort 0 data)
  if checksum = 0 then 0xFFFF else checksum

/-- `sendto`, where `sockets` are the ports bound: the bytes that go to the device. -/
def sendto (l : IPv4Layer) (mtu nextId : UInt16) (sockets : List UInt16) (dstIp : UInt32)
    (dstPort srcPort : UInt16) (data : List UInt8) : Option (List UInt8) :=
  if !sockets.contains srcPort then none
  else l.send mtu nextId dstIp IPProtocol.udp
    (packet srcPort dstPort (sentChecksum l.localIp dstIp srcPort dstPort data) data)

/-! ## What is to be accepted -/

/-- The length field. -/
def lengthField (mem : Memory) (pkt : IPv4Packet) : UInt16 := (net16 mem (pkt.payload + 4)).value

/-- The pseudo header of a datagram and its `length` bytes. -/
def summed (mem : Memory) (pkt : IPv4Packet) (length : Nat) : List UInt8 :=
  pseudoHeader pkt.srcAddr pkt.dstAddr IPProtocol.udp length ++ mem.slice pkt.payload length

/-- **A datagram to accept**, which is over where its length field says. -/
structure Acceptable (mem : Memory) (pkt : IPv4Packet) : Prop where
  header : 8 ≤ pkt.payloadLength
  length : 8 ≤ (lengthField mem pkt).toNat
  fits : (lengthField mem pkt).toNat ≤ pkt.payloadLength
  /-- There is no checksum, or the words of the pseudo header and the datagram add up to all
  ones. -/
  checksum : (raw16 mem (pkt.payload + 6)).value = 0 ∨
    OnesComplement.sum (words (summed mem pkt (lengthField mem pkt).toNat)) = 0xFFFF

/-- What the header says, and the data up to the length. -/
def datagram (mem : Memory) (pkt : IPv4Packet) : UDPDatagram where
  srcAddr := pkt.srcAddr
  dstAddr := pkt.dstAddr
  srcPort := (net16 mem pkt.payload).value
  dstPort := (net16 mem (pkt.payload + 2)).value
  length := lengthField mem pkt
  checksum := (net16 mem (pkt.payload + 6)).value
  data := mem.slice (pkt.payload + 8) ((lengthField mem pkt).toNat - 8)

/-- `parse` returns the datagrams to accept, and nothing else. -/
def Exact (mem : Memory) (pkt : IPv4Packet) : Prop :=
  ∀ d, (parse mem pkt).value = some d ↔ Acceptable mem pkt ∧ d = datagram mem pkt

/-- What is behind the datagram adds to the sum of its words: the difference of the lengths in the
pseudo headers, and the words, which are half a word off behind a datagram of odd length. -/
def trailer (mem : Memory) (pkt : IPv4Packet) : Nat :=
  let length := (lengthField mem pkt).toNat
  let behind := mem.slice (pkt.payload + length) (pkt.payloadLength - length)
  (pkt.payloadLength - length) + wordSum (if length % 2 = 0 then behind else 0 :: behind)

/-- What is behind the datagram does not matter: its lengths are refused, it has no checksum, its
sum does not change, or it comes out wrong without what is behind and with it. -/
def TrailerHarmless (mem : Memory) (pkt : IPv4Packet) : Prop :=
  let length := (lengthField mem pkt).toNat
  let own := wordSum (summed mem pkt length)
  pkt.payloadLength < 8 ∨ length < 8 ∨ pkt.payloadLength < length ∨
    (raw16 mem (pkt.payload + 6)).value = 0 ∨ trailer mem pkt % 65535 = 0 ∨
    (own % 65535 ≠ 0 ∧ (own + trailer mem pkt) % 65535 ≠ 0)

/-! ## The two sums -/

section Sums
variable {mem : Memory} {pkt : IPv4Packet}

theorem wordSum_pseudoHeader (srcIp dstIp : UInt32) (protocol : UInt8) {len : Nat}
    (h : len ≤ 65535) : wordSum (pseudoHeader srcIp dstIp protocol len) =
      wordSum (store32 (htonl srcIp) ++ store32 (htonl dstIp)) + (protocol.toNat + len) := by
  have hlen : (UInt16.ofNat len).toNat = len := by
    rw [UInt16.toNat_ofNat', Nat.mod_eq_of_lt (by omega)]
  have hprotocol : wordSum [0, protocol] = protocol.toNat := by
    show 256 * 0 + protocol.toNat + 0 = _
    omega
  rw [pseudoHeader, wordSum_append ⟨5, rfl⟩, wordSum_append ⟨4, rfl⟩, wordSum_store16, ntohs_htons,
    hprotocol, hlen, Nat.add_assoc]

theorem wordSum_summed (mem : Memory) (pkt : IPv4Packet) (length : Nat) :
    wordSum (summed mem pkt length) =
      wordSum (pseudoHeader pkt.srcAddr pkt.dstAddr IPProtocol.udp length) +
        wordSum (mem.slice pkt.payload length) :=
  wordSum_append ⟨6, rfl⟩ _

theorem wordSum_summed_pos {length : Nat} (h : length ≤ 65535) :
    0 < wordSum (summed mem pkt length) := by
  rw [wordSum_summed, wordSum_pseudoHeader _ _ _ h]
  show 0 < _ + (17 + length) + _
  omega

/-- **The sum over the payload** is the one over the datagram and the trailer. -/
theorem wordSum_payload (hfits : (lengthField mem pkt).toNat ≤ pkt.payloadLength)
    (hsize : pkt.payloadLength ≤ 65535) : wordSum (summed mem pkt pkt.payloadLength) =
      wordSum (summed mem pkt (lengthField mem pkt).toNat) + trailer mem pkt := by
  obtain ⟨n, hn⟩ := Nat.exists_eq_add_of_le hfits
  have hslice := mem.slice_append pkt.payload (lengthField mem pkt).toNat n
  rw [wordSum_summed, wordSum_summed, wordSum_pseudoHeader _ _ _ hsize,
    wordSum_pseudoHeader _ _ _ (Nat.le_trans hfits hsize), trailer, hn, hslice,
    Nat.add_sub_cancel_left]
  have hlength := mem.length_slice pkt.payload (lengthField mem pkt).toNat
  rw [hn] at hsize
  by_cases heven : (lengthField mem pkt).toNat % 2 = 0
  · have hwords := wordSum_append (l := mem.slice pkt.payload (lengthField mem pkt).toNat)
      ⟨(lengthField mem pkt).toNat / 2, by omega⟩
      (mem.slice (pkt.payload + (lengthField mem pkt).toNat) n)
    rw [if_pos heven, hwords]
    omega
  · have hwords := wordSum_append_odd (l := mem.slice pkt.payload (lengthField mem pkt).toNat)
      (by omega) (mem.slice (pkt.payload + (lengthField mem pkt).toNat) n)
    rw [if_neg heven, hwords]
    omega

theorem verifies_iff {length : Nat} (h : length ≤ 65535) :
    residue (wordSum (summed mem pkt length)) = 65535 ↔
      wordSum (summed mem pkt length) % 65535 = 0 := by
  rw [residue_eq_ones_iff]
  exact and_iff_right (wordSum_summed_pos h)

theorem sum_words_iff {length : Nat} (h : length ≤ 65535) :
    OnesComplement.sum (words (summed mem pkt length)) = 0xFFFF ↔
      wordSum (summed mem pkt length) % 65535 = 0 := by
  rw [← verifies_iff h, ← toNat_sum_words, ← UInt16.toNat_inj]
  exact Iff.rfl

theorem verifyChecksum_value (hsize : pkt.payloadLength ≤ 65535) :
    (verifyChecksum mem pkt).value = true ↔
      wordSum (summed mem pkt pkt.payloadLength) % 65535 = 0 := by
  have hlength := mem.length_slice pkt.payload pkt.payloadLength
  rw [← verifies_iff hsize, wordSum_summed]
  show (computeUdpChecksum _ _ (mem.slice pkt.payload pkt.payloadLength) == 0) = true ↔ _
  have hchecksum := (residue_pseudoChecksum pkt.srcAddr pkt.dstAddr 17 (hlength.symm ▸ hsize)).2
  rw [beq_iff_eq, computeUdpChecksum, hchecksum,
    hlength]
  exact Iff.rfl

end Sums

/-! ## What is accepted -/

section Accepted
variable {mem : Memory} {pkt : IPv4Packet} {d : UDPDatagram}

theorem fields_value (h : 8 ≤ (lengthField mem pkt).toNat) :
    (fields mem pkt (lengthField mem pkt)).value = datagram mem pkt := by
  have hdata := Scan.value_sub h
  simp only [fields, Scan.value_bind, Scan.value_pure, hdata]
  rfl

/-- The lengths that are not refused. -/
def Lengths (mem : Memory) (pkt : IPv4Packet) : Prop :=
  8 ≤ pkt.payloadLength ∧ 8 ≤ (lengthField mem pkt).toNat ∧
    (lengthField mem pkt).toNat ≤ pkt.payloadLength

theorem parse_eq_some : (parse mem pkt).value = some d ↔ Lengths mem pkt ∧
    ((raw16 mem (pkt.payload + 6)).value = 0 ∨ (verifyChecksum mem pkt).value = true) ∧
      d = datagram mem pkt := by
  simp only [parse, Scan.value_ite, Scan.value_bind, Scan.value_pure, Scan.value_map]
  show (if pkt.payloadLength < 8 then none else if (lengthField mem pkt).toNat < 8 ∨
    pkt.payloadLength < (lengthField mem pkt).toNat then none else _) = _ ↔ _
  by_cases hlengths : Lengths mem pkt
  · obtain ⟨hheader, hlength, hfits⟩ := hlengths
    have hfields : (fields mem pkt (net16 mem (pkt.payload + 4)).value).value = datagram mem pkt :=
      fields_value hlength
    rw [if_neg (by omega), if_neg (by omega), hfields, eq_comm (a := d)]
    by_cases hnone : (raw16 mem (pkt.payload + 6)).value = 0
    · rw [if_pos hnone, Option.some_inj]
      exact ⟨fun h => ⟨⟨hheader, hlength, hfits⟩, .inl hnone, h⟩, fun h => h.2.2⟩
    · rw [if_neg hnone]
      cases hok : (verifyChecksum mem pkt).value with
      | false =>
        refine ⟨nofun, ?_⟩
        rintro ⟨-, hzero | hfalse, -⟩
        · exact absurd hzero hnone
        · cases hfalse
      | true =>
        refine Option.some_inj.trans ?_
        exact ⟨fun h => ⟨⟨hheader, hlength, hfits⟩, .inr rfl, h⟩, fun h => h.2.2⟩
  · -- one of the two checks of the lengths refuses it
    refine ⟨fun h => ?_, fun h => absurd h.1 hlengths⟩
    split at h
    · cases h
    · split at h
      · cases h
      · exact absurd ⟨by omega, by omega, by omega⟩ hlengths

theorem acceptable_iff (hsize : pkt.payloadLength ≤ 65535) : Acceptable mem pkt ↔
    Lengths mem pkt ∧ ((raw16 mem (pkt.payload + 6)).value = 0 ∨
      wordSum (summed mem pkt (lengthField mem pkt).toNat) % 65535 = 0) := by
  constructor
  · rintro ⟨hheader, hlength, hfits, hsum⟩
    rw [sum_words_iff (Nat.le_trans hfits hsize)] at hsum
    exact ⟨⟨hheader, hlength, hfits⟩, hsum⟩
  · rintro ⟨⟨hheader, hlength, hfits⟩, hsum⟩
    rw [← sum_words_iff (Nat.le_trans hfits hsize)] at hsum
    exact ⟨hheader, hlength, hfits, hsum⟩

/-- `parse` is exact when a checksum over everything says what one up to the length says. -/
theorem exact_iff_sums (hsize : pkt.payloadLength ≤ 65535) : Exact mem pkt ↔
    (Lengths mem pkt → (raw16 mem (pkt.payload + 6)).value ≠ 0 →
      ((wordSum (summed mem pkt (lengthField mem pkt).toNat) + trailer mem pkt) % 65535 = 0 ↔
        wordSum (summed mem pkt (lengthField mem pkt).toNat) % 65535 = 0)) := by
  rw [Exact]
  constructor
  · intro h hlengths hnone
    have hd := h (datagram mem pkt)
    rw [parse_eq_some, acceptable_iff hsize, verifyChecksum_value hsize,
      wordSum_payload hlengths.2.2 hsize] at hd
    simpa [hlengths, hnone] using hd
  · intro h d
    rw [parse_eq_some, acceptable_iff hsize, verifyChecksum_value hsize]
    by_cases hlengths : Lengths mem pkt
    · rw [wordSum_payload hlengths.2.2 hsize]
      by_cases hnone : (raw16 mem (pkt.payload + 6)).value = 0
      · simp only [hlengths, hnone, true_or, true_and]
      · simp only [hlengths, hnone, h hlengths hnone, false_or, true_and]
    · simp only [hlengths, false_and]

/-- **When `parse` is exact.** -/
theorem exact_iff (hsize : pkt.payloadLength ≤ 65535) :
    Exact mem pkt ↔ TrailerHarmless mem pkt := by
  rw [exact_iff_sums hsize, TrailerHarmless, Lengths]
  by_cases hnone : (raw16 mem (pkt.payload + 6)).value = 0
  · exact ⟨fun _ => .inr (.inr (.inr (.inl hnone))), fun _ _ h => absurd hnone h⟩
  · constructor
    · intro h
      by_cases hlengths : Lengths mem pkt
      · have hsums := h hlengths hnone
        omega
      · rw [Lengths] at hlengths
        omega
    · rintro (h | h | h | h | h | h) hlengths _
      · omega
      · omega
      · omega
      · exact absurd h hnone
      · omega
      · omega

end Accepted

/-! ## What is sent is accepted -/

section Sent
variable {mem : Memory} {pkt : IPv4Packet}

theorem length_packet (srcPort dstPort checksum : UInt16) (data : List UInt8) :
    (packet srcPort dstPort checksum data).length = 8 + data.length :=
  List.length_append

theorem packet_split (srcPort dstPort checksum : UInt16) (data : List UInt8) :
    packet srcPort dstPort checksum data = (store16 (htons srcPort) ++ store16 (htons dstPort) ++
      store16 (htons (UInt16.ofNat (8 + data.length)))) ++ (store16 checksum ++ data) := rfl

/-- A datagram verifies under the checksum it is sent with, also where zero became all ones. -/
theorem residue_sent (srcIp dstIp : UInt32) (srcPort dstPort : UInt16) {data : List UInt8}
    (hsize : 8 + data.length ≤ 65535) :
    residue (wordSum (pseudoHeader srcIp dstIp IPProtocol.udp (8 + data.length)) +
      wordSum (packet srcPort dstPort (sentChecksum srcIp dstIp srcPort dstPort data) data)) =
        65535 := by
  have hlen := length_packet srcPort dstPort 0 data
  have hlong : (packet srcPort dstPort 0 data).length ≤ 65535 := by omega
  obtain ⟨hc, hzero⟩ := residue_pseudoChecksum srcIp dstIp 17 hlong
  rw [hlen, packet_split] at hc hzero
  rw [sentChecksum, computeUdpChecksum, packet_split, packet_split]
  split
  · -- the sum without a checksum is a multiple of all ones already, and one more does no harm
    rename_i h
    have hones := (residue_eq_ones_iff _).mp (hzero.mp h)
    have heven : ∀ x, Even (store16 x).length := fun _ => ⟨1, rfl⟩
    have hfield : wordSum (store16 0xFFFF) = 65535 := rfl
    have hempty : wordSum (store16 0) = 0 := rfl
    rw [wordSum_append ⟨3, rfl⟩, wordSum_append (heven _)] at hones ⊢
    rw [residue_eq_ones_iff]
    show 0 < wordSum (pseudoHeader srcIp dstIp 17 (8 + data.length)) + _ ∧
      (wordSum (pseudoHeader srcIp dstIp 17 (8 + data.length)) + _) % 65535 = 0
    omega
  · exact residue_filled ⟨3, rfl⟩ hc

/-- What a receiver makes of a datagram that was sent. -/
def received (srcIp dstIp : UInt32) (srcPort dstPort : UInt16) (data : List UInt8) :
    UDPDatagram where
  srcAddr := srcIp
  dstAddr := dstIp
  srcPort := srcPort
  dstPort := dstPort
  length := UInt16.ofNat (8 + data.length)
  checksum := ntohs (sentChecksum srcIp dstIp srcPort dstPort data)
  data := data

theorem parse_packet {srcPort dstPort : UInt16} {data : List UInt8}
    (hsize : 8 + data.length ≤ 65535) (hmem : mem.Holds pkt.payload (packet srcPort dstPort
      (sentChecksum pkt.srcAddr pkt.dstAddr srcPort dstPort data) data))
    (hlen : pkt.payloadLength = 8 + data.length) : (parse mem pkt).value =
      some (received pkt.srcAddr pkt.dstAddr srcPort dstPort data) := by
  have hslice : mem.slice pkt.payload pkt.payloadLength = _ :=
    (congrArg _ (hlen.trans (length_packet ..).symm)).trans hmem
  simp only [packet, Memory.holds_append, List.length_append, length_store16] at hmem
  obtain ⟨⟨⟨⟨h0, h2⟩, h4⟩, h6⟩, hdata⟩ := hmem
  have hlength : lengthField mem pkt = UInt16.ofNat (8 + data.length) := net16_store h4
  have hvalue : (lengthField mem pkt).toNat = 8 + data.length := by
    rw [hlength, UInt16.toNat_ofNat', Nat.mod_eq_of_lt (by omega)]
  refine parse_eq_some.mpr ⟨⟨by omega, by omega, by omega⟩, .inr ?_, ?_⟩
  · rw [verifyChecksum_value (by omega), ← verifies_iff (by omega), wordSum_summed, hslice, hlen]
    exact residue_sent _ _ _ _ hsize
  · have hrest : mem.slice (pkt.payload + 8) (8 + data.length - 8) = data := by
      rw [Nat.add_sub_cancel_left]
      exact hdata
    rw [datagram, net16_store h0, net16_store h2, net16_stored h6, hvalue, hlength, hrest]
    rfl

/-- What the parser returns for a bound port reaches its callback. -/
theorem onReceive_datagram {r : IPv4Layer} {len : Nat} {ports : List UInt16} {d : UDPDatagram}
    (hparsed : (IPv4Parser.parse mem len).value = some pkt) (hlocal : pkt.dstAddr = r.localIp)
    (httl : pkt.ttl ≠ 0) (hhandler : r.getHandler pkt.protocol = some (.udp ports))
    (hparse : (parse mem pkt).value = some d) (hport : d.dstPort ∈ ports) :
    .datagram d ∈ (r.onReceive mem len).value := by
  have hcontains : ports.contains d.dstPort = true := List.contains_iff_mem.mpr hport
  have hhandle : (r.handle mem pkt (.udp ports)).value = [.datagram d] := by
    simp only [IPv4Layer.handle, Scan.value_bind, Scan.value_ite, Scan.value_pure, hparse,
      Option.any_some, hcontains, if_true]
    rfl
  have hdispatch : (r.dispatch mem pkt).value = [.invoked (.udp ports) pkt, .datagram d] := by
    rw [IPv4Layer.dispatch, if_neg (fun h => h.1 hlocal), if_neg httl, hhandler]
    exact congrArg (NetEvent.invoked (.udp ports) pkt :: ·) hhandle
  have hreceive : (r.onReceive mem len).value = (r.dispatch mem pkt).value := by
    rw [IPv4Layer.onReceive, Scan.value_bind, hparsed]
  rw [hreceive, hdispatch]
  exact List.mem_cons_of_mem _ (List.mem_singleton_self _)

/-- The datagram `send` builds. -/
def outgoing (l : IPv4Layer) (nextId : UInt16) (dst : UInt32) (payload : List UInt8) :
    IPv4Builder where
  src := l.localIp
  dst := dst
  protocol := IPProtocol.udp
  identification := nextId
  payload := payload

theorem sendto_eq (l : IPv4Layer) (mtu nextId : UInt16) (sockets : List UInt16) (dstIp : UInt32)
    (dstPort srcPort : UInt16) (data : List UInt8) :
    sendto l mtu nextId sockets dstIp dstPort srcPort data =
      if srcPort ∈ sockets ∧ 28 + data.length ≤ mtu.toNat ∧ 28 + data.length ≤ 1500 then
        (outgoing l nextId dstIp (packet srcPort dstPort
          (sentChecksum l.localIp dstIp srcPort dstPort data) data)).build 1500
      else none := by
  have hlen :=
    length_packet srcPort dstPort (sentChecksum l.localIp dstIp srcPort dstPort data) data
  rw [sendto, IPv4Layer.send, hlen]
  by_cases hbound : srcPort ∈ sockets
  · have hcontains : sockets.contains srcPort = true := List.contains_iff_mem.mpr hbound
    rw [hcontains]
    show (if mtu.toNat < 20 + (8 + data.length) then none else _) = _
    by_cases hmtu : mtu.toNat < 20 + (8 + data.length)
    · rw [if_pos hmtu, if_neg (by omega)]
    · rw [if_neg hmtu]
      by_cases hbuffer : 28 + data.length ≤ 1500
      · rw [if_pos ⟨hbound, by omega, hbuffer⟩]
        rfl
      · rw [if_neg (by omega)]
        exact if_pos (by dsimp only; rw [hlen]; omega)
  · have hcontains : sockets.contains srcPort = false := by
      rw [Bool.eq_false_iff]
      exact fun h => hbound (List.contains_iff_mem.mp h)
    rw [hcontains]
    show none = _
    rw [if_neg (fun h => hbound h.1)]

/-- **Sent and received.**  From a bound port, what fits the MTU and the buffer of the sender goes
to the device; any receiver takes it for the datagram it is, and hands it to the callback bound to
its port. -/
def SentAccepted (l : IPv4Layer) (mtu nextId : UInt16) (sockets : List UInt16) (dstIp : UInt32)
    (dstPort srcPort : UInt16) (data : List UInt8) : Prop :=
  ((sendto l mtu nextId sockets dstIp dstPort srcPort data).isSome ↔
    srcPort ∈ sockets ∧ 28 + data.length ≤ mtu.toNat ∧ 28 + data.length ≤ 1500) ∧
  ∀ bytes, sendto l mtu nextId sockets dstIp dstPort srcPort data = some bytes →
    ∀ (mem : Memory) (len : Nat), mem.Holds 0 bytes → bytes.length ≤ len →
      ∃ pkt, (IPv4Parser.parse mem len).value = some pkt ∧ pkt.protocol = IPProtocol.udp ∧
        (parse mem pkt).value = some (received l.localIp dstIp srcPort dstPort data) ∧
        ∀ (r : IPv4Layer) (ports : List UInt16), r.localIp = dstIp →
          r.getHandler IPProtocol.udp = some (.udp ports) → dstPort ∈ ports →
          .datagram (received l.localIp dstIp srcPort dstPort data) ∈ (r.onReceive mem len).value

theorem sentAccepted (l : IPv4Layer) (mtu nextId : UInt16) (sockets : List UInt16) (dstIp : UInt32)
    (dstPort srcPort : UInt16) (data : List UInt8) :
    SentAccepted l mtu nextId sockets dstIp dstPort srcPort data := by
  have hlen :=
    length_packet srcPort dstPort (sentChecksum l.localIp dstIp srcPort dstPort data) data
  rw [SentAccepted, sendto_eq]
  by_cases hfits : srcPort ∈ sockets ∧ 28 + data.length ≤ mtu.toNat ∧ 28 + data.length ≤ 1500
  · have hpayload : (outgoing l nextId dstIp (packet srcPort dstPort
        (sentChecksum l.localIp dstIp srcPort dstPort data) data)).payload.length =
          8 + data.length := hlen
    rw [if_pos hfits, IPv4Builder.build, hpayload, if_neg (by omega), if_neg (by omega)]
    refine ⟨⟨fun _ => hfits, fun _ => rfl⟩, ?_⟩
    intro bytes hbytes mem len hmem hfit
    obtain rfl := Option.some.inj hbytes
    obtain ⟨hheader, hdata⟩ := Memory.holds_append.mp hmem
    rw [List.length_append, hpayload, IPv4Builder.finished, IPv4Builder.length_header] at hfit
    have hparsed : (IPv4Parser.parse mem len).value = _ :=
      IPv4Builder.parse_built (show (0 : UInt8) < 64 by decide) (show (0 : UInt8) < 4 by decide)
        hheader (by omega) (by omega) (by omega)
    -- what the receiver's IPv4 layer has read, field by field
    generalize hpkt : IPv4Builder.parsed _ (20 + (8 + data.length)) len = pkt at hparsed
    have hsrc : pkt.srcAddr = l.localIp := by rw [← hpkt]; rfl
    have hdst : pkt.dstAddr = dstIp := by rw [← hpkt]; rfl
    have hprotocol : pkt.protocol = IPProtocol.udp := by rw [← hpkt]; rfl
    have httl : pkt.ttl = 64 := by rw [← hpkt]; rfl
    have hat : pkt.payload = 20 := by rw [← hpkt]; rfl
    have hlong : pkt.payloadLength = 8 + data.length := by
      rw [← hpkt]
      exact Nat.add_sub_cancel_left ..
    have hheld : mem.Holds pkt.payload (packet srcPort dstPort
        (sentChecksum pkt.srcAddr pkt.dstAddr srcPort dstPort data) data) := by
      rw [hat, hsrc, hdst]
      exact hdata
    have hparse := parse_packet (by omega) hheld hlong
    rw [hsrc, hdst] at hparse
    refine ⟨pkt, hparsed, hprotocol, hparse, ?_⟩
    intro r ports hlocal hhandler hport
    exact onReceive_datagram hparsed (hdst.trans hlocal.symm) (by rw [httl]; decide)
      (hprotocol ▸ hhandler) hparse hport
  · rw [if_neg hfits]
    exact ⟨⟨fun hsent => (by cases hsent), fun h => absurd h hfits⟩, fun _ hsent => by cases hsent⟩

/-- **UDP acceptance.**  Of the payload of any datagram, `parse` returns the datagram to accept, its
data going up to its own length, and nothing else, exactly when what is behind that length does not
matter; and what `sendto` sends is accepted. -/
theorem acceptance {len : Nat} (hparsed : (IPv4Parser.parse mem len).value = some pkt) :
    (Exact mem pkt ↔ TrailerHarmless mem pkt) ∧
      ∀ l mtu nextId sockets dstIp dstPort srcPort data,
        SentAccepted l mtu nextId sockets dstIp dstPort srcPort data := by
  refine ⟨exact_iff ?_, sentAccepted⟩
  obtain ⟨hvalid, rfl⟩ := IPv4Parser.parse_eq_some.mp hparsed
  have hlt := (IPv4Header.totalLength mem).value.toNat_lt
  rw [value_totalLength] at hlt
  rw [hvalid.payloadLength]
  omega

end Sent

/-- An empty datagram under its checksum, from port 1024 to port 53, with one byte behind it. -/
def oneBehind : IPv4Builder where
  protocol := IPProtocol.udp
  src := 0x0A000002
  dst := 0x0A000001
  payload := packet 1024 53 (sentChecksum 0x0A000002 0x0A000001 1024 53 []) [] ++ [1]

/-- The bytes of `oneBehind`. -/
def oneBehindMemory : Memory := Memory.ofList (oneBehind.finished 29 ++ oneBehind.payload)

theorem acceptance_oneBehind :
    (Exact oneBehindMemory (oneBehind.parsed 29 29) ↔
      TrailerHarmless oneBehindMemory (oneBehind.parsed 29 29)) ∧
    ∀ l mtu nextId sockets dstIp dstPort srcPort data,
      SentAccepted l mtu nextId sockets dstIp dstPort srcPort data :=
  @acceptance oneBehindMemory _ 29 (by decide +kernel)

/-- A datagram to accept, which `parse` refuses. -/
theorem oneBehind_refused :
    (IPv4Parser.parse oneBehindMemory 29).value = some (oneBehind.parsed 29 29) ∧
    (oneBehind.parsed 29 29).protocol = IPProtocol.udp ∧
    Acceptable oneBehindMemory (oneBehind.parsed 29 29) ∧
    (parse oneBehindMemory (oneBehind.parsed 29 29)).value = none :=
  ⟨by decide +kernel, rfl, ⟨by decide +kernel, by decide +kernel, by decide +kernel,
    .inr (by decide +kernel)⟩, by decide +kernel⟩

end UDPLayer

end NeuStack
