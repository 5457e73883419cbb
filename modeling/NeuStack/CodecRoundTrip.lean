import NeuStack.TCPCodec

/-! # What is built is parsed again

A segment built by `TCPBuilder`, under its checksum, in a datagram built by
`IPv4Builder`: the two parsers return exactly the fields that went in, and the
payload (`roundTrip`).  Both checksums rest on `residue_filled`: a sum whose
checksum field holds the complement of the sum without it folds to all ones.
-/
namespace NeuStack
open NetworkOrder OnesComplement

/-! ## The datagram -/

namespace IPv4Builder

/-- What the parser returns of a datagram that was built. -/
def parsed (b : IPv4Builder) (totalLen len : Nat) : IPv4Packet where
  version := 4
  ihl := 5
  dscp := b.dscp
  ecn := b.ecn
  totalLength := UInt16.ofNat totalLen
  identification := b.identification
  dontFragment := b.dontFragment
  moreFragments := false
  fragmentOffset := 0
  ttl := b.ttl
  protocol := b.protocol
  checksum := ntohs (computeChecksum (b.header totalLen 0))
  srcAddr := b.src
  dstAddr := b.dst
  payload := 20
  payloadLength := totalLen - 20
  rawData := 0
  rawLength := len

variable {b : IPv4Builder} {mem : Memory} {totalLen len : Nat}

/-- The header up to its checksum field. -/
def beforeChecksum (b : IPv4Builder) (totalLen : Nat) : List UInt8 :=
  [(4 : UInt8) <<< 4 ||| 5, b.dscp <<< 2 ||| (b.ecn &&& 0x03)] ++
    store16 (htons (UInt16.ofNat totalLen)) ++ store16 (htons b.identification) ++
    store16 (htons (if b.dontFragment then (0x02 : UInt16) <<< 13 else 0)) ++ [b.ttl, b.protocol]

theorem length_header (b : IPv4Builder) (totalLen : Nat) (checksum : UInt16) :
    (b.header totalLen checksum).length = 20 := rfl

/-- The header under its checksum adds up to all ones. -/
theorem residue_finished (b : IPv4Builder) (totalLen : Nat) :
    residue (wordSum (b.finished totalLen)) = 65535 := by
  have hsum := toNat_checksumAccumulate 0 (b.header totalLen 0) (by
    have hle := wordSum_le (b.header totalLen 0)
    rw [length_header] at hle
    show 0 + _ < _
    omega)
  have hc := toNat_ntohs_checksumFinalize (checksumAccumulate 0 (b.header totalLen 0))
  rw [hsum] at hc
  have hfilled := @residue_filled (b.beforeChecksum totalLen)
    (store32 (htonl b.src) ++ store32 (htonl b.dst)) ⟨5, rfl⟩
    (computeChecksum (b.header totalLen 0)) 0 hc
  rw [Nat.zero_add] at hfilled
  exact hfilled

/-- The fields of a built header, where the parser looks for them. -/
structure HeaderAt (b : IPv4Builder) (mem : Memory) (totalLen : Nat) : Prop where
  versionIhl : mem 0 = 0x45
  dscpEcn : mem 1 = b.dscp <<< 2 ||| (b.ecn &&& 0x03)
  totalLength : (net16 mem 2).value = UInt16.ofNat totalLen
  identification : (net16 mem 4).value = b.identification
  flags : (net16 mem 6).value = if b.dontFragment then (0x02 : UInt16) <<< 13 else 0
  ttl : mem 8 = b.ttl
  protocol : mem 9 = b.protocol
  checksum : (net16 mem 10).value = ntohs (computeChecksum (b.header totalLen 0))
  src : (net32 mem 12).value = b.src
  dst : (net32 mem 16).value = b.dst

theorem headerAt_of_holds (h : mem.Holds 0 (b.finished totalLen)) : b.HeaderAt mem totalLen := by
  simp only [finished, header, Memory.holds_append, List.length_append, List.length_cons,
    List.length_nil, length_store16, length_store32, Memory.holds_cons] at h
  obtain ⟨⟨⟨⟨⟨⟨⟨⟨h0, h1, -⟩, h2⟩, h4⟩, h6⟩, h8, h9, -⟩, h10⟩, h12⟩, h16⟩ := h
  exact ⟨h0, h1, net16_store h2, net16_store h4, net16_store h6, h8, h9, net16_stored h10,
    net32_store h12, net32_store h16⟩

theorem ipHeaderLength_built (h : b.HeaderAt mem totalLen) : ipHeaderLength mem = 20 := by
  rw [ipHeaderLength, h.versionIhl]
  rfl

theorem ipTotalLength_built (h : b.HeaderAt mem totalLen) (hsize : totalLen ≤ 65535) :
    ipTotalLength mem = totalLen := by
  rw [ipTotalLength, ← toNat_net16 mem 2, h.totalLength, UInt16.toNat_ofNat',
    Nat.mod_eq_of_lt (by omega)]

theorem valid_built (hmem : mem.Holds 0 (b.finished totalLen)) (hmin : 20 ≤ totalLen)
    (hsize : totalLen ≤ 65535) (hlen : totalLen ≤ len) : IPv4Valid mem len := by
  have h := headerAt_of_holds hmem
  have hheader := ipHeaderLength_built h
  have htotal := ipTotalLength_built h hsize
  refine ⟨by rw [h.versionIhl]; rfl, by omega, by omega, by omega, ?_⟩
  have hslice : mem.slice 0 20 = b.finished totalLen := hmem
  rw [hheader, hslice]
  exact b.residue_finished totalLen

/-- Two fields in one byte. -/
theorem toNat_dscpEcn {d e : UInt8} (hd : d < 64) (he : e < 4) :
    (d <<< 2 ||| (e &&& 0x03)).toNat = 4 * d.toNat + e.toNat := by
  have hd : d.toNat < 64 := UInt8.lt_iff_toNat_lt.mp hd
  have he : e.toNat < 4 := UInt8.lt_iff_toNat_lt.mp he
  have hshift : (d <<< 2).toNat = d.toNat <<< 2 := by
    rw [UInt8.toNat_shiftLeft]
    show d.toNat <<< 2 % 256 = _
    rw [Nat.shiftLeft_eq]
    omega
  have hmask : (e &&& 0x03).toNat = e.toNat := by
    rw [UInt8.toNat_and]
    show e.toNat &&& (2 ^ 2 - 1) = _
    rw [Nat.and_two_pow_sub_one_eq_mod]
    omega
  rw [UInt8.toNat_or, hshift, hmask, ← Nat.shiftLeft_add_eq_or_of_lt (by omega), Nat.shiftLeft_eq]
  omega

theorem dscp_built {d e : UInt8} (hd : d < 64) (he : e < 4) :
    (d <<< 2 ||| (e &&& 0x03)) >>> 2 = d := by
  have he' : e.toNat < 4 := UInt8.lt_iff_toNat_lt.mp he
  rw [← UInt8.toNat_inj, UInt8.toNat_shiftRight, toNat_dscpEcn hd he]
  show (4 * d.toNat + e.toNat) >>> 2 = _
  rw [Nat.shiftRight_eq_div_pow]
  omega

theorem ecn_built {d e : UInt8} (hd : d < 64) (he : e < 4) :
    (d <<< 2 ||| (e &&& 0x03)) &&& 0x03 = e := by
  have he' : e.toNat < 4 := UInt8.lt_iff_toNat_lt.mp he
  rw [← UInt8.toNat_inj, UInt8.toNat_and, toNat_dscpEcn hd he]
  show (4 * d.toNat + e.toNat) &&& (2 ^ 2 - 1) = _
  rw [Nat.and_two_pow_sub_one_eq_mod]
  omega

/-- **The parser returns what was built.** -/
theorem parse_built (hdscp : b.dscp < 64) (hecn : b.ecn < 4)
    (hmem : mem.Holds 0 (b.finished totalLen)) (hmin : 20 ≤ totalLen) (hsize : totalLen ≤ 65535)
    (hlen : totalLen ≤ len) : (IPv4Parser.parse mem len).value = some (b.parsed totalLen len) := by
  have h := headerAt_of_holds hmem
  have hvalid := valid_built hmem hmin hsize hlen
  refine IPv4Parser.parse_eq_some.mpr ⟨hvalid, ?_⟩
  have hpayload : (Scan.sub (UInt16.ofNat totalLen).toNat 20).value = totalLen - 20 := by
    rw [UInt16.toNat_ofNat', Nat.mod_eq_of_lt (by omega), Scan.value_sub hmin]
  have hwords : ((0x45 : UInt8) &&& 0x0F).toNat * 4 = 20 := rfl
  have hoffset : (if b.dontFragment then (0x02 : UInt16) <<< 13 else 0) &&& 0x1FFF = 0 := by
    cases b.dontFragment <;> rfl
  have hdf : ((if b.dontFragment then (0x02 : UInt16) <<< 13 else 0) >>> 13 &&& 0x02 != 0) =
      b.dontFragment := by
    cases b.dontFragment <;> rfl
  have hmf : ((if b.dontFragment then (0x02 : UInt16) <<< 13 else 0) >>> 13 &&& 0x01 != 0) =
      false := by
    cases b.dontFragment <;> rfl
  simp only [IPv4Parser.fields, IPv4Header.version, IPv4Header.ihl, IPv4Header.headerLength,
    IPv4Header.totalLength, IPv4Header.flags, IPv4Header.fragmentOffset, Scan.value_bind,
    Scan.value_pure, Scan.value_read, h.versionIhl, h.dscpEcn, h.totalLength, h.identification,
    h.flags, h.ttl, h.protocol, h.checksum, h.src, h.dst, dscp_built hdscp hecn,
    ecn_built hdscp hecn, hoffset, hdf, hmf, hwords, hpayload]
  rfl

end IPv4Builder

/-! ## The segment -/

namespace TCPBuilder
variable {t : TCPBuilder} {mem : Memory} {src dst : UInt32}

/-- The checksum of the segment. -/
def checksum (t : TCPBuilder) (src dst : UInt32) : UInt16 :=
  pseudoChecksum src dst 6 (t.header 0 ++ t.payload)

/-- The segment under its checksum. -/
def filled (t : TCPBuilder) (src dst : UInt32) : List UInt8 :=
  t.header (t.checksum src dst) ++ t.payload

theorem length_filled (t : TCPBuilder) (src dst : UInt32) :
    (t.filled src dst).length = 20 + t.payload.length := by
  rw [filled, List.length_append]
  rfl

theorem fillChecksum_build (hsize : 20 + t.payload.length ≤ 65535) (src dst : UInt32) :
    fillChecksum (t.header 0 ++ t.payload) src dst = t.filled src dst := by
  have hlen : (t.header 0 ++ t.payload).length = 20 + t.payload.length := List.length_append
  rw [fillChecksum, if_neg (by omega)]
  rfl

/-- The header up to its checksum field. -/
def beforeChecksum (t : TCPBuilder) : List UInt8 :=
  store16 (htons t.srcPort) ++ store16 (htons t.dstPort) ++ store32 (htonl t.seq) ++
    store32 (htonl t.ack) ++ [(5 : UInt8) <<< 4, t.flags] ++ store16 (htons t.window)

theorem segment_split (t : TCPBuilder) (checksum : UInt16) :
    t.header checksum ++ t.payload =
      t.beforeChecksum ++ (store16 checksum ++ (store16 0 ++ t.payload)) := rfl

/-- The segment under its checksum verifies. -/
theorem verifies_filled (hsize : 20 + t.payload.length ≤ 65535) (src dst : UInt32) :
    TCPParser.computeTcpChecksum src dst (t.filled src dst) = 0 := by
  have hlen := t.length_filled src dst
  have hlen0 : (t.header 0 ++ t.payload).length = 20 + t.payload.length := List.length_append
  obtain ⟨hc, -⟩ := residue_pseudoChecksum src dst 6 (hlen0 ▸ hsize)
  rw [hlen0, segment_split] at hc
  rw [TCPParser.computeTcpChecksum, if_neg (by omega),
    (residue_pseudoChecksum src dst 6 (hlen ▸ hsize)).2, hlen, filled, segment_split]
  exact residue_filled ⟨8, rfl⟩ hc

/-- What the parser returns of a segment that was built. -/
def parsed (t : TCPBuilder) (src dst : UInt32) : TCPParsed where
  srcAddr := src
  dstAddr := dst
  srcPort := t.srcPort
  dstPort := t.dstPort
  seqNum := t.seq.toBitVec
  ackNum := t.ack.toBitVec
  flags := t.flags
  window := t.window
  data := t.payload
  dataOffset := 20
  checksum := ntohs (t.checksum src dst)
  urgentPtr := 0

theorem parse_filled {pkt : IPv4Packet} (hsize : 20 + t.payload.length ≤ 65535)
    (hmem : mem.Holds pkt.payload (t.filled pkt.srcAddr pkt.dstAddr))
    (hlen : pkt.payloadLength = 20 + t.payload.length) :
    (TCPParser.parse mem pkt).value = some (t.parsed pkt.srcAddr pkt.dstAddr) := by
  have hparts := hmem
  simp only [filled, header, Memory.holds_append, List.length_append, List.length_cons,
    List.length_nil, length_store16, length_store32, Memory.holds_cons] at hparts
  obtain ⟨⟨⟨⟨⟨⟨⟨⟨h0, h2⟩, h4⟩, h8⟩, h12, h13, -⟩, h14⟩, h16⟩, h18⟩, hdata⟩ := hparts
  have hoffset : (TCPParser.headerLength mem pkt).value = 20 := by
    show (mem (pkt.payload + 12) >>> 4) * 4 = 20
    rw [h12]
    rfl
  have hslice : mem.slice pkt.payload pkt.payloadLength = t.filled pkt.srcAddr pkt.dstAddr := by
    rw [hlen, ← t.length_filled pkt.srcAddr pkt.dstAddr]
    exact hmem
  have hverify : (TCPParser.verifyChecksum mem pkt).value = true := by
    show (TCPParser.computeTcpChecksum pkt.srcAddr pkt.dstAddr (mem.slice _ _) == 0) = true
    rw [hslice, verifies_filled hsize]
    rfl
  have hfits : (TCPParser.headerLength mem pkt).value.toNat ≤ pkt.payloadLength := by
    rw [hoffset, hlen]
    exact Nat.le_add_right _ _
  refine TCPParser.parse_eq_some.mpr ⟨?_, by rw [hoffset]; exact Nat.le_refl _, hfits, hverify, ?_⟩
  · rw [hlen]
    exact Nat.le_add_right _ _
  have hrest : (Scan.sub pkt.payloadLength (20 : UInt8).toNat).value = t.payload.length := by
    rw [Scan.value_sub (hoffset ▸ hfits), hlen]
    exact Nat.add_sub_cancel_left ..
  have hpayload : mem.slice (pkt.payload + (20 : UInt8).toNat) t.payload.length = t.payload := hdata
  simp only [TCPParser.fields, Scan.value_bind, Scan.value_pure, Scan.value_read, hoffset, hrest,
    net16_store h0, net16_store h2, net32_store h4, net32_store h8, h13, net16_store h14,
    net16_stored h16, net16_stored h18, hpayload]
  rfl

end TCPBuilder

/-! ## Both together -/

namespace IPv4Builder

/-- **The round trip.**  A segment built and put under its checksum, wrapped in a
datagram: of memory that starts with these bytes, the parsers return what was
built.  The header by itself, followed by the segment, is the same bytes. -/
theorem roundTrip (t : TCPBuilder) (b : IPv4Builder) (hdscp : b.dscp < 64) (hecn : b.ecn < 4)
    (hsize : 40 + t.payload.length ≤ 65535) {n m : Nat} (hn : 20 + t.payload.length ≤ n)
    (hm : 40 + t.payload.length ≤ m) :
    ∃ built bytes header, t.build n = some built ∧
      { b with payload := TCPBuilder.fillChecksum built b.src b.dst }.build m = some bytes ∧
      bytes.length = 40 + t.payload.length ∧
      (∀ mem : Memory, mem.Holds 0 bytes →
        (IPv4Parser.parse mem bytes.length).value = some (b.parsed bytes.length bytes.length) ∧
        (TCPParser.parse mem (b.parsed bytes.length bytes.length)).value =
          some (t.parsed b.src b.dst)) ∧
      b.buildHeaderOnly m (20 + t.payload.length) = some header ∧
      header ++ TCPBuilder.fillChecksum built b.src b.dst = bytes := by
  have hfill := TCPBuilder.fillChecksum_build (t := t) (by omega) b.src b.dst
  have hlength := t.length_filled b.src b.dst
  have htotal : 20 + (20 + t.payload.length) = 40 + t.payload.length := by omega
  have hbytes : (b.finished (40 + t.payload.length) ++ t.filled b.src b.dst).length =
      40 + t.payload.length := by
    rw [List.length_append, hlength, ← htotal]
    rfl
  refine ⟨t.header 0 ++ t.payload, b.finished (40 + t.payload.length) ++ t.filled b.src b.dst,
    b.finished (40 + t.payload.length), if_neg ?_, ?_, hbytes, ?_, ?_, ?_⟩
  · exact Nat.not_lt.mpr hn
  · rw [hfill, build, hlength, htotal, if_neg (by omega), if_neg (by omega)]
    rfl
  · intro mem hmem
    obtain ⟨hheader, hsegment⟩ := Memory.holds_append.mp hmem
    rw [hbytes]
    refine ⟨parse_built hdscp hecn hheader (by omega) hsize (Nat.le_refl _), ?_⟩
    refine TCPBuilder.parse_filled (by omega) hsegment ?_
    show 40 + t.payload.length - 20 = _
    omega
  · rw [buildHeaderOnly, htotal, if_neg (by omega), if_neg (by omega)]
  · rw [hfill]

/-- Three bytes, an odd number, from port 4000 to port 80. -/
def threeBytes : TCPBuilder where
  srcPort := 4000
  dstPort := 80
  seq := 7
  flags := 0x18
  payload := [1, 2, 3]

/-- From 10.0.0.2 to 10.0.0.1, expedited. -/
def expedited : IPv4Builder where
  dscp := 46
  ecn := 1
  identification := 5
  protocol := IPProtocol.tcp
  src := 0x0A000002
  dst := 0x0A000001

theorem roundTrip_three : ∃ built bytes header, threeBytes.build 1460 = some built ∧
    { expedited with payload := TCPBuilder.fillChecksum built 0x0A000002 0x0A000001 }.build 1500 =
      some bytes ∧
    bytes.length = 43 ∧
    (∀ mem : Memory, mem.Holds 0 bytes →
      (IPv4Parser.parse mem bytes.length).value =
          some (expedited.parsed bytes.length bytes.length) ∧
        (TCPParser.parse mem (expedited.parsed bytes.length bytes.length)).value =
          some (threeBytes.parsed 0x0A000002 0x0A000001)) ∧
    expedited.buildHeaderOnly 1500 23 = some header ∧
    header ++ TCPBuilder.fillChecksum built 0x0A000002 0x0A000001 = bytes :=
  roundTrip threeBytes expedited (by decide) (by decide) (by decide) (by decide) (by decide)

end IPv4Builder

end NeuStack
