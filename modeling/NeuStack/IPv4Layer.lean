import NeuStack.ICMP

/-! # The network layer

`UDPLayer::parse` and `handle`, `TCPLayer::handle`, and the dispatch of
`IPv4Layer::on_receive`, which hands a datagram for this host to the handler
registered for its protocol.
-/
namespace NeuStack
open NetworkOrder

/-! ## UDP -/

namespace UDPLayer

/-- `compute_udp_checksum` -/
def computeUdpChecksum (srcIp dstIp : UInt32) (data : List UInt8) : UInt16 :=
  pseudoChecksum srcIp dstIp 17 data

/-- `verify_checksum` -/
def verifyChecksum (mem : Memory) (pkt : IPv4Packet) : Scan Bool := do
  let payload ← Scan.readRange mem pkt.payload pkt.payloadLength
  pure (computeUdpChecksum pkt.srcAddr pkt.dstAddr payload == 0)

/-- The second half of `parse`. -/
def fields (mem : Memory) (pkt : IPv4Packet) (length : UInt16) : Scan UDPDatagram := do
  let srcPort ← net16 mem pkt.payload
  let dstPort ← net16 mem (pkt.payload + 2)
  let checksum ← net16 mem (pkt.payload + 6)
  let dataLength ← Scan.sub length.toNat 8
  pure {
    srcAddr := pkt.srcAddr
    dstAddr := pkt.dstAddr
    srcPort, dstPort, length, checksum
    data := mem.slice (pkt.payload + 8) dataLength }

/-- `parse`; a checksum of zero means that there is none. -/
def parse (mem : Memory) (pkt : IPv4Packet) : Scan (Option UDPDatagram) :=
  if pkt.payloadLength < 8 then pure none else do
    let length ← net16 mem (pkt.payload + 4)
    if length.toNat < 8 ∨ pkt.payloadLength < length.toNat then pure none else do
    let checksum ← raw16 mem (pkt.payload + 6)
    if checksum = 0 then some <$> fields mem pkt length else do
    let ok ← verifyChecksum mem pkt
    if !ok then pure none else some <$> fields mem pkt length

end UDPLayer

/-! ## The layer -/

/-- `IPv4Layer`: the address of the host and the registered handlers. -/
structure IPv4Layer where
  localIp : UInt32
  handlers : List (UInt8 × ProtocolHandler) := []

namespace IPv4Layer

/-- `get_handler` -/
def getHandler (l : IPv4Layer) (protocol : UInt8) : Option ProtocolHandler :=
  l.handlers.lookup protocol

/-- `get_icmp_handler` finds a handler: `dynamic_cast` fails on one of another kind. -/
def hasIcmpHandler (l : IPv4Layer) : Bool := l.getHandler IPProtocol.icmp == some .icmp

/-- `should_send_icmp_error` -/
def shouldSendIcmpError (pkt : IPv4Packet) : Bool :=
  let multicast (addr : UInt32) := 224 ≤ addr.toNat / 16777216 ∧ addr.toNat / 16777216 ≤ 239
  !(pkt.srcAddr = 0 ∨ pkt.srcAddr = 0xFFFFFFFF ∨ multicast pkt.srcAddr ∨
    pkt.dstAddr = 0xFFFFFFFF ∨ multicast pkt.dstAddr ∨ pkt.fragmentOffset ≠ 0)

/-- `handle` of each kind of handler; what another one does is not known. -/
def handle (l : IPv4Layer) (mem : Memory) (pkt : IPv4Packet) :
    ProtocolHandler → Scan (List NetEvent)
  | .icmp => ICMPHandler.handle mem pkt
  | .tcp => do
    let seg ← TCPParser.parse mem pkt
    pure (seg.toList.map .segment)
  | .udp sockets => do
    let datagram ← UDPLayer.parse mem pkt
    if datagram.isNone then pure []
    else if datagram.any (sockets.contains ·.dstPort) then pure (datagram.toList.map .datagram)
    else if l.hasIcmpHandler then ICMPHandler.sendDestUnreachable mem 3 pkt
    else pure []
  | .other _ => pure []

/-- The dispatch of a parsed datagram. -/
def dispatch (l : IPv4Layer) (mem : Memory) (pkt : IPv4Packet) : Scan (List NetEvent) :=
  if pkt.dstAddr ≠ l.localIp ∧ pkt.dstAddr ≠ 0xFFFFFFFF then pure []
  else if pkt.ttl = 0 then
    if shouldSendIcmpError pkt && l.hasIcmpHandler then ICMPHandler.sendTimeExceeded mem 0 pkt
    else pure []
  else
    match l.getHandler pkt.protocol with
    | some handler => do
      let events ← l.handle mem pkt handler
      pure (.invoked handler pkt :: events)
    | none =>
      if shouldSendIcmpError pkt && l.hasIcmpHandler then ICMPHandler.sendDestUnreachable mem 2 pkt
      else pure []

/-- `on_receive` -/
def onReceive (l : IPv4Layer) (mem : Memory) (len : Nat) : Scan (List NetEvent) := do
  let pkt ← IPv4Parser.parse mem len
  match pkt with
  | none => pure []
  | some pkt => l.dispatch mem pkt

end IPv4Layer

/-! ## Staying inside -/

section Within
variable {mem : Memory} {pkt : IPv4Packet} {n : Nat}

namespace UDPLayer

theorem within_fields (h : pkt.Inside n) (hlong : 8 ≤ pkt.payloadLength) {length : UInt16}
    (hlen : 8 ≤ length.toNat) : (fields mem pkt length).Within n := by
  have hpayload := h.payload
  simp only [fields, Scan.within_bind, Scan.within_pure, within_net16, Scan.within_sub, and_true]
  refine ⟨by omega, by omega, by omega, hlen⟩

theorem within_verifyChecksum (h : pkt.Inside n) : (verifyChecksum mem pkt).Within n :=
  (Scan.within_bind ..).mpr ⟨Scan.within_readRange _ _ _ h.payload, Scan.within_pure _⟩

/-- **The UDP parser stays inside the payload.** -/
theorem within_parse (h : pkt.Inside n) : (parse mem pkt).Within n := by
  have hpayload := h.payload
  unfold parse
  refine (Scan.within_ite ..).mpr ⟨fun _ => Scan.within_pure _, fun hlong => ?_⟩
  refine (Scan.within_bind ..).mpr ⟨within_net16.mpr (by omega), ?_⟩
  refine (Scan.within_ite ..).mpr ⟨fun _ => Scan.within_pure _, fun hlen => ?_⟩
  rw [not_or, Nat.not_lt, Nat.not_lt] at hlen
  have hfields : (some <$> fields mem pkt (net16 mem (pkt.payload + 4)).value).Within n :=
    (Scan.within_map ..).mpr (within_fields h (Nat.not_lt.mp hlong) hlen.1)
  refine (Scan.within_bind ..).mpr ⟨within_raw16.mpr (by omega), ?_⟩
  refine (Scan.within_ite ..).mpr ⟨fun _ => hfields, fun _ => ?_⟩
  refine (Scan.within_bind ..).mpr ⟨within_verifyChecksum h, ?_⟩
  exact (Scan.within_ite ..).mpr ⟨fun _ => Scan.within_pure _, fun _ => hfields⟩

end UDPLayer

namespace IPv4Layer

theorem within_handle (l : IPv4Layer) (h : pkt.Inside n) (handler : ProtocolHandler) :
    (l.handle mem pkt handler).Within n := by
  cases handler with
  | icmp => exact ICMPHandler.within_handle h
  | tcp => exact (Scan.within_bind ..).mpr ⟨TCPParser.within_parse mem h.payload, Scan.within_pure _⟩
  | udp sockets =>
    refine (Scan.within_bind ..).mpr ⟨UDPLayer.within_parse h, ?_⟩
    refine (Scan.within_ite ..).mpr ⟨fun _ => Scan.within_pure _, fun _ => ?_⟩
    refine (Scan.within_ite ..).mpr ⟨fun _ => Scan.within_pure _, fun _ => ?_⟩
    exact (Scan.within_ite ..).mpr ⟨fun _ => ICMPHandler.within_sendDestUnreachable h 3,
      fun _ => Scan.within_pure _⟩
  | other => exact Scan.within_pure _

theorem within_dispatch (l : IPv4Layer) (h : pkt.Inside n) : (l.dispatch mem pkt).Within n := by
  unfold dispatch
  refine (Scan.within_ite ..).mpr ⟨fun _ => Scan.within_pure _, fun _ => ?_⟩
  refine (Scan.within_ite ..).mpr ⟨fun _ => ?_, fun _ => ?_⟩
  · exact (Scan.within_ite ..).mpr ⟨fun _ => ICMPHandler.within_sendTimeExceeded h 0,
      fun _ => Scan.within_pure _⟩
  · cases l.getHandler pkt.protocol with
    | none =>
      exact (Scan.within_ite ..).mpr ⟨fun _ => ICMPHandler.within_sendDestUnreachable h 2,
        fun _ => Scan.within_pure _⟩
    | some handler =>
      exact (Scan.within_bind ..).mpr ⟨l.within_handle h handler, Scan.within_pure _⟩

/-- **The network layer stays inside the data it is given.** -/
theorem within_onReceive (l : IPv4Layer) (mem : Memory) (len : Nat) :
    (l.onReceive mem len).Within len := by
  refine (Scan.within_bind ..).mpr ⟨IPv4Parser.within_parse mem len, ?_⟩
  cases hparse : (IPv4Parser.parse mem len).value with
  | none => exact Scan.within_pure _
  | some pkt =>
    obtain ⟨hvalid, rfl⟩ := IPv4Parser.parse_eq_some.mp hparse
    exact l.within_dispatch hvalid.inside

end IPv4Layer

end Within

end NeuStack
