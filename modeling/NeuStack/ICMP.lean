import NeuStack.TCPCodec

/-! # Internet control messages

`ICMPHandler` of `icmp.cpp`, with the events of the network layer: a handler that
is invoked, and what a handler hands up or sends.  What the handlers only write
to the log is left out.
-/
namespace NeuStack
open NetworkOrder

/-- `struct UDPDatagram` -/
structure UDPDatagram where
  srcAddr : UInt32
  dstAddr : UInt32
  srcPort : UInt16
  dstPort : UInt16
  length : UInt16
  checksum : UInt16
  data : List UInt8
  deriving DecidableEq, Repr

/-- The kinds of `IProtocolHandler`: the three of the stack, `UDPLayer` with the
ports bound in it, and any other. -/
inductive ProtocolHandler where
  | icmp
  | tcp
  | udp (sockets : List UInt16)
  | other (id : Nat)
  deriving DecidableEq, Repr

inductive NetEvent where
  /-- `handle` of a registered handler. -/
  | invoked (handler : ProtocolHandler) (pkt : IPv4Packet)
  /-- `IPv4Layer::send` -/
  | send (dst : UInt32) (protocol : UInt8) (payload : List UInt8)
  /-- `on_segment_received` of the connection manager. -/
  | segment (seg : TCPParsed)
  /-- The callback of a UDP socket. -/
  | datagram (datagram : UDPDatagram)
  /-- The callback for echo replies. -/
  | echoReply (src : UInt32) (identifier sequence : UInt16)
  deriving DecidableEq, Repr

namespace ICMPType

def echoReply : UInt8 := 0
def destUnreachable : UInt8 := 3
def echoRequest : UInt8 := 8
def timeExceeded : UInt8 := 11

end ICMPType

namespace ICMPHandler

/-- The bytes of a message with `checksum` in its field. -/
def message (type code : UInt8) (checksum : UInt16) (body : List UInt8) : List UInt8 :=
  [type, code] ++ store16 checksum ++ body

/-- A message under its checksum. -/
def finished (type code : UInt8) (body : List UInt8) : List UInt8 :=
  message type code (computeChecksum (message type code 0 body)) body

/-- `handle_echo_request` -/
def handleEchoRequest (mem : Memory) (pkt : IPv4Packet) : Scan (List NetEvent) :=
  if pkt.payloadLength < 8 then pure [] else do
    let dataLen ← Scan.sub pkt.payloadLength 8
    if 1500 < pkt.payloadLength then pure [] else do
    let identifier ← raw16 mem (pkt.payload + 4)
    let sequence ← raw16 mem (pkt.payload + 6)
    let data ← Scan.readRange mem (pkt.payload + 8) dataLen
    pure [.send pkt.srcAddr IPProtocol.icmp
      (finished ICMPType.echoReply 0 (store16 identifier ++ store16 sequence ++ data))]

/-- `handle_echo_reply` -/
def handleEchoReply (mem : Memory) (pkt : IPv4Packet) : Scan (List NetEvent) :=
  if pkt.payloadLength < 8 then pure [] else do
    let identifier ← net16 mem (pkt.payload + 4)
    let sequence ← net16 mem (pkt.payload + 6)
    pure [.echoReply pkt.srcAddr identifier sequence]

/-- `handle` -/
def handle (mem : Memory) (pkt : IPv4Packet) : Scan (List NetEvent) :=
  if pkt.payloadLength < 4 then pure [] else do
    let payload ← Scan.readRange mem pkt.payload pkt.payloadLength
    if !verifyChecksum payload then pure [] else do
    let type ← Scan.read mem pkt.payload
    if type = ICMPType.echoRequest then handleEchoRequest mem pkt
    else if type = ICMPType.echoReply then handleEchoReply mem pkt
    else pure []

/-- `send_error`: the header of the datagram and up to eight bytes of its payload
are quoted. -/
def sendError (mem : Memory) (type code : UInt8) (extra : UInt32) (pkt : IPv4Packet) :
    Scan (List NetEvent) :=
  let headerLen := pkt.ihl.toNat * 4
  let dataLen := min pkt.payloadLength 8
  if 256 < 8 + (headerLen + dataLen) then pure [] else do
    let header ← Scan.readRange mem pkt.rawData headerLen
    let data ← Scan.readRange mem pkt.payload dataLen
    let unused := UInt16.ofNat (extra.toNat / 65536)
    let nextHopMtu := UInt16.ofNat extra.toNat
    pure [.send pkt.srcAddr IPProtocol.icmp
      (finished type code (store16 unused ++ store16 nextHopMtu ++ header ++ data))]

/-- The test both senders of errors begin with: `pkt` is not itself an ICMP error,
nor too short to tell. -/
def mayAnswer (mem : Memory) (pkt : IPv4Packet) : Scan Bool :=
  if pkt.protocol ≠ IPProtocol.icmp then pure true
  else if pkt.payloadLength < 4 then pure false else do
    let type ← Scan.read mem pkt.payload
    pure (type = ICMPType.echoRequest ∨ type = ICMPType.echoReply)

/-- `send_dest_unreachable` -/
def sendDestUnreachable (mem : Memory) (code : UInt8) (pkt : IPv4Packet) :
    Scan (List NetEvent) := do
  let ok ← mayAnswer mem pkt
  if ok then sendError mem ICMPType.destUnreachable code 0 pkt else pure []

/-- `send_time_exceeded` -/
def sendTimeExceeded (mem : Memory) (code : UInt8) (pkt : IPv4Packet) :
    Scan (List NetEvent) := do
  let ok ← mayAnswer mem pkt
  if ok then sendError mem ICMPType.timeExceeded code 0 pkt else pure []

end ICMPHandler

/-! ## Staying inside -/

/-- The payload and the quoted header lie in the first `n` bytes. -/
structure IPv4Packet.Inside (pkt : IPv4Packet) (n : Nat) : Prop where
  payload : pkt.payload + pkt.payloadLength ≤ n
  header : pkt.rawData + pkt.ihl.toNat * 4 ≤ n

theorem IPv4Valid.inside {mem : Memory} {len : Nat} (h : IPv4Valid mem len) :
    (IPv4Parser.fields mem len).value.Inside len := by
  have hpayload := h.payloadLength
  obtain ⟨-, -, hheader, htotal, -⟩ := h
  refine ⟨?_, ?_⟩
  · rw [hpayload, IPv4Valid.payload]
    omega
  · show 0 + ipHeaderLength mem ≤ len
    omega

namespace ICMPHandler
variable {mem : Memory} {pkt : IPv4Packet} {n : Nat}

theorem within_handleEchoRequest (h : pkt.Inside n) : (handleEchoRequest mem pkt).Within n := by
  have hpayload := h.payload
  unfold handleEchoRequest
  refine (Scan.within_ite ..).mpr ⟨fun _ => Scan.within_pure _, fun hlong => ?_⟩
  refine (Scan.within_bind ..).mpr ⟨(Scan.within_sub ..).mpr (by omega), ?_⟩
  refine (Scan.within_ite ..).mpr ⟨fun _ => Scan.within_pure _, fun _ => ?_⟩
  refine (Scan.within_bind ..).mpr ⟨within_raw16.mpr (by omega), ?_⟩
  refine (Scan.within_bind ..).mpr ⟨within_raw16.mpr (by omega), ?_⟩
  refine (Scan.within_bind ..).mpr ⟨Scan.within_readRange _ _ _ ?_, Scan.within_pure _⟩
  rw [Scan.value_sub (by omega)]
  omega

theorem within_handleEchoReply (h : pkt.Inside n) : (handleEchoReply mem pkt).Within n := by
  have hpayload := h.payload
  unfold handleEchoReply
  refine (Scan.within_ite ..).mpr ⟨fun _ => Scan.within_pure _, fun hlong => ?_⟩
  refine (Scan.within_bind ..).mpr ⟨within_net16.mpr (by omega), ?_⟩
  exact (Scan.within_bind ..).mpr ⟨within_net16.mpr (by omega), Scan.within_pure _⟩

/-- **The ICMP handler stays inside the datagram.** -/
theorem within_handle (h : pkt.Inside n) : (handle mem pkt).Within n := by
  have hpayload := h.payload
  unfold handle
  refine (Scan.within_ite ..).mpr ⟨fun _ => Scan.within_pure _, fun hlong => ?_⟩
  refine (Scan.within_bind ..).mpr ⟨Scan.within_readRange _ _ _ hpayload, ?_⟩
  refine (Scan.within_ite ..).mpr ⟨fun _ => Scan.within_pure _, fun _ => ?_⟩
  refine (Scan.within_bind ..).mpr ⟨(Scan.within_read ..).mpr (by omega), ?_⟩
  refine (Scan.within_ite ..).mpr ⟨fun _ => within_handleEchoRequest h, fun _ => ?_⟩
  exact (Scan.within_ite ..).mpr ⟨fun _ => within_handleEchoReply h, fun _ => Scan.within_pure _⟩

theorem within_mayAnswer (h : pkt.Inside n) : (mayAnswer mem pkt).Within n := by
  have hpayload := h.payload
  unfold mayAnswer
  refine (Scan.within_ite ..).mpr ⟨fun _ => Scan.within_pure _, fun _ => ?_⟩
  refine (Scan.within_ite ..).mpr ⟨fun _ => Scan.within_pure _, fun hlong => ?_⟩
  exact (Scan.within_bind ..).mpr ⟨(Scan.within_read ..).mpr (by omega), Scan.within_pure _⟩

/-- So does the quoting of a datagram. -/
theorem within_sendError (h : pkt.Inside n) (type code : UInt8) (extra : UInt32) :
    (sendError mem type code extra pkt).Within n := by
  have hpayload := h.payload
  have hmin := Nat.min_le_left pkt.payloadLength 8
  unfold sendError
  refine (Scan.within_ite ..).mpr ⟨fun _ => Scan.within_pure _, fun _ => ?_⟩
  refine (Scan.within_bind ..).mpr ⟨Scan.within_readRange _ _ _ h.header, ?_⟩
  exact (Scan.within_bind ..).mpr ⟨Scan.within_readRange _ _ _ (by omega), Scan.within_pure _⟩

theorem within_sendDestUnreachable (h : pkt.Inside n) (code : UInt8) :
    (sendDestUnreachable mem code pkt).Within n :=
  (Scan.within_bind ..).mpr ⟨within_mayAnswer h, (Scan.within_ite ..).mpr
    ⟨fun _ => within_sendError h _ _ _, fun _ => Scan.within_pure _⟩⟩

theorem within_sendTimeExceeded (h : pkt.Inside n) (code : UInt8) :
    (sendTimeExceeded mem code pkt).Within n :=
  (Scan.within_bind ..).mpr ⟨within_mayAnswer h, (Scan.within_ite ..).mpr
    ⟨fun _ => within_sendError h _ _ _, fun _ => Scan.within_pure _⟩⟩

end ICMPHandler

end NeuStack
