import NeuStack.SerialNumber

/-! # The vocabulary of the TCP engine

States, flags, sequence comparison, the four-tuple, the options and the parsed
segment (`tcp_state.hpp`, `tcp.hpp`, `tcp_seq.hpp`, `tcp_tcb.hpp`,
`tcp_segment.hpp`).  Sequence and acknowledgement numbers are `BitVec 32`, so
that their arithmetic wraps as `uint32_t` does; a count of bytes is a `Nat`.

A segment is what `TCPParser::parse` hands to the connection manager.  The
header fields the connection code never reads (data offset, checksum, urgent
pointer) are left out, and so are the option fields nothing reads.
-/
namespace NeuStack

/-- `enum class TCPState`. -/
inductive TCPState where
  | closed | listen | synSent | synRcvd | established | finWait1 | finWait2
  | closeWait | closing | lastAck | timeWait
  deriving DecidableEq, Repr

/-- The states from the handshake's end to the connection's: those counted as active. -/
def TCPState.isActive : TCPState → Bool
  | .established | .finWait1 | .finWait2 | .closeWait | .closing | .lastAck | .timeWait => true
  | .closed | .listen | .synSent | .synRcvd => false

/-- The states in which the application may still send. -/
def TCPState.canSend : TCPState → Bool
  | .established | .closeWait => true
  | _ => false

/-- The states of a handshake under way. -/
def TCPState.isOpening : TCPState → Bool
  | .synSent | .synRcvd => true
  | _ => false

/-- Where a state that may send goes with the local FIN. -/
def TCPState.afterFin : TCPState → TCPState
  | .established => .finWait1
  | .closeWait => .lastAck
  | s => s

theorem TCPState.ne_listen_of_canSend (s : TCPState) (h : s.canSend = true) : s ≠ .listen := by
  rintro rfl
  cases h

theorem TCPState.isActive_of_canSend {s : TCPState} (h : s.canSend = true) :
    s.isActive = true := by
  cases s <;> first | rfl | cases h

theorem TCPState.ne_listen_of_isActive {s : TCPState} (h : s.isActive = true) : s ≠ .listen := by
  rintro rfl
  cases h

theorem TCPState.ne_closed_of_isActive {s : TCPState} (h : s.isActive = true) : s ≠ .closed := by
  rintro rfl
  cases h

theorem TCPState.canSend_afterFin (s : TCPState) : s.afterFin.canSend = false := by
  cases s <;> rfl

/-! ## Sequence comparison -/

/-- `seq_lt`. -/
def seqLt (a b : BitVec 32) : Bool := SerialNumber.lt a b

/-- `seq_le`. -/
def seqLe (a b : BitVec 32) : Bool := SerialNumber.le a b

/-- `seq_gt`. -/
def seqGt (a b : BitVec 32) : Bool := SerialNumber.gt a b

/-- `seq_ge`. -/
def seqGe (a b : BitVec 32) : Bool := SerialNumber.ge a b

/-- `seq_in_range`: `seq` lies in `[start, stop)`. -/
def seqInRange (seq start stop : BitVec 32) : Bool := seqGe seq start && seqLt seq stop

theorem seqLt_iff (a b : BitVec 32) : seqLt a b = true ↔ 2 ^ 31 ≤ (a - b).toNat := by
  rw [seqLt, SerialNumber.lt_iff]
  omega

theorem seqLe_iff (a b : BitVec 32) :
    seqLe a b = true ↔ (a - b).toNat = 0 ∨ 2 ^ 31 ≤ (a - b).toNat := by
  rw [seqLe, SerialNumber.le_iff]
  omega

theorem seqGt_iff (a b : BitVec 32) :
    seqGt a b = true ↔ 0 < (a - b).toNat ∧ (a - b).toNat < 2 ^ 31 := by
  rw [seqGt, SerialNumber.gt_iff]
  omega

theorem seqGe_iff (a b : BitVec 32) : seqGe a b = true ↔ (a - b).toNat < 2 ^ 31 := by
  rw [seqGe, SerialNumber.ge_iff]
  omega

theorem seqLe_eq_not_seqGt (a b : BitVec 32) : seqLe a b = !seqGt a b :=
  SerialNumber.le_eq_not_gt a b

/-! ## Flags -/

namespace TCPFlags

def fin : UInt8 := 0x01
def syn : UInt8 := 0x02
def rst : UInt8 := 0x04
def psh : UInt8 := 0x08
def ack : UInt8 := 0x10

/-- `flags & flag`, as a condition. -/
def has (flags flag : UInt8) : Bool := flags &&& flag != 0

end TCPFlags

/-! ## The four-tuple -/

/-- `struct TCPTuple`. -/
structure TCPTuple where
  localIp : UInt32
  remoteIp : UInt32
  localPort : UInt16
  remotePort : UInt16
  deriving DecidableEq, Repr

/-- The same connection as its other end names it. -/
def TCPTuple.mirror (t : TCPTuple) : TCPTuple :=
  ⟨t.remoteIp, t.localIp, t.remotePort, t.localPort⟩

@[simp] theorem TCPTuple.mirror_mirror (t : TCPTuple) : t.mirror.mirror = t := rfl

/-! ## Options -/

/-- `struct TCPOptions`, with the defaults of its members. -/
structure TCPOptions where
  nagleEnabled : Bool := true
  delayedAckEnabled : Bool := true
  delayedAckTimeoutMs : Nat := 200
  mss : UInt16 := 1460
  recvBufferSize : Nat := 65535
  sendBufferSize : Nat := 65535
  maxRetransmit : Int := 5
  initialRtoUs : UInt32 := 1000000
  deriving DecidableEq, Repr

/-- `TCP_MSS_MAX`, the size of the data array of a queue entry. -/
def tcpMssMax : Nat := 1460

/-! ## Segments -/

/-- `struct TCPSegment`: a parsed segment, in host byte order. -/
structure TCPSegment where
  srcAddr : UInt32
  dstAddr : UInt32
  srcPort : UInt16
  dstPort : UInt16
  seqNum : BitVec 32
  ackNum : BitVec 32
  flags : UInt8
  window : UInt16
  data : List UInt8
  deriving DecidableEq, Repr

namespace TCPSegment

def isSyn (seg : TCPSegment) : Bool := TCPFlags.has seg.flags TCPFlags.syn
def isAck (seg : TCPSegment) : Bool := TCPFlags.has seg.flags TCPFlags.ack
def isFin (seg : TCPSegment) : Bool := TCPFlags.has seg.flags TCPFlags.fin
def isRst (seg : TCPSegment) : Bool := TCPFlags.has seg.flags TCPFlags.rst

/-- `data_length`. -/
def dataLength (seg : TCPSegment) : Nat := seg.data.length

/-- `seg_len()`: SYN and FIN take one sequence number each. -/
def segLen (seg : TCPSegment) : Nat :=
  seg.dataLength + (if seg.isSyn then 1 else 0) + (if seg.isFin then 1 else 0)

/-- The tuple `on_segment_received` looks the connection up under: the
segment's own destination is the local end. -/
def tuple (seg : TCPSegment) : TCPTuple :=
  ⟨seg.dstAddr, seg.srcAddr, seg.dstPort, seg.srcPort⟩

/-- The sequence number behind the data, where a FIN of this segment lies. -/
def finSeq (seg : TCPSegment) : BitVec 32 := seg.seqNum + BitVec.ofNat 32 seg.dataLength

end TCPSegment

end NeuStack
