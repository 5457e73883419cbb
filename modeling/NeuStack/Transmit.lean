import NeuStack.Growing
import NeuStack.TCB

/-! # Sending

The functions of `tcp_connection.cpp` that put segments of one connection on
the wire.  There are three ways out: `send_segment`, which moves `snd_nxt` and
keeps a copy for retransmission; `raw_send`, which does neither; and the
zero-window probe, which shows the peer the first unsent byte without counting
it as sent.

`drain` is the loop of `send_buffered_data`.  A round takes at least one byte
out of the buffer as long as the MSS is positive, so the size of the buffer
bounds the number of rounds (`drain_done`); with an MSS of zero the source would
send empty segments for ever, and the model stops.
-/
namespace NeuStack
variable {σ : Type}

/-- The sequence numbers a segment takes: SYN and FIN count one each. -/
def seqSpace (flags : UInt8) (len : Nat) : Nat :=
  (if TCPFlags.has flags TCPFlags.syn then 1 else 0) + len +
    (if TCPFlags.has flags TCPFlags.fin then 1 else 0)

/-- Start an RTT measurement unless one is running. -/
def TCBRtt.measure (r : TCBRtt) (seq : BitVec 32) (now : Nat) : TCBRtt :=
  if r.rttMeasuring then r
  else { r with rttMeasuring := true, rttSeq := seq, rttSendTime := now }

namespace TCB

/-- The segment `send_segment` and `raw_send` build. -/
def segment (t : TCB σ) (flags : UInt8) (seq : BitVec 32) (data : List UInt8) : TCPSegment where
  srcAddr := t.tTuple.localIp
  dstAddr := t.tTuple.remoteIp
  srcPort := t.tTuple.localPort
  dstPort := t.tTuple.remotePort
  seqNum := seq
  ackNum := t.rcvNxt
  flags := flags
  window := UInt16.ofNat (min t.rcvWnd 65535)
  data := data

/-- The bookkeeping of `send_segment` for what goes out. -/
def countSent (t : TCB σ) (now : Nat) (flags : UInt8) (len : Nat) : TCB σ :=
  { t with
    sndNxt := t.sndNxt + BitVec.ofNat 32 (seqSpace flags len)
    lastActivity := now
    packetsSentPeriod := t.packetsSentPeriod + 1
    bytesSentPeriod := t.bytesSentPeriod + UInt32.ofNat len }

/-- Append a retransmission entry that ends at `snd_nxt`. -/
def enqueue (t : TCB σ) (now : Nat) (seqStart : BitVec 32) (data : List UInt8) : TCB σ :=
  { t with
    toTCBRtt := t.toTCBRtt.measure seqStart now
    retransmitQueue := t.retransmitQueue ++
      [⟨seqStart, t.sndNxt, data, now, now + t.rtoUs.toNat, 0⟩] }

/-- The bookkeeping of `send_segment` for a SYN. -/
def sendSyn (t : TCB σ) (now : Nat) (flags : UInt8) : TCB σ :=
  (t.countSent now flags 0).enqueue now t.sndUna []

end TCB

namespace Conn

/-- `send_segment`.  A SYN is numbered by `snd_una`, everything else by `snd_nxt`. -/
def sendSegment (env : Env) (flags : UInt8) (data : List UInt8) (c : Conn σ) : Conn σ :=
  if tcpMssMax < data.length then c
  else
    let seqUsed := if TCPFlags.has flags TCPFlags.syn then c.tcb.sndUna else c.tcb.sndNxt
    let sent := c.tcb.countSent env.now flags data.length
    let needsRetransmit := 0 < data.length || TCPFlags.has flags (TCPFlags.syn ||| TCPFlags.fin)
    { c with
      tcb := if needsRetransmit then sent.enqueue env.now seqUsed data else sent
      trace := c.trace ++ [.sent c.ptr .segment (c.tcb.segment flags seqUsed data)] }

/-- `raw_send`: neither `snd_nxt` nor the queue changes. -/
def rawSend (flags : UInt8) (seq : BitVec 32) (data : List UInt8) (c : Conn σ) : Conn σ :=
  if tcpMssMax < data.length then c
  else c.log (.sent c.ptr .raw (c.tcb.segment flags seq data))

/-- `send_zero_window_probe`: the first unsent byte at `snd_nxt`, which stays
where it is.  The window is truncated here, not capped. -/
def sendZeroWindowProbe (c : Conn σ) : Conn σ :=
  if c.tcb.sendBuffer.empty then c
  else
    let seg := { c.tcb.segment TCPFlags.ack c.tcb.sndNxt (c.tcb.sendBuffer.peek 1) with
      window := UInt16.ofNat c.tcb.rcvWnd }
    c.log (.sent c.ptr .probe seg)

/-! ## What sending changes

`snd_nxt`, the queue, the RTT measurement and the counters; nothing else. -/

section Frame
variable (env : Env) (flags : UInt8) (data : List UInt8) (c : Conn σ)

@[simp] theorem sendSegment_ptr : (c.sendSegment env flags data).ptr = c.ptr := by
  unfold sendSegment
  split <;> rfl

@[simp] theorem sendSegment_identity :
    (c.sendSegment env flags data).tcb.toTCBIdentity = c.tcb.toTCBIdentity := by
  unfold sendSegment
  split
  · rfl
  · dsimp only
    split <;> rfl

@[simp] theorem sendSegment_receive :
    (c.sendSegment env flags data).tcb.toTCBReceive = c.tcb.toTCBReceive := by
  unfold sendSegment
  split
  · rfl
  · dsimp only
    split <;> rfl

@[simp] theorem sendSegment_state : (c.sendSegment env flags data).tcb.state = c.tcb.state := by
  unfold sendSegment
  split
  · rfl
  · dsimp only
    split <;> rfl

@[simp] theorem sendSegment_sndUna :
    (c.sendSegment env flags data).tcb.sndUna = c.tcb.sndUna := by
  unfold sendSegment
  split
  · rfl
  · dsimp only
    split <;> rfl

@[simp] theorem sendSegment_rcvWnd :
    (c.sendSegment env flags data).tcb.rcvWnd = c.tcb.rcvWnd := by
  unfold sendSegment
  split
  · rfl
  · dsimp only
    split <;> rfl

@[simp] theorem sendSegment_sndWnd :
    (c.sendSegment env flags data).tcb.sndWnd = c.tcb.sndWnd := by
  unfold sendSegment
  split
  · rfl
  · dsimp only
    split <;> rfl

@[simp] theorem sendSegment_congestionControl :
    (c.sendSegment env flags data).tcb.congestionControl = c.tcb.congestionControl := by
  unfold sendSegment
  split
  · rfl
  · dsimp only
    split <;> rfl

@[simp] theorem sendSegment_sendBuffer :
    (c.sendSegment env flags data).tcb.sendBuffer = c.tcb.sendBuffer := by
  unfold sendSegment
  split
  · rfl
  · dsimp only
    split <;> rfl

@[simp] theorem sendSegment_closePending :
    (c.sendSegment env flags data).tcb.closePending = c.tcb.closePending := by
  unfold sendSegment
  split
  · rfl
  · dsimp only
    split <;> rfl

@[simp] theorem sendSegment_delayedAckPending :
    (c.sendSegment env flags data).tcb.delayedAckPending = c.tcb.delayedAckPending := by
  unfold sendSegment
  split
  · rfl
  · dsimp only
    split <;> rfl

end Frame

/-- The events of a connection grow by its own. -/
abbrev TraceGrows (c c' : Conn σ) : Prop := Grows (Event.From c.ptr) c.trace c'.trace

theorem grows_sendSegment (env : Env) (flags : UInt8) (data : List UInt8) (c : Conn σ) :
    c.TraceGrows (c.sendSegment env flags data) := by
  unfold sendSegment
  split
  · exact .refl _
  · exact .single (.sent _ _)

theorem grows_rawSend (flags : UInt8) (seq : BitVec 32) (data : List UInt8) (c : Conn σ) :
    c.TraceGrows (c.rawSend flags seq data) := by
  unfold rawSend
  split
  · exact .refl _
  · exact .single (.sent _ _)

theorem grows_sendZeroWindowProbe (c : Conn σ) : c.TraceGrows c.sendZeroWindowProbe := by
  unfold sendZeroWindowProbe
  split
  · exact .refl _
  · exact .single (.sent _ _)

@[simp] theorem rawSend_ptr (flags : UInt8) (seq : BitVec 32) (data : List UInt8) (c : Conn σ) :
    (c.rawSend flags seq data).ptr = c.ptr := by
  unfold rawSend
  split <;> rfl

@[simp] theorem rawSend_tcb (flags : UInt8) (seq : BitVec 32) (data : List UInt8) (c : Conn σ) :
    (c.rawSend flags seq data).tcb = c.tcb := by
  unfold rawSend
  split <;> rfl

@[simp] theorem sendZeroWindowProbe_ptr (c : Conn σ) : c.sendZeroWindowProbe.ptr = c.ptr := by
  unfold sendZeroWindowProbe
  split <;> rfl

@[simp] theorem sendZeroWindowProbe_tcb (c : Conn σ) : c.sendZeroWindowProbe.tcb = c.tcb := by
  unfold sendZeroWindowProbe
  split <;> rfl

/-- A bare ACK. -/
theorem sendSegment_ack (env : Env) (c : Conn σ) :
    c.sendSegment env TCPFlags.ack [] =
      { c with
        tcb := c.tcb.countSent env.now TCPFlags.ack 0
        trace := c.trace ++
          [.sent c.ptr .segment (c.tcb.segment TCPFlags.ack c.tcb.sndNxt [])] } := rfl

@[simp] theorem sendSegment_ack_sndNxt (env : Env) (c : Conn σ) :
    (c.sendSegment env TCPFlags.ack []).tcb.sndNxt = c.tcb.sndNxt := BitVec.add_zero _

@[simp] theorem sendSegment_ack_retransmitQueue (env : Env) (c : Conn σ) :
    (c.sendSegment env TCPFlags.ack []).tcb.retransmitQueue = c.tcb.retransmitQueue := rfl

/-- A FIN. -/
theorem sendSegment_fin (env : Env) (c : Conn σ) :
    c.sendSegment env (TCPFlags.fin ||| TCPFlags.ack) [] =
      { c with
        tcb := (c.tcb.countSent env.now (TCPFlags.fin ||| TCPFlags.ack) 0).enqueue env.now
          c.tcb.sndNxt []
        trace := c.trace ++ [.sent c.ptr .segment
          (c.tcb.segment (TCPFlags.fin ||| TCPFlags.ack) c.tcb.sndNxt [])] } := rfl

/-- A SYN, with or without an acknowledgement. -/
theorem sendSegment_syn (env : Env) {flags : UInt8}
    (hflags : flags = TCPFlags.syn ∨ flags = TCPFlags.syn ||| TCPFlags.ack) (c : Conn σ) :
    c.sendSegment env flags [] =
      { c with
        tcb := c.tcb.sendSyn env.now flags
        trace := c.trace ++ [.sent c.ptr .segment (c.tcb.segment flags c.tcb.sndUna [])] } := by
  rcases hflags with rfl | rfl <;> rfl

/-- Data that fits a segment. -/
theorem sendSegment_data (env : Env) (c : Conn σ) {data : List UInt8} (hpos : 0 < data.length)
    (hle : data.length ≤ tcpMssMax) :
    c.sendSegment env (TCPFlags.ack ||| TCPFlags.psh) data =
      { c with
        tcb := (c.tcb.countSent env.now (TCPFlags.ack ||| TCPFlags.psh) data.length).enqueue
          env.now c.tcb.sndNxt data
        trace := c.trace ++ [.sent c.ptr .segment
          (c.tcb.segment (TCPFlags.ack ||| TCPFlags.psh) c.tcb.sndNxt data)] } := by
  unfold sendSegment
  rw [if_neg (by omega)]
  dsimp only
  rw [if_pos (by simp [hpos])]
  rfl

-- from here on sending is known by its lemmas
attribute [irreducible] sendSegment

section Window
variable [ICongestionControl σ]

/-- The size of the next segment out of the buffer. -/
def chunk (t : TCB σ) : Nat :=
  min (min t.sendBuffer.peekContiguous.length t.availableWindow) t.options.mss.toNat

/-- One round of the loop of `send_buffered_data`. -/
def drainStep (env : Env) (c : Conn σ) : Conn σ :=
  let toSend := chunk c.tcb
  let c := c.sendSegment env (TCPFlags.ack ||| TCPFlags.psh)
    (c.tcb.sendBuffer.peekContiguous.take toSend)
  { c with tcb := { c.tcb with sendBuffer := (c.tcb.sendBuffer.consume toSend).2 } }

/-- The loop of `send_buffered_data`, for at most `fuel` rounds. -/
def drain (env : Env) : Nat → Conn σ → Conn σ
  | 0, c => c
  | fuel + 1, c =>
    if c.tcb.sendBuffer.empty then c
    else if c.tcb.availableWindow = 0 then c
    else drain env fuel (c.drainStep env)

/-- The receive window follows the room in the send buffer. -/
def updateRcvWnd (c : Conn σ) : Conn σ :=
  { c with tcb := { c.tcb with rcvWnd := c.tcb.backPressureWindow } }

omit [ICongestionControl σ] in
@[simp] theorem updateRcvWnd_ptr (c : Conn σ) : c.updateRcvWnd.ptr = c.ptr := rfl
omit [ICongestionControl σ] in
@[simp] theorem updateRcvWnd_tcb (c : Conn σ) :
    c.updateRcvWnd.tcb = { c.tcb with rcvWnd := c.tcb.backPressureWindow } := rfl
omit [ICongestionControl σ] in
@[simp] theorem updateRcvWnd_trace (c : Conn σ) : c.updateRcvWnd.trace = c.trace := rfl

/-- The FIN of a `close()` that had to wait for the buffer. -/
def completeClose (env : Env) (c : Conn σ) : Conn σ :=
  if c.tcb.sendBuffer.empty && c.tcb.closePending then
    let c := { c with tcb := { c.tcb with closePending := false } }
    if c.tcb.state.canSend then
      (c.sendSegment env (TCPFlags.fin ||| TCPFlags.ack) []).setState c.tcb.state.afterFin
    else c
  else c

/-- `send_buffered_data`. -/
def sendBufferedData (env : Env) (c : Conn σ) : Conn σ :=
  ((c.drain env c.tcb.sendBuffer.size).updateRcvWnd).completeClose env

/-- Append to the send buffer. -/
def buffer (data : List UInt8) (c : Conn σ) : Conn σ :=
  { c with tcb := { c.tcb with sendBuffer := (c.tcb.sendBuffer.write data).2 } }

omit [ICongestionControl σ] in
@[simp] theorem buffer_ptr (data : List UInt8) (c : Conn σ) : (c.buffer data).ptr = c.ptr := rfl

omit [ICongestionControl σ] in
@[simp] theorem buffer_tcb (data : List UInt8) (c : Conn σ) :
    (c.buffer data).tcb = { c.tcb with sendBuffer := (c.tcb.sendBuffer.write data).2 } := rfl

omit [ICongestionControl σ] in
@[simp] theorem buffer_trace (data : List UInt8) (c : Conn σ) :
    (c.buffer data).trace = c.trace := rfl

/-- `send()`, with the count or error it returns. -/
def send (env : Env) (data : List UInt8) (c : Conn σ) : Int × Conn σ :=
  if !c.tcb.state.canSend then (-1, c)
  else if data.length = 0 then (0, c)
  else if c.tcb.sendBuffer.available = 0 then (-1, c)
  else
    let accepted := min data.length c.tcb.sendBuffer.available
    let data := data.take accepted
    let c := c.log (.accepted c.ptr data)
    let mss := c.tcb.options.mss.toNat
    if !c.tcb.sendBuffer.empty then (accepted, c.buffer data)
    else if c.tcb.options.nagleEnabled && c.tcb.sndNxt != c.tcb.sndUna && accepted < mss then
      (accepted, c.buffer data)
    else if c.tcb.availableWindow = 0 then (accepted, c.buffer data)
    else
      let toSend := min (min accepted c.tcb.availableWindow) mss
      let c := c.sendSegment env (TCPFlags.ack ||| TCPFlags.psh) (data.take toSend)
      let c := if toSend < accepted then c.buffer (data.drop toSend) else c
      (accepted, if !c.tcb.sendBuffer.empty then c.sendBufferedData env else c)

/-- `close()` in `ESTABLISHED` and `CLOSE_WAIT`. -/
def finish (env : Env) (c : Conn σ) : Conn σ :=
  let entered := c.tcb.state
  let c := c.sendBufferedData env
  if !c.tcb.sendBuffer.empty then { c with tcb := { c.tcb with closePending := true } }
  else
    ((c.log (.finishing c.ptr entered c.tcb.state)).sendSegment env
      (TCPFlags.fin ||| TCPFlags.ack) []).setState entered.afterFin

/-- What `handle_data` acknowledges data in sequence with: every second time at
once, if delayed acknowledgements are on. -/
def acknowledgeData (env : Env) (c : Conn σ) : Conn σ :=
  if c.tcb.options.delayedAckEnabled then
    if !c.tcb.delayedAckPending then
      { c with tcb := { c.tcb with
          delayedAckPending := true
          delayedAckTime := env.now + c.tcb.options.delayedAckTimeoutMs * 1000 } }
    else
      let c := c.sendSegment env TCPFlags.ack []
      { c with tcb := { c.tcb with delayedAckPending := false } }
  else c.sendSegment env TCPFlags.ack []

/-- `check_delayed_ack`. -/
def checkDelayedAck (env : Env) (c : Conn σ) : Conn σ :=
  if c.tcb.delayedAckPending && c.tcb.delayedAckTime ≤ env.now then
    let c := c.sendSegment env TCPFlags.ack []
    { c with tcb := { c.tcb with delayedAckPending := false } }
  else c

/-- `check_zero_window_probe`. -/
def checkZeroWindowProbe (env : Env) (c : Conn σ) : Conn σ :=
  if c.tcb.sndWnd = 0 ∧ c.tcb.sendBuffer.empty = false then
    if !c.tcb.zeroWindowProbeNeeded then
      { c with tcb := { c.tcb with
          zeroWindowProbeNeeded := true, zwpTime := env.now + c.tcb.rtoUs.toNat } }
    else if c.tcb.zwpTime ≤ env.now then
      let c := c.sendZeroWindowProbe
      { c with tcb := { c.tcb with
          zwpTime := env.now + (min (c.tcb.rtoUs * 2) 60000000 : UInt32).toNat } }
    else c
  else { c with tcb := { c.tcb with zeroWindowProbeNeeded := false } }

end Window

end Conn

end NeuStack
