import NeuStack.TCPTypes
import NeuStack.StreamBuffer
import NeuStack.CongestionControl

/-! # The transmission control block

`struct TCB` (`tcp_tcb.hpp`) and what an observer sees of a connection.

A `TCB *` is a `Ptr`: an address that is used once.  What the code does besides
changing its data is kept as a list of events, oldest first: the segments it
hands to the IP layer, the application callbacks it invokes, its changes of
state.  Three kinds of events have no counterpart in the source and record
which branch ran: `finReceived` and `finishing` the state a handler was entered
for next to the state the connection is in by then, `ended` the path on which a
connection is given up.

`Conn` is one TCB under its address with the events so far; the functions that
touch a single TCB and call nothing back are functions on it.
-/
namespace NeuStack

/-- A `TCB *`. -/
abbrev Ptr := Nat

/-- The target of a `std::function` the application registered. -/
abbrev Callback := Nat

/-- `struct RetransmitEntry`; `data` are the first `data_len` bytes of its array. -/
structure RetransmitEntry where
  seqStart : BitVec 32
  seqEnd : BitVec 32
  data : List UInt8
  sendTime : Nat
  timeout : Nat
  retransmitCount : Nat
  deriving DecidableEq, Repr

/-- `struct OutOfOrderSegment`; `data` are the first `data_len` bytes of its array. -/
structure OutOfOrderSegment where
  seqStart : BitVec 32
  seqEnd : BitVec 32
  data : List UInt8
  deriving DecidableEq, Repr

/-! ## The parts of a TCB

The members are grouped by what writes them, so that "this function leaves the
receive side alone" is one equation. -/

/-- What is settled when the connection is set up, and the callbacks. -/
structure TCBIdentity where
  options : TCPOptions := {}
  tTuple : TCPTuple := ⟨0, 0, 0, 0⟩
  passiveOpen : Bool := false
  iss : BitVec 32 := 0
  onConnect : Option Callback := none
  onReceive : Option Callback := none
  onClose : Option Callback := none

/-- The receive variables and the out-of-order queue. -/
structure TCBReceive where
  irs : BitVec 32 := 0
  rcvNxt : BitVec 32 := 0
  oooQueue : List OutOfOrderSegment := []
  oooSize : Nat := 0

/-- RTT estimation. -/
structure TCBRtt where
  srttUs : UInt32 := 0
  rttvarUs : UInt32 := 0
  rtoUs : UInt32 := 1000000
  lastRttUs : UInt32 := 0
  minRttUs : UInt32 := 0
  rttMeasuring : Bool := false
  rttSeq : BitVec 32 := 0
  rttSendTime : Nat := 0

/-- The counters of the sampling period. -/
structure TCBSampling where
  lastSampleTimeUs : Nat := 0
  packetsSentPeriod : UInt16 := 0
  packetsLostPeriod : UInt16 := 0
  ecnCePeriod : UInt8 := 0
  bytesSentPeriod : UInt32 := 0
  bytesAckedPeriod : UInt32 := 0

/-- `struct TCB`.  The receive buffer is left out: data goes straight to the
application and nothing reads it. -/
structure TCB (σ : Type) extends TCBIdentity, TCBReceive, TCBRtt, TCBSampling where
  state : TCPState := .closed
  sndUna : BitVec 32 := 0
  sndNxt : BitVec 32 := 0
  sndWnd : Nat := 0
  rcvWnd : Nat := 65535
  congestionControl : Option (CongestionControl σ) := none
  retransmitQueue : List RetransmitEntry := []
  dupAckCount : Nat := 0
  lastAckNum : BitVec 32 := 0
  sendBuffer : StreamBuffer := .ofCapacity 65536
  lastActivity : Nat := 0
  zeroWindowProbeNeeded : Bool := false
  zwpTime : Nat := 0
  delayedAckPending : Bool := false
  delayedAckTime : Nat := 0
  closePending : Bool := false

namespace TCB
variable {σ : Type}

/-- `apply_options`. -/
def applyOptions (opts : TCPOptions) (t : TCB σ) : TCB σ :=
  { t with
    sendBuffer := .ofCapacity opts.sendBufferSize, options := opts, rtoUs := opts.initialRtoUs,
    rcvWnd := opts.recvBufferSize }

/-- `effective_window`: the smaller of the congestion window and the peer's. -/
def effectiveWindow [ICongestionControl σ] (t : TCB σ) : Nat :=
  let cwnd := match t.congestionControl with
    | some cc => cc.cwnd.toNat
    | none => 65535
  min cwnd t.sndWnd

/-- `snd_nxt - snd_una`, in 32-bit arithmetic. -/
def inFlight (t : TCB σ) : Nat := (t.sndNxt - t.sndUna).toNat

/-- `(window > in_flight) ? (window - in_flight) : 0`. -/
def availableWindow [ICongestionControl σ] (t : TCB σ) : Nat := t.effectiveWindow - t.inFlight

/-- The receive window that mirrors the room in the send buffer. -/
def backPressureWindow (t : TCB σ) : Nat :=
  min (t.options.sendBufferSize - t.sendBuffer.size) t.options.recvBufferSize

end TCB

/-! ## Events -/

/-- Which of the three functions that build a segment sent it. -/
inductive SendPath where
  | segment | raw | probe
  deriving DecidableEq, Repr

/-- The path on which a connection is given up. -/
inductive EndCause where
  | rst | lastAck | timeWaitExpired | timeWaitEvicted | gaveUp | localClose | replaced
  deriving DecidableEq, Repr

/-- `struct TCPSample`, without the two rates computed in floating point. -/
structure TCPSample where
  timestampUs : Nat
  rttUs : UInt32
  minRttUs : UInt32
  srttUs : UInt32
  cwnd : UInt32
  ssthresh : UInt32
  bytesInFlight : BitVec 32
  lossDetected : Bool
  isAppLimited : Bool
  ecnCeCount : UInt8
  packetsSent : UInt16
  packetsLost : UInt16
  deriving DecidableEq, Repr

inductive Event where
  /-- The connection handed a segment to `_send_cb`. -/
  | sent (p : Ptr) (path : SendPath) (seg : TCPSegment)
  /-- `send_rst` handed a segment to `_send_cb`. -/
  | rstSent (seg : TCPSegment)
  | moved (p : Ptr) (s s' : TCPState)
  /-- `send()` took these bytes. -/
  | accepted (p : Ptr) (data : List UInt8)
  | onConnect (p : Ptr) (cb : Option Callback) (error : Int)
  | onReceive (p : Ptr) (cb : Option Callback) (data : List UInt8)
  | onClose (p : Ptr) (cb : Option Callback)
  /-- `create_tcb`. -/
  | created (p : Ptr) (tuple : TCPTuple)
  /-- `connect()` returned 0; `cb` is the callback it was given. -/
  | connecting (p : Ptr) (cb : Option Callback)
  /-- A FIN was taken in by the handler of state `handler`; the connection is
  in state `actual`. -/
  | finReceived (p : Ptr) (handler actual : TCPState)
  /-- `close()`, entered in state `entered`, goes on to its FIN; the connection
  is in state `actual`. -/
  | finishing (p : Ptr) (entered actual : TCPState)
  | ended (p : Ptr) (s : TCPState) (cause : EndCause)
  | sampled (p : Ptr) (sample : TCPSample)
  deriving DecidableEq, Repr

/-- What the functions of the connection at `p` log. -/
inductive Event.From (p : Ptr) : Event → Prop
  | sent (path : SendPath) (seg : TCPSegment) : Event.From p (.sent p path seg)
  | moved (s : TCPState) {s' : TCPState} (h : s'.canSend = false) : Event.From p (.moved p s s')
  | accepted (data : List UInt8) : Event.From p (.accepted p data)
  | finishing (entered actual : TCPState) : Event.From p (.finishing p entered actual)
  | sampled (sample : TCPSample) : Event.From p (.sampled p sample)

/-- The connection an event is about. -/
def Event.ptr : Event → Option Ptr
  | .rstSent _ => none
  | .sent p _ _ | .moved p _ _ | .accepted p _ | .onConnect p _ _ | .onReceive p _ _ | .onClose p _
  | .created p _ | .connecting p _ | .finReceived p _ _ | .finishing p _ _ | .ended p _ _
  | .sampled p _ => some p

theorem Event.From.ptr {p : Ptr} {ev : Event} (h : ev.From p) : ev.ptr = some p := by
  cases h <;> rfl

/-- What a call reads from outside: the clock, the initial sequence number drawn
for the TCB at an address, and whether a sampling buffer is attached. -/
structure Env where
  now : Nat
  isn : Ptr → TCPTuple → BitVec 32
  metricsBuf : Bool

/-! ## One connection -/

/-- A TCB, its address, and the events so far. -/
structure Conn (σ : Type) where
  ptr : Ptr
  tcb : TCB σ
  trace : List Event

namespace Conn
variable {σ : Type}

def log (c : Conn σ) (ev : Event) : Conn σ := { c with trace := c.trace ++ [ev] }

/-- `tcb->state = s`. -/
def setState (c : Conn σ) (s : TCPState) : Conn σ :=
  { c with tcb := { c.tcb with state := s }, trace := c.trace ++ [.moved c.ptr c.tcb.state s] }

@[simp] theorem log_ptr (c : Conn σ) (ev : Event) : (c.log ev).ptr = c.ptr := rfl
@[simp] theorem log_tcb (c : Conn σ) (ev : Event) : (c.log ev).tcb = c.tcb := rfl
@[simp] theorem log_trace (c : Conn σ) (ev : Event) : (c.log ev).trace = c.trace ++ [ev] := rfl

@[simp] theorem setState_ptr (c : Conn σ) (s : TCPState) : (c.setState s).ptr = c.ptr := rfl
@[simp] theorem setState_tcb (c : Conn σ) (s : TCPState) :
    (c.setState s).tcb = { c.tcb with state := s } := rfl
@[simp] theorem setState_trace (c : Conn σ) (s : TCPState) :
    (c.setState s).trace = c.trace ++ [.moved c.ptr c.tcb.state s] := rfl

end Conn

end NeuStack
