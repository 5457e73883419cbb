import NeuStack.Transmit

/-! # Acknowledgements and retransmission

`process_ack` with what it calls (`check_dup_ack`, `update_rtt`, the trimming of
the retransmission queue, the sampling), and the two halves of
`check_retransmit` on either side of its callback.
-/
namespace NeuStack
variable {σ : Type}

/-- `update_rtt`; the smallest RTT is only tracked in `ESTABLISHED`. -/
def TCBRtt.updateRtt (established : Bool) (rttUs : UInt32) (r : TCBRtt) : TCBRtt :=
  let minRttUs :=
    if established && (r.minRttUs == 0 || rttUs < r.minRttUs) then rttUs else r.minRttUs
  let (srttUs, rttvarUs) :=
    if r.srttUs = 0 then (rttUs, rttUs / 2)
    else
      let delta := if rttUs < r.srttUs then r.srttUs - rttUs else rttUs - r.srttUs
      ((7 * r.srttUs + rttUs) / 8, (3 * r.rttvarUs + delta) / 4)
  let rto := srttUs + max 100000 (4 * rttvarUs)
  { r with
    lastRttUs := rttUs, minRttUs, srttUs, rttvarUs
    rtoUs := if rto < 200000 then 200000 else if 60000000 < rto then 60000000 else rto }

/-- The rest of an entry whose front is acknowledged. -/
def RetransmitEntry.truncate (ackNum : BitVec 32) (e : RetransmitEntry) : RetransmitEntry :=
  let confirmed := (ackNum - e.seqStart).toNat
  { e with seqStart := ackNum, data := if confirmed ≤ tcpMssMax then e.data.drop confirmed else [] }

/-- The loop of `process_ack` over the retransmission queue.  By Karn's rule only
an entry never retransmitted gives an RTT. -/
def trimQueue (now : Nat) (established : Bool) (ackNum : BitVec 32) :
    TCBRtt → List RetransmitEntry → TCBRtt × List RetransmitEntry
  | r, [] => (r, [])
  | r, e :: q =>
    if seqLe e.seqEnd ackNum then
      let r := if r.rttMeasuring && seqLe r.rttSeq e.seqEnd && e.retransmitCount == 0 then
          { r.updateRtt established (UInt32.ofNat (now - r.rttSendTime)) with rttMeasuring := false }
        else r
      trimQueue now established ackNum r q
    else if seqLt e.seqStart ackNum then (r, e.truncate ackNum :: q)
    else (r, e :: q)

namespace Conn
variable [ICongestionControl σ]

/-- `check_dup_ack`.  The third duplicate reports a loss and sends the head of
the queue again; in Reno's fast recovery a duplicate only inflates the window. -/
def checkDupAck (ackNum : BitVec 32) (c : Conn σ) : Conn σ :=
  match c.tcb.retransmitQueue with
  | [] => c
  | entry :: _ =>
    if ackNum ≠ c.tcb.sndUna then c
    else if c.tcb.congestionControl.any (·.inFastRecovery) then
      { c with tcb := { c.tcb with
          congestionControl := c.tcb.congestionControl.map (·.renoDupAck) } }
    else if c.tcb.dupAckCount + 1 = 3 then
      let c := { c with tcb := { c.tcb with
        packetsLostPeriod := c.tcb.packetsLostPeriod + 1
        congestionControl := c.tcb.congestionControl.map (·.onLoss 0)
        dupAckCount := 0 } }
      if 0 < entry.data.length then
        c.rawSend TCPFlags.ack entry.seqStart (entry.data.take c.tcb.options.mss.toNat)
      else c
    else { c with tcb := { c.tcb with dupAckCount := c.tcb.dupAckCount + 1 } }

/-- The part of `process_ack` that moves `snd_una`, informs the congestion
controller and trims the queue. -/
def advance (env : Env) (ackNum : BitVec 32) (c : Conn σ) : Conn σ :=
  let t := c.tcb
  let bytesAcked := UInt32.ofNat (ackNum - t.sndUna).toNat
  let (rtt, queue) := trimQueue env.now (t.state == .established) ackNum t.toTCBRtt t.retransmitQueue
  { c with tcb := { t with
      sndUna := ackNum
      congestionControl := t.congestionControl.map (·.onAck bytesAcked t.srttUs env.now)
      bytesAckedPeriod := t.bytesAckedPeriod + bytesAcked
      toTCBRtt := rtt
      retransmitQueue := queue
      dupAckCount := 0
      lastAckNum := ackNum } }

/-- The sample `process_ack` pushes at most every 10 ms. -/
def sample (env : Env) (c : Conn σ) : Conn σ :=
  let t := c.tcb
  if env.metricsBuf && 0 < t.bytesSentPeriod && t.lastSampleTimeUs + 10000 ≤ env.now then
    let sample : TCPSample := {
      timestampUs := env.now
      rttUs := if 0 < t.lastRttUs then t.lastRttUs else t.srttUs
      minRttUs := t.minRttUs
      srttUs := t.srttUs
      cwnd := match t.congestionControl with
        | some cc => cc.cwnd / t.options.mss.toUInt32
        | none => 1
      ssthresh := match t.congestionControl with
        | some cc => cc.ssthresh
        | none => 4294967295
      bytesInFlight := if t.sndUna < t.sndNxt then t.sndNxt - t.sndUna else 0
      lossDetected := 0 < t.packetsLostPeriod
      isAppLimited := t.sendBuffer.empty
      ecnCeCount := t.ecnCePeriod
      packetsSent := t.packetsSentPeriod
      packetsLost := t.packetsLostPeriod }
    let c := c.log (.sampled c.ptr sample)
    { c with tcb := { c.tcb with toTCBSampling := { lastSampleTimeUs := env.now } } }
  else c

/-- `process_ack`.  The peer's window is taken over before the acknowledgement is
looked at; one that confirms nothing still sends when the window opens from zero. -/
def processAck (env : Env) (ackNum : BitVec 32) (window : UInt16) (c : Conn σ) : Conn σ :=
  let oldWnd := c.tcb.sndWnd
  let c := { c with tcb := { c.tcb with sndWnd := window.toNat } }
  let c := c.checkDupAck ackNum
  if !seqGt ackNum c.tcb.sndUna then
    if oldWnd = 0 ∧ 0 < window then c.sendBufferedData env else c
  else ((c.advance env ackNum).sendBufferedData env).sample env

/-- `check_retransmit`, up to its callback: count the timeout of the head. -/
def countRetransmit (c : Conn σ) : Conn σ :=
  match c.tcb.retransmitQueue with
  | [] => c
  | entry :: rest =>
    { c with tcb := { c.tcb with
        retransmitQueue := { entry with retransmitCount := entry.retransmitCount + 1 } :: rest
        congestionControl := c.tcb.congestionControl.map (·.renoTimeout) } }

omit [ICongestionControl σ] in
/-- The flags an entry without data is sent again with; none in the other states. -/
def retransmitFlags : TCPState → UInt8
  | .synSent => TCPFlags.syn
  | .synRcvd => TCPFlags.syn ||| TCPFlags.ack
  | .finWait1 | .lastAck => TCPFlags.fin ||| TCPFlags.ack
  | _ => 0

/-- `check_retransmit`, the retransmission: back off and send the head again. -/
def retransmit (env : Env) (c : Conn σ) : Conn σ :=
  match c.tcb.retransmitQueue with
  | [] => c
  | entry :: rest =>
    let rtoUs : UInt32 := min (c.tcb.rtoUs * 2) 60000000
    let c := { c with tcb := { c.tcb with
      packetsLostPeriod := c.tcb.packetsLostPeriod + 1
      rtoUs := rtoUs
      rttMeasuring := false
      retransmitQueue := { entry with timeout := env.now + rtoUs.toNat } :: rest } }
    if 0 < entry.data.length then
      c.rawSend (TCPFlags.ack ||| TCPFlags.psh) entry.seqStart
        (entry.data.take c.tcb.options.mss.toNat)
    else if retransmitFlags c.tcb.state ≠ 0 then
      c.rawSend (retransmitFlags c.tcb.state) entry.seqStart []
    else c

end Conn

end NeuStack
