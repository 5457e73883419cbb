import NeuStack.CheckedConnections

/-! # Checked divisions of the manager

The functions of `TCPConnectionManager` from which a division can be reached, once more with
the divisors checked: the calls `send()` and `close()`, and so every callback, since the
application may answer it with a call; and `process_ack`, and so every handler.  The others
are taken as they are.

Every connection, whatever its state, rests on the options it was made with and on the
controller installed then (`NonzeroDivisors`).  As long as the application sets no default
options with an MSS of zero, no function of the manager stops, and each keeps that.
-/
namespace NeuStack
open Checked
variable {σ : Type} [ICongestionControl σ] [CheckedControl σ]

namespace TCPConnectionManager

/-! ## The checked functions -/

omit [ICongestionControl σ] [CheckedControl σ] in
/-- Let `f` work on the TCB at `p`. -/
def on? (m : TCPConnectionManager σ) (p : Ptr) (f : Conn σ → Option (Conn σ)) :
    Option (TCPConnectionManager σ) :=
  match m.heap p with
  | none => some m
  | some t => (f ⟨p, t, m.trace⟩).map m.store

/-- `close()`. -/
def close? (env : Env) (p : Ptr) (m : TCPConnectionManager σ) : Option (TCPConnectionManager σ) :=
  match m.heap p with
  | none => some m
  | some t =>
    match t.state with
    | .established | .closeWait => m.on? p (·.finish? env)
    | _ => some (m.close env p)

def call? (env : Env) (m : TCPConnectionManager σ) : Call → Option (TCPConnectionManager σ)
  | .send p data => m.on? p fun c => (c.send? env data).map (·.2)
  | .close p => m.close? env p
  | a => some (m.call env a)

/-! ### Callbacks -/

def calls? (env : Env) (m : TCPConnectionManager σ) (cs : List Call) :
    Option (TCPConnectionManager σ) :=
  cs.foldlM (call? env) m

/-- Invoke the callback `cb`, if it is set; the application answers with calls. -/
def invoke? (ctx : Context σ) (ev : Event) (cb : Option Callback) (m : TCPConnectionManager σ) :
    Option (TCPConnectionManager σ) :=
  let m := m.log ev
  if cb.isSome then m.calls? ctx.toEnv (ctx.app m ev) else some m

/-- `tcb->on_connect(tcb, error)`. -/
def notifyConnect? (ctx : Context σ) (p : Ptr) (error : Int) (m : TCPConnectionManager σ) :
    Option (TCPConnectionManager σ) :=
  match m.heap p with
  | none => some m
  | some t => m.invoke? ctx (.onConnect p t.onConnect error) t.onConnect

/-- `tcb->on_close(tcb)`. -/
def notifyClose? (ctx : Context σ) (p : Ptr) (m : TCPConnectionManager σ) :
    Option (TCPConnectionManager σ) :=
  match m.heap p with
  | none => some m
  | some t => m.invoke? ctx (.onClose p t.onClose) t.onClose

/-- `deliver_data`. -/
def deliverData? (ctx : Context σ) (p : Ptr) (data : List UInt8) (m : TCPConnectionManager σ) :
    Option (TCPConnectionManager σ) :=
  match m.heap p with
  | none => some m
  | some t => do
    let m ← m.invoke? ctx (.onReceive p t.onReceive data) t.onReceive
    some (m.on p (·.updateRcvWnd))

/-! ### Incoming data -/

/-- `deliver_ooo_data`, for at most `fuel` rounds. -/
def deliverOooData? (ctx : Context σ) (p : Ptr) : Nat → TCPConnectionManager σ →
    Option (TCPConnectionManager σ)
  | 0, m => some m
  | fuel + 1, m =>
    match (m.heap p).bind fun t => t.oooQueue.head?.map (t.rcvNxt, ·) with
    | none => some m
    | some (rcvNxt, front) =>
      if seqGt front.seqStart rcvNxt then some m
      else if seqLe front.seqEnd rcvNxt then
        deliverOooData? ctx p fuel (m.modify p popOoo)
      else do
        let skip := if seqLt front.seqStart rcvNxt then (rcvNxt - front.seqStart).toNat else 0
        let m ← m.deliverData? ctx p (front.data.drop skip)
        let m := m.modify p (setRcvNxt front.seqEnd)
        deliverOooData? ctx p fuel (m.modify p popOoo)

/-- `handle_data`. -/
def handleData? (ctx : Context σ) (p : Ptr) (seg : TCPSegment) (m : TCPConnectionManager σ) :
    Option (TCPConnectionManager σ) :=
  match m.heap p with
  | none => some m
  | some t =>
    let segEnd := seg.seqNum + BitVec.ofNat 32 seg.dataLength
    let old := seqLt seg.seqNum t.rcvNxt
    let overlap := if old then (t.rcvNxt - seg.seqNum).toNat else 0
    let segStart := if old then t.rcvNxt else seg.seqNum
    if seg.dataLength = 0 then some m
    else if seqLe segEnd t.rcvNxt then some m
    else if old && seg.dataLength ≤ overlap then some m
    else if segStart = t.rcvNxt then do
      let m ← m.deliverData? ctx p (seg.data.drop overlap)
      let m := m.modify p (setRcvNxt segEnd)
      let m ← m.deliverOooData? ctx p (m.oooLength p)
      some (m.on p (·.acknowledgeData ctx.toEnv))
    else
      let m := m.modify p (addToOooQueue segStart (seg.data.drop overlap))
      some (m.on p (·.sendSegment ctx.toEnv TCPFlags.ack []))

/-! ### The state handlers -/

/-- The ACK part every handler of a synchronized state begins with. -/
def handleAck? (env : Env) (p : Ptr) (seg : TCPSegment) (m : TCPConnectionManager σ) :
    Option (TCPConnectionManager σ) :=
  if seg.isAck then m.on? p (·.processAck? env seg.ackNum seg.window) else some m

/-- The data part of the handlers that still receive. -/
def handlePayload? (ctx : Context σ) (p : Ptr) (seg : TCPSegment) (m : TCPConnectionManager σ) :
    Option (TCPConnectionManager σ) :=
  if 0 < seg.dataLength then m.handleData? ctx p seg else some m

/-- `handle_syn_sent`. -/
def handleSynSent? (ctx : Context σ) (p : Ptr) (seg : TCPSegment) (m : TCPConnectionManager σ) :
    Option (TCPConnectionManager σ) :=
  if seg.isSyn && seg.isAck then
    if m.test p (fun t => seg.ackNum != t.iss + 1) then some (m.sendRst seg)
    else do
      let m := m.modify p (receiveSyn seg)
      let m ← m.on? p (·.processAck? ctx.toEnv seg.ackNum seg.window)
      let m := m.on p (·.sendSegment ctx.toEnv TCPFlags.ack [])
      (m.establish p).notifyConnect? ctx p 0
  else some (m.handleSynSent ctx p seg)

/-- `handle_established`. -/
def handleEstablished? (ctx : Context σ) (p : Ptr) (seg : TCPSegment)
    (m : TCPConnectionManager σ) : Option (TCPConnectionManager σ) := do
  let m ← m.handleAck? ctx.toEnv p seg
  let m ← m.handlePayload? ctx p seg
  if m.finInOrder p seg then
    (m.receiveFin ctx.toEnv p .established .closeWait).notifyClose? ctx p
  else some m

/-- `handle_syn_rcvd`. -/
def handleSynRcvd? (ctx : Context σ) (p : Ptr) (seg : TCPSegment) (m : TCPConnectionManager σ) :
    Option (TCPConnectionManager σ) :=
  if seg.isRst then
    if m.test p (·.passiveOpen) then some (m.deleteTcb p)
    else do
      let m ← m.notifyConnect? ctx p (-1)
      some ((m.on p (·.setState .closed)).deleteTcb p)
  else if !seg.isAck then some m
  else if m.test p (fun t => !seqGt seg.ackNum t.sndUna || seqGt seg.ackNum t.sndNxt) then
    some (m.sendRst seg)
  else do
    let m ← m.on? p (·.processAck? ctx.toEnv seg.ackNum seg.window)
    let m ← (m.establish p).notifyConnect? ctx p 0
    if 0 < seg.dataLength then m.handleEstablished? ctx p seg else some m

/-- `handle_fin_wait_1`. -/
def handleFinWait1? (ctx : Context σ) (p : Ptr) (seg : TCPSegment) (m : TCPConnectionManager σ) :
    Option (TCPConnectionManager σ) := do
  let m ← m.handleAck? ctx.toEnv p seg
  let ourFinAcked := seg.isAck && m.allAcked p
  let m ← m.handlePayload? ctx p seg
  some (if m.finInOrder p seg then
    if ourFinAcked then
      (m.receiveFin ctx.toEnv p .finWait1 .timeWait).startTimeWaitTimer ctx.toEnv p
    else m.receiveFin ctx.toEnv p .finWait1 .closing
  else if ourFinAcked then m.on p (·.setState .finWait2)
  else m)

/-- `handle_fin_wait_2`. -/
def handleFinWait2? (ctx : Context σ) (p : Ptr) (seg : TCPSegment) (m : TCPConnectionManager σ) :
    Option (TCPConnectionManager σ) := do
  let m ← m.handleAck? ctx.toEnv p seg
  let m ← m.handlePayload? ctx p seg
  some (if m.finInOrder p seg then
    (m.receiveFin ctx.toEnv p .finWait2 .timeWait).startTimeWaitTimer ctx.toEnv p
  else m)

/-- `handle_close_wait`. -/
def handleCloseWait? (ctx : Context σ) (p : Ptr) (seg : TCPSegment) (m : TCPConnectionManager σ) :
    Option (TCPConnectionManager σ) :=
  m.handleAck? ctx.toEnv p seg

/-- `handle_closing`. -/
def handleClosing? (ctx : Context σ) (p : Ptr) (seg : TCPSegment) (m : TCPConnectionManager σ) :
    Option (TCPConnectionManager σ) := do
  let m ← m.handleAck? ctx.toEnv p seg
  some (if seg.isAck && m.allAcked p then
    (m.on p (·.setState .timeWait)).startTimeWaitTimer ctx.toEnv p
  else m)

/-- `handle_last_ack`. -/
def handleLastAck? (ctx : Context σ) (p : Ptr) (seg : TCPSegment) (m : TCPConnectionManager σ) :
    Option (TCPConnectionManager σ) := do
  let m ← m.handleAck? ctx.toEnv p seg
  some (if seg.isAck && m.allAcked p then (m.endTcb p .lastAck).deleteTcb p else m)

/-- `handle_rst`. -/
def handleRst? (ctx : Context σ) (p : Ptr) (seg : TCPSegment) (m : TCPConnectionManager σ) :
    Option (TCPConnectionManager σ) :=
  if m.test p (rstInWindow seg) then do
    let m := if m.test p (·.state.isActive) then
        { m with activeConnections := m.activeConnections - 1 }
      else m
    let m ← (m.endTcb p .rst).notifyClose? ctx p
    some (m.deleteTcb p)
  else some m

/-- `on_segment_received`. -/
def onSegmentReceived? (ctx : Context σ) (seg : TCPSegment) (m : TCPConnectionManager σ) :
    Option (TCPConnectionManager σ) :=
  match m.findTcb seg.tuple <|> m.findListeningTcb seg.dstPort with
  | none => some (if seg.isRst then m else m.sendRst seg)
  | some p =>
    if seg.isRst then m.handleRst? ctx p seg
    else
      match m.heap p with
      | none => some m
      | some t =>
        match t.state with
        | .closed => some (m.handleClosed seg)
        | .listen => some (m.handleListen ctx.toEnv p seg)
        | .synSent => m.handleSynSent? ctx p seg
        | .synRcvd => m.handleSynRcvd? ctx p seg
        | .established => m.handleEstablished? ctx p seg
        | .finWait1 => m.handleFinWait1? ctx p seg
        | .finWait2 => m.handleFinWait2? ctx p seg
        | .closeWait => m.handleCloseWait? ctx p seg
        | .closing => m.handleClosing? ctx p seg
        | .lastAck => m.handleLastAck? ctx p seg
        | .timeWait => some (m.handleTimeWait ctx p seg)

/-! ### The timer -/

/-- `check_retransmit`. -/
def checkRetransmit? (ctx : Context σ) (p : Ptr) (m : TCPConnectionManager σ) :
    Option (TCPConnectionManager σ) :=
  if m.test p (retransmitDue ctx.now) then
    let m := m.on p (·.countRetransmit)
    if m.test p exhausted then do
      let m ← m.notifyClose? ctx p
      some (m.endTcb p .gaveUp)
    else some (m.on p (·.retransmit ctx.toEnv))
  else some m

/-- The body of the sweep of `on_timer`, with the tuples to delete so far. -/
def visit? (ctx : Context σ) (s : TCPConnectionManager σ × List TCPTuple) (tuple : TCPTuple) :
    Option (TCPConnectionManager σ × List TCPTuple) :=
  match s.1.findTcb tuple with
  | none => some s
  | some p => do
    let m ← s.1.checkRetransmit? ctx p
    some (if m.test p (·.state == .closed) then (m, s.2 ++ [tuple])
      else ((m.on p (·.checkDelayedAck ctx.toEnv)).on p (·.checkZeroWindowProbe ctx.toEnv), s.2))

/-- `on_timer`. -/
def onTimer? (ctx : Context σ) (order : List TCPTuple) (m : TCPConnectionManager σ) :
    Option (TCPConnectionManager σ) := do
  let keys := m.connections.map (·.1)
  let (m, toDelete) ← (if order.isPerm keys then order else keys).foldlM (visit? ctx) (m, [])
  let m := toDelete.foldl eraseConnection m
  let m := m.timeWaitList.foldl
    (fun m entry => if entry.1 ≤ ctx.now then m.expireTimeWait .timeWaitExpired entry.2 else m) m
  some { m with timeWaitList := m.timeWaitList.filter (fun entry => ctx.now < entry.1) }

/-- **One entry into the manager, with its divisors checked.** -/
def step? (m : TCPConnectionManager σ) (x : Input σ) : Option (TCPConnectionManager σ) :=
  match x.op with
  | .call c => m.call? x.ctx.toEnv c
  | .segment seg => m.onSegmentReceived? x.ctx seg
  | .timer order => m.onTimer? x.ctx order

end TCPConnectionManager
end NeuStack
