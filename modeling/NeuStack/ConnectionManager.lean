import NeuStack.Acknowledge

/-! # The connection manager

`TCPConnectionManager`: the connection and listener tables, the application's
calls, the dispatch of segments to the state handlers, and the timer.

The two maps own their TCBs through pointers; here the heap gives the TCB an
address holds, and a freed address holds none and is never used again.  Where
the source would go on with a freed TCB (an application that closes a
connection from inside its last callback), the model leaves that access out.

A callback is an event, after which the application, of which nothing is
assumed, makes the calls `Context.app` lists.  No call invokes a callback, so
callbacks do not nest.  The clock shows one time throughout a step, and the
sweep of `on_timer` visits the connections of the table in the order the input
names; a connection opened during the sweep is not visited, its timers being
set by then.
-/
namespace NeuStack

/-- What the application can ask for.  `setCallbacks` is the assignment to the
members of a TCB that the layer above makes. -/
inductive Call where
  | listen (port : UInt16) (onAccept : Option Callback)
  | setListenerCallbacks (port : UInt16) (onReceive onClose : Option Callback)
  | unlisten (port : UInt16)
  | connect (remoteIp : UInt32) (remotePort localPort : UInt16) (onConnect : Option Callback)
  | send (p : Ptr) (data : List UInt8)
  | close (p : Ptr)
  | setCallbacks (p : Ptr) (onReceive onClose : Option Callback)
  | setDefaultOptions (opts : TCPOptions)

structure TCPConnectionManager (σ : Type) where
  localIp : UInt32
  defaultOptions : TCPOptions := {}
  heap : Ptr → Option (TCB σ) := fun _ => none
  nextAddr : Ptr := 0
  connections : List (TCPTuple × Ptr) := []
  listeners : List (UInt16 × Ptr) := []
  timeWaitList : List (Nat × TCPTuple) := []
  /-- `global_metrics().active_connections`. -/
  activeConnections : BitVec 32 := 0
  trace : List Event := []

/-- The environment of a step with the application's answer to each callback. -/
structure Context (σ : Type) extends Env where
  app : TCPConnectionManager σ → Event → List Call

variable {σ : Type} in
/-- An application that answers no callback; every connection gets the same
initial number. -/
def Context.silent (now : Nat) (isn : BitVec 32) : Context σ where
  now := now
  isn _ _ := isn
  metricsBuf := false
  app _ _ := []

def timeWaitDuration : Nat := 32000000
def maxConnections : Nat := 10000
def maxTimeWaitEntries : Nat := 4000

namespace TCPConnectionManager
variable {σ : Type}

/-! ## The heap and the tables -/

def log (m : TCPConnectionManager σ) (ev : Event) : TCPConnectionManager σ :=
  { m with trace := m.trace ++ [ev] }

/-- Put a connection back under its address. -/
def store (m : TCPConnectionManager σ) (c : Conn σ) : TCPConnectionManager σ :=
  { m with heap := Function.update m.heap c.ptr (some c.tcb), trace := c.trace }

/-- Let `f` work on the TCB at `p`. -/
def on (m : TCPConnectionManager σ) (p : Ptr) (f : Conn σ → Conn σ) : TCPConnectionManager σ :=
  match m.heap p with
  | none => m
  | some t => m.store (f ⟨p, t, m.trace⟩)

/-- Change the TCB at `p`. -/
def modify (m : TCPConnectionManager σ) (p : Ptr) (f : TCB σ → TCB σ) : TCPConnectionManager σ :=
  m.on p fun c => { c with tcb := f c.tcb }

/-- A condition on the TCB at `p`. -/
def test (m : TCPConnectionManager σ) (p : Ptr) (f : TCB σ → Bool) : Bool := (m.heap p).any f

def findTcb (m : TCPConnectionManager σ) (tuple : TCPTuple) : Option Ptr :=
  m.connections.lookup tuple

def findListeningTcb (m : TCPConnectionManager σ) (port : UInt16) : Option Ptr :=
  m.listeners.lookup port

def free (m : TCPConnectionManager σ) (p : Ptr) : TCPConnectionManager σ :=
  { m with heap := Function.update m.heap p none }

/-- `_connections.erase(tuple)`. -/
def eraseConnection (m : TCPConnectionManager σ) (tuple : TCPTuple) : TCPConnectionManager σ :=
  match m.findTcb tuple with
  | none => m
  | some p => { m.free p with connections := m.connections.filter (·.1 ≠ tuple) }

/-- `_listeners.erase(port)`. -/
def eraseListener (m : TCPConnectionManager σ) (port : UInt16) : TCPConnectionManager σ :=
  match m.findListeningTcb port with
  | none => m
  | some p => { m.free p with listeners := m.listeners.filter (·.1 ≠ port) }

/-- `delete_tcb`: a listener goes first, else the entry under the TCB's own tuple. -/
def deleteTcb (m : TCPConnectionManager σ) (p : Ptr) : TCPConnectionManager σ :=
  match m.listeners.find? (·.2 == p) with
  | some (port, _) => m.eraseListener port
  | none =>
    match m.heap p with
    | none => m
    | some t =>
      if (m.findTcb t.tTuple).isSome then
        let m := if t.state.isActive then { m with activeConnections := m.activeConnections - 1 }
          else m
        m.eraseConnection t.tTuple
      else m

/-- The TCB at `p` is given up on the path `cause` and set to `CLOSED`. -/
def endTcb (m : TCPConnectionManager σ) (p : Ptr) (cause : EndCause) : TCPConnectionManager σ :=
  m.on p fun c => (c.log (.ended c.ptr c.tcb.state cause)).setState .closed

/-! ## Sending without a connection -/

/-- `send_rst`. -/
def sendRst (seg : TCPSegment) (m : TCPConnectionManager σ) : TCPConnectionManager σ :=
  m.log (.rstSent {
    srcAddr := m.localIp
    dstAddr := seg.srcAddr
    srcPort := seg.dstPort
    dstPort := seg.srcPort
    seqNum := if seg.isAck then seg.ackNum else 0
    ackNum := if seg.isAck then 0 else seg.seqNum + BitVec.ofNat 32 seg.segLen
    flags := if seg.isAck then TCPFlags.rst else TCPFlags.rst ||| TCPFlags.ack
    window := 65535
    data := [] })

variable [ICongestionControl σ]

/-! ## The application's calls -/

/-- A TCB as `create_tcb` sets it up. -/
def newTcb (env : Env) (opts : TCPOptions) (tuple : TCPTuple) : TCB σ :=
  let t : TCB σ := { tTuple := tuple, lastActivity := env.now }
  { t.applyOptions opts with
    congestionControl := some (.other (ICongestionControl.create opts.mss)) }

/-- `create_tcb`.  An entry already under the tuple is overwritten, which
destroys its TCB. -/
def createTcb (env : Env) (tuple : TCPTuple) (m : TCPConnectionManager σ) :
    Ptr × TCPConnectionManager σ :=
  let m := match m.findTcb tuple with
    | none => m
    | some old => (m.endTcb old .replaced).eraseConnection tuple
  (m.nextAddr,
    { m with
      heap := Function.update m.heap m.nextAddr (some (newTcb env m.defaultOptions tuple))
      nextAddr := m.nextAddr + 1
      connections := (tuple, m.nextAddr) :: m.connections
      trace := m.trace ++ [.created m.nextAddr tuple] })

omit [ICongestionControl σ] in
/-- The TCB `listen()` makes. -/
def listenTcb (localIp : UInt32) (port : UInt16) (onAccept : Option Callback) : TCB σ :=
  { state := .listen, tTuple := ⟨localIp, 0, port, 0⟩, onConnect := onAccept }

/-- `listen()`. -/
def listen (port : UInt16) (onAccept : Option Callback) (m : TCPConnectionManager σ) :
    TCPConnectionManager σ :=
  if port = 0 then m
  else if (m.findListeningTcb port).isSome then m
  else
    { m with
      heap := Function.update m.heap m.nextAddr (some (listenTcb m.localIp port onAccept))
      nextAddr := m.nextAddr + 1
      listeners := (port, m.nextAddr) :: m.listeners }

omit [ICongestionControl σ] in
/-- The members of a TCB that name its callbacks. -/
def setCallbacks (p : Ptr) (onReceive onClose : Option Callback) (m : TCPConnectionManager σ) :
    TCPConnectionManager σ :=
  m.modify p fun t => { t with onReceive, onClose }

/-- `connect()`. -/
def connect (env : Env) (remoteIp : UInt32) (remotePort localPort : UInt16)
    (onConnect : Option Callback) (m : TCPConnectionManager σ) : TCPConnectionManager σ :=
  let tuple : TCPTuple := ⟨m.localIp, remoteIp, localPort, remotePort⟩
  if maxConnections ≤ m.connections.length then m
  else if (m.findTcb tuple).isSome then m
  else
    let (p, m) := m.createTcb env tuple
    let iss := env.isn p tuple
    let m := m.modify p fun t => { t with onConnect, iss, sndUna := iss, sndNxt := iss }
    let m := m.on p fun c => (c.sendSegment env TCPFlags.syn []).setState .synSent
    m.log (.connecting p onConnect)

/-- `close()`. -/
def close (env : Env) (p : Ptr) (m : TCPConnectionManager σ) : TCPConnectionManager σ :=
  match m.heap p with
  | none => m
  | some t =>
    match t.state with
    | .established | .closeWait => m.on p (·.finish env)
    | .listen => m.deleteTcb p
    | .synSent => (m.on p fun c => c.log (.ended c.ptr c.tcb.state .localClose)).deleteTcb p
    | _ => m

def call (env : Env) (m : TCPConnectionManager σ) : Call → TCPConnectionManager σ
  | .listen port onAccept => m.listen port onAccept
  | .setListenerCallbacks port onReceive onClose =>
    match m.findListeningTcb port with
    | none => m
    | some p => m.setCallbacks p onReceive onClose
  | .unlisten port => m.eraseListener port
  | .connect remoteIp remotePort localPort onConnect =>
    m.connect env remoteIp remotePort localPort onConnect
  | .send p data => m.on p fun c => (c.send env data).2
  | .close p => m.close env p
  | .setCallbacks p onReceive onClose => m.setCallbacks p onReceive onClose
  | .setDefaultOptions opts => { m with defaultOptions := opts }

/-! ## Callbacks -/

def calls (env : Env) (m : TCPConnectionManager σ) (cs : List Call) : TCPConnectionManager σ :=
  cs.foldl (call env) m

/-- Invoke the callback `cb`, if it is set; the application answers with calls. -/
def invoke (ctx : Context σ) (ev : Event) (cb : Option Callback) (m : TCPConnectionManager σ) :
    TCPConnectionManager σ :=
  let m := m.log ev
  if cb.isSome then m.calls ctx.toEnv (ctx.app m ev) else m

/-- `tcb->on_connect(tcb, error)`. -/
def notifyConnect (ctx : Context σ) (p : Ptr) (error : Int) (m : TCPConnectionManager σ) :
    TCPConnectionManager σ :=
  match m.heap p with
  | none => m
  | some t => m.invoke ctx (.onConnect p t.onConnect error) t.onConnect

/-- `tcb->on_close(tcb)`. -/
def notifyClose (ctx : Context σ) (p : Ptr) (m : TCPConnectionManager σ) :
    TCPConnectionManager σ :=
  match m.heap p with
  | none => m
  | some t => m.invoke ctx (.onClose p t.onClose) t.onClose

/-- `deliver_data`: hand the data to the application, then let the receive window
follow the send buffer. -/
def deliverData (ctx : Context σ) (p : Ptr) (data : List UInt8) (m : TCPConnectionManager σ) :
    TCPConnectionManager σ :=
  match m.heap p with
  | none => m
  | some t => (m.invoke ctx (.onReceive p t.onReceive data) t.onReceive).on p (·.updateRcvWnd)

/-! ## The TIME_WAIT list -/

/-- A TIME_WAIT entry runs out: its connection goes, if it is still in TIME_WAIT. -/
def expireTimeWait (cause : EndCause) (tuple : TCPTuple) (m : TCPConnectionManager σ) :
    TCPConnectionManager σ :=
  match m.findTcb tuple with
  | none => m
  | some p =>
    if m.test p (·.state == .timeWait) then (m.endTcb p cause).deleteTcb p else m

/-- The loop of `start_time_wait_timer`: drop the oldest entries of a full list. -/
def evictTimeWait : List (Nat × TCPTuple) → TCPConnectionManager σ → TCPConnectionManager σ
  | [], m => { m with timeWaitList := [] }
  | entry :: rest, m =>
    if maxTimeWaitEntries ≤ (entry :: rest).length then
      evictTimeWait rest (m.expireTimeWait .timeWaitEvicted entry.2)
    else { m with timeWaitList := entry :: rest }

/-- What TIME_WAIT does not need any more. -/
def releaseBuffers (t : TCB σ) : TCB σ :=
  { t with sendBuffer := .ofCapacity 0, retransmitQueue := [], oooQueue := [], oooSize := 0 }

/-- `start_time_wait_timer`. -/
def startTimeWaitTimer (env : Env) (p : Ptr) (m : TCPConnectionManager σ) :
    TCPConnectionManager σ :=
  let m := evictTimeWait m.timeWaitList m
  match m.heap p with
  | none => m
  | some t =>
    let m := { m with timeWaitList := m.timeWaitList ++ [(env.now + timeWaitDuration, t.tTuple)] }
    m.modify p releaseBuffers

/-- Renew the first entry of the tuple. -/
def renewEntry (expire : Nat) (tuple : TCPTuple) : List (Nat × TCPTuple) → List (Nat × TCPTuple)
  | [] => []
  | entry :: rest =>
    if entry.2 = tuple then (expire, tuple) :: rest else entry :: renewEntry expire tuple rest

/-- `restart_time_wait_timer`. -/
def restartTimeWaitTimer (env : Env) (p : Ptr) (m : TCPConnectionManager σ) :
    TCPConnectionManager σ :=
  match m.heap p with
  | none => m
  | some t =>
    if m.timeWaitList.any (·.2 == t.tTuple) then
      { m with
        timeWaitList := renewEntry (env.now + timeWaitDuration) t.tTuple m.timeWaitList }
    else m.startTimeWaitTimer env p

/-! ## Incoming data -/

/-- `add_to_ooo_queue`. -/
def addToOooQueue (seq : BitVec 32) (data : List UInt8) (t : TCB σ) : TCB σ :=
  if t.options.recvBufferSize < t.oooSize + data.length then t
  else
    let before := t.oooQueue.takeWhile (fun e => seqLt e.seqStart seq)
    let behind := t.oooQueue.dropWhile (fun e => seqLt e.seqStart seq)
    { t with
      oooQueue := before ++ ⟨seq, seq + BitVec.ofNat 32 data.length, data⟩ :: behind
      oooSize := t.oooSize + data.length }

/-- `tcb->rcv_nxt = seq`. -/
def setRcvNxt (seq : BitVec 32) (t : TCB σ) : TCB σ := { t with rcvNxt := seq }

/-- Remove the front of the out-of-order queue. -/
def popOoo (t : TCB σ) : TCB σ :=
  match t.oooQueue with
  | [] => t
  | front :: rest => { t with oooQueue := rest, oooSize := t.oooSize - front.data.length }

/-- `deliver_ooo_data`, for at most `fuel` rounds; each takes an entry off the queue. -/
def deliverOooData (ctx : Context σ) (p : Ptr) : Nat → TCPConnectionManager σ →
    TCPConnectionManager σ
  | 0, m => m
  | fuel + 1, m =>
    match (m.heap p).bind fun t => t.oooQueue.head?.map (t.rcvNxt, ·) with
    | none => m
    | some (rcvNxt, front) =>
      if seqGt front.seqStart rcvNxt then m
      else if seqLe front.seqEnd rcvNxt then
        deliverOooData ctx p fuel (m.modify p popOoo)
      else
        let skip := if seqLt front.seqStart rcvNxt then (rcvNxt - front.seqStart).toNat else 0
        let m := m.deliverData ctx p (front.data.drop skip)
        let m := m.modify p (setRcvNxt front.seqEnd)
        deliverOooData ctx p fuel (m.modify p popOoo)

/-- The number of entries of the out-of-order queue. -/
def oooLength (m : TCPConnectionManager σ) (p : Ptr) : Nat :=
  match m.heap p with
  | none => 0
  | some t => t.oooQueue.length

/-- `handle_data`. -/
def handleData (ctx : Context σ) (p : Ptr) (seg : TCPSegment) (m : TCPConnectionManager σ) :
    TCPConnectionManager σ :=
  match m.heap p with
  | none => m
  | some t =>
    let segEnd := seg.seqNum + BitVec.ofNat 32 seg.dataLength
    let old := seqLt seg.seqNum t.rcvNxt
    let overlap := if old then (t.rcvNxt - seg.seqNum).toNat else 0
    let segStart := if old then t.rcvNxt else seg.seqNum
    if seg.dataLength = 0 then m
    else if seqLe segEnd t.rcvNxt then m
    else if old && seg.dataLength ≤ overlap then m
    else if segStart = t.rcvNxt then
      let m := m.deliverData ctx p (seg.data.drop overlap)
      let m := m.modify p (setRcvNxt segEnd)
      let m := m.deliverOooData ctx p (m.oooLength p)
      m.on p (·.acknowledgeData ctx.toEnv)
    else
      let m := m.modify p (addToOooQueue segStart (seg.data.drop overlap))
      m.on p (·.sendSegment ctx.toEnv TCPFlags.ack [])

/-! ## The state handlers -/

/-- The ACK part every handler of a synchronized state begins with. -/
def handleAck (env : Env) (p : Ptr) (seg : TCPSegment) (m : TCPConnectionManager σ) :
    TCPConnectionManager σ :=
  if seg.isAck then m.on p (·.processAck env seg.ackNum seg.window) else m

/-- The data part of the handlers that still receive. -/
def handlePayload (ctx : Context σ) (p : Ptr) (seg : TCPSegment) (m : TCPConnectionManager σ) :
    TCPConnectionManager σ :=
  if 0 < seg.dataLength then m.handleData ctx p seg else m

/-- The segment carries a FIN, and it is the next number expected. -/
def finInOrder (p : Ptr) (seg : TCPSegment) (m : TCPConnectionManager σ) : Bool :=
  seg.isFin && m.test p (fun t => seg.finSeq == t.rcvNxt)

/-- `snd_una == snd_nxt`. -/
def allAcked (p : Ptr) (m : TCPConnectionManager σ) : Bool :=
  m.test p (fun t => t.sndUna == t.sndNxt)

/-- Take in the peer's FIN and go to `next`; `handler` is the state of the
handler that does. -/
def receiveFin (env : Env) (p : Ptr) (handler next : TCPState) (m : TCPConnectionManager σ) :
    TCPConnectionManager σ :=
  m.on p fun c =>
    let c := { c with tcb := { c.tcb with rcvNxt := c.tcb.rcvNxt + 1 } }
    let c := c.sendSegment env TCPFlags.ack []
    (c.log (.finReceived c.ptr handler c.tcb.state)).setState next

/-- `handle_closed`. -/
def handleClosed (seg : TCPSegment) (m : TCPConnectionManager σ) : TCPConnectionManager σ :=
  if seg.isRst then m else m.sendRst seg

/-- What `handle_listen` copies from the listener and the SYN. -/
def inherit (listener : TCB σ) (seg : TCPSegment) (iss : BitVec 32) (t : TCB σ) : TCB σ :=
  { t with
    passiveOpen := true
    onConnect := listener.onConnect
    onReceive := listener.onReceive
    onClose := listener.onClose
    irs := seg.seqNum
    rcvNxt := seg.seqNum + 1
    iss := iss
    sndUna := iss
    sndNxt := iss
    sndWnd := seg.window.toNat }

/-- `handle_listen`.  The new connection is filed under `_local_ip`, whatever
address the SYN was sent to. -/
def handleListen (env : Env) (lp : Ptr) (seg : TCPSegment) (m : TCPConnectionManager σ) :
    TCPConnectionManager σ :=
  match m.heap lp with
  | none => m
  | some listener =>
    if !seg.isSyn || seg.isAck then m
    else if maxConnections ≤ m.connections.length then m
    else
      let tuple : TCPTuple :=
        ⟨m.localIp, seg.srcAddr, listener.tTuple.localPort, seg.srcPort⟩
      let (p, m) := m.createTcb env tuple
      let m := m.modify p (inherit listener seg (env.isn p tuple))
      m.on p fun c => (c.sendSegment env (TCPFlags.syn ||| TCPFlags.ack) []).setState .synRcvd

/-- Enter ESTABLISHED and count the connection. -/
def establish (p : Ptr) (m : TCPConnectionManager σ) : TCPConnectionManager σ :=
  { m.on p (·.setState .established) with activeConnections := m.activeConnections + 1 }

/-- `irs` and `rcv_nxt` from the peer's SYN. -/
def receiveSyn (seg : TCPSegment) (t : TCB σ) : TCB σ :=
  { t with irs := seg.seqNum, rcvNxt := seg.seqNum + 1 }

/-- `handle_syn_sent`. -/
def handleSynSent (ctx : Context σ) (p : Ptr) (seg : TCPSegment) (m : TCPConnectionManager σ) :
    TCPConnectionManager σ :=
  if seg.isSyn && seg.isAck then
    if m.test p (fun t => seg.ackNum != t.iss + 1) then m.sendRst seg
    else
      let m := m.modify p (receiveSyn seg)
      let m := m.on p (·.processAck ctx.toEnv seg.ackNum seg.window)
      let m := m.on p (·.sendSegment ctx.toEnv TCPFlags.ack [])
      (m.establish p).notifyConnect ctx p 0
  else if seg.isSyn && !seg.isAck then
    -- simultaneous open: the SYN goes out once more, now as SYN+ACK
    let m := m.modify p fun t => { receiveSyn seg t with retransmitQueue := [], sndNxt := t.iss }
    m.on p fun c =>
      (c.sendSegment ctx.toEnv (TCPFlags.syn ||| TCPFlags.ack) []).setState .synRcvd
  else m

/-- `handle_established`. -/
def handleEstablished (ctx : Context σ) (p : Ptr) (seg : TCPSegment)
    (m : TCPConnectionManager σ) : TCPConnectionManager σ :=
  let m := m.handleAck ctx.toEnv p seg
  let m := m.handlePayload ctx p seg
  if m.finInOrder p seg then
    (m.receiveFin ctx.toEnv p .established .closeWait).notifyClose ctx p
  else m

/-- `handle_syn_rcvd`.  Its RST branch is in the source, where the dispatcher
never takes a RST. -/
def handleSynRcvd (ctx : Context σ) (p : Ptr) (seg : TCPSegment) (m : TCPConnectionManager σ) :
    TCPConnectionManager σ :=
  if seg.isRst then
    if m.test p (·.passiveOpen) then m.deleteTcb p
    else ((m.notifyConnect ctx p (-1)).on p (·.setState .closed)).deleteTcb p
  else if !seg.isAck then m
  else if m.test p (fun t => !seqGt seg.ackNum t.sndUna || seqGt seg.ackNum t.sndNxt) then
    m.sendRst seg
  else
    let m := m.on p (·.processAck ctx.toEnv seg.ackNum seg.window)
    let m := (m.establish p).notifyConnect ctx p 0
    if 0 < seg.dataLength then m.handleEstablished ctx p seg else m

/-- `handle_fin_wait_1`. -/
def handleFinWait1 (ctx : Context σ) (p : Ptr) (seg : TCPSegment) (m : TCPConnectionManager σ) :
    TCPConnectionManager σ :=
  let m := m.handleAck ctx.toEnv p seg
  let ourFinAcked := seg.isAck && m.allAcked p
  let m := m.handlePayload ctx p seg
  if m.finInOrder p seg then
    if ourFinAcked then
      (m.receiveFin ctx.toEnv p .finWait1 .timeWait).startTimeWaitTimer ctx.toEnv p
    else m.receiveFin ctx.toEnv p .finWait1 .closing
  else if ourFinAcked then m.on p (·.setState .finWait2)
  else m

/-- `handle_fin_wait_2`. -/
def handleFinWait2 (ctx : Context σ) (p : Ptr) (seg : TCPSegment) (m : TCPConnectionManager σ) :
    TCPConnectionManager σ :=
  let m := m.handleAck ctx.toEnv p seg
  let m := m.handlePayload ctx p seg
  if m.finInOrder p seg then
    (m.receiveFin ctx.toEnv p .finWait2 .timeWait).startTimeWaitTimer ctx.toEnv p
  else m

/-- `handle_close_wait`: data and FIN are not looked at. -/
def handleCloseWait (ctx : Context σ) (p : Ptr) (seg : TCPSegment) (m : TCPConnectionManager σ) :
    TCPConnectionManager σ :=
  m.handleAck ctx.toEnv p seg

/-- `handle_closing`. -/
def handleClosing (ctx : Context σ) (p : Ptr) (seg : TCPSegment) (m : TCPConnectionManager σ) :
    TCPConnectionManager σ :=
  let m := m.handleAck ctx.toEnv p seg
  if seg.isAck && m.allAcked p then
    (m.on p (·.setState .timeWait)).startTimeWaitTimer ctx.toEnv p
  else m

/-- `handle_last_ack`. -/
def handleLastAck (ctx : Context σ) (p : Ptr) (seg : TCPSegment) (m : TCPConnectionManager σ) :
    TCPConnectionManager σ :=
  let m := m.handleAck ctx.toEnv p seg
  if seg.isAck && m.allAcked p then (m.endTcb p .lastAck).deleteTcb p else m

/-- `handle_time_wait`. -/
def handleTimeWait (ctx : Context σ) (p : Ptr) (seg : TCPSegment) (m : TCPConnectionManager σ) :
    TCPConnectionManager σ :=
  if seg.isFin then
    (m.on p (·.sendSegment ctx.toEnv TCPFlags.ack [])).restartTimeWaitTimer ctx.toEnv p
  else m

/-- The RST's number lies in the receive window. -/
def rstInWindow (seg : TCPSegment) (t : TCB σ) : Bool :=
  seqInRange seg.seqNum t.rcvNxt (t.rcvNxt + BitVec.ofNat 32 t.rcvWnd)

/-- `handle_rst`. -/
def handleRst (ctx : Context σ) (p : Ptr) (seg : TCPSegment) (m : TCPConnectionManager σ) :
    TCPConnectionManager σ :=
  if m.test p (rstInWindow seg) then
    let m := if m.test p (·.state.isActive) then
        { m with activeConnections := m.activeConnections - 1 }
      else m
    ((m.endTcb p .rst).notifyClose ctx p).deleteTcb p
  else m

/-- `on_segment_received`. -/
def onSegmentReceived (ctx : Context σ) (seg : TCPSegment) (m : TCPConnectionManager σ) :
    TCPConnectionManager σ :=
  match m.findTcb seg.tuple <|> m.findListeningTcb seg.dstPort with
  | none => if seg.isRst then m else m.sendRst seg
  | some p =>
    if seg.isRst then m.handleRst ctx p seg
    else
      match m.heap p with
      | none => m
      | some t =>
        match t.state with
        | .closed => m.handleClosed seg
        | .listen => m.handleListen ctx.toEnv p seg
        | .synSent => m.handleSynSent ctx p seg
        | .synRcvd => m.handleSynRcvd ctx p seg
        | .established => m.handleEstablished ctx p seg
        | .finWait1 => m.handleFinWait1 ctx p seg
        | .finWait2 => m.handleFinWait2 ctx p seg
        | .closeWait => m.handleCloseWait ctx p seg
        | .closing => m.handleClosing ctx p seg
        | .lastAck => m.handleLastAck ctx p seg
        | .timeWait => m.handleTimeWait ctx p seg

/-! ## The timer -/

/-- The head of the retransmission queue has timed out. -/
def retransmitDue (now : Nat) (t : TCB σ) : Bool :=
  t.retransmitQueue.head?.any (·.timeout ≤ now)

/-- The head of the queue has been sent too often. -/
def exhausted (t : TCB σ) : Bool :=
  t.retransmitQueue.head?.any (fun e => t.options.maxRetransmit < e.retransmitCount)

/-- `check_retransmit`. -/
def checkRetransmit (ctx : Context σ) (p : Ptr) (m : TCPConnectionManager σ) :
    TCPConnectionManager σ :=
  if m.test p (retransmitDue ctx.now) then
    let m := m.on p (·.countRetransmit)
    if m.test p exhausted then (m.notifyClose ctx p).endTcb p .gaveUp
    else m.on p (·.retransmit ctx.toEnv)
  else m

/-- The body of the sweep of `on_timer`, with the tuples to delete so far. -/
def visit (ctx : Context σ) (s : TCPConnectionManager σ × List TCPTuple) (tuple : TCPTuple) :
    TCPConnectionManager σ × List TCPTuple :=
  match s.1.findTcb tuple with
  | none => s
  | some p =>
    let m := s.1.checkRetransmit ctx p
    if m.test p (·.state == .closed) then (m, s.2 ++ [tuple])
    else ((m.on p (·.checkDelayedAck ctx.toEnv)).on p (·.checkZeroWindowProbe ctx.toEnv), s.2)

/-- `on_timer`.  `order` is the order in which the map is walked. -/
def onTimer (ctx : Context σ) (order : List TCPTuple) (m : TCPConnectionManager σ) :
    TCPConnectionManager σ :=
  let keys := m.connections.map (·.1)
  let (m, toDelete) := (if order.isPerm keys then order else keys).foldl (visit ctx) (m, [])
  let m := toDelete.foldl eraseConnection m
  let m := m.timeWaitList.foldl
    (fun m entry => if entry.1 ≤ ctx.now then m.expireTimeWait .timeWaitExpired entry.2 else m) m
  { m with timeWaitList := m.timeWaitList.filter (fun entry => ctx.now < entry.1) }

end TCPConnectionManager

/-! ## The machine -/

/-- One entry into the manager from outside. -/
inductive Op where
  | call (c : Call)
  | segment (seg : TCPSegment)
  | timer (order : List TCPTuple)

/-- An entry together with its environment. -/
structure Input (σ : Type) where
  ctx : Context σ
  op : Op

namespace TCPConnectionManager
variable {σ : Type} [ICongestionControl σ]

def step (m : TCPConnectionManager σ) (x : Input σ) : TCPConnectionManager σ :=
  match x.op with
  | .call c => m.call x.ctx.toEnv c
  | .segment seg => m.onSegmentReceived x.ctx seg
  | .timer order => m.onTimer x.ctx order

omit [ICongestionControl σ] in
/-- `TCPConnectionManager(local_ip)`. -/
def init (localIp : UInt32) : TCPConnectionManager σ := { localIp }

end TCPConnectionManager

end NeuStack
