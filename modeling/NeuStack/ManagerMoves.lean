import NeuStack.WellFormed

/-! # The moves of the manager

What one entry into the manager can do, as a sequence of **moves**.  There are
three layers.  A call of the application is made of `CallMove`s.  A handler's
work on its connection, with the application's calls from inside callbacks, is
made of `Work` moves; these take a connection nowhere but where its own FIN
leads.  The transitions of the state machine, and the moves that open or remove
connections, are the rest of `Move`.

A `Stage` is a manager in the middle of an entry.  `handed` is set between the
callback that hands data to the application and the assignment to `rcv_nxt` that
counts it; the application runs in between.
-/
namespace NeuStack
variable {σ : Type}

namespace TCPConnectionManager

/-- File a new TCB at the next address. -/
def spawn (m : TCPConnectionManager σ) (t : TCB σ) (evs : List Event) : TCPConnectionManager σ :=
  { m with
    heap := Function.update m.heap m.nextAddr (some t)
    nextAddr := m.nextAddr + 1
    connections := (t.tTuple, m.nextAddr) :: m.connections
    trace := m.trace ++ evs }

variable [ICongestionControl σ]

/-- The TCB `connect` sends its SYN from. -/
def connectTcb (env : Env) (tuple : TCPTuple) (onConnect : Option Callback)
    (m : TCPConnectionManager σ) : TCB σ :=
  let iss := env.isn m.nextAddr tuple
  { (newTcb env m.defaultOptions tuple : TCB σ) with
    onConnect, iss, sndUna := iss, sndNxt := iss }

/-- The TCB `handle_listen` sends its SYN+ACK from. -/
def acceptTcb (env : Env) (tuple : TCPTuple) (listener : TCB σ) (seg : TCPSegment)
    (m : TCPConnectionManager σ) : TCB σ :=
  inherit listener seg (env.isn m.nextAddr tuple) (newTcb env m.defaultOptions tuple)

/-- A new connection after its SYN, in state `s`. -/
def openWith (env : Env) (flags : UInt8) (s : TCPState) (t : TCB σ) (m : TCPConnectionManager σ) :
    TCPConnectionManager σ :=
  m.spawn { t.sendSyn env.now flags with state := s }
    [.created m.nextAddr t.tTuple,
      .sent m.nextAddr .segment (t.segment flags t.sndUna []),
      .moved m.nextAddr t.state s]

/-! ## The moves -/

/-- **What the call `a` of the application does**, if it does anything. -/
inductive CallMove : Call → TCPConnectionManager σ → TCPConnectionManager σ → Prop
  | conn {a : Call} {m : TCPConnectionManager σ} {p : Ptr} {t : TCB σ} {c : Conn σ}
      (ha : (∃ data, a = .send p data) ∨ a = .close p) (hp : m.heap p = some t)
      (h : Conn.ConnStep none ⟨p, t, m.trace⟩ c) : CallMove a m (m.store c)
  | setCallbacks {a : Call} {m : TCPConnectionManager σ} {p : Ptr} {t : TCB σ}
      (onReceive onClose : Option Callback)
      (ha : a = .setCallbacks p onReceive onClose ∨
        ∃ port, a = .setListenerCallbacks port onReceive onClose)
      (hp : m.heap p = some t) : CallMove a m (m.store ⟨p, { t with onReceive, onClose }, m.trace⟩)
  | setDefaultOptions (m : TCPConnectionManager σ) (opts : TCPOptions) :
      CallMove (.setDefaultOptions opts) m { m with defaultOptions := opts }
  | listen (m : TCPConnectionManager σ) (port : UInt16) (onAccept : Option Callback) :
      CallMove (.listen port onAccept) m (m.listen port onAccept)
  | unlisten {a : Call} {m : TCPConnectionManager σ} (port : UInt16)
      (ha : a = .unlisten port ∨ ∃ p, a = .close p ∧ (port, p) ∈ m.listeners) :
      CallMove a m (m.eraseListener port)
  | connect (env : Env) (m : TCPConnectionManager σ) (remoteIp : UInt32)
      (remotePort localPort : UInt16) (onConnect : Option Callback)
      (hlimit : m.connections.length < maxConnections)
      (hfree : m.findTcb ⟨m.localIp, remoteIp, localPort, remotePort⟩ = none) :
      CallMove (.connect remoteIp remotePort localPort onConnect) m
        ((m.openWith env TCPFlags.syn .synSent
          (m.connectTcb env ⟨m.localIp, remoteIp, localPort, remotePort⟩ onConnect)).log
            (.connecting m.nextAddr onConnect))
  /-- `close()` in `SYN_SENT`. -/
  | abort {m : TCPConnectionManager σ} {p : Ptr} {t : TCB σ} (hp : m.heap p = some t)
      (hs : t.state = .synSent) :
      CallMove (.close p) m ((m.log (.ended p .synSent .localClose)).eraseConnection t.tTuple)

end TCPConnectionManager

/-- The segment an input brings, if it does. -/
def Input.seg (x : Input σ) : Option TCPSegment :=
  match x.op with
  | .segment seg => some seg
  | _ => none

theorem Input.op_of_seg {x : Input σ} {seg : TCPSegment} (h : x.seg = some seg) :
    x.op = .segment seg := by
  unfold Input.seg at h
  split at h
  · cases h
    assumption
  · cases h

/-- The call is the input, or the application can make it from inside a callback. -/
def Input.Makes (x : Input σ) (a : Call) : Prop := x.op = .call a ∨ ∃ m ev, a ∈ x.ctx.app m ev

/-- A manager in the middle of an entry. -/
structure Stage (σ : Type) where
  mgr : TCPConnectionManager σ
  handed : Option (Ptr × BitVec 32) := none

namespace TCPConnectionManager
variable [ICongestionControl σ]

/-- **A handler's work on its connection.** -/
inductive Work (x : Input σ) : Stage σ → Stage σ → Prop
  | call {m m' : TCPConnectionManager σ} {a : Call} (d : Option (Ptr × BitVec 32))
      (ha : x.Makes a) (h : CallMove a m m') : Work x ⟨m, d⟩ ⟨m', d⟩
  | conn {m : TCPConnectionManager σ} {p : Ptr} {t : TCB σ} {c : Conn σ}
      (d : Option (Ptr × BitVec 32)) (hp : m.heap p = some t)
      (h : Conn.ConnStep x.seg ⟨p, t, m.trace⟩ c) : Work x ⟨m, d⟩ ⟨m.store c, d⟩
  | notifyClose {m : TCPConnectionManager σ} {p : Ptr} {t : TCB σ} (hp : m.heap p = some t) :
      Work x ⟨m, none⟩ ⟨m.log (.onClose p t.onClose), none⟩
  /-- The new part of the segment's data goes to the application. -/
  | deliver {m : TCPConnectionManager σ} {p : Ptr} {t : TCB σ} {seg : TCPSegment} (skip : Nat)
      (hx : x.seg = some seg) (hp : m.heap p = some t) (hs : t.state.isActive = true)
      (hdata : 0 < seg.dataLength) (hskip : skip < seg.dataLength)
      (hpos : (seqLt seg.seqNum t.rcvNxt = true ∧ skip = (t.rcvNxt - seg.seqNum).toNat) ∨
        (seg.seqNum = t.rcvNxt ∧ skip = 0)) :
      Work x ⟨m, none⟩ ⟨m.log (.onReceive p t.onReceive (seg.data.drop skip)),
        some (p, seg.seqNum + BitVec.ofNat 32 seg.dataLength)⟩
  /-- So does that of the front of the out-of-order queue. -/
  | deliverOoo {m : TCPConnectionManager σ} {p : Ptr} {t : TCB σ} {front : OutOfOrderSegment}
      {rest : List OutOfOrderSegment} (hp : m.heap p = some t) (hs : t.state.isActive = true)
      (hq : t.oooQueue = front :: rest) (hgt : seqGt front.seqStart t.rcvNxt = false)
      (hle : seqLe front.seqEnd t.rcvNxt = false) :
      Work x ⟨m, none⟩ ⟨m.log (.onReceive p t.onReceive (front.data.drop
        (if seqLt front.seqStart t.rcvNxt then (t.rcvNxt - front.seqStart).toNat else 0))),
        some (p, front.seqEnd)⟩
  | advanceRcv {m : TCPConnectionManager σ} {p : Ptr} {t : TCB σ} {seq : BitVec 32}
      (hp : m.heap p = some t) (hs : t.state.isActive = true) :
      Work x ⟨m, some (p, seq)⟩ ⟨m.store ⟨p, setRcvNxt seq t, m.trace⟩, none⟩
  | popOoo {m : TCPConnectionManager σ} {p : Ptr} {t : TCB σ} (hp : m.heap p = some t)
      (hs : t.state.isActive = true) :
      Work x ⟨m, none⟩ ⟨m.store ⟨p, popOoo t, m.trace⟩, none⟩
  | stash {m : TCPConnectionManager σ} {p : Ptr} {t : TCB σ} {seg : TCPSegment}
      (hx : x.seg = some seg) (hp : m.heap p = some t) (hs : t.state.isActive = true) :
      Work x ⟨m, none⟩ ⟨m.store ⟨p, addToOooQueue seg.seqNum seg.data t, m.trace⟩, none⟩

/-- The TCB of a simultaneous open before its second SYN. -/
def rewind (seg : TCPSegment) (t : TCB σ) : TCB σ :=
  { receiveSyn seg t with retransmitQueue := [], sndNxt := t.iss }

/-- The segment ends the handshake of `t`; `t'` is the TCB that processes its
acknowledgement. -/
inductive Handshake (seg : TCPSegment) (t : TCB σ) : TCB σ → Prop
  | synSent (hs : t.state = .synSent) (hsyn : seg.isSyn = true)
      (hnum : seg.ackNum = t.iss + 1) : Handshake seg t (receiveSyn seg t)
  | synRcvd (hs : t.state = .synRcvd) (hgt : seqGt seg.ackNum t.sndUna = true)
      (hle : seqGt seg.ackNum t.sndNxt = false) : Handshake seg t t

omit [ICongestionControl σ] in
theorem Handshake.opening {seg : TCPSegment} {t t' : TCB σ} (h : Handshake seg t t') :
    t.state = .synSent ∨ t.state = .synRcvd := by
  cases h with
  | synSent hs => exact Or.inl hs
  | synRcvd hs => exact Or.inr hs

omit [ICongestionControl σ] in
theorem Handshake.state {seg : TCPSegment} {t t' : TCB σ} (h : Handshake seg t t') :
    t'.state = t.state := by
  cases h <;> rfl

omit [ICongestionControl σ] in
theorem Handshake.identity {seg : TCPSegment} {t t' : TCB σ} (h : Handshake seg t t') :
    t'.toTCBIdentity = t.toTCBIdentity := by
  cases h <;> rfl

/-- Processing the acknowledgement does not change the state yet. -/
theorem Handshake.path_state {seg : TCPSegment} {t t' : TCB σ} (h : Handshake seg t t')
    {x : Option TCPSegment} {p : Ptr} {tr : List Event} {c : Conn σ}
    (hpath : Conn.Path x ⟨p, t', tr⟩ c) : c.tcb.state = t.state := by
  have hreach := hpath.state
  dsimp only at hreach
  rw [h.state] at hreach
  rcases hreach with hstate | ⟨hcan, -⟩
  · exact hstate
  · rcases h.opening with hs | hs <;> rw [hs] at hcan <;> cases hcan

theorem Handshake.path_identity {seg : TCPSegment} {t t' : TCB σ} (h : Handshake seg t t')
    {x : Option TCPSegment} {p : Ptr} {tr : List Event} {c : Conn σ}
    (hpath : Conn.Path x ⟨p, t', tr⟩ c) : c.tcb.toTCBIdentity = t.toTCBIdentity :=
  hpath.identity.trans h.identity

/-- The connection still has the shape of an opening one. -/
theorem Handshake.path_opening {seg : TCPSegment} {t t' : TCB σ} (h : Handshake seg t t')
    {x : Option TCPSegment} {p : Ptr} {tr : List Event} {c : Conn σ}
    (hpath : Conn.Path x ⟨p, t', tr⟩ c) (hshape : t.Shape) : c.tcb.Opening := by
  have hstate := h.path_state hpath
  cases h with
  | synSent hs =>
    have ho : (receiveSyn seg t).Opening := (hshape.sent hs).congr rfl rfl rfl rfl rfl rfl rfl
    exact (hpath.shape (.of_sent hs ho)).sent (hstate.trans hs)
  | synRcvd hs => exact ((hpath.shape hshape).rcvd (hstate.trans hs)).1

/-- Where the FIN of a peer takes a connection: `handler` is the state whose
handler runs, `actual` the one the connection is in. -/
inductive FinEdge : (handler actual next : TCPState) → Prop
  | established : FinEdge .established .established .closeWait
  /-- The local FIN went out while the handler ran. -/
  | overtaken : FinEdge .established .finWait1 .closeWait
  | closing : FinEdge .finWait1 .finWait1 .closing
  | finWait1 : FinEdge .finWait1 .finWait1 .timeWait
  | finWait2 : FinEdge .finWait2 .finWait2 .timeWait

/-- Where an acknowledgement of the local FIN takes a connection that stays. -/
inductive AckEdge : (s next : TCPState) → Prop
  | finWait1 : AckEdge .finWait1 .finWait2
  | closing : AckEdge .closing .timeWait

theorem FinEdge.isActive {handler s next : TCPState} (h : FinEdge handler s next) :
    s.isActive = true ∧ next.isActive = true := by
  cases h <;> exact ⟨rfl, rfl⟩

theorem FinEdge.canSend {handler s next : TCPState} (h : FinEdge handler s next)
    (hnext : next.canSend = false) : s.canSend = false := by
  cases h <;> first | rfl | cases hnext

theorem FinEdge.next_eq {handler s next : TCPState} (h : FinEdge handler s next) :
    next = .closeWait ∨ next.canSend = false := by
  cases h <;> first | exact Or.inl rfl | exact Or.inr rfl

theorem AckEdge.isActive {s next : TCPState} (h : AckEdge s next) :
    s.isActive = true ∧ next.isActive = true := by
  cases h <;> exact ⟨rfl, rfl⟩

theorem AckEdge.canSend {s next : TCPState} (h : AckEdge s next) : s.canSend = false := by
  cases h <;> rfl

theorem AckEdge.next_canSend {s next : TCPState} (h : AckEdge s next) : next.canSend = false := by
  cases h <;> rfl

/-- `handle_rst` up to its callback. -/
def resetTcb (m : TCPConnectionManager σ) (p : Ptr) : TCPConnectionManager σ :=
  (if m.test p (·.state.isActive) then { m with activeConnections := m.activeConnections - 1 }
    else m).endTcb p .rst

/-- **One move of the manager**, made while the input `x` is processed, which came
to the manager `o`. -/
inductive Move (o : TCPConnectionManager σ) (x : Input σ) : Stage σ → Stage σ → Prop
  | work {s s' : Stage σ} (h : Work x s s') : Move o x s s'
  | reply (m : TCPConnectionManager σ) (seg : TCPSegment) (hx : x.seg = some seg) :
      Move o x ⟨m, none⟩ ⟨m.sendRst seg, none⟩
  /-- `create_tcb` overwrites an entry. -/
  | replace {seg : TCPSegment} {lp old : Ptr} {listener : TCB σ} (hx : x.seg = some seg)
      (hrst : seg.isRst = false) (hsyn : seg.isSyn = true) (hnack : seg.isAck = false)
      (hnew : o.findTcb seg.tuple = none) (hlisten : o.findListeningTcb seg.dstPort = some lp)
      (hlp : o.heap lp = some listener) (hs : listener.state = .listen)
      (hlimit : o.connections.length < maxConnections)
      (hold : o.findTcb ⟨o.localIp, seg.srcAddr, seg.dstPort, seg.srcPort⟩ = some old) :
      Move o x ⟨o, none⟩ ⟨(o.endTcb old .replaced).eraseConnection
        ⟨o.localIp, seg.srcAddr, seg.dstPort, seg.srcPort⟩, none⟩
  | accept (env : Env) {m : TCPConnectionManager σ} {seg : TCPSegment} {lp : Ptr} {listener : TCB σ}
      (hx : x.seg = some seg) (hsyn : seg.isSyn = true) (hnack : seg.isAck = false)
      (hlisten : m.findListeningTcb seg.dstPort = some lp) (hlp : m.heap lp = some listener)
      (hlimit : m.connections.length < maxConnections)
      (hfree : m.findTcb ⟨m.localIp, seg.srcAddr, seg.dstPort, seg.srcPort⟩ = none) :
      Move o x ⟨m, none⟩ ⟨m.openWith env (TCPFlags.syn ||| TCPFlags.ack) .synRcvd
        (m.acceptTcb env ⟨m.localIp, seg.srcAddr, seg.dstPort, seg.srcPort⟩ listener seg), none⟩
  | simultaneousOpen (env : Env) {m : TCPConnectionManager σ} {p : Ptr} {t : TCB σ}
      {seg : TCPSegment} (hx : x.seg = some seg) (hp : m.heap p = some t) (hs : t.state = .synSent)
      (hsyn : seg.isSyn = true) (hnack : seg.isAck = false) :
      Move o x ⟨m, none⟩ ⟨m.store ((Conn.mk p (rewind seg t) m.trace).sendSegment env
        (TCPFlags.syn ||| TCPFlags.ack) [] |>.setState .synRcvd), none⟩
  /-- The handshake ends, once the connection has processed the acknowledgement
  of its SYN. -/
  | establish {m : TCPConnectionManager σ} {p : Ptr} {t t' : TCB σ} {seg : TCPSegment} {c : Conn σ}
      (hx : x.seg = some seg) (hp : m.heap p = some t) (hack : seg.isAck = true)
      (hopening : Handshake seg t t') (hpath : Conn.Path x.seg ⟨p, t', m.trace⟩ c)
      (hstate : c.tcb.state = t.state) (huna : c.tcb.sndUna = t.iss + 1)
      (hq : c.tcb.retransmitQueue = []) :
      Move o x ⟨m, none⟩ ⟨((m.store c).establish p).log (.onConnect p t.onConnect 0), none⟩
  | receiveFin (env : Env) {m : TCPConnectionManager σ} {p : Ptr} {t : TCB σ} {seg : TCPSegment}
      {handler next : TCPState} (hx : x.seg = some seg) (hp : m.heap p = some t)
      (hfin : seg.isFin = true) (hseq : seg.finSeq = t.rcvNxt)
      (hedge : FinEdge handler t.state next) :
      Move o x ⟨m, none⟩ ⟨m.receiveFin env p handler next, none⟩
  | finAcked {m : TCPConnectionManager σ} {p : Ptr} {t : TCB σ} {next : TCPState}
      (hp : m.heap p = some t) (hedge : AckEdge t.state next) :
      Move o x ⟨m, none⟩ ⟨m.store ((Conn.mk p t m.trace).setState next), none⟩
  | lastAck {m : TCPConnectionManager σ} {p : Ptr} {t : TCB σ} (hp : m.heap p = some t)
      (hs : t.state = .lastAck) :
      Move o x ⟨m, none⟩ ⟨(m.endTcb p .lastAck).eraseConnection t.tTuple, none⟩
  | rst {p : Ptr} {t : TCB σ} {seg : TCPSegment} (hx : x.seg = some seg) (hrst : seg.isRst = true)
      (hfind : (o.findTcb seg.tuple <|> o.findListeningTcb seg.dstPort) = some p)
      (hp : o.heap p = some t) (hwnd : rstInWindow seg t = true) :
      Move o x ⟨o, none⟩ ⟨o.resetTcb p, none⟩
  | giveUp {m : TCPConnectionManager σ} {p : Ptr} {t : TCB σ} (hp : m.heap p = some t)
      (hs : t.state ≠ .listen) :
      Move o x ⟨m, none⟩ ⟨m.endTcb p .gaveUp, none⟩
  | timeWaitEnd {m : TCPConnectionManager σ} {p : Ptr} {t : TCB σ} {cause : EndCause}
      (hp : m.heap p = some t) (hs : t.state = .timeWait)
      (hcause : cause = .timeWaitExpired ∨ cause = .timeWaitEvicted) :
      Move o x ⟨m, none⟩ ⟨(m.endTcb p cause).eraseConnection t.tTuple, none⟩
  /-- A connection that was set to `CLOSED` leaves the table. -/
  | eraseClosed {m : TCPConnectionManager σ} {p : Ptr} {t : TCB σ} (hp : m.heap p = some t)
      (hs : t.state = .closed) (hk : (t.tTuple, p) ∈ m.connections) :
      Move o x ⟨m, none⟩ ⟨m.eraseConnection t.tTuple, none⟩
  /-- So does a listener that was reset. -/
  | eraseReset {m : TCPConnectionManager σ} {p : Ptr} {t : TCB σ} {port : UInt16}
      (hp : m.heap p = some t) (hs : t.state = .closed) (hl : (port, p) ∈ m.listeners) :
      Move o x ⟨m, none⟩ ⟨m.eraseListener port, none⟩
  | timeWaitList (m : TCPConnectionManager σ) (l : List (Nat × TCPTuple)) :
      Move o x ⟨m, none⟩ ⟨{ m with timeWaitList := l }, none⟩
  | release {m : TCPConnectionManager σ} {p : Ptr} {t : TCB σ} (hp : m.heap p = some t)
      (hs : t.state = .timeWait) :
      Move o x ⟨m, none⟩ ⟨m.store ⟨p, releaseBuffers t, m.trace⟩, none⟩

/-- A sequence of moves. -/
abbrev Path (o : TCPConnectionManager σ) (x : Input σ) : Stage σ → Stage σ → Prop :=
  Relation.ReflTransGen (Move o x)

/-- A sequence of work. -/
abbrev WorkPath (x : Input σ) : Stage σ → Stage σ → Prop :=
  Relation.ReflTransGen (Work x)

theorem WorkPath.path {o : TCPConnectionManager σ} {x : Input σ} {s s' : Stage σ}
    (h : WorkPath x s s') : Path o x s s' := Relation.ReflTransGen.mono (fun _ _ => Move.work) _ _ h

end TCPConnectionManager

end NeuStack
