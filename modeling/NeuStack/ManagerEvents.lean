import NeuStack.Listeners

/-! # What a move logs

The events of the manager, with what must hold for them (`Logged`): an event is
about a TCB that is alive or about the one that is being created, an `ended` or
`onConnect` names the state the TCB is in, and so on.  A property of the trace is
proved once for each of these kinds.
-/
namespace NeuStack
variable {σ : Type}

namespace TCPConnectionManager
variable {m m' o : TCPConnectionManager σ} {p : Ptr} {t : TCB σ}

/-- The input is a SYN for a listener that matches no connection under the address
it was sent to, but one under the address of the host. -/
def Overwrites (m : TCPConnectionManager σ) (x : Input σ) : Prop :=
  ∃ seg p, x.seg = some seg ∧ seg.isRst = false ∧ seg.isSyn = true ∧ seg.isAck = false ∧
    m.findTcb seg.tuple = none ∧ m.Listening seg.dstPort p ∧
    m.connections.length < maxConnections ∧
    (m.findTcb ⟨m.localIp, seg.srcAddr, seg.dstPort, seg.srcPort⟩).isSome

/-- Only a segment sent to another address than the host's own overwrites. -/
theorem Overwrites.dstAddr_ne {x : Input σ} (h : m.Overwrites x) {seg : TCPSegment}
    (hx : x.seg = some seg) : seg.dstAddr ≠ m.localIp := by
  obtain ⟨seg', p, hx', -, -, -, hnew, -, -, hold⟩ := h
  rw [hx] at hx'
  cases hx'
  intro hip
  rw [TCPSegment.tuple, hip] at hnew
  rw [hnew] at hold
  cases hold

/-- The tuple a SYN for a listener is filed under. -/
def filedUnder (m : TCPConnectionManager σ) (seg : TCPSegment) : TCPTuple :=
  ⟨m.localIp, seg.srcAddr, seg.dstPort, seg.srcPort⟩

/-- What comes of it: the connection is ended and removed, and a new one opened. -/
theorem Overwrites.step [ICongestionControl σ] {x : Input σ} (hover : m.Overwrites x)
    (h : m.WellFormed) : ∃ seg old t t', x.seg = some seg ∧
      m.findTcb (m.filedUnder seg) = some old ∧ m.heap old = some t ∧
      m.step x = ((m.endTcb old .replaced).eraseConnection (m.filedUnder seg)).openWith x.ctx.toEnv
        (TCPFlags.syn ||| TCPFlags.ack) .synRcvd t' := by
  obtain ⟨seg, lp, hx, hrst, hsyn, hnack, hnew, ⟨hl, l, hlp, hs⟩, hlimit, hold⟩ := hover
  obtain ⟨old, hold⟩ := Option.isSome_iff_exists.mp hold
  obtain ⟨t, hp, -⟩ := h.find hold
  have hlisten := h.findListeningTcb_iff.mpr hl
  have hstep : m.step x = m.handleListen x.ctx.toEnv lp seg := by
    rw [TCPConnectionManager.step, Input.op_of_seg hx]
    show m.onSegmentReceived x.ctx seg = _
    have hfound : (m.findTcb seg.tuple <|> m.findListeningTcb seg.dstPort) = some lp := by
      rw [hnew, hlisten]
      rfl
    simp only [onSegmentReceived, hfound, hrst, Bool.false_eq_true, if_false, hlp, hs]
  exact ⟨seg, old, t, _, hx, hold, hp, hstep.trans
    (handleListen_of_found h x.ctx.toEnv hsyn hnack hlisten hlp hlimit rfl hold)⟩

/-! ## The kinds of events -/

/-- **What can be logged** when the manager is `m`, and `n` is the next address
afterwards, while `x` is processed, which came to the manager `o`. -/
inductive Logged (o : TCPConnectionManager σ) (x : Input σ) (m : TCPConnectionManager σ)
    (n : Ptr) : Event → Prop
  | conn {p : Ptr} {t : TCB σ} {ev : Event} (hp : m.heap p = some t) (h : ev.From p) :
      Logged o x m n ev
  | rstSent (seg : TCPSegment) : Logged o x m n (.rstSent seg)
  | onReceive {p : Ptr} {t : TCB σ} (hp : m.heap p = some t) (data : List UInt8) :
      Logged o x m n (.onReceive p t.onReceive data)
  | onClose {p : Ptr} {t : TCB σ} (hp : m.heap p = some t) : Logged o x m n (.onClose p t.onClose)
  | created (hn : m.nextAddr < n) (tuple : TCPTuple) : Logged o x m n (.created m.nextAddr tuple)
  | syn (hn : m.nextAddr < n) (path : SendPath) (seg : TCPSegment) :
      Logged o x m n (.sent m.nextAddr path seg)
  | opened (hn : m.nextAddr < n) {s : TCPState} (hs : s.isOpening = true) :
      Logged o x m n (.moved m.nextAddr .closed s)
  | connecting (hn : m.nextAddr < n) (cb : Option Callback) :
      Logged o x m n (.connecting m.nextAddr cb)
  | established {p : Ptr} {t : TCB σ} (hp : m.heap p = some t) (hs : t.state.isOpening = true) :
      Logged o x m n (.moved p t.state .established)
  | onConnect {p : Ptr} {t : TCB σ} (hp : m.heap p = some t) (hs : t.state.isOpening = true) :
      Logged o x m n (.onConnect p t.onConnect 0)
  | finReceived {p : Ptr} {t : TCB σ} (hp : m.heap p = some t) (handler : TCPState) :
      Logged o x m n (.finReceived p handler t.state)
  | closeWait {p : Ptr} {t : TCB σ} (hp : m.heap p = some t) :
      Logged o x m n (.moved p t.state .closeWait)
  | ended {p : Ptr} {t : TCB σ} {cause : EndCause} (hp : m.heap p = some t)
      (hcause : cause ≠ .replaced) : Logged o x m n (.ended p t.state cause)
  | replaced {p : Ptr} {t : TCB σ} (hp : m.heap p = some t) (hover : o.Overwrites x) :
      Logged o x m n (.ended p t.state .replaced)

/-! ## Where nothing is logged -/

theorem eraseConnection_trace (m : TCPConnectionManager σ) (k : TCPTuple) :
    (m.eraseConnection k).trace = m.trace := by
  unfold eraseConnection
  split <;> rfl

theorem eraseListener_trace (m : TCPConnectionManager σ) (port : UInt16) :
    (m.eraseListener port).trace = m.trace := by
  unfold eraseListener
  split <;> rfl

theorem listen_trace (m : TCPConnectionManager σ) (port : UInt16) (onAccept : Option Callback) :
    (m.listen port onAccept).trace = m.trace := by
  unfold listen
  split
  · rfl
  · split <;> rfl

theorem resetTcb_trace (hp : m.heap p = some t) :
    (m.resetTcb p).trace = (m.endTcb p .rst).trace := by
  unfold resetTcb
  split
  · rw [endTcb_of_heap hp, endTcb_of_heap (t := t) (by exact hp)]
    rfl
  · rfl

/-! ## The moves -/

section Moves
variable {x : Input σ} {n : Ptr}

/-- Ending a connection logs just that. -/
theorem endTcb_logged (hp : m.heap p = some t) {cause : EndCause}
    (hlog : Logged o x m n (.ended p t.state cause)) :
    Grows (Logged o x m n) m.trace (m.endTcb p cause).trace := by
  rw [endTcb_of_heap hp]
  refine ⟨_, rfl, fun ev hev => ?_⟩
  rcases List.mem_pair.mp hev with rfl | rfl
  · exact hlog
  · exact .conn hp (.moved _ rfl)

theorem openWith_logged (env : Env) (flags : UInt8) {s : TCPState} (hs : s.isOpening = true)
    (hclosed : t.state = .closed) (hn : m.nextAddr < n) :
    Grows (Logged o x m n) m.trace (m.openWith env flags s t).trace := by
  refine ⟨_, rfl, fun ev hev => ?_⟩
  rw [hclosed] at hev
  simp only [List.mem_cons, List.not_mem_nil, or_false] at hev
  rcases hev with rfl | rfl | rfl
  · exact .created hn _
  · exact .syn hn _ _
  · exact .opened hn hs

end Moves

variable [ICongestionControl σ] {x : Input σ} {s s' : Stage σ}

theorem conn_logged {n : Ptr} {y : Option TCPSegment} {c : Conn σ} (hp : m.heap p = some t)
    (hpath : Conn.Path y ⟨p, t, m.trace⟩ c) : Grows (Logged o x m n) m.trace c.trace :=
  hpath.grows.mono fun _ h => .conn hp h

theorem CallMove.logged {a : Call} (hmove : CallMove a m m') :
    Grows (Logged o x m m'.nextAddr) m.trace m'.trace := by
  cases hmove with
  | conn _ hp hstep => exact conn_logged hp hstep.path
  | listen _ port onAccept =>
    rw [listen_trace]
    exact .refl _
  | unlisten port =>
    rw [eraseListener_trace]
    exact .refl _
  | connect env _ remoteIp remotePort localPort onConnect =>
    exact (openWith_logged env _ rfl rfl (Nat.lt_succ_self _)).snoc
      (.connecting (Nat.lt_succ_self _) onConnect)
  | @abort _ p t hp hs =>
    rw [eraseConnection_trace]
    exact .single (hs ▸ .ended hp (by decide))
  | _ => exact .refl _

theorem Work.logged (hmove : Work x s s') :
    Grows (Logged o x s.mgr s'.mgr.nextAddr) s.mgr.trace s'.mgr.trace := by
  cases hmove with
  | call _ _ hcall => exact hcall.logged
  | conn _ hp hstep => exact conn_logged hp hstep.path
  | notifyClose hp => exact .single (.onClose hp)
  | deliver skip hx hp => exact .single (.onReceive hp _)
  | deliverOoo hp => exact .single (.onReceive hp _)
  | _ => exact .refl _

/-- **What a move logs.** -/
theorem Move.logged (hmove : Move o x s s') (h : s.mgr.WellFormed) :
    Grows (Logged o x s.mgr s'.mgr.nextAddr) s.mgr.trace s'.mgr.trace := by
  cases hmove with
  | work hwork => exact hwork.logged
  | reply => exact .single (.rstSent _)
  | replace hx hrst hsyn hnack hnew hlisten hlp hs hlimit hold =>
    obtain ⟨t, hp, -⟩ := h.find hold
    rw [eraseConnection_trace]
    exact endTcb_logged hp (.replaced hp ⟨_, _, hx, hrst, hsyn, hnack, hnew,
      ⟨h.findListeningTcb_iff.mp hlisten, _, hlp, hs⟩, hlimit, by rw [hold]; rfl⟩)
  | accept env => exact openWith_logged env _ rfl rfl (Nat.lt_succ_self _)
  | simultaneousOpen env hx hp =>
    rw [simultaneousOpen_eq]
    refine ⟨_, rfl, fun ev hev => ?_⟩
    rcases List.mem_pair.mp hev with rfl | rfl
    · exact .conn hp (.sent _ _)
    · exact .conn hp (.moved _ rfl)
  | @establish m p t t' seg c hx hp hack hopening hpath hstate =>
    have hs : t.state.isOpening = true := by
      rcases hopening.opening with hs | hs <;> rw [hs] <;> rfl
    have hgrow : Grows (Logged o x m m.nextAddr) m.trace c.trace :=
      hpath.grows.mono fun _ h => .conn hp h
    rw [establish_store hpath.ptr, hstate]
    exact (hgrow.snoc (.established hp hs)).snoc (.onConnect hp hs)
  | receiveFin env hx hp hfin hseq hedge =>
    rw [receiveFin_of_heap hp]
    refine ⟨_, rfl, fun ev hev => ?_⟩
    simp only [List.mem_cons, List.not_mem_nil, or_false] at hev
    rcases hev with rfl | rfl | rfl
    · exact .conn hp (.sent _ _)
    · exact .finReceived hp _
    · rcases hedge.next_eq with rfl | hnext
      · exact .closeWait hp
      · exact .conn hp (.moved _ hnext)
  | finAcked hp hedge => exact .single (.conn hp (.moved _ hedge.next_canSend))
  | lastAck hp =>
    rw [eraseConnection_trace]
    exact endTcb_logged hp (.ended hp (by decide))
  | @rst p t seg hx hrst hfind hp =>
    rw [resetTcb_trace hp]
    exact endTcb_logged hp (.ended hp (by decide))
  | giveUp hp => exact endTcb_logged hp (.ended hp (by decide))
  | timeWaitEnd hp hs hcause =>
    rw [eraseConnection_trace]
    exact endTcb_logged hp (.ended hp (by rcases hcause with rfl | rfl <;> decide))
  | eraseClosed =>
    rw [eraseConnection_trace]
    exact .refl _
  | eraseReset =>
    rw [eraseListener_trace]
    exact .refl _
  | timeWaitList => exact .refl _
  | release => exact .refl _

/-! ## Addresses -/

omit [ICongestionControl σ] in
theorem eraseConnection_nextAddr (k : TCPTuple) : (m.eraseConnection k).nextAddr = m.nextAddr := by
  unfold eraseConnection
  split <;> rfl

omit [ICongestionControl σ] in
theorem eraseListener_nextAddr (port : UInt16) :
    (m.eraseListener port).nextAddr = m.nextAddr := by
  unfold eraseListener
  split <;> rfl

omit [ICongestionControl σ] in
theorem endTcb_nextAddr (p : Ptr) (cause : EndCause) : (m.endTcb p cause).nextAddr = m.nextAddr := by
  cases hp : m.heap p with
  | none => rw [endTcb, on_of_freed hp]
  | some t =>
    rw [endTcb_of_heap hp]
    rfl

theorem Move.nextAddr_le (hmove : Move o x s s') : s.mgr.nextAddr ≤ s'.mgr.nextAddr := by
  cases hmove with
  | work hwork => exact hwork.nextAddr_le
  | replace => rw [eraseConnection_nextAddr, endTcb_nextAddr]
  | accept => exact Nat.le_succ _
  | establish hx hp hack hopening hpath =>
    rw [establish_store hpath.ptr]
    exact Nat.le_refl _
  | receiveFin env hx hp =>
    rw [receiveFin_of_heap hp]
    exact Nat.le_refl _
  | lastAck => rw [eraseConnection_nextAddr, endTcb_nextAddr]
  | rst =>
    unfold resetTcb
    rw [endTcb_nextAddr]
    split <;> exact Nat.le_refl _
  | giveUp => rw [endTcb_nextAddr]
  | timeWaitEnd => rw [eraseConnection_nextAddr, endTcb_nextAddr]
  | eraseClosed => rw [eraseConnection_nextAddr]
  | eraseReset => rw [eraseListener_nextAddr]
  | _ => exact Nat.le_refl _

omit [ICongestionControl σ] in
/-- Every event is about a TCB that has been made. -/
def Made (m : TCPConnectionManager σ) : Prop :=
  ∀ ev ∈ m.trace, ∀ p, ev.ptr = some p → p < m.nextAddr

omit [ICongestionControl σ] in
/-- The next address is of nobody yet. -/
theorem Made.silent (h : m.Made) {ev : Event} (hev : ev ∈ m.trace) : ev.ptr ≠ some m.nextAddr :=
  fun hp => Nat.lt_irrefl _ (h ev hev _ hp)

omit [ICongestionControl σ] in
theorem Logged.made {n : Ptr} {ev : Event} (h : Logged o x m n ev) (hwf : m.WellFormed)
    (hle : m.nextAddr ≤ n) (hp : ev.ptr = some p) : p < n := by
  have hfresh : ∀ q t, m.heap q = some t → some q = some p → p < n := by
    intro q t hq heq
    rw [← Option.some.inj heq]
    exact Nat.lt_of_lt_of_le (hwf.fresh q t hq) hle
  cases h with
  | conn hq hfrom => exact hfresh _ _ hq (hfrom.ptr.symm.trans hp)
  | rstSent => cases hp
  | onReceive hq => exact hfresh _ _ hq hp
  | onClose hq => exact hfresh _ _ hq hp
  | created hn =>
    cases hp
    exact hn
  | syn hn =>
    cases hp
    exact hn
  | opened hn =>
    cases hp
    exact hn
  | connecting hn =>
    cases hp
    exact hn
  | established hq => exact hfresh _ _ hq hp
  | onConnect hq => exact hfresh _ _ hq hp
  | finReceived hq => exact hfresh _ _ hq hp
  | closeWait hq => exact hfresh _ _ hq hp
  | ended hq => exact hfresh _ _ hq hp
  | replaced hq => exact hfresh _ _ hq hp

theorem Move.made (hmove : Move o x s s') (hwf : s.mgr.WellFormed) (h : s.mgr.Made) :
    s'.mgr.Made := by
  intro ev hev p hp
  rcases (hmove.logged hwf).mem hev with hold | hnew
  · exact Nat.lt_of_lt_of_le (h ev hold p hp) hmove.nextAddr_le
  · exact hnew.made hwf hmove.nextAddr_le hp

end TCPConnectionManager

end NeuStack
