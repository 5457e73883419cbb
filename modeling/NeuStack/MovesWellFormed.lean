import NeuStack.ManagerMoves

/-! # What every move keeps

Every move keeps a manager well-formed.  And work on connections, which includes
whatever the application does from inside a callback, leaves a connection in the
table, in its state or in the one its FIN leads to (`WorkPath.kept`): what a
handler knew about its connection before a callback it still knows behind it.
-/
namespace NeuStack
variable {σ : Type}

/-- Where calls of the application can take a connection. -/
def TCPState.Reaches (s s' : TCPState) : Prop := s' = s ∨ (s.canSend = true ∧ s' = s.afterFin)

theorem TCPState.Reaches.trans {s s' s'' : TCPState} (h : s.Reaches s') (h' : s'.Reaches s'') :
    s.Reaches s'' := by
  rcases h' with rfl | ⟨hcan, rfl⟩
  · exact h
  · rcases h with rfl | ⟨-, rfl⟩
    · exact Or.inr ⟨hcan, rfl⟩
    · rw [TCPState.canSend_afterFin] at hcan
      cases hcan

theorem TCPState.Reaches.isActive {s s' : TCPState} (h : s.Reaches s') (hs : s.isActive = true) :
    s'.isActive = true := by
  rcases h with rfl | ⟨hcan, rfl⟩
  · exact hs
  · exact TCPState.isActive_afterFin hcan

theorem TCPState.Reaches.eq {s s' : TCPState} (h : s.Reaches s') (hs : s.canSend = false) :
    s' = s := by
  rcases h with rfl | ⟨hcan, -⟩
  · rfl
  · rw [hs] at hcan
    cases hcan

namespace TCPConnectionManager
variable {m m' : TCPConnectionManager σ} {p : Ptr} {t : TCB σ}

/-! ## The moves written out -/

theorem endTcb_of_heap (hp : m.heap p = some t) (cause : EndCause) :
    m.endTcb p cause = m.store ⟨p, { t with state := .closed },
      m.trace ++ [.ended p t.state cause, .moved p t.state .closed]⟩ := by
  rw [endTcb, on_of_heap hp]
  simp [Conn.setState, Conn.log]

/-- A TCB that is given up is closed, or gone. -/
theorem endTcb_closed {cause : EndCause} {u : TCB σ} (h : (m.endTcb p cause).heap p = some u) :
    u.state = .closed := by
  cases hp : m.heap p with
  | none =>
    rw [endTcb, on_of_freed hp, hp] at h
    cases h
  | some t =>
    rw [endTcb_of_heap hp] at h
    have hself := store_heap_self m ⟨p, { t with state := .closed },
      m.trace ++ [.ended p t.state cause, .moved p t.state .closed]⟩
    rw [hself] at h
    cases h
    rfl

theorem establish_store {c : Conn σ} (hptr : c.ptr = p) :
    (m.store c).establish p = { m.store ⟨p, { c.tcb with state := .established },
      c.trace ++ [.moved p c.tcb.state .established]⟩ with
        activeConnections := m.activeConnections + 1 } := by
  subst hptr
  have hon : (m.store c).on c.ptr (·.setState .established) =
      m.store ⟨c.ptr, { c.tcb with state := .established },
        c.trace ++ [.moved c.ptr c.tcb.state .established]⟩ := by
    rw [on_of_heap (store_heap_self m c)]
    exact store_store m c _ rfl
  rw [establish, hon]
  rfl

theorem receiveFin_of_heap (hp : m.heap p = some t) (env : Env) (handler next : TCPState) :
    m.receiveFin env p handler next = m.store ⟨p,
      { ({ t with rcvNxt := t.rcvNxt + 1 } : TCB σ).countSent env.now TCPFlags.ack 0 with
        state := next },
      m.trace ++ [
        .sent p .segment (({ t with rcvNxt := t.rcvNxt + 1 } : TCB σ).segment TCPFlags.ack
          t.sndNxt []),
        .finReceived p handler t.state, .moved p t.state next]⟩ := by
  rw [receiveFin, on_of_heap hp]
  simp [Conn.sendSegment_ack, Conn.setState, Conn.log, TCB.countSent]

theorem simultaneousOpen_eq (env : Env) (seg : TCPSegment) (m : TCPConnectionManager σ) (p : Ptr)
    (t : TCB σ) : ((Conn.mk p (rewind seg t) m.trace).sendSegment env
      (TCPFlags.syn ||| TCPFlags.ack) [] |>.setState .synRcvd) =
    ⟨p, { (rewind seg t).sendSyn env.now (TCPFlags.syn ||| TCPFlags.ack) with state := .synRcvd },
      m.trace ++ [
        .sent p .segment ((rewind seg t).segment (TCPFlags.syn ||| TCPFlags.ack) t.sndUna []),
        .moved p t.state .synRcvd]⟩ := by
  rw [Conn.sendSegment_syn env (Or.inr rfl)]
  simp [Conn.setState, TCB.sendSyn, TCB.enqueue, TCB.countSent, rewind, receiveSyn]

/-! ## Well-formedness -/

namespace WellFormed

theorem setActive (h : m.WellFormed) (n : BitVec 32) :
    ({ m with activeConnections := n } : TCPConnectionManager σ).WellFormed :=
  h.congr rfl rfl rfl rfl rfl

theorem log (h : m.WellFormed) (ev : Event) : (m.log ev).WellFormed := h.congr rfl rfl rfl rfl rfl

theorem endTcb (h : m.WellFormed) (cause : EndCause) : (m.endTcb p cause).WellFormed := by
  cases hp : m.heap p with
  | none => rwa [TCPConnectionManager.endTcb, on_of_freed hp]
  | some t =>
    rw [endTcb_of_heap hp]
    refine h.store hp rfl rfl (fun hs => ?_) (fun _ => Or.inr rfl) (.of_closed rfl) (fun hs => ?_)
    · cases hs
    · rcases hs with hs | hs <;> cases hs

theorem resetTcb (h : m.WellFormed) (p : Ptr) : (m.resetTcb p).WellFormed := by
  unfold TCPConnectionManager.resetTcb
  split
  · exact (h.setActive _).endTcb _
  · exact h.endTcb _

variable [ICongestionControl σ] {o : TCPConnectionManager σ} {x : Input σ} {a : Call}

theorem conn (h : m.WellFormed) (hp : m.heap p = some t) {c : Conn σ}
    {y : Option TCPSegment} (hstep : Conn.ConnStep y ⟨p, t, m.trace⟩ c) :
    (m.store c).WellFormed := by
  have hreach : t.state.Reaches c.tcb.state := hstep.path.state
  have hid := hstep.path.identity
  have hback : c.tcb.state.isActive = false → c.tcb.state = t.state := by
    intro hs
    rcases hreach with heq | ⟨hcan, heq⟩
    · exact heq
    · rw [heq, TCPState.isActive_afterFin hcan] at hs
      cases hs
  refine h.store hp hstep.path.ptr (congrArg TCBIdentity.tTuple hid) (fun hs => ?_) (fun hs => ?_)
    (hstep.path.shape (h.shape p t hp)) (fun hs => ?_)
  · rw [← hback (by rw [hs]; rfl), hs]
  · refine Or.inl (hreach.eq ?_)
    rcases hs with hs | hs <;> rw [hs] <;> rfl
  · have hinactive : c.tcb.state.isActive = false := by rcases hs with hs | hs <;> rw [hs] <;> rfl
    have heq := hback hinactive
    rw [hstep.sndUna (heq ▸ hinactive), show c.tcb.iss = t.iss from congrArg TCBIdentity.iss hid]
    exact h.unacked p t hp (heq ▸ hs)

omit [ICongestionControl σ] in
/-- A change of an active TCB that leaves it active. -/
theorem active (h : m.WellFormed) (hp : m.heap p = some t) (hs : t.state.isActive = true)
    {c : Conn σ} (hptr : c.ptr = p) (htuple : c.tcb.tTuple = t.tTuple)
    (hs' : c.tcb.state.isActive = true)
    (hbuf : c.tcb.state.canSend = false → c.tcb.sendBuffer.empty = true) :
    (m.store c).WellFormed := by
  refine h.store hp hptr htuple (fun hl => ?_) (fun hl => ?_) (.of_active hs' hbuf) (fun hl => ?_)
  · rw [hl] at hs'
    cases hs'
  · rcases hl with hl | hl <;> rw [hl] at hs <;> cases hs
  · rcases hl with hl | hl <;> rw [hl] at hs' <;> cases hs'

omit [ICongestionControl σ] in
/-- A change of an active TCB's receive side. -/
theorem receive (h : m.WellFormed) (hp : m.heap p = some t) (hs : t.state.isActive = true)
    {t' : TCB σ} (htuple : t'.tTuple = t.tTuple) (hstate : t'.state = t.state)
    (hbuf : t'.sendBuffer = t.sendBuffer) (tr : List Event) :
    (m.store ⟨p, t', tr⟩).WellFormed := by
  refine h.active hp hs rfl htuple (hstate ▸ hs) (fun hcan => ?_)
  rw [hbuf]
  exact (h.shape p t hp).finSent hs (hstate ▸ hcan)

omit [ICongestionControl σ] in
theorem listen (h : m.WellFormed) (port : UInt16) (onAccept : Option Callback) :
    (m.listen port onAccept).WellFormed := by
  unfold TCPConnectionManager.listen
  split
  · exact h
  · split
    · exact h
    · rename_i hfree
      have hfree : m.findListeningTcb port = none := by simpa using hfree
      have hshape : (listenTcb m.localIp port onAccept : TCB σ).Shape :=
        ⟨fun hs => (nomatch hs), fun hs => (nomatch hs), fun hs => (nomatch hs),
          fun _ => ⟨rfl, rfl⟩⟩
      exact h.alloc hshape rfl rfl rfl rfl (Or.inr ⟨rfl, hfree, rfl, rfl⟩)

omit [ICongestionControl σ] in
/-- A TCB in the shape of one that has just been created sends its SYN. -/
theorem openWith (h : m.WellFormed) (env : Env) {flags : UInt8} {s : TCPState}
    (hflags : flags = TCPFlags.syn ∨ flags = TCPFlags.syn ||| TCPFlags.ack)
    (hs : s = .synSent ∨ (s = .synRcvd ∧ t.rcvNxt = t.irs + 1))
    (huna : t.sndUna = t.iss) (hnxt : t.sndNxt = t.iss) (hq : t.retransmitQueue = [])
    (hbuf : t.sendBuffer.empty = true) (hpend : t.closePending = false)
    (hdelay : t.delayedAckPending = false) (hip : t.tTuple.localIp = m.localIp)
    (hlimit : m.connections.length < maxConnections) (hfree : m.findTcb t.tTuple = none) :
    (m.openWith env flags s t).WellFormed := by
  have hopen := TCB.opening_sendSyn env.now hflags huna hnxt hq hbuf hpend hdelay
  have hopen' : ({ t.sendSyn env.now flags with state := s } : TCB σ).Opening :=
    hopen.congr rfl rfl rfl rfl rfl rfl rfl
  have hshape : ({ t.sendSyn env.now flags with state := s } : TCB σ).Shape := by
    rcases hs with rfl | ⟨rfl, hrcv⟩
    · exact ⟨fun _ => hopen', fun hs => (nomatch hs), fun hs => (nomatch hs),
        fun hs => (nomatch hs)⟩
    · exact ⟨fun hs => (nomatch hs), fun _ => ⟨hopen', hrcv⟩, fun hs => (nomatch hs),
        fun hs => (nomatch hs)⟩
  refine h.alloc hshape huna rfl rfl rfl (Or.inl ⟨?_, hfree, hip, hlimit, rfl, rfl⟩)
  rcases hs with rfl | ⟨rfl, -⟩ <;> exact fun hs => nomatch hs

theorem callMove (h : m.WellFormed) (hmove : CallMove a m m') : m'.WellFormed := by
  cases hmove with
  | conn _ hp hstep => exact h.conn hp hstep
  | @setCallbacks _ _ p t _ _ _ hp =>
    exact h.store hp rfl rfl id (fun _ => Or.inl rfl)
      ((h.shape p t hp).congr rfl rfl rfl rfl rfl rfl rfl rfl rfl (fun _ => rfl)) (h.unacked p t hp)
  | setDefaultOptions => exact h.congr rfl rfl rfl rfl rfl
  | listen _ port onAccept => exact h.listen port onAccept
  | unlisten port => exact h.eraseListener port
  | connect env _ remoteIp remotePort localPort onConnect hlimit hfree =>
    exact (h.openWith env (Or.inl rfl) (Or.inl rfl) rfl rfl rfl rfl rfl rfl rfl hlimit hfree).log _
  | abort hp hs => exact (h.log _).eraseConnection _

theorem work {s s' : Stage σ} (h : s.mgr.WellFormed) (hmove : Work x s s') : s'.mgr.WellFormed := by
  cases hmove with
  | call _ _ hcall => exact h.callMove hcall
  | conn _ hp hstep => exact h.conn hp hstep
  | notifyClose hp => exact h.log _
  | deliver => exact h.log _
  | deliverOoo => exact h.log _
  | advanceRcv hp hs => refine h.receive hp hs ?_ ?_ ?_ _ <;> rfl
  | @popOoo m p t hp hs =>
    refine h.receive hp hs ?_ ?_ ?_ _ <;>
    · unfold TCPConnectionManager.popOoo
      split <;> rfl
  | @stash m p t seg hx hp hs =>
    refine h.receive hp hs ?_ ?_ ?_ _ <;>
    · unfold addToOooQueue
      split <;> rfl

/-- **Every move keeps a manager well-formed.** -/
theorem move {s s' : Stage σ} (h : s.mgr.WellFormed) (hmove : Move o x s s') : s'.mgr.WellFormed := by
  cases hmove with
  | work hwork => exact h.work hwork
  | reply => exact h.log _
  | replace => exact (h.endTcb _).eraseConnection _
  | accept env hx hsyn hnack hlisten hlp hlimit hfree =>
    obtain ⟨l, hl, hport, -⟩ := h.findListening hlisten
    exact h.openWith env (Or.inr rfl) (Or.inr ⟨rfl, rfl⟩) rfl rfl rfl rfl rfl rfl rfl hlimit hfree
  | @simultaneousOpen env m p t seg hx hp hs =>
    obtain ⟨hnxt, hbuf, hpend, hdelay, hsyn⟩ := (h.shape p t hp).sent hs
    have huna : t.sndUna = t.iss := h.unacked p t hp (Or.inl hs)
    have hopen : ((rewind seg t).sendSyn env.now (TCPFlags.syn ||| TCPFlags.ack)).Opening :=
      TCB.opening_sendSyn env.now (Or.inr rfl) huna rfl rfl hbuf hpend hdelay
    rw [simultaneousOpen_eq]
    refine h.store hp rfl rfl (fun hl => ?_) (fun hl => ?_)
      (.of_rcvd rfl (hopen.congr rfl rfl rfl rfl rfl rfl rfl) rfl) (fun _ => huna)
    · cases hl
    · rcases hl with hl | hl <;> rw [hs] at hl <;> cases hl
  | @establish m p t t' seg c hx hp hack hopening hpath hstate huna hq =>
    have hid := hpath.identity
    have htuple : c.tcb.tTuple = t.tTuple := by
      rw [show c.tcb.tTuple = t'.tTuple from congrArg TCBIdentity.tTuple hid]
      cases hopening <;> rfl
    have hs : t.state = .synSent ∨ t.state = .synRcvd := by
      cases hopening with
      | synSent hs => exact Or.inl hs
      | synRcvd hs => exact Or.inr hs
    rw [establish_store hpath.ptr]
    have hwf : (m.store ⟨p, { c.tcb with state := .established },
        c.trace ++ [.moved p c.tcb.state .established]⟩).WellFormed := by
      refine h.store hp rfl htuple (fun hl => ?_) (fun hl => ?_) (.of_active rfl fun hcan => ?_)
        (fun hl => ?_)
      · cases hl
      · rcases hs with hs | hs <;> rw [hs] at hl <;> rcases hl with hl | hl <;> cases hl
      · cases hcan
      · rcases hl with hl | hl <;> cases hl
    exact (hwf.setActive _).log _
  | @receiveFin env m p t seg handler next hx hp hfin hseq hedge =>
    rw [receiveFin_of_heap hp]
    exact h.active hp hedge.isActive.1 rfl rfl hedge.isActive.2
      (fun hcan => (h.shape p t hp).finSent hedge.isActive.1 (hedge.canSend hcan))
  | @finAcked m p t next hp hedge =>
    exact h.active hp hedge.isActive.1 rfl rfl hedge.isActive.2
      (fun _ => (h.shape p t hp).finSent hedge.isActive.1 hedge.canSend)
  | lastAck hp hs => exact (h.endTcb _).eraseConnection _
  | rst => exact h.resetTcb _
  | giveUp hp hk => exact h.endTcb _
  | timeWaitEnd => exact (h.endTcb _).eraseConnection _
  | eraseClosed => exact h.eraseConnection _
  | eraseReset => exact h.eraseListener _
  | timeWaitList => exact h.congr rfl rfl rfl rfl rfl
  | @release m p t hp hs =>
    refine h.active hp (by rw [hs]; rfl) rfl rfl ?_ (fun _ => rfl)
    show t.state.isActive = true
    rw [hs]
    rfl

end WellFormed

theorem WorkPath.wellFormed [ICongestionControl σ] {x : Input σ} {s s' : Stage σ}
    (h : WorkPath x s s') (hs : s.mgr.WellFormed) : s'.mgr.WellFormed := by
  induction h with
  | refl => exact hs
  | tail _ hmove ih => exact ih.work hmove

theorem Path.wellFormed [ICongestionControl σ] {o : TCPConnectionManager σ} {x : Input σ}
    {s s' : Stage σ} (h : Path o x s s') (hs : s.mgr.WellFormed) : s'.mgr.WellFormed := by
  induction h with
  | refl => exact hs
  | tail _ hmove ih => exact ih.move hmove

/-! ## What work leaves alone -/

/-- The connection at `p` is in the table, and in state `s`. -/
def InState (m : TCPConnectionManager σ) (p : Ptr) (s : TCPState) : Prop :=
  ∃ t, m.heap p = some t ∧ (t.tTuple, p) ∈ m.connections ∧ t.state = s

theorem eraseConnection_heap {k : TCPTuple} {q : Ptr} (hk : m.findTcb k = some p) (hne : q ≠ p) :
    (m.eraseConnection k).heap q = m.heap q := by
  rw [eraseConnection, hk]
  exact Function.update_of_ne hne ..

theorem eraseListener_heap {port : UInt16} {q : Ptr} (hk : m.findListeningTcb port = some p)
    (hne : q ≠ p) : (m.eraseListener port).heap q = m.heap q := by
  rw [eraseListener, hk]
  exact Function.update_of_ne hne ..

theorem mem_eraseConnection {k k' : TCPTuple} (h : (k', p) ∈ m.connections) (hne : k' ≠ k) :
    (k', p) ∈ (m.eraseConnection k).connections := by
  unfold eraseConnection
  split
  · exact h
  · exact Table.mem_erase.mpr ⟨h, hne⟩

theorem eraseListener_connections (port : UInt16) :
    (m.eraseListener port).connections = m.connections := by
  unfold eraseListener
  split <;> rfl

theorem listen_heap (port : UInt16) (onAccept : Option Callback) (hne : p ≠ m.nextAddr) :
    (m.listen port onAccept).heap p = m.heap p := by
  unfold listen
  split
  · rfl
  · split
    · rfl
    · exact Function.update_of_ne hne ..

theorem listen_connections (port : UInt16) (onAccept : Option Callback) :
    (m.listen port onAccept).connections = m.connections := by
  unfold listen
  split
  · rfl
  · split <;> rfl

/-- Changing one TCB, with its tuple and its state kept or taken where its FIN leads. -/
theorem InState.store {q : Ptr} {s : TCPState} {u : TCB σ} {c : Conn σ} (h : m.InState p s)
    (hq : m.heap q = some u) (hptr : c.ptr = q) (htuple : c.tcb.tTuple = u.tTuple)
    (hreach : u.state.Reaches c.tcb.state) : ∃ s', s.Reaches s' ∧ (m.store c).InState p s' := by
  subst hptr
  obtain ⟨t, hp, hk, rfl⟩ := h
  rcases eq_or_ne p c.ptr with rfl | hne
  · rw [hp] at hq
    cases hq
    exact ⟨_, hreach, c.tcb, store_heap_self m c, htuple ▸ hk, rfl⟩
  · exact ⟨_, Or.inl rfl, t, (store_heap_ne m hne).trans hp, hk, rfl⟩

variable [ICongestionControl σ] {x : Input σ} {s s' : Stage σ} {call : Call}

theorem CallMove.kept (hmove : CallMove call m m') (h : m.WellFormed) {a : TCPState}
    (hin : m.InState p a) (ha : a ≠ .synSent) : ∃ b, a.Reaches b ∧ m'.InState p b := by
  have hself : ∃ b, a.Reaches b ∧ m.InState p b := ⟨a, Or.inl rfl, hin⟩
  obtain ⟨t, hp, hk, rfl⟩ := hin
  cases hmove with
  | conn _ hq hstep =>
    exact InState.store ⟨t, hp, hk, rfl⟩ hq hstep.path.ptr
      (congrArg TCBIdentity.tTuple hstep.path.identity) hstep.path.state
  | setCallbacks _ _ _ hq => exact InState.store ⟨t, hp, hk, rfl⟩ hq rfl rfl (Or.inl rfl)
  | setDefaultOptions => exact hself
  | listen _ port onAccept =>
    exact ⟨_, Or.inl rfl, t, (listen_heap port onAccept (h.ne_nextAddr hp)).trans hp,
      (listen_connections port onAccept).symm ▸ hk, rfl⟩
  | unlisten port =>
    refine ⟨_, Or.inl rfl, t, ?_, (eraseListener_connections port).symm ▸ hk, rfl⟩
    cases hq : m.findListeningTcb port with
    | none => rwa [eraseListener, hq]
    | some q =>
      rw [eraseListener_heap hq, hp]
      rintro rfl
      exact h.disjoint _ _ _ hk (h.findListeningTcb_iff.mp hq)
  | connect =>
    refine ⟨_, Or.inl rfl, t, ?_, List.mem_cons_of_mem _ hk, rfl⟩
    exact (Function.update_of_ne (h.ne_nextAddr hp) ..).trans hp
  | @abort _ q u hq hs =>
    have hu : (u.tTuple, q) ∈ m.connections :=
      h.mem_connections hq (by rw [hs]; decide) (by rw [hs]; decide)
    have hne : p ≠ q := by
      rintro rfl
      rw [hp] at hq
      cases hq
      exact ha hs
    refine ⟨_, Or.inl rfl, t, ?_, mem_eraseConnection hk ?_, rfl⟩
    · exact (eraseConnection_heap (m := m.log _) (h.findTcb_iff.mpr hu) hne).trans hp
    · intro heq
      exact hne (Table.eq_of_mem h.keys_nodup hk (heq ▸ hu))

/-- **What work leaves of a connection**: it stays in the table, in its state or
where its FIN leads.  In `SYN_SENT` the application can still take it back. -/
theorem Work.kept (hmove : Work x s s') (h : s.mgr.WellFormed) {a : TCPState}
    (hin : s.mgr.InState p a) (ha : a ≠ .synSent) : ∃ b, a.Reaches b ∧ s'.mgr.InState p b := by
  cases hmove with
  | call _ _ hcall => exact hcall.kept h hin ha
  | conn _ hq hstep =>
    exact hin.store hq hstep.path.ptr (congrArg TCBIdentity.tTuple hstep.path.identity)
      hstep.path.state
  | notifyClose => exact ⟨a, Or.inl rfl, hin⟩
  | deliver => exact ⟨a, Or.inl rfl, hin⟩
  | deliverOoo => exact ⟨a, Or.inl rfl, hin⟩
  | advanceRcv hq => exact hin.store hq rfl rfl (Or.inl rfl)
  | popOoo hq =>
    refine hin.store hq rfl ?_ (Or.inl ?_) <;>
    · unfold TCPConnectionManager.popOoo
      split <;> rfl
  | stash _ hq =>
    refine hin.store hq rfl ?_ (Or.inl ?_) <;>
    · unfold addToOooQueue
      split <;> rfl

theorem WorkPath.kept (hpath : WorkPath x s s') (h : s.mgr.WellFormed) {a : TCPState}
    (hin : s.mgr.InState p a) (ha : a ≠ .synSent) : ∃ b, a.Reaches b ∧ s'.mgr.InState p b := by
  induction hpath with
  | refl => exact ⟨a, Or.inl rfl, hin⟩
  | tail hpath hmove ih =>
    obtain ⟨b, hab, hin'⟩ := ih
    have hb : b ≠ .synSent := by
      rcases hab with rfl | ⟨hcan, rfl⟩
      · exact ha
      · intro hb
        have hact := TCPState.isActive_afterFin hcan
        rw [hb] at hact
        cases hact
    obtain ⟨c, hbc, hin''⟩ := hmove.kept (WorkPath.wellFormed hpath h) hin' hb
    exact ⟨c, hab.trans hbc, hin''⟩

/-! ## What work leads back to -/

omit [ICongestionControl σ] in
theorem eraseConnection_heap_some {k : TCPTuple} {u : TCB σ}
    (h : (m.eraseConnection k).heap p = some u) : m.heap p = some u := by
  unfold eraseConnection at h
  split at h
  · exact h
  · exact ((free_heap m _ p u).mp h).2

omit [ICongestionControl σ] in
theorem eraseListener_heap_some {port : UInt16} {u : TCB σ}
    (h : (m.eraseListener port).heap p = some u) : m.heap p = some u := by
  unfold eraseListener at h
  split at h
  · exact h
  · exact ((free_heap m _ p u).mp h).2

omit [ICongestionControl σ] in
theorem store_heap_some {q : Ptr} {u v : TCB σ} {c : Conn σ} (hq : m.heap q = some u)
    (hptr : c.ptr = q) (htuple : c.tcb.tTuple = u.tTuple) (hreach : u.state.Reaches c.tcb.state)
    (hv : (m.store c).heap p = some v) :
    ∃ t, m.heap p = some t ∧ v.tTuple = t.tTuple ∧ t.state.Reaches v.state := by
  subst hptr
  rcases eq_or_ne p c.ptr with rfl | hne
  · rw [store_heap_self] at hv
    cases hv
    exact ⟨u, hq, htuple, hreach⟩
  · exact ⟨v, (store_heap_ne m hne).symm.trans hv, rfl, Or.inl rfl⟩

theorem CallMove.back (hmove : CallMove call m m') (hlt : p < m.nextAddr) {u : TCB σ}
    (hu : m'.heap p = some u) :
    ∃ t, m.heap p = some t ∧ u.tTuple = t.tTuple ∧ t.state.Reaches u.state := by
  have hne : p ≠ m.nextAddr := Nat.ne_of_lt hlt
  cases hmove with
  | conn _ hq hstep =>
    exact store_heap_some hq hstep.path.ptr (congrArg TCBIdentity.tTuple hstep.path.identity)
      hstep.path.state hu
  | setCallbacks _ _ _ hq => exact store_heap_some hq rfl rfl (Or.inl rfl) hu
  | setDefaultOptions => exact ⟨u, hu, rfl, Or.inl rfl⟩
  | listen _ port onAccept => exact ⟨u, (listen_heap port onAccept hne).symm.trans hu, rfl, Or.inl rfl⟩
  | unlisten => exact ⟨u, eraseListener_heap_some hu, rfl, Or.inl rfl⟩
  | connect => exact ⟨u, (Function.update_of_ne hne ..).symm.trans hu, rfl, Or.inl rfl⟩
  | abort => exact ⟨u, eraseConnection_heap_some (m := m.log _) hu, rfl, Or.inl rfl⟩

theorem CallMove.nextAddr_le (hmove : CallMove call m m') : m.nextAddr ≤ m'.nextAddr := by
  cases hmove with
  | listen _ port =>
    unfold TCPConnectionManager.listen
    split
    · exact Nat.le_refl _
    · split
      · exact Nat.le_refl _
      · exact Nat.le_succ _
  | unlisten port =>
    unfold eraseListener
    split <;> exact Nat.le_refl _
  | connect => exact Nat.le_succ _
  | @abort _ p t =>
    unfold eraseConnection
    split <;> exact Nat.le_refl _
  | _ => exact Nat.le_refl _

theorem Work.back (hmove : Work x s s') (hlt : p < s.mgr.nextAddr) {u : TCB σ}
    (hu : s'.mgr.heap p = some u) :
    ∃ t, s.mgr.heap p = some t ∧ u.tTuple = t.tTuple ∧ t.state.Reaches u.state := by
  cases hmove with
  | call _ _ hcall => exact hcall.back hlt hu
  | conn _ hq hstep =>
    exact store_heap_some hq hstep.path.ptr (congrArg TCBIdentity.tTuple hstep.path.identity)
      hstep.path.state hu
  | notifyClose => exact ⟨u, hu, rfl, Or.inl rfl⟩
  | deliver => exact ⟨u, hu, rfl, Or.inl rfl⟩
  | deliverOoo => exact ⟨u, hu, rfl, Or.inl rfl⟩
  | advanceRcv hq => exact store_heap_some hq rfl rfl (Or.inl rfl) hu
  | popOoo hq =>
    refine store_heap_some hq rfl ?_ (Or.inl ?_) hu <;>
    · unfold TCPConnectionManager.popOoo
      split <;> rfl
  | stash _ hq =>
    refine store_heap_some hq rfl ?_ (Or.inl ?_) hu <;>
    · unfold addToOooQueue
      split <;> rfl

theorem Work.nextAddr_le (hmove : Work x s s') : s.mgr.nextAddr ≤ s'.mgr.nextAddr := by
  cases hmove with
  | call _ _ hcall => exact hcall.nextAddr_le
  | _ => exact Nat.le_refl _

theorem WorkPath.nextAddr_le (hpath : WorkPath x s s') : s.mgr.nextAddr ≤ s'.mgr.nextAddr := by
  induction hpath with
  | refl => exact Nat.le_refl _
  | tail _ hmove ih => exact Nat.le_trans ih hmove.nextAddr_le

/-- A TCB alive after some work, at an address in use before, is the one that was
there. -/
theorem WorkPath.back (hpath : WorkPath x s s') (hlt : p < s.mgr.nextAddr) {u : TCB σ}
    (hu : s'.mgr.heap p = some u) :
    ∃ t, s.mgr.heap p = some t ∧ u.tTuple = t.tTuple ∧ t.state.Reaches u.state := by
  induction hpath generalizing u with
  | refl => exact ⟨u, hu, rfl, Or.inl rfl⟩
  | tail hpath hmove ih =>
    obtain ⟨v, hv, htuple, hreach⟩ :=
      hmove.back (Nat.lt_of_lt_of_le hlt (WorkPath.nextAddr_le hpath)) hu
    obtain ⟨t, ht, htuple', hreach'⟩ := ih hv
    exact ⟨t, ht, htuple.trans htuple', hreach'.trans hreach⟩

theorem CallMove.listeners_back (hmove : CallMove call m m') (hlt : p < m.nextAddr) {port : UInt16}
    (hl : (port, p) ∈ m'.listeners) : (port, p) ∈ m.listeners := by
  cases hmove with
  | listen _ port =>
    unfold TCPConnectionManager.listen at hl
    split at hl
    · exact hl
    · split at hl
      · exact hl
      · rcases List.mem_cons.mp hl with heq | hl
        · cases heq
          exact absurd hlt (Nat.lt_irrefl _)
        · exact hl
  | unlisten port =>
    unfold eraseListener at hl
    split at hl
    · exact hl
    · exact (Table.mem_erase.mp hl).1
  | abort =>
    unfold eraseConnection at hl
    split at hl <;> exact hl
  | _ => exact hl

/-- Nor does work make a listener of it. -/
theorem WorkPath.listeners_back (hpath : WorkPath x s s') (hlt : p < s.mgr.nextAddr)
    {port : UInt16} (hl : (port, p) ∈ s'.mgr.listeners) : (port, p) ∈ s.mgr.listeners := by
  induction hpath with
  | refl => exact hl
  | tail hpath hmove ih =>
    refine ih ?_
    cases hmove with
    | call _ _ hcall =>
      exact hcall.listeners_back (Nat.lt_of_lt_of_le hlt (WorkPath.nextAddr_le hpath)) hl
    | _ => exact hl

end TCPConnectionManager

end NeuStack
