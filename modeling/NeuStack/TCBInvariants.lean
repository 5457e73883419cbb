import NeuStack.ManagerPaths

/-! # Invariants of single TCBs

A property of the TCBs that are alive, whatever connections they belong to, is kept by
the manager if it holds of the TCBs that the manager makes (`TCB.New`) and is kept by
what a move can do to one TCB (`TCB.Change`).  `tcb_reachable` is this for runs, and
`tcb_sweeping` for the managers in which the sweep of `on_timer` visits a connection.
-/
namespace NeuStack
variable {σ : Type} [ICongestionControl σ]

open TCPConnectionManager in
/-- **What a move does to one TCB**, made while `x`, if it is a segment, is processed. -/
inductive TCB.Change (x : Option TCPSegment) : TCB σ → TCB σ → Prop
  | conn {y : Option TCPSegment} {c c' : Conn σ} (hy : y = none ∨ y = x) (h : Conn.Move y c c') :
      Change x c.tcb c'.tcb
  | callbacks (t : TCB σ) (onReceive onClose : Option Callback) :
      Change x t { t with onReceive, onClose }
  | receiveSyn (t : TCB σ) (seg : TCPSegment) : Change x t (receiveSyn seg t)
  | rcvNxt (t : TCB σ) (seq : BitVec 32) : Change x t (setRcvNxt seq t)
  | popOoo (t : TCB σ) : Change x t (popOoo t)
  | stash (t : TCB σ) (seg : TCPSegment) (hx : x = some seg) :
      Change x t (addToOooQueue seg.seqNum seg.data t)
  | reopen (t : TCB σ) (seg : TCPSegment) (now : Nat) (hs : t.state = .synSent)
      (huna : t.sndUna = t.iss) : Change x t
        ((rewind seg t).sendSyn now (TCPFlags.syn ||| TCPFlags.ack))
  | state (t : TCB σ) (s : TCPState)
      (hs : s = .closed ∨ t.state ≠ .listen ∧ t.state ≠ .closed) : Change x t { t with state := s }
  | release (t : TCB σ) : Change x t (releaseBuffers t)

open TCPConnectionManager in
/-- **A TCB as the manager makes it**: a listener, or a connection behind its SYN. -/
inductive TCB.New : TCB σ → Prop
  | listen (localIp : UInt32) (port : UInt16) (onAccept : Option Callback) :
      New (listenTcb localIp port onAccept)
  | connect (env : Env) (m : TCPConnectionManager σ) (tuple : TCPTuple)
      (onConnect : Option Callback) :
      New { (m.connectTcb env tuple onConnect).sendSyn env.now TCPFlags.syn with state := .synSent }
  | accept (env : Env) (m : TCPConnectionManager σ) (tuple : TCPTuple) (listener : TCB σ)
      (seg : TCPSegment) :
      New { (m.acceptTcb env tuple listener seg).sendSyn env.now (TCPFlags.syn ||| TCPFlags.ack) with
        state := .synRcvd }

/-- A sequence of changes. -/
abbrev TCB.Changes (x : Option TCPSegment) : TCB σ → TCB σ → Prop :=
  Relation.ReflTransGen (TCB.Change x)

theorem Conn.Path.changes {x y : Option TCPSegment} {c c' : Conn σ} (h : Conn.Path y c c')
    (hy : y = none ∨ y = x) : TCB.Changes x c.tcb c'.tcb := by
  induction h with
  | refl => exact .refl
  | tail _ hmove ih => exact ih.tail (.conn hy hmove)

/-- `P` holds of the TCBs that are made and is kept by what is done to one while `x`, if
it is a segment, is processed. -/
structure TCB.Keeps (P : TCB σ → Prop) (x : Option TCPSegment) : Prop where
  new : ∀ t, t.New → P t
  change : ∀ t u, TCB.Change x t u → P t → P u

theorem TCB.Keeps.changes {P : TCB σ → Prop} {x : Option TCPSegment} {t u : TCB σ}
    (h : TCB.Keeps P x) (hpath : TCB.Changes x t u) (ht : P t) : P u :=
  GuardedRun.invariant_of_path h.change hpath ht

namespace TCPConnectionManager
variable {m m' : TCPConnectionManager σ} {p : Ptr} {t : TCB σ} {P : TCB σ → Prop}
  {a : Call} {x : Input σ} {o : TCPConnectionManager σ} {s s' : Stage σ}

/-- Every TCB that is alive has the property. -/
def AllTCBs (P : TCB σ → Prop) (m : TCPConnectionManager σ) : Prop :=
  ∀ p t, m.heap p = some t → P t

namespace AllTCBs

omit [ICongestionControl σ] in
theorem init (P : TCB σ → Prop) (localIp : UInt32) : (init localIp).AllTCBs P :=
  fun _ _ ht => nomatch ht

omit [ICongestionControl σ] in
theorem of_heap (h : m.AllTCBs P) (hheap : m'.heap = m.heap) : m'.AllTCBs P :=
  fun p t ht => h p t (hheap ▸ ht)

omit [ICongestionControl σ] in
theorem store (h : m.AllTCBs P) {c : Conn σ} (hc : P c.tcb) : (m.store c).AllTCBs P := by
  intro q u hu
  rcases eq_or_ne q c.ptr with rfl | hne
  · rw [store_heap_self] at hu
    cases hu
    exact hc
  · exact h q u ((store_heap_ne m hne).symm.trans hu)

omit [ICongestionControl σ] in
theorem alloc (h : m.AllTCBs P) (ht : P t)
    (hheap : m'.heap = Function.update m.heap m.nextAddr (some t)) : m'.AllTCBs P := by
  intro q u hu
  rw [hheap] at hu
  rcases eq_or_ne q m.nextAddr with rfl | hne
  · rw [Function.update_self] at hu
    cases hu
    exact ht
  · rw [Function.update_of_ne hne] at hu
    exact h q u hu

omit [ICongestionControl σ] in
theorem eraseConnection (h : m.AllTCBs P) (k : TCPTuple) : (m.eraseConnection k).AllTCBs P :=
  fun p t ht => h p t (eraseConnection_heap_some ht)

omit [ICongestionControl σ] in
theorem eraseListener (h : m.AllTCBs P) (port : UInt16) : (m.eraseListener port).AllTCBs P :=
  fun p t ht => h p t (eraseListener_heap_some ht)

variable {y : Option TCPSegment}

theorem endTcb (h : m.AllTCBs P) (hP : TCB.Keeps P y) (p : Ptr) (cause : EndCause) :
    (m.endTcb p cause).AllTCBs P := by
  cases hp : m.heap p with
  | none =>
    rw [TCPConnectionManager.endTcb, on_of_freed hp]
    exact h
  | some t =>
    rw [endTcb_of_heap hp]
    exact h.store (hP.change _ _ (.state t .closed (Or.inl rfl)) (h p t hp))

theorem resetTcb (h : m.AllTCBs P) (hP : TCB.Keeps P y) (p : Ptr) :
    (m.resetTcb p).AllTCBs P := by
  rw [TCPConnectionManager.resetTcb]
  split
  · exact endTcb (m := { m with activeConnections := m.activeConnections - 1 }) h hP p .rst
  · exact h.endTcb hP p .rst

end AllTCBs

/-! ## The moves -/

theorem CallMove.tcbs (hmove : CallMove a m m') {y : Option TCPSegment} (hP : TCB.Keeps P y)
    (h : m.AllTCBs P) : m'.AllTCBs P := by
  cases hmove with
  | @conn _ m p t c ha hp hstep =>
    exact h.store (hP.changes (hstep.path.changes (Or.inl rfl)) (h p t hp))
  | @setCallbacks _ m p t onReceive onClose ha hp =>
    exact h.store (hP.change _ _ (.callbacks t onReceive onClose) (h p t hp))
  | setDefaultOptions => exact h.of_heap rfl
  | listen m port onAccept =>
    rw [TCPConnectionManager.listen]
    split
    · exact h
    · split
      · exact h
      · exact h.alloc (hP.new _ (.listen ..)) rfl
  | unlisten port => exact h.eraseListener port
  | connect env m => exact h.alloc (hP.new _ (.connect env m ..)) rfl
  | @abort m p t =>
    have hlog : (m.log (.ended p .synSent .localClose)).AllTCBs P := h.of_heap rfl
    exact hlog.eraseConnection _

theorem Work.tcbs (hwork : Work x s s') (hP : TCB.Keeps P x.seg) (h : s.mgr.AllTCBs P) :
    s'.mgr.AllTCBs P := by
  cases hwork with
  | call _ _ hcall => exact hcall.tcbs hP h
  | @conn m p t c _ hp hstep =>
    exact h.store (hP.changes (hstep.path.changes (Or.inr rfl)) (h p t hp))
  | notifyClose => exact h.of_heap rfl
  | deliver => exact h.of_heap rfl
  | deliverOoo => exact h.of_heap rfl
  | @advanceRcv m p t seq hp => exact h.store (hP.change _ _ (.rcvNxt t seq) (h p t hp))
  | @popOoo m p t hp => exact h.store (hP.change _ _ (.popOoo t) (h p t hp))
  | @stash m p t seg hx hp => exact h.store (hP.change _ _ (.stash t seg hx) (h p t hp))

theorem Move.tcbs (hmove : Move o x s s') (hwf : s.mgr.WellFormed) (hP : TCB.Keeps P x.seg)
    (h : s.mgr.AllTCBs P) : s'.mgr.AllTCBs P := by
  cases hmove with
  | work hwork => exact hwork.tcbs hP h
  | reply => exact h.of_heap rfl
  | replace => exact (h.endTcb hP _ _).eraseConnection _
  | accept env => exact h.alloc (hP.new _ (.accept env ..)) rfl
  | @simultaneousOpen env m p t seg hx hp hs =>
    rw [simultaneousOpen_eq]
    refine h.store (hP.change _ _ (.state _ .synRcvd (Or.inr ?_))
      (hP.change _ _ (.reopen t seg env.now hs (hwf.unacked p t hp (Or.inl hs))) (h p t hp)))
    have hstate : ((rewind seg t).sendSyn env.now (TCPFlags.syn ||| TCPFlags.ack)).state =
        .synSent := hs
    rw [hstate]
    decide
  | @establish m p t t' seg c hx hp hack hopening hpath hstate =>
    have ht' : P t' := by
      cases hopening with
      | synSent => exact hP.change _ _ (.receiveSyn t seg) (h p t hp)
      | synRcvd => exact h p t hp
    rw [establish_store hpath.ptr]
    refine AllTCBs.of_heap (m := m.store ⟨p, { c.tcb with state := .established }, _⟩)
      (h.store ?_) rfl
    refine hP.change _ _ (.state _ .established (Or.inr ?_))
      (hP.changes (hpath.changes (Or.inr rfl)) ht')
    rw [hstate]
    rcases hopening.opening with hs | hs <;> rw [hs] <;> decide
  | @receiveFin env m p t seg handler next hx hp hfin hseq hedge =>
    rw [receiveFin_of_heap hp]
    refine h.store (hP.change _ _ (.state _ next (Or.inr ⟨?_, ?_⟩)) ?_)
    · exact TCPState.ne_listen_of_isActive hedge.isActive.1
    · exact TCPState.ne_closed_of_isActive hedge.isActive.1
    have hack := Conn.Move.ack (x := none) env ⟨p, setRcvNxt (t.rcvNxt + 1) t, m.trace⟩
      (Or.inl hedge.isActive.1)
    rw [Conn.sendSegment_ack] at hack
    exact hP.change _ _ (.conn (Or.inl rfl) hack) (hP.change _ _ (.rcvNxt t _) (h p t hp))
  | @finAcked m p t next hp hedge =>
    refine h.store (hP.change _ _ (.state t next (Or.inr ⟨?_, ?_⟩)) (h p t hp))
    · exact TCPState.ne_listen_of_isActive hedge.isActive.1
    · exact TCPState.ne_closed_of_isActive hedge.isActive.1
  | lastAck => exact (h.endTcb hP _ _).eraseConnection _
  | rst => exact h.resetTcb hP _
  | giveUp => exact h.endTcb hP _ _
  | timeWaitEnd => exact (h.endTcb hP _ _).eraseConnection _
  | eraseClosed => exact h.eraseConnection _
  | eraseReset => exact h.eraseListener _
  | timeWaitList => exact h.of_heap rfl
  | @release m p t hp => exact h.store (hP.change _ _ (.release t) (h p t hp))

theorem Path.tcbs (hpath : Path o x s s') (hwf : s.mgr.WellFormed) (hP : TCB.Keeps P x.seg)
    (h : s.mgr.AllTCBs P) : s'.mgr.AllTCBs P :=
  hpath.invariant (P := fun s => s.mgr.AllTCBs P) (fun _ _ hwf hmove => hmove.tcbs hwf hP) hwf h

/-! ## Runs, and the sweep of the timer -/

theorem AllTCBs.step (h : m.AllTCBs P) (hwf : m.WellFormed) (hP : TCB.Keeps P x.seg) :
    (m.step x).AllTCBs P := (path_step hwf x).tcbs hwf hP h

/-- **What holds of every new TCB and is kept by every change holds of every TCB of a
reachable manager.** -/
theorem Reachable.tcbs (h : m.Reachable) (hP : ∀ x, TCB.Keeps P x) : m.AllTCBs P := by
  obtain ⟨localIp, xs, rfl⟩ := h
  exact (GuardedRun.run_invariant (P := fun m : TCPConnectionManager σ => m.WellFormed ∧ m.AllTCBs P)
    (fun _ x hm => ⟨hm.1.step x, hm.2.step hm.1 (hP x.seg)⟩)
    ⟨WellFormed.init localIp, .init P localIp⟩ xs).2

/-- A manager in the middle of the sweep of `on_timer`: the connections of some tuples
have been visited. -/
def Sweeping (ctx : Context σ) (m m' : TCPConnectionManager σ) : Prop :=
  ∃ tuples : List TCPTuple, m' = (tuples.foldl (visit ctx) (m, [])).1

theorem Sweeping.path {ctx : Context σ} (h : Sweeping ctx m m') (hwf : m.WellFormed)
    (op : Op) : Path o ⟨ctx, op⟩ ⟨m, none⟩ ⟨m', none⟩ := by
  obtain ⟨tuples, rfl⟩ := h
  exact (path_sweep (x := ⟨ctx, op⟩) tuples (m, []) hwf fun _ h => nomatch h).1

theorem Sweeping.wellFormed {ctx : Context σ} (h : Sweeping ctx m m') (hwf : m.WellFormed) :
    m'.WellFormed := (h.path (o := m) hwf (.timer [])).wellFormed hwf

theorem Sweeping.tcbs {ctx : Context σ} (h : Sweeping ctx m m') (hwf : m.WellFormed)
    (hP : TCB.Keeps P none) (hm : m.AllTCBs P) : m'.AllTCBs P :=
  (h.path (o := m) hwf (.timer [])).tcbs hwf hP hm

end TCPConnectionManager
end NeuStack
