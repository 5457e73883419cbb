import NeuStack.ManagerPaths

/-! # What leaves TIME_WAIT alone

A connection in TIME_WAIT sits under its tuple (`WaitsFor`), has nothing left to
retransmit (`Drained`), and an entry of `_time_wait_list` is to end it.  Most of
what the manager does is **calm**: it touches neither the list nor the
connections that wait.  So is all work on connections, and with it every call of
the application; only the two timer functions, the tick, a RST and the
overwriting of an entry are not.
-/
namespace NeuStack
variable {σ : Type}

namespace TCPConnectionManager
variable {m m' m'' : TCPConnectionManager σ} {p q : Ptr} {t : TCB σ} {k k' : TCPTuple}

/-- The connection at `p` is in TIME_WAIT. -/
def waiting (m : TCPConnectionManager σ) (p : Ptr) : Bool := m.test p (·.state == .timeWait)

/-- The connection at `p` is in TIME_WAIT, under the tuple `k`. -/
def WaitsFor (m : TCPConnectionManager σ) (p : Ptr) (k : TCPTuple) : Prop :=
  ∃ t, m.heap p = some t ∧ t.state = .timeWait ∧ t.tTuple = k

/-- Nothing is left to retransmit in TIME_WAIT. -/
def Drained (m : TCPConnectionManager σ) : Prop :=
  ∀ p t, m.heap p = some t → t.state = .timeWait → t.retransmitQueue = []

theorem waiting_iff : m.waiting p = true ↔ ∃ k, m.WaitsFor p k := by
  unfold waiting test
  cases hp : m.heap p with
  | none =>
    refine ⟨fun h => (nomatch h), ?_⟩
    rintro ⟨_, t, ht, -⟩
    rw [hp] at ht
    cases ht
  | some t =>
    rw [Option.any_some, beq_iff_eq]
    refine ⟨fun hs => ⟨_, t, hp, hs, rfl⟩, ?_⟩
    rintro ⟨_, u, hu, hs, -⟩
    rw [hp] at hu
    cases hu
    exact hs

theorem waiting_eq_false : m.waiting p = false ↔ ∀ k, ¬ m.WaitsFor p k := by
  rw [← Bool.not_eq_true, waiting_iff, not_exists]

theorem waitsFor_of_heap (hp : m.heap p = some t) :
    m.WaitsFor p k ↔ t.state = .timeWait ∧ t.tTuple = k := by
  constructor
  · rintro ⟨u, hu, hs, hk⟩
    rw [hp] at hu
    cases hu
    exact ⟨hs, hk⟩
  · rintro ⟨hs, hk⟩
    exact ⟨t, hp, hs, hk⟩

/-- Who waits for a tuple is filed under it. -/
theorem WaitsFor.findTcb (h : m.WaitsFor p k) (hwf : m.WellFormed) : m.findTcb k = some p := by
  obtain ⟨t, hp, hs, rfl⟩ := h
  exact hwf.findTcb_iff.mpr
    (hwf.mem_connections hp (by rw [hs]; decide) (by rw [hs]; decide))

/-- So only one connection waits for it. -/
theorem WaitsFor.unique (h : m.WaitsFor p k) (h' : m.WaitsFor q k) (hwf : m.WellFormed) :
    p = q :=
  Option.some.inj ((h.findTcb hwf).symm.trans (h'.findTcb hwf))

theorem WaitsFor.tuple_eq (h : m.WaitsFor p k) (h' : m.WaitsFor p k') : k = k' := by
  obtain ⟨t, hp, -, rfl⟩ := h
  exact ((waitsFor_of_heap hp).mp h').2

/-! ## Calm steps -/

/-- **Neither the list nor the connections that wait are touched.** -/
structure Calm (m m' : TCPConnectionManager σ) : Prop where
  list : m'.timeWaitList = m.timeWaitList
  waits : ∀ p k, m'.WaitsFor p k ↔ m.WaitsFor p k
  drained : m.Drained → m'.Drained

namespace Calm

theorem refl (m : TCPConnectionManager σ) : Calm m m := ⟨rfl, fun _ _ => Iff.rfl, id⟩

theorem trans (h : Calm m m') (h' : Calm m' m'') : Calm m m'' :=
  ⟨h'.list.trans h.list, fun p k => (h'.waits p k).trans (h.waits p k),
    fun hd => h'.drained (h.drained hd)⟩

/-- Nothing but the heap and the list matters. -/
theorem of_heap (hheap : m'.heap = m.heap) (hlist : m'.timeWaitList = m.timeWaitList) :
    Calm m m' := by
  refine ⟨hlist, fun p k => ?_, fun hd p t hp => hd p t (hheap ▸ hp)⟩
  rw [WaitsFor, WaitsFor, hheap]

theorem log (m : TCPConnectionManager σ) (ev : Event) : Calm m (m.log ev) := .of_heap rfl rfl

/-- Changing one TCB, if TIME_WAIT is neither entered nor left. -/
theorem store (hp : m.heap p = some t) {c : Conn σ} (hptr : c.ptr = p)
    (hstate : c.tcb.state = .timeWait ↔ t.state = .timeWait)
    (hwait : t.state = .timeWait → c.tcb.tTuple = t.tTuple ∧
      (t.retransmitQueue = [] → c.tcb.retransmitQueue = [])) : Calm m (m.store c) := by
  subst hptr
  refine ⟨rfl, fun q k => ?_, fun hd q u hu hs => ?_⟩
  · rcases eq_or_ne q c.ptr with rfl | hne
    · rw [waitsFor_of_heap (store_heap_self m c), waitsFor_of_heap hp, hstate]
      exact and_congr_right fun hs => by rw [(hwait hs).1]
    · rw [WaitsFor, WaitsFor, store_heap_ne m hne]
  · rcases eq_or_ne q c.ptr with rfl | hne
    · rw [store_heap_self] at hu
      cases hu
      exact (hwait (hstate.mp hs)).2 (hd _ t hp (hstate.mp hs))
    · exact hd q u ((store_heap_ne m hne).symm.trans hu) hs

/-- A TCB that does not wait, and does not come to. -/
theorem store_awake (hp : m.heap p = some t) {c : Conn σ} (hptr : c.ptr = p)
    (hs : t.state ≠ .timeWait) (hs' : c.tcb.state ≠ .timeWait) : Calm m (m.store c) :=
  .store hp hptr (iff_of_false hs' hs) fun h => absurd h hs

/-- Freeing a TCB that does not wait. -/
theorem free (hawake : ∀ t, m.heap p = some t → t.state ≠ .timeWait)
    (hheap : m'.heap = (m.free p).heap) (hlist : m'.timeWaitList = m.timeWaitList) :
    Calm m m' := by
  refine ⟨hlist, fun q k => ?_, fun hd q u hu => ?_⟩
  · rw [WaitsFor, hheap]
    constructor
    · rintro ⟨u, hu, hs, hk⟩
      exact ⟨u, ((free_heap m p q u).mp hu).2, hs, hk⟩
    · rintro ⟨u, hu, hs, hk⟩
      refine ⟨u, (free_heap m p q u).mpr ⟨?_, hu⟩, hs, hk⟩
      rintro rfl
      exact hawake u hu hs
  · rw [hheap] at hu
    exact hd q u ((free_heap m p q u).mp hu).2

theorem eraseConnection (hawake : ∀ p t, m.findTcb k = some p → m.heap p = some t →
    t.state ≠ .timeWait) : Calm m (m.eraseConnection k) := by
  unfold TCPConnectionManager.eraseConnection
  split
  · exact .refl m
  · rename_i p hk
    exact .free (fun t => hawake p t hk) rfl rfl

/-- A listener does not wait. -/
theorem eraseListener (hwf : m.WellFormed) (port : UInt16) : Calm m (m.eraseListener port) := by
  unfold TCPConnectionManager.eraseListener
  split
  · exact .refl m
  · rename_i p hk
    refine .free (p := p) (fun t hp => ?_) rfl rfl
    obtain ⟨u, hu, -, hs⟩ := hwf.findListening hk
    rw [hp] at hu
    cases hu
    rcases hs with hs | hs <;> rw [hs] <;> decide

/-- A new TCB does not wait. -/
theorem alloc (hwf : m.WellFormed) (hs : t.state ≠ .timeWait)
    (hheap : m'.heap = Function.update m.heap m.nextAddr (some t))
    (hlist : m'.timeWaitList = m.timeWaitList) : Calm m m' := by
  have hback : ∀ q u, m'.heap q = some u → u.state = .timeWait → m.heap q = some u := by
    intro q u hu hw
    rw [hheap] at hu
    rcases eq_or_ne q m.nextAddr with rfl | hne
    · rw [Function.update_self] at hu
      cases hu
      exact absurd hw hs
    · rwa [Function.update_of_ne hne] at hu
  refine ⟨hlist, fun q k => ⟨?_, ?_⟩, fun hd q u hu hw => hd q u (hback q u hu hw) hw⟩
  · rintro ⟨u, hu, hw, hk⟩
    exact ⟨u, hback q u hu hw, hw, hk⟩
  · rintro ⟨u, hu, hw, hk⟩
    refine ⟨u, ?_, hw, hk⟩
    rw [hheap, Function.update_of_ne (hwf.ne_nextAddr hu), hu]

end Calm

/-! ## Work is calm -/

end TCPConnectionManager

theorem TCPState.afterFin_ne_timeWait {s : TCPState} (h : s.canSend = true) :
    s.afterFin ≠ .timeWait := by
  cases s <;> first | decide | cases h

variable [ICongestionControl σ]

namespace Conn
variable {x : Option TCPSegment} {c c' : Conn σ}

/-- Nothing is sent in TIME_WAIT that would have to be acknowledged. -/
theorem Move.drained (h : Move x c c') (hs : c.tcb.state = .timeWait) (hshape : c.tcb.Shape)
    (hq : c.tcb.retransmitQueue = []) : c'.tcb.retransmitQueue = [] := by
  have hempty : c.tcb.sendBuffer.empty = true :=
    hshape.finSent (by rw [hs]; rfl) (by rw [hs]; rfl)
  have hcannot : c.tcb.state.canSend ≠ true := by rw [hs]; decide
  cases h with
  | advance env c seg => rw [Conn.advance, hq]; rfl
  | touchHead c e rest count timeout hq' => rw [hq] at hq'; cases hq'
  | resend => rwa [rawSend_tcb]
  | resendBare => rwa [rawSend_tcb]
  | probe => rwa [sendZeroWindowProbe_tcb]
  | ack => rwa [sendSegment_ack_retransmitQueue]
  | delayedAck => exact (sendSegment_ack_retransmitQueue ..).trans hq
  | drain env c hbuf => rw [hempty] at hbuf; cases hbuf
  | bufferData c data hcan => exact absurd hcan hcannot
  | transmitData env c data n hcan => exact absurd hcan hcannot
  | deferredFin env c hcan => exact absurd hcan hcannot
  | finish env c s hcan hactual =>
    rw [hs] at hactual
    rcases hactual with rfl | hafter
    · cases hcan
    · exact absurd hafter.symm (TCPState.afterFin_ne_timeWait hcan)
  | _ => exact hq

theorem Path.drained (h : Path x c c') (hs : c.tcb.state = .timeWait) (hshape : c.tcb.Shape)
    (hq : c.tcb.retransmitQueue = []) : c'.tcb.retransmitQueue = [] := by
  induction h with
  | refl => exact hq
  | tail hpath hmove ih =>
    refine hmove.drained ?_ (Path.shape hpath hshape) ih
    rw [(show c.tcb.state.Reaches _ from Path.state hpath).eq (by rw [hs]; rfl), hs]

end Conn

namespace TCPConnectionManager
variable {m m' : TCPConnectionManager σ} {p q : Ptr} {t : TCB σ} {k : TCPTuple}
  {x : Input σ} {s s' : Stage σ} {a : Call}

omit [ICongestionControl σ] in
/-- TIME_WAIT is not where a local FIN leads from or to. -/
theorem TCPState.Reaches.timeWait_iff {a b : TCPState} (h : a.Reaches b) :
    b = .timeWait ↔ a = .timeWait := by
  rcases h with rfl | ⟨hcan, rfl⟩
  · exact Iff.rfl
  · refine iff_of_false (TCPState.afterFin_ne_timeWait hcan) (fun h => ?_)
    rw [h] at hcan
    cases hcan

theorem Calm.conn (hwf : m.WellFormed) (hp : m.heap p = some t) {y : Option TCPSegment}
    {c : Conn σ} (hpath : Conn.Path y ⟨p, t, m.trace⟩ c) : Calm m (m.store c) := by
  refine .store hp hpath.ptr (TCPState.Reaches.timeWait_iff hpath.state) fun hs => ⟨?_, ?_⟩
  · exact congrArg TCBIdentity.tTuple hpath.identity
  · exact hpath.drained hs (hwf.shape p t hp)

omit [ICongestionControl σ] in
/-- A change of the receive side. -/
theorem Calm.receive (hp : m.heap p = some t) {t' : TCB σ} (hstate : t'.state = t.state)
    (htuple : t'.tTuple = t.tTuple) (hq : t'.retransmitQueue = t.retransmitQueue) :
    Calm m (m.store ⟨p, t', m.trace⟩) :=
  .store hp rfl (by rw [← hstate]) fun _ => ⟨htuple, fun h => hq.trans h⟩

theorem CallMove.calm (hmove : CallMove a m m') (hwf : m.WellFormed) : Calm m m' := by
  cases hmove with
  | conn _ hp hstep => exact .conn hwf hp hstep.path
  | setCallbacks _ _ _ hp => exact .receive hp rfl rfl rfl
  | setDefaultOptions => exact .of_heap rfl rfl
  | listen _ port onAccept =>
    unfold TCPConnectionManager.listen
    split
    · exact .refl m
    · split
      · exact .refl m
      · exact .alloc (t := listenTcb m.localIp port onAccept) hwf (fun h => by cases h) rfl rfl
  | unlisten port => exact .eraseListener hwf port
  | connect env =>
    refine Calm.trans ?_ (.log _ _)
    exact .alloc hwf (fun h => by cases h) rfl rfl
  | @abort _ p t hp hs =>
    refine (Calm.log m _).trans (.eraseConnection fun q u hq hu => ?_)
    have hk := hwf.mem_connections hp (by rw [hs]; decide) (by rw [hs]; decide)
    have hqp : q = p := Option.some.inj (hq.symm.trans (hwf.findTcb_iff.mpr hk))
    have hu : m.heap q = some u := hu
    rw [hqp, hp] at hu
    cases hu
    rw [hs]
    decide

theorem Work.calm (hmove : Work x s s') (hwf : s.mgr.WellFormed) : Calm s.mgr s'.mgr := by
  cases hmove with
  | call _ _ hcall => exact hcall.calm hwf
  | conn _ hp hstep => exact .conn hwf hp hstep.path
  | notifyClose => exact .log _ _
  | deliver => exact .log _ _
  | deliverOoo => exact .log _ _
  | advanceRcv hp => exact .receive hp rfl rfl rfl
  | popOoo hp =>
    refine .receive hp ?_ ?_ ?_ <;>
    · unfold TCPConnectionManager.popOoo
      split <;> rfl
  | stash hx hp =>
    refine .receive hp ?_ ?_ ?_ <;>
    · unfold addToOooQueue
      split <;> rfl

/-- **Work is calm.** -/
theorem WorkPath.calm (hpath : WorkPath x s s') (hwf : s.mgr.WellFormed) :
    Calm s.mgr s'.mgr := by
  induction hpath with
  | refl => exact .refl _
  | tail hpath hmove ih => exact ih.trans (hmove.calm (WorkPath.wellFormed hpath hwf))

end TCPConnectionManager

end NeuStack
