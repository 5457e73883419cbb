import NeuStack.ConnectionTable

/-! # The gauge of active connections

`global_metrics().active_connections` is counted up when a handshake ends and
down in `handle_rst` and `delete_tcb`.  But `delete_tcb` only counts down for a
TCB that is still in one of the active states, and every path to it sets the TCB
to `CLOSED` first; the sweep of the timer and the overwriting of an entry do not
even call it.  So the gauge is the number of active connections plus that of the
connections that were given up in an active state without a RST (`gauge`), and
it is exact as long as there are none.
-/
namespace NeuStack
variable {σ : Type}

/-- A connection is given up in an active state, on a path that does not count down. -/
def Event.isLeak : Event → Bool
  | .ended _ s cause => s.isActive && cause != .rst
  | _ => false

theorem Event.From.not_leak {p : Ptr} {ev : Event} (h : ev.From p) : ev.isLeak = false := by
  cases h <;> rfl

/-- The number of connections lost to the gauge. -/
def leaks (tr : List Event) : Nat := tr.countP Event.isLeak

namespace TCPConnectionManager
variable {m m' o : TCPConnectionManager σ} {p q : Ptr} {t : TCB σ} {k : TCPTuple}

/-- The TCB at `p` is in an active state. -/
def activeAt (m : TCPConnectionManager σ) (p : Ptr) : Bool := m.test p (·.state.isActive)

/-- The number of TCBs in `_connections` that are in an active state. -/
def activeCount (m : TCPConnectionManager σ) : Nat := (m.connections.map (·.2)).countP m.activeAt

/-! ## Counting -/

theorem activeAt_of_heap (hp : m.heap p = some t) : m.activeAt p = t.state.isActive :=
  test_of_heap hp _

theorem activeAt_congr (h : m'.heap q = m.heap q) : m'.activeAt q = m.activeAt q := by
  rw [activeAt, activeAt, test, test, h]

theorem activeAt_store {c : Conn σ} (hp : m.heap p = some t) (hptr : c.ptr = p)
    (hact : c.tcb.state.isActive = t.state.isActive) (q : Ptr) :
    (m.store c).activeAt q = m.activeAt q := by
  subst hptr
  rcases eq_or_ne q c.ptr with rfl | hne
  · rw [activeAt_of_heap (store_heap_self m c), activeAt_of_heap hp, hact]
  · exact activeAt_congr (store_heap_ne m hne)

/-- Entries whose TCBs do not change sides count the same. -/
theorem activeCount_congr (hconn : m'.connections = m.connections)
    (h : ∀ k q, (k, q) ∈ m.connections → m'.activeAt q = m.activeAt q) :
    m'.activeCount = m.activeCount := by
  rw [activeCount, activeCount, hconn]
  refine List.countP_congr fun q hq => ?_
  obtain ⟨⟨k, q'⟩, he, rfl⟩ := List.mem_map.mp hq
  rw [h k q' he]

theorem WellFormed.ptrs_nodup (h : m.WellFormed) : (m.connections.map (·.2)).Nodup := by
  refine List.Nodup.map_on ?_ (List.Nodup.of_map _ h.keys_nodup)
  rintro ⟨k, p⟩ hk ⟨k', p'⟩ hk' rfl
  rw [h.tuple_eq hk hk']

/-- A connection changes sides. -/
theorem activeCount_store (h : m.WellFormed) (hp : m.heap p = some t)
    (hk : (k, p) ∈ m.connections) {c : Conn σ} (hptr : c.ptr = p) :
    (m.store c).activeCount + t.state.isActive.toNat =
      m.activeCount + c.tcb.state.isActive.toNat := by
  subst hptr
  have hcount := Table.countP_update (f := (m.store c).activeAt) (g := m.activeAt) h.ptrs_nodup
    (List.mem_map_of_mem hk) fun q hne => activeAt_congr (store_heap_ne m hne)
  rwa [activeAt_of_heap (store_heap_self m c), activeAt_of_heap hp] at hcount

/-- Giving up a connection takes it out of the count. -/
theorem activeCount_endTcb (h : m.WellFormed) (hp : m.heap p = some t) (cause : EndCause) :
    (m.endTcb p cause).activeCount + t.state.isActive.toNat = m.activeCount := by
  rw [endTcb_of_heap hp]
  cases hact : t.state.isActive with
  | false =>
    exact activeCount_congr rfl fun _ q _ =>
      activeAt_store (c := ⟨p, { t with state := .closed }, _⟩) hp rfl hact.symm q
  | true =>
    have hk : (t.tTuple, p) ∈ m.connections := by
      refine h.mem_connections hp (TCPState.ne_listen_of_isActive hact) ?_
      intro hs
      rw [hs] at hact
      cases hact
    rw [← hact]
    exact activeCount_store h hp hk (c := ⟨p, { t with state := .closed }, _⟩) rfl

/-- An entry that is not active leaves the table. -/
theorem activeCount_eraseConnection (h : m.WellFormed)
    (hact : ∀ p, m.findTcb k = some p → m.activeAt p = false) :
    (m.eraseConnection k).activeCount = m.activeCount := by
  unfold eraseConnection
  split
  · rfl
  rename_i p hk
  have hmem := h.findTcb_iff.mp hk
  rw [activeCount, activeCount, List.countP_map, List.countP_map, List.countP_filter]
  refine List.countP_congr ?_
  rintro ⟨k', q⟩ hq
  rcases eq_or_ne k' k with rfl | hne
  · have hqp : q = p := Table.eq_of_mem h.keys_nodup hq hmem
    subst hqp
    simp [hact q hk]
  · have hqp : q ≠ p := by
      rintro rfl
      exact hne (h.tuple_eq hq hmem)
    have hheap : (m.free p).heap q = m.heap q := Function.update_of_ne hqp ..
    simp [hne, activeAt, test, hheap]

theorem activeCount_eraseListener (h : m.WellFormed) (port : UInt16) :
    (m.eraseListener port).activeCount = m.activeCount := by
  refine activeCount_congr (eraseListener_connections port) fun k q hq => ?_
  cases hl : m.findListeningTcb port with
  | none => rw [eraseListener, hl]
  | some p =>
    refine activeAt_congr (eraseListener_heap hl ?_)
    rintro rfl
    exact h.disjoint _ _ _ hq (h.findListeningTcb_iff.mp hl)

theorem activeCount_listen (h : m.WellFormed) (port : UInt16) (onAccept : Option Callback) :
    (m.listen port onAccept).activeCount = m.activeCount := by
  refine activeCount_congr (listen_connections port onAccept) fun k q hq => ?_
  obtain ⟨t, hp, -⟩ := h.connection k q hq
  exact activeAt_congr (listen_heap port onAccept (h.ne_nextAddr hp))

/-- A new connection is not active yet. -/
theorem activeCount_openWith (h : m.WellFormed) (env : Env) (flags : UInt8) {s : TCPState}
    (hs : s.isActive = false) (t : TCB σ) :
    (m.openWith env flags s t).activeCount = m.activeCount := by
  have hnew : (m.openWith env flags s t).activeAt m.nextAddr = false :=
    (activeAt_of_heap (Function.update_self ..)).trans hs
  show ((m.openWith env flags s t).connections.map (·.2)).countP _ = _
  rw [show (m.openWith env flags s t).connections = (t.tTuple, m.nextAddr) :: m.connections from rfl,
    List.map_cons, List.countP_cons, hnew]
  refine List.countP_congr fun q hq => ?_
  obtain ⟨⟨k, q'⟩, he, rfl⟩ := List.mem_map.mp hq
  obtain ⟨u, hu, -⟩ := h.connection k q' he
  have hheap : (m.openWith env flags s t).heap q' = m.heap q' :=
    Function.update_of_ne (h.ne_nextAddr hu) ..
  rw [activeAt_congr hheap]

/-! ## The account -/

/-- What the gauge shows, before it wraps: the active connections, and those lost
to it. -/
def tally (m : TCPConnectionManager σ) : Nat := m.activeCount + leaks m.trace

theorem leaks_of_grows {P : Event → Prop} {tr tr' : List Event} (h : Grows P tr tr')
    (hP : ∀ ev, P ev → ev.isLeak = false) : leaks tr' = leaks tr := h.countP_eq hP

theorem leaks_snoc {tr : List Event} {ev : Event} (h : ev.isLeak = false) :
    leaks (tr ++ [ev]) = leaks tr :=
  leaks_of_grows (P := (· = ev)) (.single rfl) fun _ heq => heq ▸ h

/-- Who is given up without a RST is lost to the gauge, if active. -/
theorem tally_endTcb (h : m.WellFormed) (hp : m.heap p = some t) {cause : EndCause}
    (hcause : cause ≠ .rst) : (m.endTcb p cause).tally = m.tally := by
  have hcount := activeCount_endTcb h hp cause
  have htrace : (m.endTcb p cause).trace =
      m.trace ++ [.ended p t.state cause, .moved p t.state .closed] := by
    rw [endTcb_of_heap hp]
    rfl
  have hleaks : leaks (m.endTcb p cause).trace = leaks m.trace + t.state.isActive.toNat := by
    rw [leaks, htrace, List.countP_append]
    have hne : (cause != EndCause.rst) = true := bne_iff_ne.mpr hcause
    cases hact : t.state.isActive <;> simp [leaks, Event.isLeak, hact, hne]
  rw [tally, tally, hleaks]
  omega

theorem endTcb_activeAt_self (p : Ptr) (cause : EndCause) :
    (m.endTcb p cause).activeAt p = false := by
  cases hp : m.heap p with
  | none =>
    rw [endTcb, on_of_freed hp, activeAt, test, hp]
    rfl
  | some t =>
    rw [endTcb_of_heap hp]
    exact activeAt_of_heap (store_heap_self m ⟨p, _, _⟩)

/-- A connection is given up and leaves the table. -/
theorem tally_remove (h : m.WellFormed) (hp : m.heap p = some t) (hk : m.findTcb k = some p)
    {cause : EndCause} (hcause : cause ≠ .rst) :
    ((m.endTcb p cause).eraseConnection k).tally = m.tally := by
  rw [← tally_endTcb h hp hcause, tally, tally, eraseConnection_trace,
    activeCount_eraseConnection (h.endTcb _)]
  intro q hq
  rw [findTcb, (endTcb_tables cause).1] at hq
  have hqp : q = p := Option.some.inj (hq.symm.trans hk)
  rw [hqp]
  exact endTcb_activeAt_self p cause

theorem endTcb_activeConnections (p : Ptr) (cause : EndCause) :
    (m.endTcb p cause).activeConnections = m.activeConnections := by
  cases hp : m.heap p with
  | none => rw [endTcb, on_of_freed hp]
  | some t => rw [endTcb_of_heap hp]; rfl

theorem eraseConnection_activeConnections (k : TCPTuple) :
    (m.eraseConnection k).activeConnections = m.activeConnections := by
  unfold eraseConnection
  split <;> rfl

theorem eraseListener_activeConnections (port : UInt16) :
    (m.eraseListener port).activeConnections = m.activeConnections := by
  unfold eraseListener
  split <;> rfl

theorem listen_activeConnections (port : UInt16) (onAccept : Option Callback) :
    (m.listen port onAccept).activeConnections = m.activeConnections := by
  unfold listen
  split
  · rfl
  · split <;> rfl

/-- The gauge accounts for the connections. -/
def Accounted (m : TCPConnectionManager σ) : Prop :=
  m.activeConnections = BitVec.ofNat 32 m.tally

theorem Accounted.congr (h : m.Accounted) (hgauge : m'.activeConnections = m.activeConnections)
    (htally : m'.tally = m.tally) : m'.Accounted := by
  rw [Accounted, hgauge, htally]
  exact h

/-- The usual case: a TCB changes without changing sides, and no connection is lost. -/
theorem Accounted.store {P : Event → Prop} (h : m.Accounted) (hp : m.heap p = some t) {c : Conn σ}
    (hptr : c.ptr = p) (hact : c.tcb.state.isActive = t.state.isActive)
    (hgrow : Grows P m.trace c.trace) (hP : ∀ ev, P ev → ev.isLeak = false) :
    (m.store c).Accounted := by
  refine h.congr rfl ?_
  have hcount : (m.store c).activeCount = m.activeCount :=
    activeCount_congr rfl fun _ q _ => activeAt_store hp hptr hact q
  rw [tally, tally, hcount]
  exact congrArg (m.activeCount + ·) (leaks_of_grows hgrow hP)

theorem Accounted.log (h : m.Accounted) {ev : Event} (hev : ev.isLeak = false) :
    (m.log ev).Accounted := by
  refine h.congr rfl ?_
  rw [tally, tally, show (m.log ev).trace = m.trace ++ [ev] from rfl, leaks_snoc hev]
  rfl

theorem Accounted.eraseConnection (h : m.Accounted) (hwf : m.WellFormed)
    (hact : ∀ p, m.findTcb k = some p → m.activeAt p = false) :
    (m.eraseConnection k).Accounted := by
  refine h.congr (eraseConnection_activeConnections k) ?_
  rw [tally, tally, eraseConnection_trace, activeCount_eraseConnection hwf hact]

theorem Accounted.eraseListener (h : m.Accounted) (hwf : m.WellFormed) (port : UInt16) :
    (m.eraseListener port).Accounted := by
  refine h.congr (eraseListener_activeConnections port) ?_
  rw [tally, tally, eraseListener_trace, activeCount_eraseListener hwf]

theorem Accounted.openWith (h : m.Accounted) (hwf : m.WellFormed) (env : Env) (flags : UInt8)
    {s : TCPState} (hs : s.isActive = false) (t : TCB σ) :
    (m.openWith env flags s t).Accounted := by
  refine h.congr rfl ?_
  rw [tally, tally, activeCount_openWith hwf env flags hs]
  refine congrArg (m.activeCount + ·) (leaks_of_grows (P := fun ev => ev.isLeak = false)
    ⟨_, rfl, fun ev hev => ?_⟩ fun _ => id)
  simp only [List.mem_cons, List.not_mem_nil, or_false] at hev
  rcases hev with rfl | rfl | rfl <;> rfl

/-- A connection that has been closed is removed. -/
theorem Accounted.remove (h : m.Accounted) (hwf : m.WellFormed) (hp : m.heap p = some t)
    (hk : m.findTcb k = some p) {cause : EndCause} (hcause : cause ≠ .rst) :
    ((m.endTcb p cause).eraseConnection k).Accounted :=
  h.congr ((eraseConnection_activeConnections k).trans (endTcb_activeConnections p cause))
    (tally_remove hwf hp hk hcause)

variable [ICongestionControl σ] {x : Input σ} {s s' : Stage σ}

omit [ICongestionControl σ] in
theorem TCPState.Reaches.isActive_eq {a b : TCPState} (h : a.Reaches b) :
    b.isActive = a.isActive := by
  rcases h with rfl | ⟨hcan, rfl⟩
  · rfl
  · rw [TCPState.isActive_afterFin hcan, TCPState.isActive_of_canSend hcan]

theorem Accounted.conn (h : m.Accounted) {y : Option TCPSegment} {c : Conn σ}
    (hp : m.heap p = some t) (hstep : Conn.ConnStep y ⟨p, t, m.trace⟩ c) : (m.store c).Accounted :=
  h.store hp hstep.path.ptr (TCPState.Reaches.isActive_eq hstep.path.state) hstep.path.grows
    fun _ => Event.From.not_leak

theorem CallMove.accounted {a : Call} (hmove : CallMove a m m') (hwf : m.WellFormed)
    (h : m.Accounted) : m'.Accounted := by
  cases hmove with
  | conn _ hp hstep => exact h.conn hp hstep
  | setCallbacks _ _ _ hp => exact h.store (P := fun _ => False) hp rfl rfl (.refl _) nofun
  | setDefaultOptions => exact h.congr rfl rfl
  | listen _ port onAccept =>
    refine h.congr (listen_activeConnections port onAccept) ?_
    rw [tally, tally, listen_trace, activeCount_listen hwf]
  | unlisten port => exact h.eraseListener hwf port
  | connect env => exact (h.openWith hwf env _ rfl _).log rfl
  | @abort _ p t hp hs =>
    refine (h.log rfl).eraseConnection (hwf.log _) fun q hq => ?_
    have hk := hwf.mem_connections hp (by rw [hs]; decide) (by rw [hs]; decide)
    have hqp : q = p := Option.some.inj (hq.symm.trans (hwf.findTcb_iff.mpr hk))
    have hp' : (m.log (.ended p .synSent .localClose)).heap p = some t := hp
    rw [hqp, activeAt_of_heap hp', hs]
    rfl

theorem Work.accounted (hmove : Work x s s') (hwf : s.mgr.WellFormed) (h : s.mgr.Accounted) :
    s'.mgr.Accounted := by
  cases hmove with
  | call _ _ hcall => exact hcall.accounted hwf h
  | conn _ hp hstep => exact h.conn hp hstep
  | notifyClose => exact h.log rfl
  | deliver => exact h.log rfl
  | deliverOoo => exact h.log rfl
  | advanceRcv hp => exact h.store (P := fun _ => False) hp rfl rfl (.refl _) nofun
  | popOoo hp =>
    refine h.store (P := fun _ => False) hp rfl (congrArg TCPState.isActive ?_) (.refl _) nofun
    unfold TCPConnectionManager.popOoo
    split <;> rfl
  | stash hx hp =>
    refine h.store (P := fun _ => False) hp rfl (congrArg TCPState.isActive ?_) (.refl _) nofun
    unfold addToOooQueue
    split <;> rfl

omit [ICongestionControl σ] in
theorem Accounted.resetTcb (h : m.Accounted) (hwf : m.WellFormed) (hp : m.heap p = some t) :
    (m.resetTcb p).Accounted := by
  have hcount := activeCount_endTcb hwf hp .rst
  have hleaks : leaks (m.endTcb p .rst).trace = leaks m.trace := by
    rw [endTcb_of_heap hp]
    refine leaks_of_grows (P := fun ev => ev.isLeak = false) ⟨_, rfl, fun ev hev => ?_⟩ fun _ => id
    rcases List.mem_pair.mp hev with rfl | rfl
    · exact Bool.and_false _
    · rfl
  unfold TCPConnectionManager.resetTcb
  rw [test_of_heap hp]
  cases hact : t.state.isActive with
  | false =>
    rw [hact, Bool.toNat_false, Nat.add_zero] at hcount
    rw [if_neg Bool.false_ne_true]
    exact h.congr (endTcb_activeConnections p .rst) (by rw [tally, tally, hcount, hleaks])
  | true =>
    rw [hact, Bool.toNat_true] at hcount
    have hend : ({ m with activeConnections := m.activeConnections - 1 } :
        TCPConnectionManager σ).endTcb p .rst =
          { m.endTcb p .rst with activeConnections := m.activeConnections - 1 } := by
      rw [endTcb_of_heap hp, endTcb_of_heap (m := { m with
        activeConnections := m.activeConnections - 1 }) (by exact hp)]
      rfl
    have htally : m.tally = (m.endTcb p .rst).tally + 1 := by
      rw [tally, tally, hleaks]
      omega
    rw [if_pos rfl, hend]
    show m.activeConnections - 1 = BitVec.ofNat 32 (m.endTcb p .rst).tally
    rw [h, htally, BitVec.ofNat_add]
    exact BitVec.add_sub_cancel _ 1

/-- **Every move keeps the account.** -/
theorem Move.accounted (hmove : Move o x s s') (hwf : s.mgr.WellFormed) (h : s.mgr.Accounted) :
    s'.mgr.Accounted := by
  cases hmove with
  | work hwork => exact hwork.accounted hwf h
  | reply => exact h.log rfl
  | replace _ _ _ _ _ _ _ _ _ hold =>
    obtain ⟨t, hp, -⟩ := hwf.find hold
    exact h.remove hwf hp hold (by decide)
  | accept env => exact h.openWith hwf env _ rfl _
  | simultaneousOpen env hx hp hs =>
    rw [simultaneousOpen_eq]
    refine h.store (P := fun ev => ev.isLeak = false) hp rfl (by rw [hs]; rfl)
      ⟨_, rfl, fun ev hev => ?_⟩ fun _ => id
    rcases List.mem_pair.mp hev with rfl | rfl <;> rfl
  | @establish m p t t' seg c hx hp hack hopening hpath hstate =>
    -- the connection enters the count, and the gauge goes up
    have hinactive : t.state.isActive = false := by
      rcases hopening.opening with hs | hs <;> rw [hs] <;> rfl
    have hk : (t.tTuple, p) ∈ m.connections := by
      refine hwf.mem_connections hp ?_ ?_ <;>
      · rcases hopening.opening with hs | hs <;> rw [hs] <;> decide
    have hleaks : leaks (c.trace ++ [.moved p c.tcb.state .established]) = leaks m.trace :=
      (leaks_snoc rfl).trans (leaks_of_grows hpath.grows fun _ => Event.From.not_leak)
    rw [establish_store hpath.ptr]
    refine Accounted.log ?_ rfl
    generalize hc' : (⟨p, { c.tcb with state := .established },
      c.trace ++ [.moved p c.tcb.state .established]⟩ : Conn σ) = c'
    have hcount := activeCount_store (m := m) hwf hp hk (c := c') (by rw [← hc'])
    have hact : c'.tcb.state.isActive = true := by rw [← hc']; rfl
    have hleaks' : leaks c'.trace = leaks m.trace := by rw [← hc']; exact hleaks
    rw [hinactive, hact, Bool.toNat_false, Bool.toNat_true, Nat.add_zero] at hcount
    have htally : (m.store c').tally = m.tally + 1 := by
      rw [tally, tally, store_trace, hleaks', hcount]
      omega
    show m.activeConnections + 1 = BitVec.ofNat 32 (m.store c').tally
    rw [htally, BitVec.ofNat_add, ← show m.activeConnections = _ from h]
    rfl
  | receiveFin env hx hp hfin hseq hedge =>
    rw [receiveFin_of_heap hp]
    refine h.store (P := fun ev => ev.isLeak = false) hp rfl
      (hedge.isActive.2.trans hedge.isActive.1.symm) ⟨_, rfl, fun ev hev => ?_⟩ fun _ => id
    simp only [List.mem_cons, List.not_mem_nil, or_false] at hev
    rcases hev with rfl | rfl | rfl <;> rfl
  | finAcked hp hedge =>
    exact h.store (P := fun ev => ev.isLeak = false) hp rfl
      (hedge.isActive.2.trans hedge.isActive.1.symm) (.single rfl) fun _ => id
  | @lastAck m p t hp hs =>
    have hk := hwf.mem_connections hp (by rw [hs]; decide) (by rw [hs]; decide)
    exact h.remove hwf hp (hwf.findTcb_iff.mpr hk) (by decide)
  | rst hx hrst hfind hp => exact h.resetTcb hwf hp
  | giveUp hp =>
    exact h.congr (endTcb_activeConnections _ _) (tally_endTcb hwf hp (by decide))
  | timeWaitEnd hp hs hcause =>
    have hk := hwf.mem_connections hp (by rw [hs]; decide) (by rw [hs]; decide)
    exact h.remove hwf hp (hwf.findTcb_iff.mpr hk) (by rcases hcause with rfl | rfl <;> decide)
  | eraseClosed hp hs hk =>
    refine h.eraseConnection hwf fun q hq => ?_
    have hqp := Option.some.inj (hq.symm.trans (hwf.findTcb_iff.mpr hk))
    rw [hqp, activeAt_of_heap hp, hs]
    rfl
  | eraseReset => exact h.eraseListener hwf _
  | timeWaitList => exact h.congr rfl rfl
  | release hp => exact h.store (P := fun _ => False) hp rfl rfl (.refl _) nofun

/-! ## Runs -/

theorem Reachable.accounted (h : m.Reachable) : m.Accounted := by
  obtain ⟨localIp, xs, rfl⟩ := h
  have hstep : ∀ (m : TCPConnectionManager σ) x, m.WellFormed ∧ m.Accounted →
      (m.step x).WellFormed ∧ (m.step x).Accounted := fun m x hm =>
    ⟨hm.1.step x, (path_step hm.1 x).invariant (P := fun s => s.mgr.Accounted)
      (fun _ _ hwf hmove hs => hmove.accounted hwf hs) hm.1 hm.2⟩
  exact (GuardedRun.run_invariant hstep ⟨WellFormed.init localIp, rfl⟩ xs).2

omit [ICongestionControl σ] in
theorem activeCount_lt (h : m.WellFormed) : m.activeCount < 2 ^ 32 := by
  have hle : m.activeCount ≤ (m.connections.map (·.2)).length := List.countP_le_length
  have hlimit := h.limit
  rw [List.length_map] at hle
  have hmax : maxConnections < 2 ^ 32 := by decide
  omega

/-- **The gauge.**  In every reachable state it shows the number of active
connections if and only if the number of connections given up in an active state
without a RST, on the way there, is a multiple of `2 ^ 32`: zero, that is, in any
run short enough. -/
theorem gauge_exact_iff (h : m.Reachable) :
    m.activeConnections.toNat = m.activeCount ↔ leaks m.trace % 2 ^ 32 = 0 := by
  have hlt := activeCount_lt h.wellFormed
  rw [show m.activeConnections = _ from h.accounted, BitVec.toNat_ofNat, tally]
  omega

/-! ### A connection closed by the book -/

/-- A client connects to port 80 and closes; the host follows with its own FIN.
The host's initial number is 100. -/
def passiveClose : List (Input (TCPCubic Unit)) :=
  [⟨.silent 0 0, .call (.listen 80 none)⟩,
    ⟨.silent 1 100, .segment (fromPeer TCPFlags.syn 7000 0)⟩,
    ⟨.silent 2 0, .segment (fromPeer TCPFlags.ack 7001 101)⟩,
    ⟨.silent 3 0, .segment (fromPeer (TCPFlags.fin ||| TCPFlags.ack) 7001 101)⟩,
    ⟨.silent 4 0, .call (.close 1)⟩]

/-- Up to the host's FIN the gauge is right. -/
theorem passiveClose_exact :
    (GuardedRun.run TCPConnectionManager.step (init 0x0a000001) passiveClose).activeConnections.toNat
      = (GuardedRun.run TCPConnectionManager.step (init 0x0a000001) passiveClose).activeCount :=
  (gauge_exact_iff ⟨0x0a000001, passiveClose, rfl⟩).mpr (by decide +kernel)

/-- Its acknowledgement ends the connection, and the gauge stays. -/
theorem lastAck_inexact : ¬ ∀ (xs : List (Input (TCPCubic Unit))),
    (GuardedRun.run TCPConnectionManager.step (init 0x0a000001) xs).activeConnections.toNat =
      (GuardedRun.run TCPConnectionManager.step (init 0x0a000001) xs).activeCount := by
  intro hclaim
  have hexact := hclaim (passiveClose ++ [⟨.silent 5 0, .segment (fromPeer TCPFlags.ack 7002 102)⟩])
  exact absurd hexact (by decide +kernel)

end TCPConnectionManager

end NeuStack
